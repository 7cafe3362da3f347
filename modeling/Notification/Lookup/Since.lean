import Mathlib.Data.List.Basic

/-!
# What has happened since the last reset

A register takes commands one after another, and some of them put it back to where it started.
What it holds is then determined by the commands after the last of these.
-/

namespace Lookup

variable {γ σ τ : Type} (resets : γ → Bool)

/-- The commands after the last one that resets. -/
def since : List γ → List γ
  | [] => []
  | c :: rest => if rest.any resets then since rest else if resets c then rest else c :: rest

variable {resets}

theorem since_of_none {cs : List γ} (h : cs.any resets = false) : since resets cs = cs := by
  cases cs with
  | nil => rfl
  | cons c rest =>
      rw [List.any_cons, Bool.or_eq_false_iff] at h
      rw [since, if_neg (by simp [h.2]), if_neg (by simp [h.1])]

/-- What is observed of a register only depends on the commands since the last reset. -/
theorem observe_foldl (observe : σ → τ) (act : τ → γ → τ) {apply : σ → γ → σ} {initial : τ}
    (reset : ∀ s c, resets c = true → observe (apply s c) = initial)
    (step : ∀ s c, resets c = false → observe (apply s c) = act (observe s) c) {s : σ}
    (start : observe s = initial) (cs : List γ) :
    observe (cs.foldl apply s) = (since resets cs).foldl act initial := by
  suffices h : ∀ s, observe (cs.foldl apply s) =
      (since resets cs).foldl act (if cs.any resets then initial else observe s) by
    rw [h s, start, ite_self]
  induction cs with
  | nil => exact fun _ => rfl
  | cons c rest ih =>
      intro s
      rw [List.foldl_cons, ih, List.any_cons, since]
      cases hrest : rest.any resets with
      | true => simp
      | false =>
          cases hc : resets c with
          | true => simp [since_of_none hrest, reset s c hc]
          | false => simp [since_of_none hrest, step s c hc]

end Lookup
