import Mathlib.Data.List.Basic

/-!
# Looking names up under glued keys

A table is asked for the records of some names, and the answers are kept under keys that
are glued together from the parts of a name. Two names may be glued to the same key. Then
only the first one is asked for, and what is found for it stands for both.
-/

namespace Lookup

variable {ν κ ρ : Type} [DecidableEq κ] (glue : ν → κ) (name : ρ → ν)

/-- The first name for each key that has not been seen. -/
def unseen : List κ → List ν → List ν
  | _, [] => []
  | seen, n :: rest =>
    if glue n ∈ seen then unseen seen rest else n :: unseen (glue n :: seen) rest

/-- The first name with the key of `n`. -/
def representative (names : List ν) (n : ν) : Option ν :=
  names.find? fun n' => glue n' = glue n

/-- What is found under the key of `n`: the last such record of a name that was asked for. -/
def answerFor [DecidableEq ν] (records : List ρ) (asked : List ν) (n : ν) : Option ρ :=
  (records.filter fun r => name r ∈ asked).reverse.find? fun r => glue (name r) = glue n

variable {glue name} {names : List ν} {records : List ρ} {n n₀ : ν}

theorem glue_of_representative (h : representative glue names n = some n₀) : glue n₀ = glue n := by
  simpa using List.find?_some h

theorem representative_congr (h : glue n = glue n₀) :
    representative glue names n = representative glue names n₀ := by
  rw [representative, representative, h]

variable (glue) in
theorem exists_representative (member : n ∈ names) :
    ∃ n₀ ∈ names, representative glue names n = some n₀ := by
  obtain ⟨n₀, h⟩ := Option.isSome_iff_exists.mp (List.find?_isSome.mpr
    ⟨n, member, decide_eq_true rfl⟩ : (representative glue names n).isSome = true)
  exact ⟨n₀, List.mem_of_find?_eq_some h, h⟩

/-- A name is asked for if it is the first one with its key. -/
theorem mem_unseen {seen : List κ} :
    n ∈ unseen glue seen names ↔ glue n ∉ seen ∧ representative glue names n = some n := by
  induction names generalizing seen with
  | nil => simp [unseen, representative]
  | cons m rest ih =>
      by_cases hkey : glue m = glue n
      · have hfirst : representative glue (m :: rest) n = some m := by
          simp [representative, hkey]
        rw [hfirst, unseen]
        split
        · next hseen =>
            rw [ih]
            exact iff_of_false (fun h => h.1 (hkey ▸ hseen)) fun h => h.1 (hkey ▸ hseen)
        · next hnew =>
            rw [List.mem_cons, ih]
            constructor
            · rintro (rfl | h)
              · exact ⟨hnew, rfl⟩
              · exact absurd (hkey ▸ List.mem_cons_self) h.1
            · rintro ⟨-, h⟩
              exact .inl (Option.some.inj h).symm
      · have hrest : representative glue (m :: rest) n = representative glue rest n := by
          simp [representative, hkey]
        have hne : n ≠ m := fun h => hkey (by rw [h])
        rw [hrest, unseen]
        split
        · exact ih
        · rw [List.mem_cons, ih]
          simp [hne, Ne.symm hkey]

variable [DecidableEq ν]

/-- What is found for a name is the record of its representative. -/
theorem answerFor_unseen (h : representative glue names n = some n₀) :
    answerFor glue name records (unseen glue [] names) n =
      records.reverse.find? fun r => name r = n₀ := by
  rw [answerFor, ← List.filter_reverse, List.find?_filter]
  congr 1
  funext r
  rw [Bool.eq_iff_iff]
  simp only [decide_eq_true_eq, mem_unseen, List.not_mem_nil, not_false_eq_true,
    true_and]
  constructor
  · rintro ⟨hrep, hkey⟩
    rw [representative_congr hkey, h] at hrep
    exact (Option.some.inj hrep).symm
  · rintro rfl
    have hkey := glue_of_representative h
    exact ⟨by rw [representative_congr hkey, h], hkey⟩

/-- A name is found exactly if a record carries the name of its representative. -/
theorem answerFor_isSome (h : representative glue names n = some n₀) :
    (answerFor glue name records (unseen glue [] names) n).isSome = true ↔
      ∃ r ∈ records, name r = n₀ := by
  rw [answerFor_unseen h, List.find?_isSome]
  simp

/-- If every name has a record, every name is found. -/
theorem found_of_all (all : ∀ n ∈ names, ∃ r ∈ records, name r = n) (member : n ∈ names) :
    (answerFor glue name records (unseen glue [] names) n).isSome = true := by
  obtain ⟨n₀, hmem, h⟩ := exists_representative glue member
  exact (answerFor_isSome h).mpr (all n₀ hmem)

/-- Answers are listed in the order of those who got one. -/
theorem forall₂_filterMap {α β : Type} {R : α → β → Prop} {p : α → Bool} {f : α → Option β}
    {l : List α} (answered : ∀ a ∈ l, p a = (f a).isSome) :
    List.Forall₂ R (l.filter p) (l.filterMap f) ↔ ∀ a ∈ l, ∀ b, f a = some b → R a b := by
  induction l with
  | nil => simp
  | cons a rest ih =>
      have hrest := ih fun a' member => answered a' (List.mem_cons_of_mem _ member)
      have hp := answered a List.mem_cons_self
      cases h : f a with
      | none =>
          rw [h] at hp
          simp [hp, h, hrest]
      | some b =>
          rw [h] at hp
          simp [hp, h, hrest]

end Lookup
