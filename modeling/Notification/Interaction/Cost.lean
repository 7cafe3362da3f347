import Mathlib.Algebra.GroupWithZero.Nat
import Mathlib.Algebra.Order.BigOperators.Group.List
import Mathlib.Algebra.Order.Group.Nat
import Notification.Interaction.Pool

/-!
# What a program may cost

Each event has a cost, and a bound on the cost of a program holds whatever it is answered.
Costs add up along sequential composition, where an error may cost less. The calls of a pool
cost what its processes have spent.
-/

namespace Interaction

variable {Call : Type} {Reply : Call → Type} {ε α β Job σ : Type}

namespace Program

variable {cost : Event Reply ε → ℕ}

/-- The program costs at most this much, whatever it is answered. -/
def Costs (cost : Event Reply ε → ℕ) : Program Reply ε α → ℕ → Prop
  | done _, _ => True
  | step c next, n => ∀ r, ∃ rest, cost ⟨c, r⟩ + rest ≤ n ∧ (next r).Costs cost rest

/-- What the events of a trace have cost. -/
def spent (cost : Event Reply ε → ℕ) (t : Trace Reply ε) : ℕ := (t.map cost).sum

@[simp] theorem spent_nil : spent cost [] = 0 := rfl

@[simp] theorem spent_cons (ev : Event Reply ε) (t : Trace Reply ε) :
    spent cost (ev :: t) = cost ev + spent cost t := List.sum_cons

theorem spent_perm {t t' : Trace Reply ε} (h : t.Perm t') : spent cost t = spent cost t' :=
  (h.map cost).sum_eq

theorem costs_done (outcome : Except ε α) (n : ℕ) :
    (done outcome : Program Reply ε α).Costs cost n := trivial

theorem Costs.mono {p : Program Reply ε α} {n m : ℕ} (h : p.Costs cost n) (le : n ≤ m) :
    p.Costs cost m := by
  cases p with
  | done outcome => trivial
  | step c next =>
      intro r
      obtain ⟨rest, hrest, hnext⟩ := h r
      exact ⟨rest, hrest.trans le, hnext⟩

/-- A single call costs what its event costs. -/
theorem costs_perform {c : Call} {n : ℕ} (h : ∀ r, cost ⟨c, r⟩ ≤ n) :
    (perform c : Program Reply ε (Reply c)).Costs cost n :=
  fun r => ⟨0, h r, trivial⟩

theorem Costs.bind {p : Program Reply ε β} {f : β → Program Reply ε α} {n m : ℕ}
    (hp : p.Costs cost n) (hf : ∀ b, (f b).Costs cost m) : (p >>= f).Costs cost (n + m) := by
  rw [bind_eq]
  induction p generalizing n with
  | done outcome =>
      cases outcome with
      | error e => trivial
      | ok b => exact (hf b).mono (Nat.le_add_left m n)
  | step c next ih =>
      intro r
      obtain ⟨rest, hrest, hnext⟩ := hp r
      exact ⟨rest + m, by omega, ih r hnext⟩

theorem Costs.tryCatch {p : Program Reply ε α} {handler : ε → Program Reply ε α} {n m : ℕ}
    (hp : p.Costs cost n) (hh : ∀ e, (handler e).Costs cost m) :
    (tryCatch p handler).Costs cost (n + m) := by
  rw [tryCatch_eq]
  induction p generalizing n with
  | done outcome =>
      cases outcome with
      | error e => exact (hh e).mono (Nat.le_add_left m n)
      | ok a => trivial
  | step c next ih =>
      intro r
      obtain ⟨rest, hrest, hnext⟩ := hp r
      exact ⟨rest + m, by omega, ih r hnext⟩

theorem Costs.ite {b : Prop} [Decidable b] {p q : Program Reply ε α} {n : ℕ}
    (hp : p.Costs cost n) (hq : q.Costs cost n) : (if b then p else q).Costs cost n := by
  split
  · exact hp
  · exact hq

/-- A program whose events are free costs nothing. -/
theorem Makes.costs {S : Event Reply ε → Prop} {p : Program Reply ε α} (h : p.Makes S)
    (free : ∀ ev, S ev → cost ev = 0) : p.Costs cost 0 := by
  induction p with
  | done outcome => trivial
  | step c next ih =>
      intro r
      obtain ⟨made, hnext⟩ := h r
      exact ⟨0, (free _ made).le, ih r hnext⟩

/-- Events that are free cost nothing together. -/
theorem Always.spent {φ : Event Reply ε → Trace Reply ε → Prop} {t : Trace Reply ε}
    (h : Always φ t) (free : ∀ ev before, φ ev before → cost ev = 0) : spent cost t = 0 := by
  induction t with
  | nil => rfl
  | cons ev before ih => rw [spent_cons, free ev before h.1, ih h.2]

/-- What a program costs is a bound on what it has spent at any time. -/
theorem Costs.wp {ok : Event Reply ε → Prop} {p : Program Reply ε α} {n : ℕ}
    (h : p.Costs cost n) {t : Trace Reply ε} {total : ℕ} (room : spent cost t + n ≤ total) :
    p.wp (recording ok) (fun t' => spent cost t' ≤ total) (fun _ t' => spent cost t' ≤ total)
      t := by
  induction p generalizing n t with
  | done outcome => exact (Nat.le_add_right _ n).trans room
  | step c next ih =>
      rw [wp_step_recording]
      intro r _
      obtain ⟨rest, hrest, hnext⟩ := h r
      have room' : spent cost (⟨c, r⟩ :: t) + rest ≤ total := by
        rw [spent_cons]
        omega
      exact ⟨(Nat.le_add_right _ rest).trans room', ih r hnext room'⟩

end Program

open Program

namespace Machine

variable {M : Machine Reply ε α Job σ} {init : σ} {s : Pool Reply ε α Job σ}
  {allowed : Pool Reply ε α Job σ → Action Reply ε Job → Prop}

/-- The history of a pool consists of what its processes have done. -/
theorem Run.history_perm (run : M.Run allowed init s) :
    (s.history.map Prod.snd).Perm (s.gather Proc.trace) := by
  apply run.invariant
  · exact .refl []
  intro s a s' _ h step _
  cases step with
  | start _ =>
      rw [Pool.gather_spawn, List.append_nil]
      exact h
  | @turn pid proc c next r shared hproc _ _ _ =>
      obtain ⟨others, before, after⟩ := Pool.gather_advance Proc.trace hproc ⟨c, r⟩ (next r) shared
      exact ((h.trans before).cons _).trans after.symm
  | @crash pid proc shared hproc _ =>
      rw [Pool.gather_drop _ hproc rfl]
      exact h
  | settle _ _ _ _ => exact h
  | drift _ => exact h

theorem spent_gather {cost : Event Reply ε → ℕ} (procs : List (Proc Reply ε α Job)) :
    spent cost (procs.flatMap Proc.trace) = (procs.map fun proc => spent cost proc.trace).sum := by
  induction procs with
  | nil => rfl
  | cons proc rest ih =>
      rw [List.flatMap_cons, List.map_cons, List.sum_cons, ← ih, spent, List.map_append,
        List.sum_append]
      rfl

/-- All calls of a pool together cost no more than its jobs may. -/
theorem Run.spent_le {ok : Event Reply ε → Prop} {cost : Event Reply ε → ℕ} {price : Job → ℕ}
    (run : M.Run allowed init s) (answers : ∀ pid w ev w', M.answers pid w ev w' → ok ev)
    (fact : ∀ job, (M.code job).wp (recording ok) (fun t => spent cost t ≤ price job)
      (fun _ _ => True) []) :
    spent cost (s.history.map Prod.snd) ≤ (s.procs.map fun proc => price proc.job).sum := by
  rw [spent_perm run.history_perm, Pool.gather, spent_gather]
  apply List.sum_le_sum
  intro proc member
  obtain ⟨pid, hproc⟩ := List.mem_iff_getElem?.mp member
  exact (run.local_invariant answers hproc (fact proc.job) (Nat.zero_le _)).1

end Machine

end Interaction
