import Mathlib.Data.List.Induction
import Notification.Interaction.Rules

/-!
# Executions one after another

A `Series` runs the programs of its jobs to the end, one at a time, on a common state. What
has been executed is kept as a list of turns. An execution may be restricted in two ways:
`admits` speaks about the state it begins in, `permits` about its single calls and what they
do, and both may look at the turns before.

`Runs` reaches the states between executions and `Within` those in the middle of one.
`Follows` says that an abstract specification agrees to the turns of a run, and `latest` looks
a turn up in the history.
-/

namespace Interaction

open Program

variable {Call : Type} {Reply : Call → Type} {ε σ Job : Type} {α : Job → Type}

/-- One execution: the states before and after it, its outcome and its events. -/
structure Turn (Reply : Call → Type) (ε σ : Type) (α : Job → Type) where
  job : Job
  before : σ
  outcome : Except ε (α job)
  after : σ
  trace : Trace Reply ε

structure Series (Reply : Call → Type) (ε σ : Type) (α : Job → Type) where
  program (j : Job) : Program Reply ε (α j)
  env : Env Reply ε σ
  starts : σ → Prop
  /-- What may happen between two executions. -/
  drifts : σ → σ → Prop
  admits : List (Turn Reply ε σ α) → Job → σ → Prop
  permits : List (Turn Reply ε σ α) → Job → σ → Env Reply ε σ

namespace Series

variable (S : Series Reply ε σ α)

/-- The environment of an execution that begins in `s`. -/
def during (xs : List (Turn Reply ε σ α)) (j : Job) (s : σ) : Env Reply ε (σ × Trace Reply ε) :=
  traced S.env (S.permits xs j s)

/-- The turns so far and the state they have led to. -/
inductive Runs : List (Turn Reply ε σ α) → σ → Prop
  | start {s} : S.starts s → Runs [] s
  | drift {xs s s'} : Runs xs s → S.drifts s s' → Runs xs s'
  | execute {xs j s o s' t} : Runs xs s → S.admits xs j s →
      Leads (S.during xs j s) (S.program j) (s, []) (done o) (s', t) →
      Runs (xs ++ [⟨j, s, o, s', t⟩]) s'

/-- A state in the middle of an execution, its beginning and its end included. -/
def Within (s' : σ) : Prop :=
  ∃ xs j s q t, S.Runs xs s ∧ S.admits xs j s ∧
    Leads (S.during xs j s) (S.program j) (s, []) q (s', t)

/-- Every state of a run, between executions or in the middle of one. -/
def Reaches (s : σ) : Prop := (∃ xs, S.Runs xs s) ∨ S.Within s

variable {S} {xs : List (Turn Reply ε σ α)} {s : σ}

/-- What holds in the beginning and is kept by every execution holds after any number of
them. -/
theorem Runs.invariant {I : List (Turn Reply ε σ α) → σ → Prop}
    (start : ∀ s, S.starts s → I [] s)
    (drift : ∀ xs s s', S.drifts s s' → I xs s → I xs s')
    (execute : ∀ xs j s, S.Runs xs s → S.admits xs j s → I xs s →
      (S.program j).wp (S.during xs j s) (fun _ => True)
        (fun o s' => I (xs ++ [⟨j, s, o, s'.1, s'.2⟩]) s'.1) (s, []))
    (run : S.Runs xs s) : I xs s := by
  induction run with
  | start h => exact start _ h
  | drift _ h ih => exact drift _ _ _ h ih
  | execute run admitted leads ih => exact (execute _ _ _ run admitted ih).outcome leads

/-- A state invariant that every answer of the environment keeps holds in every run. -/
theorem Runs.kept {I : σ → Prop} (start : ∀ s, S.starts s → I s)
    (drift : ∀ s s', S.drifts s s' → I s → I s')
    (answers : ∀ s ev s', S.env s ev s' → I s → I s') (run : S.Runs xs s) : I s := by
  apply run.invariant (I := fun _ => I) start fun _ => drift
  intro xs j s _ _ h
  have kept : (S.program j).wp (S.during xs j s) (fun s' => I s'.1) (fun _ s' => I s'.1) (s, []) :=
    (makes_true (S.program j)).keeps (fun s ev s' answer _ h => answers s.1 ev s'.1 answer.1 h) h
  exact mono_wp kept (fun _ _ => trivial) fun _ _ h => h

/-- The last turn of a run is an execution after the turns before. -/
theorem Runs.last {x : Turn Reply ε σ α} (run : S.Runs (xs ++ [x]) s) :
    S.Runs xs x.before ∧ S.admits xs x.job x.before ∧
      Leads (S.during xs x.job x.before) (S.program x.job) (x.before, []) (done x.outcome)
        (x.after, x.trace) := by
  generalize hys : xs ++ [x] = ys at run
  induction run with
  | start => exact absurd hys (by simp)
  | drift _ _ ih => exact ih hys
  | execute run admitted leads _ =>
      obtain ⟨rfl, hx⟩ := List.append_inj' hys rfl
      obtain rfl := List.singleton_inj.mp hx
      exact ⟨run, admitted, leads⟩

/-- The turns of an earlier part of a run are those of a run. -/
theorem Runs.earlier {ys : List (Turn Reply ε σ α)} (run : S.Runs (xs ++ ys) s) :
    ∃ s', S.Runs xs s' := by
  induction ys using List.reverseRecOn generalizing s with
  | nil => exact ⟨s, List.append_nil xs ▸ run⟩
  | append_singleton ys y ih =>
      rw [← List.append_assoc] at run
      exact ih run.last.1

/-- Every turn is as `P` says, given the turns before it. -/
def Throughout (P : List (Turn Reply ε σ α) → Turn Reply ε σ α → Prop)
    (xs : List (Turn Reply ε σ α)) : Prop := ∀ ys y zs, xs = ys ++ y :: zs → P ys y

theorem throughout_snoc {P : List (Turn Reply ε σ α) → Turn Reply ε σ α → Prop}
    {x : Turn Reply ε σ α} : Throughout P (xs ++ [x]) ↔ Throughout P xs ∧ P xs x := by
  constructor
  · intro h
    refine ⟨fun ys y zs heq => h ys y (zs ++ [x]) ?_, h xs x [] rfl⟩
    rw [heq, List.append_assoc, List.cons_append]
  · rintro ⟨h, hx⟩ ys y zs heq
    obtain rfl | ⟨zs, z, rfl⟩ := List.eq_nil_or_concat zs
    · obtain ⟨rfl, hy⟩ := List.append_inj' heq rfl
      exact List.singleton_inj.mp hy ▸ hx
    · rw [List.concat_eq_append, ← List.cons_append, ← List.append_assoc] at heq
      exact h ys y zs (List.append_inj' heq rfl).1

/-- What is equivalent for the last turn of every run in which it has held so far is equivalent
throughout every run. -/
theorem Runs.throughout_iff {P Q : List (Turn Reply ε σ α) → Turn Reply ε σ α → Prop}
    (last : ∀ xs x s, S.Runs (xs ++ [x]) s → Throughout P xs → (P xs x ↔ Q xs x))
    (run : S.Runs xs s) : Throughout P xs ↔ Throughout Q xs := by
  induction xs using List.reverseRecOn generalizing s with
  | nil => exact iff_of_true (fun _ _ _ h => by simp at h) fun _ _ _ h => by simp at h
  | append_singleton xs x ih =>
      rw [throughout_snoc, throughout_snoc]
      obtain ⟨s', earlier⟩ := run.earlier
      exact (and_congr_right (last xs x s run)).trans (and_congr_left' (ih earlier))

/-- A state invariant that every call of every execution keeps holds all the time. -/
theorem Within.invariant {I : σ → Prop} (between : ∀ xs s, S.Runs xs s → I s)
    (execute : ∀ xs j s, S.Runs xs s → S.admits xs j s →
      (S.program j).wp (S.during xs j s) (fun s' => I s'.1) (fun _ _ => True) (s, []))
    (within : S.Within s) : I s := by
  obtain ⟨xs, j, s₀, q, t, run, admitted, leads⟩ := within
  exact (execute xs j s₀ run admitted).invariant (between xs s₀ run) leads

/-- The same for an invariant that holds before each execution. -/
theorem Reaches.invariant {I : σ → Prop} (start : ∀ s, S.starts s → I s)
    (drift : ∀ s s', S.drifts s s' → I s → I s')
    (execute : ∀ xs j s, S.Runs xs s → S.admits xs j s → I s →
      (S.program j).wp (S.during xs j s) (fun s' => I s'.1) (fun _ s' => I s'.1) (s, []))
    (reached : S.Reaches s) : I s := by
  have between : ∀ xs s, S.Runs xs s → I s := fun xs s run =>
    run.invariant (I := fun _ => I) start (fun _ => drift) fun xs j s run admitted h =>
      mono_wp (execute xs j s run admitted h) (fun _ _ => trivial) fun _ _ h => h
  obtain ⟨xs, run⟩ | within := reached
  · exact between xs s run
  · exact within.invariant between fun xs j s run admitted =>
      mono_post (execute xs j s run admitted (between xs s run)) fun _ _ _ => trivial

/-- The latest turn of some kind. -/
def latest (p : Turn Reply ε σ α → Prop) [DecidablePred p] (xs : List (Turn Reply ε σ α)) :
    Option (Turn Reply ε σ α) := xs.reverse.find? fun x => p x

theorem latest_snoc (p : Turn Reply ε σ α → Prop) [DecidablePred p] (xs : List (Turn Reply ε σ α))
    (x : Turn Reply ε σ α) : latest p (xs ++ [x]) = if p x then some x else latest p xs := by
  rw [latest, List.reverse_append, List.reverse_singleton, List.singleton_append, List.find?_cons]
  split
  · next h => rw [if_pos (of_decide_eq_true h)]
  · next h => rw [if_neg (of_decide_eq_false h), latest]

theorem mem_of_latest {p : Turn Reply ε σ α → Prop} [DecidablePred p] {x : Turn Reply ε σ α}
    (h : latest p xs = some x) : x ∈ xs ∧ p x := by
  refine ⟨List.mem_reverse.mp (List.mem_of_find?_eq_some h), ?_⟩
  have hfound := List.find?_some h
  exact of_decide_eq_true hfound

/-- A specification takes the turns one after another. -/
inductive Follows {A : Type} (step : A → Turn Reply ε σ α → A → Prop) (init : A) :
    List (Turn Reply ε σ α) → A → Prop
  | nil : Follows step init [] init
  | snoc {xs a x a'} : Follows step init xs a → step a x a' → Follows step init (xs ++ [x]) a'

/-- A run follows a specification if its state stays related to that of the specification. -/
theorem Runs.follows {A : Type} {step : A → Turn Reply ε σ α → A → Prop} {init : A}
    (Related : A → σ → Prop) (start : ∀ s, S.starts s → Related init s)
    (drift : ∀ a s s', S.drifts s s' → Related a s → Related a s')
    (execute : ∀ xs j s a, S.admits xs j s → Related a s →
      (S.program j).wp (S.during xs j s) (fun _ => True)
        (fun o s' => ∃ a', step a ⟨j, s, o, s'.1, s'.2⟩ a' ∧ Related a' s'.1) (s, []))
    (run : S.Runs xs s) : ∃ a, Follows step init xs a ∧ Related a s := by
  refine run.invariant (I := fun xs s => ∃ a, Follows step init xs a ∧ Related a s)
    (fun s h => ⟨init, .nil, start s h⟩) ?_ ?_
  · rintro xs s s' moved ⟨a, follows, related⟩
    exact ⟨a, follows, drift a s s' moved related⟩
  · rintro xs j s - admitted ⟨a, follows, related⟩
    apply mono_post (execute xs j s a admitted related)
    rintro o s' ⟨a', hstep, related'⟩
    exact ⟨a', follows.snoc hstep, related'⟩

/-- A handler whose answers the environment may give executes a job. -/
theorem Runs.executed {handler : (c : Call) → σ → Except ε (Reply c) × σ}
    (run : S.Runs xs s) {j : Job} (admitted : S.admits xs j s)
    (sound : ∀ c s, S.env s ⟨c, (handler c s).1⟩ (handler c s).2)
    (permitted : ∀ c s', S.permits xs j s s' ⟨c, (handler c s').1⟩ (handler c s').2) :
    S.Runs (xs ++ [⟨j, s, ((S.program j).run (recorded handler) (s, [])).1,
        ((S.program j).run (recorded handler) (s, [])).2.1,
        ((S.program j).run (recorded handler) (s, [])).2.2⟩])
      ((S.program j).run (recorded handler) (s, [])).2.1 :=
  .execute run admitted (leads_recorded sound permitted (S.program j) (s, []))

end Series

end Interaction
