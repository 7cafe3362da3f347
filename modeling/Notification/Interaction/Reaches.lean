import Notification.Interaction.Pool

/-!
# What can still be reached

A run goes on from any of its states. In particular a job can be started and take all of its
turns before anything else moves, so that it comes to the same end as its program does when it
is run by itself.
-/

namespace Interaction

variable {Call : Type} {Reply : Call → Type} {ε α Job σ τ : Type}

namespace Program

/-- What can happen in one environment can happen in another one that looks alike. -/
theorem Leads.map {env : Env Reply ε σ} {env' : Env Reply ε τ} {f : σ → τ}
    (alike : ∀ s ev s', env s ev s' → env' (f s) ev (f s')) {p q : Program Reply ε α} {s s' : σ}
    (leads : Leads env p s q s') : Leads env' p (f s) q (f s') := by
  induction leads with
  | refl => exact .refl
  | tail _ answer ih => exact .tail ih (alike _ _ _ answer)

end Program

namespace Machine

/-- The states that can be reached from `s` by steps that `allowed` permits. -/
inductive Reaches (M : Machine Reply ε α Job σ)
    (allowed : Pool Reply ε α Job σ → Action Reply ε Job → Prop) (s : Pool Reply ε α Job σ) :
    Pool Reply ε α Job σ → Prop
  | refl : Reaches M allowed s s
  | next {s' a s''} : Reaches M allowed s s' → M.Step s' a s'' → allowed s' a →
      Reaches M allowed s s''

variable {M : Machine Reply ε α Job σ}
  {allowed : Pool Reply ε α Job σ → Action Reply ε Job → Prop} {init : σ}
  {s s' s'' : Pool Reply ε α Job σ}

theorem Reaches.trans (h : M.Reaches allowed s s') (h' : M.Reaches allowed s' s'') :
    M.Reaches allowed s s'' := by
  induction h' with
  | refl => exact h
  | next _ step permitted ih => exact .next ih step permitted

/-- What can be reached from a state of a run is a state of the run. -/
theorem Run.reaches (run : M.Run allowed init s) (h : M.Reaches allowed s s') :
    M.Run allowed init s' := by
  induction h with
  | refl => exact run
  | next _ step permitted ih => exact .next ih step permitted

/-- Turns of one process lead on. -/
theorem Reaches.turns {permit : Pool Reply ε α Job σ → Action Reply ε Job → Bool}
    {handler : (c : Call) → σ → Option (Except ε (Reply c) × σ)} {pid : ℕ}
    (sound : ∀ c s r s', handler c s = some (r, s') → M.answers pid s ⟨c, r⟩ s')
    (permitted : ∀ s a, permit s a = true → allowed s a) (h : M.Reaches allowed s s') (n : ℕ) :
    M.Reaches allowed s (turns permit handler pid n s') := by
  induction n generalizing s' with
  | zero => exact h
  | succ n ih =>
      unfold Machine.turns
      split
      · exact h
      · next ev s'' hturn =>
        split
        · next hpermit => exact ih (.next h (step_turn sound hturn) (permitted _ _ hpermit))
        · exact h

/-- A process is running, and this is what it still has to do. -/
def Running (s : Pool Reply ε α Job σ) (pid : ℕ) (job : Job) (rest : Program Reply ε α) : Prop :=
  ∃ proc, s.procs[pid]? = some proc ∧ proc.job = job ∧ proc.crashed = false ∧ proc.rest = rest

/-- A process can take its turns while all others stay where they are. -/
theorem Reaches.alone {pid : ℕ} {job : Job} {p q : Program Reply ε α} {w w' : σ}
    (permitted : ∀ s ev, allowed s (.turn pid ev))
    (leads : Program.Leads (M.answers pid) p w q w') (running : Running s pid job p)
    (shared : s.shared = w) :
    ∃ s', M.Reaches allowed s s' ∧ s'.shared = w' ∧ Running s' pid job q ∧
      s'.procs.length = s.procs.length ∧ ∀ pid' ≠ pid, s'.procs[pid']? = s.procs[pid']? := by
  induction leads with
  | refl => exact ⟨s, .refl, shared, running, rfl, fun _ _ => rfl⟩
  | @tail c next w' r w'' _ answer ih =>
      obtain ⟨s', reaches, shared', ⟨proc, hproc, hjob, hcrashed, hrest⟩, hlength, others⟩ := ih
      have hturn : (s'.advance pid proc ⟨c, r⟩ (next r) w'').procs[pid]? =
          some { proc with rest := next r, trace := ⟨c, r⟩ :: proc.trace } := by
        rw [getElem?_advance hproc, if_pos rfl]
      refine ⟨_, .next reaches (.turn hproc hcrashed hrest (shared' ▸ answer)) (permitted _ _),
        rfl, ⟨_, hturn, hjob, hcrashed, rfl⟩, List.length_set.trans hlength, ?_⟩
      intro pid' hne
      rw [getElem?_advance hproc, if_neg hne, others pid' hne]

/-- A job can be started and come to its end while all others stay where they are. -/
theorem Reaches.job {job : Job} {o : Except ε α} {w' : σ} (starts : M.starts s.shared job)
    (start : allowed s (.start job)) (permitted : ∀ s pid ev, allowed s (.turn pid ev))
    (leads : Program.Leads (M.answers s.procs.length) (M.code job) s.shared (.done o) w') :
    ∃ s', M.Reaches allowed s s' ∧ s'.shared = w' ∧ Running s' s.procs.length job (.done o) ∧
      s'.procs.length = s.procs.length + 1 ∧
      ∀ pid < s.procs.length, s'.procs[pid]? = s.procs[pid]? := by
  have started : Running (s.spawn job (M.code job)) s.procs.length job (M.code job) :=
    ⟨_, by rw [getElem?_spawn, if_pos rfl], rfl, rfl, rfl⟩
  obtain ⟨s', reaches, shared', ended, hlength, others⟩ :=
    Reaches.alone (fun s ev => permitted s _ ev) leads started rfl
  refine ⟨s', .trans (.next .refl (.start starts) start) reaches, shared', ended,
    hlength.trans (by simp [Pool.spawn]), fun pid hlt => ?_⟩
  have hne := Nat.ne_of_lt hlt
  rw [others pid hne, getElem?_spawn, if_neg hne]

end Machine

end Interaction
