import Mathlib.Data.List.Perm.Basic
import Notification.Interaction.Rules

/-!
# Pools of interleaved programs

A machine starts programs for jobs and lets them take turns: one turn is one
external call, answered atomically from the shared state. Between any two calls
of one program every other program may run, crash, or be started, and the
environment may move by itself.

A run is a sequence of such steps. It may be restricted by `allowed`, a
condition on the state before a step and on the step itself, so that a theorem
about runs can say which steps it excludes.
-/

namespace Interaction

variable {Call : Type} {Reply : Call → Type} {ε α Job σ : Type}

/-- A started job: the program still to be run and what it has done so far. -/
structure Proc {Call : Type} (Reply : Call → Type) (ε α Job : Type) where
  job : Job
  rest : Program Reply ε α
  trace : Trace Reply ε
  crashed : Bool

/-- The shared state, every job started so far (its index is its process number)
and the calls of all of them in one order, the latest first. -/
structure Pool {Call : Type} (Reply : Call → Type) (ε α Job σ : Type) where
  shared : σ
  procs : List (Proc Reply ε α Job)
  history : List (ℕ × Event Reply ε)

/-- What can happen in one step of a pool. -/
inductive Action {Call : Type} (Reply : Call → Type) (ε Job : Type) where
  | start (job : Job)
  | turn (pid : ℕ) (event : Event Reply ε)
  | crash (pid : ℕ)
  | settle (pid : ℕ)
  | drift

/-- The rules of a pool: the program of each job, when a job may start, how calls
are answered, what a crash does to the shared state, what may be done on account
of a job that has ended, and how the environment moves by itself. -/
structure Machine {Call : Type} (Reply : Call → Type) (ε α Job σ : Type) where
  code : Job → Program Reply ε α
  starts : σ → Job → Prop
  answers : ℕ → Env Reply ε σ
  crashes : ℕ → σ → σ → Prop
  settles : Job → Except ε α → σ → σ → Prop
  drifts : σ → σ → Prop

/-- The events of one process in a history. -/
def own (pid : ℕ) (history : List (ℕ × Event Reply ε)) : Trace Reply ε :=
  history.filterMap fun x => if x.1 = pid then some x.2 else none

@[simp] theorem own_nil (pid : ℕ) : own pid ([] : List (ℕ × Event Reply ε)) = [] := rfl

@[simp] theorem own_cons_self (pid : ℕ) (ev : Event Reply ε) (h : List (ℕ × Event Reply ε)) :
    own pid ((pid, ev) :: h) = ev :: own pid h := by simp [own]

theorem own_cons_ne {pid pid' : ℕ} (hne : pid' ≠ pid) (ev : Event Reply ε)
    (h : List (ℕ × Event Reply ε)) : own pid ((pid', ev) :: h) = own pid h := by
  simp [own, hne]

theorem mem_own {pid : ℕ} {ev : Event Reply ε} {h : List (ℕ × Event Reply ε)} :
    ev ∈ own pid h ↔ (pid, ev) ∈ h := by
  simp only [own, List.mem_filterMap, Option.ite_none_right_eq_some, Option.some.injEq]
  constructor
  · rintro ⟨⟨i, e⟩, member, rfl, rfl⟩
    exact member
  · exact fun member => ⟨(pid, ev), member, rfl, rfl⟩

/-- What only one process does is done as often as this process has done it. -/
theorem countP_own {pid : ℕ} {p : Event Reply ε → Bool} {h : List (ℕ × Event Reply ε)}
    (only : ∀ x ∈ h, p x.2 = true → x.1 = pid) :
    h.countP (fun x => p x.2) = (own pid h).countP p := by
  induction h with
  | nil => rfl
  | cons x rest ih =>
      obtain ⟨pid', ev⟩ := x
      have hrest := ih fun x hx => only x (List.mem_cons_of_mem _ hx)
      by_cases hpid : pid' = pid
      · subst hpid
        rw [own_cons_self, List.countP_cons, List.countP_cons, hrest]
      · have hnot : ¬ p ev = true := fun hp => hpid (only _ List.mem_cons_self hp)
        rw [own_cons_ne hpid, List.countP_cons, if_neg hnot, hrest, Nat.add_zero]

namespace Pool

/-- A pool in which nothing has been started. -/
def initial (s : σ) : Pool Reply ε α Job σ := ⟨s, [], []⟩

/-- A new process is put at the end, so that process numbers never change. -/
def spawn (s : Pool Reply ε α Job σ) (job : Job) (code : Program Reply ε α) :
    Pool Reply ε α Job σ :=
  { s with procs := s.procs ++ [⟨job, code, [], false⟩] }

/-- Process `pid` made the call of `ev` and goes on with `rest`. -/
def advance (s : Pool Reply ε α Job σ) (pid : ℕ) (proc : Proc Reply ε α Job)
    (ev : Event Reply ε) (rest : Program Reply ε α) (shared : σ) : Pool Reply ε α Job σ where
  shared := shared
  procs := s.procs.set pid { proc with rest := rest, trace := ev :: proc.trace }
  history := (pid, ev) :: s.history

/-- Process `pid` makes no further call. -/
def drop (s : Pool Reply ε α Job σ) (pid : ℕ) (proc : Proc Reply ε α Job) (shared : σ) :
    Pool Reply ε α Job σ :=
  { s with shared := shared, procs := s.procs.set pid { proc with crashed := true } }

theorem mem_advance {s : Pool Reply ε α Job σ} {pid : ℕ} {proc proc' : Proc Reply ε α Job}
    {ev : Event Reply ε} {rest : Program Reply ε α} {shared : σ}
    (h : proc' ∈ (s.advance pid proc ev rest shared).procs) :
    proc' ∈ s.procs ∨ proc' = { proc with rest := rest, trace := ev :: proc.trace } :=
  List.mem_or_eq_of_mem_set h

theorem mem_drop {s : Pool Reply ε α Job σ} {pid : ℕ} {proc proc' : Proc Reply ε α Job}
    {shared : σ} (h : proc' ∈ (s.drop pid proc shared).procs) :
    proc' ∈ s.procs ∨ proc' = { proc with crashed := true } :=
  List.mem_or_eq_of_mem_set h

section Gather

variable {β : Type} (f : Proc Reply ε α Job → List β)

/-- What `f` finds in each process, process by process. -/
def gather (s : Pool Reply ε α Job σ) : List β := s.procs.flatMap f

@[simp] theorem gather_spawn (s : Pool Reply ε α Job σ) (job : Job) (code : Program Reply ε α) :
    (s.spawn job code).gather f = s.gather f ++ f ⟨job, code, [], false⟩ := by
  simp [gather, spawn]

/-- A turn replaces what is found in one process and leaves the others alone. -/
theorem gather_advance {s : Pool Reply ε α Job σ} {pid : ℕ} {proc : Proc Reply ε α Job}
    (h : s.procs[pid]? = some proc) (ev : Event Reply ε) (rest : Program Reply ε α) (shared : σ) :
    ∃ others, (s.gather f).Perm (f proc ++ others) ∧
      ((s.advance pid proc ev rest shared).gather f).Perm
        (f { proc with rest := rest, trace := ev :: proc.trace } ++ others) := by
  obtain ⟨hlt, rfl⟩ := List.getElem?_eq_some_iff.mp h
  exact ⟨(s.procs.eraseIdx pid).flatMap f,
    .flatMap_right f (List.getElem_cons_eraseIdx_perm hlt).symm,
    .flatMap_right f (List.set_perm_cons_eraseIdx hlt _)⟩

/-- A crash changes nothing that is found in a process. -/
theorem gather_drop {s : Pool Reply ε α Job σ} {pid : ℕ} {proc : Proc Reply ε α Job}
    (h : s.procs[pid]? = some proc) (same : f { proc with crashed := true } = f proc)
    (shared : σ) : (s.drop pid proc shared).gather f = s.gather f := by
  have hset : (s.procs.set pid { proc with crashed := true }).map f = s.procs.map f := by
    apply List.ext_getElem?
    intro i
    rw [List.getElem?_map, List.getElem?_map, List.getElem?_set]
    by_cases hi : pid = i
    · subst hi
      rw [if_pos rfl, h, if_pos (List.getElem?_eq_some_iff.mp h).1, Option.map_some, same]
      rfl
    · rw [if_neg hi]
  rw [gather, gather, drop, List.flatMap_def, hset, List.flatMap_def]

end Gather

end Pool

namespace Machine

variable (M : Machine Reply ε α Job σ)

/-- One step of the pool. -/
inductive Step : Pool Reply ε α Job σ → Action Reply ε Job → Pool Reply ε α Job σ → Prop
  | start {s : Pool Reply ε α Job σ} {job} :
      M.starts s.shared job → Step s (.start job) (s.spawn job (M.code job))
  | turn {s : Pool Reply ε α Job σ} {pid proc c next r shared} :
      s.procs[pid]? = some proc → proc.crashed = false → proc.rest = .step c next →
      M.answers pid s.shared ⟨c, r⟩ shared →
      Step s (.turn pid ⟨c, r⟩) (s.advance pid proc ⟨c, r⟩ (next r) shared)
  | crash {s : Pool Reply ε α Job σ} {pid proc shared} :
      s.procs[pid]? = some proc → M.crashes pid s.shared shared →
      Step s (.crash pid) (s.drop pid proc shared)
  | settle {s : Pool Reply ε α Job σ} {pid proc outcome shared} :
      s.procs[pid]? = some proc → proc.crashed = false → proc.rest = .done outcome →
      M.settles proc.job outcome s.shared shared →
      Step s (.settle pid) { s with shared := shared }
  | drift {s : Pool Reply ε α Job σ} {shared} :
      M.drifts s.shared shared → Step s .drift { s with shared := shared }

/-- The states reached from `init` by steps that `allowed` permits. -/
inductive Run (allowed : Pool Reply ε α Job σ → Action Reply ε Job → Prop) (init : σ) :
    Pool Reply ε α Job σ → Prop
  | initial : Run allowed init (Pool.initial init)
  | next {s a s'} : Run allowed init s → M.Step s a s' → allowed s a → Run allowed init s'

variable {M} {allowed : Pool Reply ε α Job σ → Action Reply ε Job → Prop} {init : σ}
  {s s' : Pool Reply ε α Job σ}

/-- A predicate that holds initially and is kept by every allowed step holds of
every reachable state. -/
theorem Run.invariant {P : Pool Reply ε α Job σ → Prop} (run : M.Run allowed init s)
    (start : P (Pool.initial init))
    (keep : ∀ s a s', M.Run allowed init s → P s → M.Step s a s' → allowed s a → P s') : P s := by
  induction run with
  | initial => exact start
  | next before step permitted ih => exact keep _ _ _ before ih step permitted

theorem Run.mono {allowed' : Pool Reply ε α Job σ → Action Reply ε Job → Prop}
    (run : M.Run allowed init s) (weaker : ∀ s a, allowed s a → allowed' s a) :
    M.Run allowed' init s := by
  induction run with
  | initial => exact .initial
  | next _ step permitted ih => exact .next ih step (weaker _ _ permitted)

/-- Each process has followed its own program, and the history keeps the calls of
every process in the order of its trace. -/
structure Coherent (M : Machine Reply ε α Job σ) (s : Pool Reply ε α Job σ) : Prop where
  follows : ∀ (pid : ℕ) (proc : Proc Reply ε α Job), s.procs[pid]? = some proc →
    Program.Leads (recording fun _ => True) (M.code proc.job) [] proc.rest proc.trace
  traces : ∀ (pid : ℕ) (proc : Proc Reply ε α Job), s.procs[pid]? = some proc →
    own pid s.history = proc.trace
  started : ∀ pid ev, (pid, ev) ∈ s.history → pid < s.procs.length

theorem getElem?_advance {pid pid' : ℕ} {proc : Proc Reply ε α Job} {ev : Event Reply ε}
    {rest : Program Reply ε α} {shared : σ} (h : s.procs[pid]? = some proc) :
    (s.advance pid proc ev rest shared).procs[pid']? =
      if pid' = pid then some { proc with rest := rest, trace := ev :: proc.trace }
      else s.procs[pid']? := by
  have hlt := (List.getElem?_eq_some_iff.mp h).1
  by_cases hp : pid' = pid
  · subst hp
    simp [Pool.advance, hlt]
  · simp [Pool.advance, hp, List.getElem?_set_ne (Ne.symm hp)]

theorem getElem?_spawn {pid : ℕ} {job : Job} {code : Program Reply ε α} :
    (s.spawn job code).procs[pid]? =
      if pid = s.procs.length then some ⟨job, code, [], false⟩ else s.procs[pid]? := by
  simp only [Pool.spawn]
  by_cases hp : pid = s.procs.length
  · simp [hp]
  · rw [if_neg hp]
    by_cases hlt : pid < s.procs.length
    · rw [List.getElem?_append_left hlt]
    · rw [List.getElem?_eq_none (by simp; omega), List.getElem?_eq_none (by omega)]

theorem getElem?_drop {pid pid' : ℕ} {proc : Proc Reply ε α Job} {shared : σ}
    (h : s.procs[pid]? = some proc) :
    (s.drop pid proc shared).procs[pid']? =
      if pid' = pid then some { proc with crashed := true } else s.procs[pid']? := by
  have hlt := (List.getElem?_eq_some_iff.mp h).1
  by_cases hp : pid' = pid
  · subst hp
    simp [Pool.drop, hlt]
  · simp [Pool.drop, hp, List.getElem?_set_ne (Ne.symm hp)]

/-- What a step can have done to a process that is there after it. -/
theorem Step.proc_cases {a : Action Reply ε Job} {pid : ℕ} {proc' : Proc Reply ε α Job}
    (step : M.Step s a s') (h : s'.procs[pid]? = some proc') :
    s.procs[pid]? = some proc' ∨
    (∃ job, a = .start job ∧ pid = s.procs.length ∧ s'.shared = s.shared ∧
      M.starts s.shared job ∧ proc' = ⟨job, M.code job, [], false⟩) ∨
    (∃ proc c next r, a = .turn pid ⟨c, r⟩ ∧ s.procs[pid]? = some proc ∧
      proc.crashed = false ∧ proc.rest = .step c next ∧
      M.answers pid s.shared ⟨c, r⟩ s'.shared ∧
      proc' = { proc with rest := next r, trace := ⟨c, r⟩ :: proc.trace }) ∨
    (∃ proc, a = .crash pid ∧ s.procs[pid]? = some proc ∧
      M.crashes pid s.shared s'.shared ∧ proc' = { proc with crashed := true }) := by
  cases step with
  | start hstart =>
      rw [getElem?_spawn] at h
      split at h
      · next hlen =>
          cases h
          exact .inr (.inl ⟨_, rfl, hlen, rfl, hstart, rfl⟩)
      · exact .inl h
  | turn hproc hcrashed hrest answer =>
      rw [getElem?_advance hproc] at h
      split at h
      · next heq =>
          cases h
          subst heq
          exact .inr (.inr (.inl ⟨_, _, _, _, rfl, hproc, hcrashed, hrest, answer, rfl⟩))
      · exact .inl h
  | crash hproc hcrash =>
      rw [getElem?_drop hproc] at h
      split at h
      · next heq =>
          cases h
          subst heq
          exact .inr (.inr (.inr ⟨_, rfl, hproc, hcrash, rfl⟩))
      · exact .inl h
  | settle _ _ _ _ => exact .inl h
  | drift _ => exact .inl h

/-- What a step can have done to what a process has done. -/
theorem Step.trace_cases {a : Action Reply ε Job} {pid : ℕ} {proc' : Proc Reply ε α Job}
    (step : M.Step s a s') (h : s'.procs[pid]? = some proc') :
    proc'.trace = [] ∨ ∃ proc, s.procs[pid]? = some proc ∧ proc.job = proc'.job ∧
      (proc'.trace = proc.trace ∨ ∃ ev, a = .turn pid ev ∧ M.answers pid s.shared ev s'.shared ∧
        proc'.trace = ev :: proc.trace) := by
  obtain hold | ⟨job, -, -, -, -, rfl⟩ | ⟨proc, c, next, r, ha, hproc, -, -, answer, rfl⟩ |
    ⟨proc, -, hproc, -, rfl⟩ := step.proc_cases h
  · exact .inr ⟨proc', hold, rfl, .inl rfl⟩
  · exact .inl rfl
  · exact .inr ⟨proc, hproc, rfl, .inr ⟨_, ha, answer, rfl⟩⟩
  · exact .inr ⟨proc, hproc, rfl, .inl rfl⟩

/-- A process stays, with the same job and with what it has done. -/
theorem Step.proc_stays {a : Action Reply ε Job} {pid : ℕ} {proc : Proc Reply ε α Job}
    (step : M.Step s a s') (h : s.procs[pid]? = some proc) :
    ∃ proc', s'.procs[pid]? = some proc' ∧ proc'.job = proc.job ∧
      (proc'.trace = proc.trace ∨ ∃ ev, a = .turn pid ev ∧ proc'.trace = ev :: proc.trace) := by
  have hlt := (List.getElem?_eq_some_iff.mp h).1
  cases step with
  | start _ =>
      exact ⟨proc, by rw [getElem?_spawn, if_neg (by omega), h], rfl, .inl rfl⟩
  | @turn pid' proc' c next r shared hproc hcrashed hrest answer =>
      by_cases heq : pid = pid'
      · subst heq
        cases hproc.symm.trans h
        exact ⟨{ proc with rest := next r, trace := ⟨c, r⟩ :: proc.trace },
          by rw [getElem?_advance hproc, if_pos rfl], rfl, .inr ⟨_, rfl, rfl⟩⟩
      · exact ⟨proc, by rw [getElem?_advance hproc, if_neg heq, h], rfl, .inl rfl⟩
  | @crash pid' proc' shared hproc hcrash =>
      by_cases heq : pid = pid'
      · subst heq
        cases hproc.symm.trans h
        exact ⟨{ proc with crashed := true }, by rw [getElem?_drop hproc, if_pos rfl], rfl,
          .inl rfl⟩
      · exact ⟨proc, by rw [getElem?_drop hproc, if_neg heq, h], rfl, .inl rfl⟩
  | settle _ _ _ _ => exact ⟨proc, h, rfl, .inl rfl⟩
  | drift _ => exact ⟨proc, h, rfl, .inl rfl⟩

/-- What has been called stays in the history. -/
theorem Step.history_suffix {a : Action Reply ε Job} (step : M.Step s a s') :
    s.history <:+ s'.history := by
  cases step with
  | turn _ _ _ _ => exact List.suffix_cons _ _
  | _ => exact List.suffix_refl _

theorem Coherent.step {a : Action Reply ε Job} (h : Coherent M s) (step : M.Step s a s') :
    Coherent M s' := by
  refine ⟨fun pid proc' hproc' => ?_, fun pid proc' hproc' => ?_, fun pid ev member => ?_⟩
  · obtain hold | ⟨job, -, -, -, -, rfl⟩ | ⟨proc, c, next, r, -, hproc, -, hrest, -, rfl⟩ |
      ⟨proc, -, hproc, -, rfl⟩ := step.proc_cases hproc'
    · exact h.follows pid proc' hold
    · exact .refl
    · exact .tail (hrest ▸ h.follows pid proc hproc) ⟨trivial, rfl⟩
    · exact h.follows pid proc hproc
  · cases step with
    | start _ =>
        rw [getElem?_spawn] at hproc'
        split at hproc'
        · next hlen =>
            cases hproc'
            apply List.eq_nil_iff_forall_not_mem.mpr
            intro ev member
            have := h.started pid ev (mem_own.mp member)
            omega
        · exact h.traces pid proc' hproc'
    | turn hproc _ _ _ =>
        rw [getElem?_advance hproc] at hproc'
        split at hproc'
        · next heq =>
            cases hproc'
            subst heq
            simp only [Pool.advance, own_cons_self, h.traces _ _ hproc]
        · next hne =>
            rw [Pool.advance, own_cons_ne (Ne.symm hne)]
            exact h.traces pid proc' hproc'
    | @crash pid' proc shared hproc _ =>
        rw [getElem?_drop hproc] at hproc'
        split at hproc'
        · next heq =>
            cases hproc'
            subst heq
            exact h.traces pid proc hproc
        · exact h.traces pid proc' hproc'
    | settle _ _ _ _ => exact h.traces pid proc' hproc'
    | drift _ => exact h.traces pid proc' hproc'
  · cases step with
    | start _ =>
        have := h.started pid ev member
        simp only [Pool.spawn, List.length_append, List.length_singleton]
        omega
    | turn hproc _ _ _ =>
        simp only [Pool.advance, List.length_set]
        cases List.mem_cons.mp member with
        | inl heq =>
            cases heq
            exact (List.getElem?_eq_some_iff.mp hproc).1
        | inr member => exact h.started pid ev member
    | crash _ _ => simpa only [Pool.drop, List.length_set] using h.started pid ev member
    | settle _ _ _ _ => exact h.started pid ev member
    | drift _ => exact h.started pid ev member

theorem Run.coherent (run : M.Run allowed init s) : Coherent M s :=
  run.invariant
    ⟨fun pid proc h => by simp [Pool.initial] at h, fun pid proc h => by simp [Pool.initial] at h,
      fun pid ev h => by simp [Pool.initial] at h⟩
    (fun _ _ _ _ h step _ => h.step step)

/-- A process with a past was there before the step, with the same job. -/
theorem Step.job_of_mem_history {a : Action Reply ε Job} (step : M.Step s a s') (h : Coherent M s)
    {x : ℕ × Event Reply ε} (member : x ∈ s.history) {proc' : Proc Reply ε α Job}
    (hproc' : s'.procs[x.1]? = some proc') :
    ∃ proc, s.procs[x.1]? = some proc ∧ proc.job = proc'.job := by
  have hproc := List.getElem?_eq_getElem (h.started x.1 x.2 member)
  obtain ⟨proc'', hproc'', hjob, -⟩ := step.proc_stays hproc
  cases hproc'.symm.trans hproc''
  exact ⟨_, hproc, hjob.symm⟩

/-- A fact about a job's own trace holds of every process that runs the job. -/
theorem Coherent.local_invariant (h : Coherent M s) {pid : ℕ} {proc : Proc Reply ε α Job}
    (hproc : s.procs[pid]? = some proc) {ok : Event Reply ε → Prop} {T : Trace Reply ε → Prop}
    {R : Except ε α → Trace Reply ε → Prop}
    (fact : (M.code proc.job).wp (recording ok) T R []) (start : T [])
    (events : ∀ ev ∈ proc.trace, ok ev) :
    T proc.trace ∧ ∀ o, proc.rest = .done o → R o proc.trace := by
  have restricted : ∀ {p q : Program Reply ε α} {t t' : Trace Reply ε},
      Program.Leads (recording fun _ => True) p t q t' → (∀ ev ∈ t', ok ev) →
      Program.Leads (recording ok) p t q t' := by
    intro p q t t' leads
    induction leads with
    | refl => exact fun _ => .refl
    | tail _ answer ih =>
        obtain ⟨-, rfl⟩ := answer
        intro all
        exact .tail (ih fun ev he => all ev (List.mem_cons_of_mem _ he))
          ⟨all _ List.mem_cons_self, rfl⟩
  have leads := restricted (h.follows pid proc hproc) events
  exact ⟨fact.invariant start leads, fun o ho => fact.outcome (ho ▸ leads)⟩

/-- What is true of every permitted turn is true of every event of every process. -/
theorem Run.events {ok : Event Reply ε → Prop} (run : M.Run allowed init s)
    (turns : ∀ s pid ev s', M.answers pid s.shared ev s' → allowed s (.turn pid ev) → ok ev) :
    ∀ (pid : ℕ) (proc : Proc Reply ε α Job), s.procs[pid]? = some proc →
      ∀ ev ∈ proc.trace, ok ev := by
  induction run with
  | initial =>
      intro pid proc h
      simp [Pool.initial] at h
  | next _ step permitted ih =>
      intro pid proc' hproc' ev member
      obtain hold | ⟨job, -, -, -, -, rfl⟩ | ⟨proc, c, next, r, rfl, hproc, -, -, answer, rfl⟩ |
        ⟨proc, -, hproc, -, rfl⟩ := step.proc_cases hproc'
      · exact ih pid proc' hold ev member
      · cases member
      · obtain rfl | member := List.mem_cons.mp member
        · exact turns _ _ _ _ answer permitted
        · exact ih pid proc hproc ev member
      · exact ih pid proc hproc ev member

/-- What every answer satisfies is true of every event of every process. -/
theorem Run.answered {ok : Event Reply ε → Prop} (run : M.Run allowed init s)
    (answers : ∀ pid w ev w', M.answers pid w ev w' → ok ev) :
    ∀ (pid : ℕ) (proc : Proc Reply ε α Job), s.procs[pid]? = some proc →
      ∀ ev ∈ proc.trace, ok ev :=
  run.events fun _ _ _ _ answer _ => answers _ _ _ _ answer

/-- A fact about the traces of single jobs holds of every process of a run. -/
theorem Run.local_invariant {ok : Event Reply ε → Prop} {T : Trace Reply ε → Prop}
    {R : Except ε α → Trace Reply ε → Prop} (run : M.Run allowed init s)
    (answers : ∀ pid w ev w', M.answers pid w ev w' → ok ev) {pid : ℕ}
    {proc : Proc Reply ε α Job} (hproc : s.procs[pid]? = some proc)
    (fact : (M.code proc.job).wp (recording ok) T R []) (start : T []) :
    T proc.trace ∧ ∀ o, proc.rest = .done o → R o proc.trace :=
  run.coherent.local_invariant hproc fact start (run.answered answers pid proc hproc)

/-- The calls of a process are those of its job, given the calls before them. -/
theorem Run.always {ok : Event Reply ε → Prop} {φ : Job → Event Reply ε → Trace Reply ε → Prop}
    (run : M.Run allowed init s) (answers : ∀ pid w ev w', M.answers pid w ev w' → ok ev)
    (fact : ∀ job, (M.code job).wp (recording ok) (Program.Always (φ job)) (fun _ _ => True) [])
    {pid : ℕ} {proc : Proc Reply ε α Job} (hproc : s.procs[pid]? = some proc) :
    Program.Always (φ proc.job) proc.trace :=
  (run.local_invariant answers hproc (fact proc.job) (Program.always_nil _)).1

/-- A turn makes a call of the process's job, given the calls before it. -/
theorem Run.turn_makes {ok : Event Reply ε → Prop}
    {φ : Job → Event Reply ε → Trace Reply ε → Prop} (run : M.Run allowed init s)
    (answers : ∀ pid w ev w', M.answers pid w ev w' → ok ev)
    (fact : ∀ job, (M.code job).wp (recording ok) (Program.Always (φ job)) (fun _ _ => True) [])
    {pid : ℕ} {ev : Event Reply ε} (step : M.Step s (.turn pid ev) s')
    (permitted : allowed s (.turn pid ev)) :
    ∃ proc, s.procs[pid]? = some proc ∧ M.answers pid s.shared ev s'.shared ∧
      φ proc.job ev proc.trace := by
  have run' : M.Run allowed init s' := .next run step permitted
  cases step with
  | @turn _ proc c next r shared hproc hcrashed hrest answer =>
      have hproc' : (s.advance pid proc ⟨c, r⟩ (next r) shared).procs[pid]? =
          some { proc with rest := next r, trace := ⟨c, r⟩ :: proc.trace } := by
        rw [getElem?_advance hproc, if_pos rfl]
      exact ⟨proc, hproc, answer, (run'.always answers fact hproc').1⟩

/-! ## Executing a schedule -/

/-- Process `pid` takes one turn, unless it has ended, has crashed, or has to wait. -/
def turn (handler : (c : Call) → σ → Option (Except ε (Reply c) × σ)) (pid : ℕ)
    (s : Pool Reply ε α Job σ) : Option (Event Reply ε × Pool Reply ε α Job σ) :=
  match s.procs[pid]? with
  | none => none
  | some proc =>
    if proc.crashed then none else
      match proc.rest with
      | .done _ => none
      | .step c next =>
        match handler c s.shared with
        | none => none
        | some (r, shared) => some (⟨c, r⟩, s.advance pid proc ⟨c, r⟩ (next r) shared)

theorem step_turn {handler : (c : Call) → σ → Option (Except ε (Reply c) × σ)} {pid : ℕ}
    (sound : ∀ c s r s', handler c s = some (r, s') → M.answers pid s ⟨c, r⟩ s')
    {ev : Event Reply ε} (h : turn handler pid s = some (ev, s')) : M.Step s (.turn pid ev) s' := by
  unfold turn at h
  split at h
  · cases h
  · next proc hproc =>
    split at h
    · cases h
    · next hcrashed =>
      split at h
      · cases h
      · next c next hrest =>
        split at h
        · cases h
        · next r shared hanswer =>
          cases h
          exact .turn hproc (by simpa using hcrashed) hrest (sound _ _ _ _ hanswer)

/-- At most `n` turns of process `pid`, stopping before the first that `permit` refuses. -/
def turns (permit : Pool Reply ε α Job σ → Action Reply ε Job → Bool)
    (handler : (c : Call) → σ → Option (Except ε (Reply c) × σ)) (pid : ℕ) :
    ℕ → Pool Reply ε α Job σ → Pool Reply ε α Job σ
  | 0, s => s
  | n + 1, s =>
    match turn handler pid s with
    | none => s
    | some (ev, s') => if permit s (.turn pid ev) then turns permit handler pid n s' else s

theorem Run.turns {permit : Pool Reply ε α Job σ → Action Reply ε Job → Bool}
    {handler : (c : Call) → σ → Option (Except ε (Reply c) × σ)} {pid : ℕ}
    (sound : ∀ c s r s', handler c s = some (r, s') → M.answers pid s ⟨c, r⟩ s')
    (permitted : ∀ s a, permit s a = true → allowed s a)
    (run : M.Run allowed init s) (n : ℕ) : M.Run allowed init (turns permit handler pid n s) := by
  induction n generalizing s with
  | zero => exact run
  | succ n ih =>
      unfold Machine.turns
      split
      · exact run
      · next ev s' hturn =>
        split
        · next hpermit => exact ih (.next run (step_turn sound hturn) (permitted _ _ hpermit))
        · exact run

/-- Start all jobs, then let processes take turns: `(pid, n)` stands for `n` turns. -/
def staged (M : Machine Reply ε α Job σ)
    (permit : Pool Reply ε α Job σ → Action Reply ε Job → Bool)
    (handler : ℕ → (c : Call) → σ → Option (Except ε (Reply c) × σ)) (init : σ) (jobs : List Job)
    (order : List (ℕ × ℕ)) : Pool Reply ε α Job σ :=
  order.foldl (fun s t => turns permit (handler t.1) t.1 t.2 s)
    (jobs.foldl (fun s job => s.spawn job (M.code job)) (Pool.initial init))

theorem Run.staged {permit : Pool Reply ε α Job σ → Action Reply ε Job → Bool}
    {handler : ℕ → (c : Call) → σ → Option (Except ε (Reply c) × σ)}
    (sound : ∀ pid c s r s', handler pid c s = some (r, s') → M.answers pid s ⟨c, r⟩ s')
    (starts : ∀ s job, M.starts s job) (starting : ∀ s job, permit s (.start job) = true)
    (jobs : List Job) (order : List (ℕ × ℕ)) :
    M.Run (fun s a => permit s a = true) init
      (Machine.staged M permit handler init jobs order) := by
  have started : ∀ s, M.Run (fun s a => permit s a = true) init s →
      M.Run (fun s a => permit s a = true) init
        (jobs.foldl (fun s job => s.spawn job (M.code job)) s) := by
    induction jobs with
    | nil => exact fun s h => h
    | cons job rest ih => exact fun s h => ih _ (.next h (.start (starts _ _)) (starting _ _))
  suffices h : ∀ s, M.Run (fun s a => permit s a = true) init s →
      M.Run (fun s a => permit s a = true) init
        (order.foldl (fun s t => Machine.turns permit (handler t.1) t.1 t.2 s) s) from
    h _ (started _ .initial)
  induction order with
  | nil => exact fun s h => h
  | cons t rest ih => exact fun s h => ih _ (h.turns (sound t.1) (fun _ _ h => h) t.2)

end Machine

end Interaction
