import Notification.Interaction.Program

/-!
# Weakest preconditions for interacting programs

An environment is a relation: in state `s` the call of an event may be answered
as the event says, leading to `s'`. `Program.wp` quantifies over every answer the
environment allows, keeps an invariant after each call and ends in a
postcondition on the outcome, thrown errors included.

The environment `recording` has the program's own trace as its state and allows
every answer to be given, so that `wp (recording ok)` states facts about a
program that hold whatever the rest of the world does.
-/

namespace Interaction

variable {Call : Type} {Reply : Call → Type} {ε α β σ : Type}

/-- A trace lists the events of one program, the latest first. -/
abbrev Trace {Call : Type} (Reply : Call → Type) (ε : Type) := List (Event Reply ε)

/-- How an environment may answer: the state before, the event, the state after. -/
abbrev Env {Call : Type} (Reply : Call → Type) (ε σ : Type) := σ → Event Reply ε → σ → Prop

/-- The environment that only writes events down. Answers outside of `ok` never come. -/
def recording (ok : Event Reply ε → Prop) : Env Reply ε (Trace Reply ε) :=
  fun t ev t' => ok ev ∧ t' = ev :: t

/-- A postcondition given separately for returned values and thrown errors. -/
def either (onOk : α → σ → Prop) (onError : ε → σ → Prop) : Except ε α → σ → Prop
  | .ok a, s => onOk a s
  | .error e, s => onError e s

@[simp] theorem either_ok (onOk : α → σ → Prop) (onError : ε → σ → Prop) (a : α) (s : σ) :
    either onOk onError (.ok a) s ↔ onOk a s := Iff.rfl

@[simp] theorem either_error (onOk : α → σ → Prop) (onError : ε → σ → Prop) (e : ε) (s : σ) :
    either onOk onError (.error e) s ↔ onError e s := Iff.rfl

namespace Program

/-- `p` started in `s` may have come as far as `q` in `s'`. -/
inductive Leads (env : Env Reply ε σ) : Program Reply ε α → σ → Program Reply ε α → σ → Prop
  | refl {p s} : Leads env p s p s
  | tail {p s c next s' r s''} :
      Leads env p s (step c next) s' → env s' ⟨c, r⟩ s'' → Leads env p s (next r) s''

/-- Every call keeps `I`, and the outcome and the final state satisfy `Q`. -/
def wp (env : Env Reply ε σ) (I : σ → Prop) (Q : Except ε α → σ → Prop) :
    Program Reply ε α → σ → Prop
  | done outcome, s => Q outcome s
  | step c next, s => ∀ r s', env s ⟨c, r⟩ s' → I s' ∧ (next r).wp env I Q s'

variable {env : Env Reply ε σ} {I J : σ → Prop} {Q Q' : Except ε α → σ → Prop} {s s' : σ}

@[simp] theorem wp_pure (a : α) : (pure a : Program Reply ε α).wp env I Q s ↔ Q (.ok a) s :=
  Iff.rfl

@[simp] theorem wp_throw (e : ε) :
    (throw e : Program Reply ε α).wp env I Q s ↔ Q (.error e) s := Iff.rfl

@[simp] theorem wp_done (outcome : Except ε α) :
    (done outcome : Program Reply ε α).wp env I Q s ↔ Q outcome s := Iff.rfl

theorem mono_wp {p : Program Reply ε α} (h : p.wp env I Q s)
    (inv : ∀ s, I s → J s) (post : ∀ o s, Q o s → Q' o s) : p.wp env J Q' s := by
  induction p generalizing s with
  | done outcome => exact post _ _ h
  | step c next ih =>
      intro r s' hr
      obtain ⟨hi, hn⟩ := h r s' hr
      exact ⟨inv _ hi, ih r hn⟩

theorem mono_post {p : Program Reply ε α} (h : p.wp env I Q s)
    (post : ∀ o s, Q o s → Q' o s) : p.wp env I Q' s :=
  mono_wp h (fun _ hi => hi) post

/-- Two preconditions of one program hold together. -/
theorem wp.and {p : Program Reply ε α} (h : p.wp env I Q s) (h' : p.wp env J Q' s) :
    p.wp env (fun s => I s ∧ J s) (fun o s => Q o s ∧ Q' o s) s := by
  induction p generalizing s with
  | done outcome => exact ⟨h, h'⟩
  | step c next ih =>
      intro r s' hr
      obtain ⟨hi, hn⟩ := h r s' hr
      obtain ⟨hj, hn'⟩ := h' r s' hr
      exact ⟨⟨hi, hj⟩, ih r hn hn'⟩

/-- Nothing needs to be known of a program to know nothing of its end. -/
theorem wp_true (p : Program Reply ε α) (s : σ) :
    p.wp env (fun _ => True) (fun _ _ => True) s := by
  induction p generalizing s with
  | done outcome => trivial
  | step c next ih => exact fun r s' _ => ⟨trivial, ih r s'⟩

@[simp] theorem wp_bind {p : Program Reply ε β} {f : β → Program Reply ε α} :
    (p >>= f).wp env I Q s ↔
      p.wp env I (either (fun b => (f b).wp env I Q) fun e => Q (.error e)) s := by
  rw [bind_eq]
  induction p generalizing s with
  | done outcome => cases outcome <;> exact Iff.rfl
  | step c next ih =>
      exact forall_congr' fun r => forall_congr' fun s' => imp_congr_right fun _ =>
        and_congr_right fun _ => ih r

@[simp] theorem wp_tryCatch {p : Program Reply ε α} {handler : ε → Program Reply ε α} :
    (tryCatch p handler).wp env I Q s ↔
      p.wp env I (either (fun a => Q (.ok a)) fun e => (handler e).wp env I Q) s := by
  rw [tryCatch_eq]
  induction p generalizing s with
  | done outcome => cases outcome <;> exact Iff.rfl
  | step c next ih =>
      exact forall_congr' fun r => forall_congr' fun s' => imp_congr_right fun _ =>
        and_congr_right fun _ => ih r

@[simp] theorem wp_andFinally {p : Program Reply ε α} {cleanup : Program Reply ε Unit} :
    (p.andFinally cleanup).wp env I Q s ↔
      p.wp env I (fun o => cleanup.wp env I (either (fun _ => Q o) fun e => Q (.error e))) s := by
  induction p generalizing s with
  | done outcome =>
      change (cleanup >>= fun _ => done outcome).wp env I Q s ↔ _
      rw [wp_bind]
      exact Iff.rfl
  | step c next ih =>
      exact forall_congr' fun r => forall_congr' fun s' => imp_congr_right fun _ =>
        and_congr_right fun _ => ih r

theorem wp_ite {b : Prop} [Decidable b] {p q : Program Reply ε α} :
    (if b then p else q).wp env I Q s ↔
      (b → p.wp env I Q s) ∧ (¬ b → q.wp env I Q s) := by
  by_cases hb : b <;> simp [hb]

/-- The rule for a loop over a list: `inv rest` holds when `rest` is still to do.
An error of the body leaves the loop at once. -/
theorem wp_forEach {body : β → Program Reply ε α} {Q : Except ε (List α) → σ → Prop}
    (inv : List β → List α → σ → Prop)
    (iteration : ∀ b rest done s, inv (b :: rest) done s →
      (body b).wp env I (either (fun a => inv rest (done ++ [a])) fun e => Q (.error e)) s)
    (exit : ∀ done s, inv [] done s → Q (.ok done) s)
    {bs : List β} (pre : inv bs [] s) : (forEach bs body).wp env I Q s := by
  suffices loop : ∀ (bs : List β) (before : List α) s, inv bs before s →
      (forEach bs body).wp env I
        (either (fun as => Q (.ok (before ++ as))) fun e => Q (.error e)) s by
    apply mono_post (loop bs [] s pre)
    intro o s' h
    cases o <;> simpa using h
  intro bs
  induction bs with
  | nil =>
      intro before s hs
      simpa [forEach] using exit before s hs
  | cons b rest ih =>
      intro before s hs
      rw [forEach, wp_bind]
      apply mono_post (iteration b rest before s hs)
      intro o s' h
      cases o with
      | error e => exact h
      | ok a =>
          rw [either_ok, wp_bind]
          apply mono_post (ih (before ++ [a]) s' h)
          intro o' s'' h'
          cases o' with
          | error e => exact h'
          | ok as => simpa using h'

/-- The precondition travels along an execution. -/
theorem wp.leads {p q : Program Reply ε α} (h : p.wp env I Q s) (run : Leads env p s q s') :
    q.wp env I Q s' := by
  induction run with
  | refl => exact h
  | tail _ answer ih => exact (ih _ _ answer).2

/-- Every state reached after the start satisfies the invariant. -/
theorem wp.invariant {p q : Program Reply ε α} (h : p.wp env I Q s) (start : I s)
    (run : Leads env p s q s') : I s' := by
  cases run with
  | refl => exact start
  | tail before answer => exact ((h.leads before) _ _ answer).1

/-- A finished execution satisfies the postcondition. -/
theorem wp.outcome {p : Program Reply ε α} {o : Except ε α} (h : p.wp env I Q s)
    (run : Leads env p s (done o) s') : Q o s' := h.leads run

theorem Leads.trans {p q r : Program Reply ε α} {s'' : σ} (h : Leads env p s q s')
    (h' : Leads env q s' r s'') : Leads env p s r s'' := by
  induction h' with
  | refl => exact h
  | tail _ answer ih => exact .tail ih answer

/-- Running against a handler is one of the executions of any environment that
allows the handler's answers. -/
theorem leads_run {handler : (c : Call) → σ → Except ε (Reply c) × σ}
    (sound : ∀ c s, env s ⟨c, (handler c s).1⟩ (handler c s).2)
    (p : Program Reply ε α) (s : σ) :
    Leads env p s (done (p.run handler s).1) (p.run handler s).2 := by
  induction p generalizing s with
  | done outcome => exact .refl
  | step c next ih => exact Leads.trans (.tail .refl (sound c s)) (ih _ _)

/-- The environment in which a handler gives every answer. -/
def handled (handler : (c : Call) → σ → Except ε (Reply c) × σ) : Env Reply ε σ :=
  fun s ev s' => handler ev.call s = (ev.answer, s')

/-- A precondition in the handler's environment speaks about its only execution. -/
theorem wp.run {handler : (c : Call) → σ → Except ε (Reply c) × σ} {p : Program Reply ε α}
    (h : p.wp (handled handler) I Q s) : Q (p.run handler s).1 (p.run handler s).2 :=
  h.outcome (leads_run (fun _ _ => rfl) p s)

/-- In the run against a handler, every call satisfies `P` in the state it is made in. -/
def Meets (handler : (c : Call) → σ → Except ε (Reply c) × σ) (P : Call → σ → Prop) :
    Program Reply ε α → σ → Prop
  | done _, _ => True
  | step c next, s => P c s ∧ (next (handler c s).1).Meets handler P (handler c s).2

section Meets

variable {handler : (c : Call) → σ → Except ε (Reply c) × σ} {P : Call → σ → Prop}

theorem meets_bind {p : Program Reply ε β} {f : β → Program Reply ε α} :
    (p >>= f).Meets handler P s ↔ p.Meets handler P s ∧
      ∀ b s', p.run handler s = (.ok b, s') → (f b).Meets handler P s' := by
  rw [bind_eq]
  induction p generalizing s with
  | done outcome =>
      cases outcome with
      | error e => exact iff_of_true trivial ⟨trivial, fun _ _ h => by cases h⟩
      | ok b => exact ⟨fun h => ⟨trivial, fun _ _ heq => by cases heq; exact h⟩,
        fun h => h.2 b s rfl⟩
  | step c next ih => exact (and_congr_right fun _ => ih _).trans and_assoc.symm

theorem meets_tryCatch {p : Program Reply ε α} {h : ε → Program Reply ε α} :
    (tryCatch p h).Meets handler P s ↔ p.Meets handler P s ∧
      ∀ e s', p.run handler s = (.error e, s') → (h e).Meets handler P s' := by
  rw [tryCatch_eq]
  induction p generalizing s with
  | done outcome =>
      cases outcome with
      | error e => exact ⟨fun h => ⟨trivial, fun _ _ heq => by cases heq; exact h⟩,
        fun h => h.2 e s rfl⟩
      | ok a => exact iff_of_true trivial ⟨trivial, fun _ _ h => by cases h⟩
  | step c next ih => exact (and_congr_right fun _ => ih _).trans and_assoc.symm

end Meets

/-! ## States with a trace -/

section Traced

variable {permits : Env Reply ε σ} {t : Trace Reply ε}

/-- The environment with the events of the program written down beside its state.
What `permits` does not allow never happens. -/
def traced (env permits : Env Reply ε σ) : Env Reply ε (σ × Trace Reply ε) :=
  fun s ev s' => env s.1 ev s'.1 ∧ s'.2 = ev :: s.2 ∧ permits s.1 ev s'.1

theorem wp_step_traced {c : Call} {next : Except ε (Reply c) → Program Reply ε α}
    {I : σ × Trace Reply ε → Prop} {Q : Except ε α → σ × Trace Reply ε → Prop} :
    (step c next).wp (traced env permits) I Q (s, t) ↔
      ∀ r s', env s ⟨c, r⟩ s' → permits s ⟨c, r⟩ s' →
        I (s', ⟨c, r⟩ :: t) ∧ (next r).wp (traced env permits) I Q (s', ⟨c, r⟩ :: t) := by
  constructor
  · exact fun h r s' answer permitted => h r (s', ⟨c, r⟩ :: t) ⟨answer, rfl, permitted⟩
  · rintro h r ⟨s', t'⟩ ⟨answer, rfl, permitted⟩
    exact h r s' answer permitted

theorem wp_perform_traced {c : Call} {I : σ × Trace Reply ε → Prop}
    {Q : Except ε (Reply c) → σ × Trace Reply ε → Prop} :
    (perform c : Program Reply ε _).wp (traced env permits) I Q (s, t) ↔
      ∀ r s', env s ⟨c, r⟩ s' → permits s ⟨c, r⟩ s' →
        I (s', ⟨c, r⟩ :: t) ∧ Q r (s', ⟨c, r⟩ :: t) :=
  wp_step_traced

/-- What a trace has shown stays in it. -/
theorem wp_traced_any (seen : Event Reply ε → Bool) (h : t.any seen = true)
    (p : Program Reply ε α) :
    p.wp (traced env permits) (fun _ => True) (fun _ s' => s'.2.any seen = true) (s, t) := by
  induction p generalizing s t with
  | done outcome => exact h
  | step c next ih =>
      exact wp_step_traced.mpr fun r s' _ _ =>
        ⟨trivial, ih r (by rw [List.any_cons, h, Bool.or_true])⟩

/-- The handler with the events written down. -/
def recorded (handler : (c : Call) → σ → Except ε (Reply c) × σ) (c : Call)
    (s : σ × Trace Reply ε) : Except ε (Reply c) × (σ × Trace Reply ε) :=
  ((handler c s.1).1, (handler c s.1).2, ⟨c, (handler c s.1).1⟩ :: s.2)

theorem leads_recorded {handler : (c : Call) → σ → Except ε (Reply c) × σ}
    (sound : ∀ c s, env s ⟨c, (handler c s).1⟩ (handler c s).2)
    (permitted : ∀ c s, permits s ⟨c, (handler c s).1⟩ (handler c s).2) (p : Program Reply ε α)
    (s : σ × Trace Reply ε) :
    Leads (traced env permits) p s (done (p.run (recorded handler) s).1)
      (p.run (recorded handler) s).2 :=
  leads_run (fun c s => ⟨sound c s.1, rfl, permitted c s.1⟩) p s

end Traced

/-! ## Facts about a program's own trace -/

variable {ok : Event Reply ε → Prop} {t : Trace Reply ε}
  {T : Trace Reply ε → Prop} {R : Except ε α → Trace Reply ε → Prop}

theorem wp_step_recording {c : Call} {next : Except ε (Reply c) → Program Reply ε α} :
    (step c next).wp (recording ok) T R t ↔
      ∀ r, ok ⟨c, r⟩ → T (⟨c, r⟩ :: t) ∧ (next r).wp (recording ok) T R (⟨c, r⟩ :: t) :=
  ⟨fun h r hr => h r _ ⟨hr, rfl⟩, fun h r _ hr => hr.2 ▸ h r hr.1⟩

@[simp] theorem wp_perform_recording {c : Call} {R : Except ε (Reply c) → Trace Reply ε → Prop} :
    (perform c : Program Reply ε (Reply c)).wp (recording ok) T R t ↔
      ∀ r, ok ⟨c, r⟩ → T (⟨c, r⟩ :: t) ∧ R r (⟨c, r⟩ :: t) :=
  wp_step_recording

/-- A program only adds to its trace. -/
theorem wp_suffix {p : Program Reply ε α} (h : p.wp (recording ok) T R t) :
    p.wp (recording ok) T (fun o t' => R o t' ∧ t <:+ t') t := by
  induction p generalizing t with
  | done outcome => exact ⟨h, List.suffix_refl t⟩
  | step c next ih =>
      rw [wp_step_recording] at h ⊢
      intro r hr
      obtain ⟨hT, hnext⟩ := h r hr
      exact ⟨hT, mono_post (ih r hnext) fun o t' h' => ⟨h'.1, (List.suffix_cons _ _).trans h'.2⟩⟩

/-- What a program's trace has whatever is answered, it also has beside a state. An
invariant that every event of such a trace keeps is kept. -/
theorem wp.traced {p : Program Reply ε α} {permits : Env Reply ε σ}
    {J : σ → Trace Reply ε → Prop} (h : p.wp (recording fun _ => True) T R t)
    (keep : ∀ s ev s' t, env s ev s' → permits s ev s' → T (ev :: t) → J s t → J s' (ev :: t))
    (start : J s t) : p.wp (traced env permits) (fun s => J s.1 s.2 ∧ T s.2)
      (fun o s => J s.1 s.2 ∧ R o s.2) (s, t) := by
  induction p generalizing s t with
  | done outcome => exact ⟨start, h⟩
  | step c next ih =>
      rw [wp_step_recording] at h
      rw [wp_step_traced]
      intro r s' answer permitted
      obtain ⟨hT, hnext⟩ := h r trivial
      have kept := keep s _ s' t answer permitted hT start
      exact ⟨⟨kept, hT⟩, ih r hnext kept⟩

/-- Every event satisfies `φ`, given the events before it. -/
def Always (φ : Event Reply ε → Trace Reply ε → Prop) : Trace Reply ε → Prop
  | [] => True
  | ev :: t => φ ev t ∧ Always φ t

@[simp] theorem always_nil (φ : Event Reply ε → Trace Reply ε → Prop) : Always φ [] := trivial

@[simp] theorem always_cons {φ : Event Reply ε → Trace Reply ε → Prop} {ev : Event Reply ε} :
    Always φ (ev :: t) ↔ φ ev t ∧ Always φ t := Iff.rfl

/-- What is always true was true of each event, after the events before it. -/
theorem Always.of_mem {φ : Event Reply ε → Trace Reply ε → Prop} (h : Always φ t)
    {ev : Event Reply ε} (member : ev ∈ t) : ∃ before, ev :: before <:+ t ∧ φ ev before := by
  induction t with
  | nil => cases member
  | cons ev' t ih =>
      obtain rfl | member := List.mem_cons.mp member
      · exact ⟨t, List.suffix_refl _, h.1⟩
      · obtain ⟨before, suffix, hev⟩ := ih h.2 member
        exact ⟨before, suffix.trans (List.suffix_cons _ _), hev⟩

/-- All events the program can ever make lie in `S`. -/
def Makes (S : Event Reply ε → Prop) : Program Reply ε α → Prop
  | done _ => True
  | step c next => ∀ r, S ⟨c, r⟩ ∧ (next r).Makes S

variable {S S' : Event Reply ε → Prop}

@[simp] theorem makes_pure (a : α) : (pure a : Program Reply ε α).Makes S := trivial

@[simp] theorem makes_throw (e : ε) : (throw e : Program Reply ε α).Makes S := trivial

@[simp] theorem makes_done (o : Except ε α) : (done o : Program Reply ε α).Makes S := trivial

@[simp] theorem makes_perform {c : Call} :
    (perform c : Program Reply ε _).Makes S ↔ ∀ r, S ⟨c, r⟩ :=
  forall_congr' fun _ => and_iff_left trivial

theorem makes_true (p : Program Reply ε α) : p.Makes fun _ => True := by
  induction p with
  | done outcome => trivial
  | step c next ih => exact fun r => ⟨trivial, ih r⟩

theorem Makes.mono {p : Program Reply ε α} (h : p.Makes S) (imp : ∀ ev, S ev → S' ev) :
    p.Makes S' := by
  induction p with
  | done outcome => trivial
  | step c next ih => exact fun r => ⟨imp _ (h r).1, ih r (h r).2⟩

theorem Makes.bind {p : Program Reply ε β} {f : β → Program Reply ε α}
    (hp : p.Makes S) (hf : ∀ b, (f b).Makes S) : (p >>= f).Makes S := by
  rw [bind_eq]
  induction p with
  | done outcome =>
      cases outcome with
      | error e => trivial
      | ok b => exact hf b
  | step c next ih => exact fun r => ⟨(hp r).1, ih r (hp r).2⟩

theorem Makes.tryCatch {p : Program Reply ε α} {handler : ε → Program Reply ε α}
    (hp : p.Makes S) (hh : ∀ e, (handler e).Makes S) : (tryCatch p handler).Makes S := by
  rw [tryCatch_eq]
  induction p with
  | done outcome =>
      cases outcome with
      | error e => exact hh e
      | ok a => trivial
  | step c next ih => exact fun r => ⟨(hp r).1, ih r (hp r).2⟩

theorem Makes.andFinally {p : Program Reply ε α} {cleanup : Program Reply ε Unit}
    (hp : p.Makes S) (hc : cleanup.Makes S) : (p.andFinally cleanup).Makes S := by
  induction p with
  | done outcome => exact Makes.bind hc fun _ => trivial
  | step c next ih => exact fun r => ⟨(hp r).1, ih r (hp r).2⟩

theorem Makes.ite {b : Prop} [Decidable b] {p q : Program Reply ε α} (hp : p.Makes S)
    (hq : q.Makes S) : (if b then p else q).Makes S := by
  split
  · exact hp
  · exact hq

theorem Makes.forEach {body : β → Program Reply ε α} {bs : List β}
    (h : ∀ b ∈ bs, (body b).Makes S) : (Program.forEach bs body).Makes S := by
  induction bs with
  | nil => trivial
  | cons b rest ih =>
      exact (h b List.mem_cons_self).bind fun _ =>
        (ih fun b' member => h b' (List.mem_cons_of_mem _ member)).bind fun _ => trivial

/-- Whatever is answered, a value that the program returns satisfies `P`. -/
def Returns (P : α → Prop) : Program Reply ε α → Prop
  | done (.ok a) => P a
  | done (.error _) => True
  | step _ next => ∀ r, (next r).Returns P

theorem returns_true (p : Program Reply ε α) : p.Returns fun _ => True := by
  induction p with
  | done outcome => cases outcome <;> trivial
  | step c next ih => exact ih

theorem Returns.bind {P : β → Prop} {P' : α → Prop} {p : Program Reply ε β}
    {f : β → Program Reply ε α} (hp : p.Returns P) (hf : ∀ b, P b → (f b).Returns P') :
    (p >>= f).Returns P' := by
  rw [bind_eq]
  induction p with
  | done outcome =>
      cases outcome with
      | error e => trivial
      | ok b => exact hf b hp
  | step c next ih => exact fun r => ih r (hp r)

theorem Returns.andFinally {P : α → Prop} {p : Program Reply ε α}
    {cleanup : Program Reply ε Unit} (hp : p.Returns P) : (p.andFinally cleanup).Returns P := by
  induction p with
  | done outcome =>
      apply Returns.bind (returns_true cleanup)
      intro _ _
      cases outcome <;> exact hp
  | step c next ih => exact fun r => ih r (hp r)

/-- What a program returns it returns in every environment. -/
theorem Returns.wp {P : α → Prop} {p : Program Reply ε α} (h : p.Returns P) (s : σ) :
    p.wp env (fun _ => True) (either (fun a _ => P a) fun _ _ => True) s := by
  induction p generalizing s with
  | done outcome => cases outcome <;> exact h
  | step c next ih => exact fun r s' _ => ⟨trivial, ih r (h r) s'⟩

/-- What the first half returns may be used for what the second half makes. -/
theorem Makes.bind_of {P : β → Prop} {p : Program Reply ε β} {f : β → Program Reply ε α}
    (hp : p.Makes S) (returns : p.Returns P) (hf : ∀ b, P b → (f b).Makes S) :
    (p >>= f).Makes S := by
  rw [bind_eq]
  induction p with
  | done outcome =>
      cases outcome with
      | error e => trivial
      | ok b => exact hf b returns
  | step c next ih => exact fun r => ⟨(hp r).1, ih r (hp r).2 (returns r)⟩

/-- Handlers that answer the program's calls in the same way run it in the same way. -/
theorem Makes.run_congr {handler handler' : (c : Call) → σ → Except ε (Reply c) × σ}
    {p : Program Reply ε α} (h : p.Makes S)
    (agree : ∀ c r s, S ⟨c, r⟩ → handler c s = handler' c s) (s : σ) :
    p.run handler s = p.run handler' s := by
  induction p generalizing s with
  | done outcome => rfl
  | step c next ih =>
      have hc : handler c s = handler' c s := agree c (handler c s).1 s (h _).1
      simp only [run, hc]
      exact ih _ (h _).2 _

/-- What is true of every event a program can make is met in every run. -/
theorem Makes.meets {handler : (c : Call) → σ → Except ε (Reply c) × σ} {P : Call → σ → Prop}
    {p : Program Reply ε α} (h : p.Makes S) (imp : ∀ c r s, S ⟨c, r⟩ → P c s) (s : σ) :
    p.Meets handler P s := by
  induction p generalizing s with
  | done outcome => trivial
  | step c next ih => exact ⟨imp c (handler c s).1 s (h _).1, ih _ (h _).2 _⟩

/-- What no event of the program changes is the same after a run. -/
theorem Makes.run_keeps {τ : Type} {f : σ → τ}
    {handler : (c : Call) → σ → Except ε (Reply c) × σ} {p : Program Reply ε α} (h : p.Makes S)
    (keep : ∀ c r s, S ⟨c, r⟩ → f (handler c s).2 = f s) (s : σ) :
    f (p.run handler s).2 = f s := by
  induction p generalizing s with
  | done outcome => rfl
  | step c next ih => exact (ih _ (h _).2 _).trans (keep c (handler c s).1 s (h _).1)

/-- What every event of the program keeps is kept by the program. -/
theorem Makes.keeps {I : σ → Prop} {p : Program Reply ε α} (h : p.Makes S)
    (keep : ∀ s ev s', env s ev s' → S ev → I s → I s') (start : I s) :
    p.wp env I (fun _ s' => I s') s := by
  induction p generalizing s with
  | done outcome => exact start
  | step c next ih =>
      intro r s' answer
      have kept := keep s _ s' answer (h r).1 start
      exact ⟨kept, ih r (h r).2 kept⟩

/-- A trace property that every event of the program keeps is kept by the program. -/
theorem Makes.wp {p : Program Reply ε α} (h : p.Makes S)
    (keep : ∀ ev t, S ev → T t → T (ev :: t)) (start : T t) :
    p.wp (recording ok) T (fun _ t' => T t') t :=
  h.keeps (fun t ev _ answer hS hT => answer.2 ▸ keep ev t hS hT) start

/-- What a program makes is what it leaves in its trace. -/
theorem Makes.always {p : Program Reply ε α} (h : p.Makes S)
    (start : Always (fun ev _ => S ev) t) :
    p.wp (recording ok) (Always fun ev _ => S ev) (fun _ t' => Always (fun ev _ => S ev) t') t :=
  h.wp (fun _ _ hS hT => ⟨hS, hT⟩) start

/-- With fewer answers less can happen. -/
theorem wp.restrict {ok' : Event Reply ε → Prop} {p : Program Reply ε α}
    (h : p.wp (recording ok) T R t) (fewer : ∀ ev, ok' ev → ok ev) :
    p.wp (recording ok') T R t := by
  induction p generalizing t with
  | done outcome => exact h
  | step c next ih =>
      rw [wp_step_recording] at h ⊢
      intro r hr
      obtain ⟨hT, hnext⟩ := h r (fewer _ hr)
      exact ⟨hT, ih r hnext⟩

/-- What a program makes from the start it makes after any other events. -/
theorem wp.always_after {p : Program Reply ε α} {t₀ : Trace Reply ε}
    {φ : Event Reply ε → Trace Reply ε → Prop}
    (h : p.wp (recording ok) (Always fun ev _ => S ev) (fun _ _ => True) t₀)
    (imp : ∀ ev before, S ev → φ ev before) (before : Always φ t) :
    p.wp (recording ok) (Always φ) (fun _ t' => Always φ t') t := by
  induction p generalizing t t₀ with
  | done outcome => exact before
  | step c next ih =>
      rw [wp_step_recording] at h ⊢
      intro r hr
      obtain ⟨made, hnext⟩ := h r hr
      have before' : Always φ (⟨c, r⟩ :: t) := ⟨imp _ t made.1, before⟩
      exact ⟨before', ih r hnext before'⟩

end Program

end Interaction
