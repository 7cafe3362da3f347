import Notification.Aggregator.ProcessDeliveryUseCase
import Notification.Router.MySQLMessageRepository
import Notification.System.Genuine

/-!
# The use cases with the repositories that are shipped

`AcceptMessageUseCase` and `ProcessDeliveryUseCase` with the repositories that the source has
for them, on one infrastructure and the schema of `init.sql`. The schema refuses the first
statement of each, so that nothing comes of a message: the request fails, or it is taken for a
duplicate, and a delivery fails, or it is taken for done.
-/

namespace Notification

open Interaction Program

inductive UseCaseJob where
  | accept (request : CreateMessageRequest)
  | process (provider : IProvider) (message : MessageToDeliver)

def UseCaseJob.code (stringify : Json → String) (sha256 : String → String) :
    UseCaseJob → Prog (MessageResponse ⊕ DeliveryResult)
  | accept request => do
    let response ← (AcceptMessageUseCase.execute sha256 request).link
      (AcceptMessageUseCase.infrastructure stringify)
    return .inl response
  | process provider message => do
    let result ← ProcessDeliveryUseCase.execute mysqlDeliveryRepository provider message
    return .inr result

def useCases (stringify : Json → String) (sha256 : String → String) (uuid : ℕ → String) :
    Machine Reply JsError (MessageResponse ⊕ DeliveryResult) UseCaseJob World where
  code := UseCaseJob.code stringify sha256
  starts _ _ := True
  answers pid w ev w' := w.lossy uuid pid ev w' ∧ Refuses ev
  crashes pid w w' := w' = w ∨ w' = { w with db := w.db.rollback pid }
  settles _ _ _ _ := False
  drifts w w' := (∃ conn, w' = { w with db := w.db.rollback conn }) ∨
    ∃ redis, w.redis.Forgets redis ∧ w' = { w with redis := redis }

/-- The calls that concern nobody else. -/
inductive IdleCall : Call → Prop
  | lookup (key : String) : IdleCall (.redis (.exists key))
  | claim (key : String) (value : Json) : IdleCall (.redis (.setNX key value))
  | mark (key : String) (value : Json) (seconds : Int) :
    IdleCall (.redis (.setEx key seconds value))
  | draw : IdleCall .uuidv4
  | connection : IdleCall (.sql .getConnection)
  | refused (statement : Statement) : statement.check ≠ none → IdleCall (.sql (.execute statement))
  | release : IdleCall (.sql .release)

theorem admits_idleCall : AdmitsRefused IdleCall := ⟨.connection, .refused, .release⟩

def Idle (t : Trace Reply JsError) : Prop := Always (fun ev _ => IdleCall ev.call) t

/-! ## Requests -/

namespace AcceptMessageUseCase

/-- Messages are not saved, ... -/
def Unsaved (ev : IngressEvent) : Prop :=
  ∀ m r, ev = ⟨.save m, r⟩ → ∃ e, r = .error e

/-- ... and nothing is published. -/
def Unpublished (t : Trace IngressCall.Reply JsError) : Prop :=
  Always (fun ev _ => ∀ topic key value headers, ev.call ≠ .produce topic key value headers) t

theorem wp_perform_unpublished {c : IngressCall}
    (quiet : ∀ topic key value headers, c ≠ .produce topic key value headers)
    {t : Trace IngressCall.Reply JsError} (before : Unpublished t) :
    (perform c : IngressProg c.Reply).wp (recording Unsaved) Unpublished
      (fun r t' => Unpublished t' ∧ Unsaved ⟨c, r⟩) t := by
  rw [wp_perform_recording]
  exact fun r unsaved => ⟨⟨quiet, before⟩, ⟨quiet, before⟩, unsaved⟩

variable {sha256 : String → String} {request : CreateMessageRequest}
  {t : Trace IngressCall.Reply JsError}

/-- A message that is not saved is not accepted. -/
theorem wp_accept (traceId messageId dedupKey : String) (before : Unpublished t) :
    (accept request traceId messageId dedupKey).wp (recording Unsaved) Unpublished
      (either (fun _ _ => False) fun _ => Unpublished) t := by
  rw [accept, wp_bind]
  apply mono_post (wp_perform_unpublished (by simp) before)
  rintro r t' ⟨quiet, unsaved⟩
  obtain ⟨e, rfl⟩ := unsaved _ _ rfl
  exact quiet

theorem wp_checkDuplicate (dedupKey : String) (before : Unpublished t) :
    (RedisDeduplicationService.checkDuplicate dedupKey).wp (recording Unsaved) Unpublished
      (fun _ => Unpublished) t := by
  rw [RedisDeduplicationService.checkDuplicate, wp_tryCatch, wp_bind]
  apply mono_post (wp_perform_unpublished (by simp) before)
  rintro r t' ⟨quiet, -⟩
  cases r with
  | error e => exact quiet
  | ok found =>
      rw [either_ok, wp_ite]
      refine ⟨fun _ => quiet, fun _ => ?_⟩
      rw [wp_bind]
      apply mono_post (wp_perform_unpublished (by simp) quiet)
      rintro r t'' ⟨quiet', -⟩
      cases r <;> exact quiet'

/-- As long as no message is saved, requests are answered as duplicates at best. -/
theorem wp_execute : (execute sha256 request).wp (recording Unsaved) Unpublished
    (either (fun response _ => response.status = .duplicate) fun _ _ => True) [] := by
  rw [execute, wp_bind, wp_done]
  cases validateRequest request with
  | error e => trivial
  | ok _ =>
      rw [either_ok, wp_bind]
      apply mono_post (wp_perform_unpublished (by simp) (always_nil _))
      rintro r t ⟨quiet, -⟩
      cases r with
      | error e => trivial
      | ok traceId =>
          rw [either_ok, wp_bind]
          apply mono_post (wp_perform_unpublished (by simp) quiet)
          rintro r t' ⟨quiet', -⟩
          cases r with
          | error e => trivial
          | ok messageId =>
              rw [either_ok, wp_bind, wp_done]
              cases HashService.generateDedupKey sha256 request.body request.userId
                request.recipient request.tenantId with
              | error e => trivial
              | ok dedupKey =>
                  rw [either_ok, wp_bind]
                  apply mono_post (wp_checkDuplicate dedupKey quiet')
                  intro o t'' quiet''
                  cases o with
                  | error e => trivial
                  | ok isNew =>
                      rw [either_ok, wp_ite]
                      refine ⟨fun _ => ?_, fun _ => rfl⟩
                      apply mono_post (wp_accept traceId messageId dedupKey quiet'')
                      intro o _ thrown
                      cases o with
                      | error e => trivial
                      | ok _ => exact thrown.elim

/-- The infrastructure does as expected of it, with idle calls. -/
theorem implements_infrastructure (stringify : Json → String) :
    Implements (infrastructure stringify) (recording Unsaved) (recording Refuses) Unpublished
      Idle (fun _ => Idle) := by
  intro c t t' idle permitted
  have answered {c : IngressCall} {r : Except JsError c.Reply} {t'' : Trace Reply JsError}
      (unsaved : Unsaved ⟨c, r⟩) (idle' : Idle t'') :
      ∃ t', recording Unsaved t ⟨c, r⟩ t' ∧ Idle t'' := ⟨_, ⟨unsaved, rfl⟩, idle'⟩
  cases c with
  | «exists» key =>
      refine wp_step_recording.mpr fun r _ => ⟨⟨.lookup key, idle⟩, ?_⟩
      exact answered (fun _ _ h => by cases h) ⟨.lookup key, idle⟩
  | set key value seconds =>
      refine wp_step_recording.mpr fun r _ => ⟨⟨.mark key value seconds, idle⟩, ?_⟩
      exact answered (fun _ _ h => by cases h) ⟨.mark key value seconds, idle⟩
  | uuidv4 =>
      refine wp_step_recording.mpr fun r _ => ⟨⟨.draw, idle⟩, ?_⟩
      exact answered (fun _ _ h => by cases h) ⟨.draw, idle⟩
  | save message =>
      apply mono_post (thrown_execute (MySQLMessageRepository.check_insertMessage stringify message)
        admits_idleCall idle)
      intro o t'' thrown
      cases o with
      | ok _ => exact thrown.elim
      | error e =>
          refine answered (fun m r h => ?_) thrown
          cases h
          exact ⟨e, rfl⟩
  | produce topic key value headers =>
      have unsaved : Unsaved ⟨.produce topic key value headers, .ok ()⟩ := by
        rintro m r ⟨⟩
      have published := permitted (.ok ()) _ ⟨unsaved, rfl⟩
      exact absurd rfl (published.1 topic key value headers)

theorem idle_execute (stringify : Json → String) :
    ((execute sha256 request).link (infrastructure stringify)).wp (recording Refuses) Idle
      (either (fun response _ => response.status = .duplicate) fun _ _ => True) [] := by
  apply mono_post (wp_execute.link (implements_infrastructure stringify) (always_nil _))
  rintro o t ⟨_, h, -⟩
  cases o with
  | error e => trivial
  | ok response => exact h

end AcceptMessageUseCase

/-! ## Deliveries -/

namespace ProcessDeliveryUseCase

variable {provider : IProvider} {m : MessageToDeliver} {t : Trace Reply JsError}

/-- The marker of a message could not be set. -/
def Unmarked (m : MessageToDeliver) (t : Trace Reply JsError) : Prop :=
  ∃ e, ⟨.redis (.setNX ("delivered:" ++ m.dedupKey) (.number 1)), .error e⟩ ∈ t

/-- Either the status cannot be read, or the message is taken for delivered at once. -/
theorem idle_alreadyDelivered : (alreadyDelivered mysqlDeliveryRepository m).wp
    (recording Refuses) Idle
      (either (fun delivered t => delivered = true ∧ Unmarked m t) fun _ => Idle) [] := by
  rw [alreadyDelivered, wp_bind, RedisDeliveryService.checkDeliveryDedup, wp_tryCatch, wp_bind]
  refine wp_step_recording.mpr fun r _ => ?_
  have claimed : Idle (⟨.redis (.setNX ("delivered:" ++ m.dedupKey) (.number 1)), r⟩ :: []) :=
    ⟨.claim _ _, always_nil _⟩
  refine ⟨claimed, ?_⟩
  cases r with
  | error e => exact ⟨rfl, e, List.mem_cons_self⟩
  | ok _ =>
      refine wp_bind.mpr ?_
      apply mono_post (thrown_getStatus admits_idleCall m.messageId claimed)
      intro o t' thrown
      cases o with
      | ok _ => exact thrown.elim
      | error e => exact thrown

/-- A delivery fails, unless Redis does: then it is taken for done. -/
theorem idle_execute : (execute mysqlDeliveryRepository provider m).wp (recording Refuses) Idle
    (either (fun result t => result = ⟨true, false⟩ ∧ Unmarked m t) fun _ _ => True) [] := by
  rw [execute, wp_tryCatch, deliver, wp_bind]
  apply mono_post idle_alreadyDelivered
  intro o t h
  cases o with
  | ok delivered =>
      obtain ⟨rfl, unmarked⟩ := h
      exact ⟨rfl, unmarked⟩
  | error e =>
      rw [either_error, either_error, handleFailure, wp_bind]
      apply mono_post (thrown_saveAttempt admits_idleCall _ h)
      intro o t' thrown
      cases o with
      | ok _ => exact thrown.elim
      | error e => trivial

end ProcessDeliveryUseCase

/-! ## Runs -/

/-- Nothing has been published, sent, stored or scheduled since. -/
structure Undisturbed (init w : World) : Prop where
  log : w.log = init.log
  inbox : w.inbox = init.inbox
  messages : w.db.messages = init.db.messages
  pending : w.db.pending ⊆ init.db.pending
  attempts : w.db.deliveryAttempts = init.db.deliveryAttempts
  dlq : w.db.dlqEntries = init.db.dlqEntries
  retries : ∀ key, (w.redis.zsets key).Sublist (init.redis.zsets key)

theorem Undisturbed.up {init w w' : World} {uuid : ℕ → String} {pid : ℕ} {c : Call}
    {r : Except JsError (Reply c)} (h : Undisturbed init w) (answer : w.up uuid pid ⟨c, r⟩ w')
    (idle : IdleCall c) : Undisturbed init w' := by
  obtain ⟨choice, answer⟩ := answer
  cases idle with
  | lookup key =>
      cases answer
      exact { h with }
  | claim key value =>
      have hzsets : (w.redis.answer (.setNX key value)).2.zsets = w.redis.zsets := by
        rw [Redis.answer]
        split <;> rfl
      cases answer
      exact { h with retries := fun key => hzsets ▸ h.retries key }
  | mark key value seconds =>
      cases answer
      exact { h with }
  | draw =>
      cases answer
      exact { h with }
  | refused statement refused =>
      obtain ⟨e, hcheck⟩ := Option.ne_none_iff_exists'.mp refused
      simp only [World.answer, Database.answer, Database.execute_of_check _ _ hcheck] at answer
      cases answer
      exact h
  | connection =>
      cases answer
      exact h
  | release =>
      cases answer
      exact h

theorem Undisturbed.rollback {init w : World} (h : Undisturbed init w) (conn : ℕ) :
    Undisturbed init { w with db := w.db.rollback conn } :=
  { h with pending := fun _ member => h.pending (List.mem_of_mem_filter member) }

namespace UseCases

variable {stringify : Json → String} {sha256 : String → String} {uuid : ℕ → String}
  {init : World} {s : Pool Reply JsError (MessageResponse ⊕ DeliveryResult) UseCaseJob World}
  {allowed : Pool Reply JsError (MessageResponse ⊕ DeliveryResult) UseCaseJob World →
    Action Reply JsError UseCaseJob → Prop}

/-- What comes of a job at best. -/
def Fruitless (o : Except JsError (MessageResponse ⊕ DeliveryResult)) (job : UseCaseJob)
    (t : Trace Reply JsError) : Prop :=
  (∀ response, o = .ok (.inl response) → response.status = .duplicate) ∧
    ∀ result, o = .ok (.inr result) → result = ⟨true, false⟩ ∧
      ∃ provider m, job = .process provider m ∧ ProcessDeliveryUseCase.Unmarked m t

theorem calls_code (job : UseCaseJob) : (job.code stringify sha256).wp (recording Refuses) Idle
    (fun o t => Fruitless o job t) [] := by
  cases job with
  | accept request =>
      rw [UseCaseJob.code, wp_bind]
      apply mono_post (AcceptMessageUseCase.idle_execute stringify)
      intro o t h
      cases o with
      | error e =>
          refine ⟨?_, ?_⟩
          · rintro _ ⟨⟩
          · rintro _ ⟨⟩
      | ok response =>
          refine ⟨?_, ?_⟩
          · rintro _ ⟨⟩
            exact h
          · rintro _ ⟨⟩
  | process provider m =>
      rw [UseCaseJob.code, wp_bind]
      apply mono_post ProcessDeliveryUseCase.idle_execute
      intro o t h
      cases o with
      | error e =>
          refine ⟨?_, ?_⟩
          · rintro _ ⟨⟩
          · rintro _ ⟨⟩
      | ok result =>
          refine ⟨?_, ?_⟩
          · rintro _ ⟨⟩
          · rintro _ ⟨⟩
            exact ⟨h.1, provider, m, rfl, h.2⟩

theorem undisturbed (run : (useCases stringify sha256 uuid).Run allowed init s) :
    Undisturbed init s.shared := by
  apply run.invariant
  · exact ⟨rfl, rfl, rfl, List.Subset.refl _, rfl, rfl, fun _ => .refl _⟩
  · intro s a s' before h step permitted
    have whole := step
    cases step with
    | start _ => exact h
    | @turn pid proc c next r shared _ _ _ answer =>
        obtain ⟨-, -, -, idle⟩ := before.turn_makes (fun _ _ _ _ answer => answer.2)
          (fun job => mono_post (calls_code job) fun _ _ _ => trivial) whole permitted
        obtain hsame | ⟨r, answer⟩ := effect_of_lossy answer.1
        · rw [Pool.advance, hsame]
          exact h
        · exact h.up answer idle
    | crash _ hcrash =>
        obtain rfl | rfl := hcrash
        · exact h
        · exact h.rollback _
    | settle _ _ _ hsettle => exact hsettle.elim
    | drift hdrift =>
        obtain ⟨conn, rfl⟩ | ⟨redis, forgets, rfl⟩ := hdrift
        · exact h.rollback conn
        · exact { h with retries := fun key => (forgets.zsets key).trans (h.retries key) }

/-- Whatever is asked of the use cases, nothing comes of it but markers in Redis. No message is
published, stored, sent or scheduled, a request fails or is answered as a duplicate, and a
delivery fails or is taken for done, the latter if its marker could not be set. -/
theorem nothing_happens (run : (useCases stringify sha256 uuid).Run allowed init s) :
    (s.shared.log = init.log ∧ s.shared.inbox = init.inbox ∧
      s.shared.db.messages = init.db.messages ∧
      s.shared.db.deliveryAttempts = init.db.deliveryAttempts ∧
      s.shared.db.dlqEntries = init.db.dlqEntries ∧
      ∀ key, (s.shared.redis.zsets key).Sublist (init.redis.zsets key)) ∧
    ∀ (pid : ℕ) proc, s.procs[pid]? = some proc →
      (∀ response, proc.rest = .done (.ok (.inl response)) → response.status = .duplicate) ∧
      ∀ result, proc.rest = .done (.ok (.inr result)) → result = ⟨true, false⟩ ∧
        ∃ provider m, proc.job = .process provider m ∧
          ∃ e, ⟨.redis (.setNX ("delivered:" ++ m.dedupKey) (.number 1)), .error e⟩ ∈
            proc.trace := by
  have h := undisturbed run
  refine ⟨⟨h.log, h.inbox, h.messages, h.attempts, h.dlq, h.retries⟩, fun pid proc hproc => ?_⟩
  have fruitless := (run.local_invariant (fun _ _ _ _ answer => answer.2) hproc
    (calls_code proc.job) (always_nil _)).2
  exact ⟨fun response ended => (fruitless _ ended).1 response rfl,
    fun result ended => (fruitless _ ended).2 result rfl⟩

end UseCases

/-! ## An order that is repeated -/

/-- The same order twice, and a delivery of it. -/
def orderJobs : List UseCaseJob :=
  [ .accept orderShipped.toRequest, .accept orderShipped.toRequest,
    .process ⟨"SMSProvider"⟩ (Origin.message id ⟨orderShipped, "0", "1"⟩) ]

/-- Markers cannot be set. -/
def noMarkers : Call → Bool
  | .redis (.setNX ..) => true
  | _ => false

def orderHandler (pid : ℕ) (c : Call) (w : World) : Option (Except JsError (Reply c) × World) :=
  w.brokenAnswer noMarkers toString pid { outcome := .ok ⟨true, none⟩ } c

def orderRefused : Pool Reply JsError (MessageResponse ⊕ DeliveryResult) UseCaseJob World :=
  Machine.staged (useCases (fun _ => "") id toString) (fun _ _ => true) orderHandler {} orderJobs
    [(0, 20), (1, 20), (2, 20)]

theorem run_orderRefused :
    (useCases (fun _ => "") id toString).Run (fun _ _ => True) {} orderRefused := by
  refine Machine.Run.mono (Machine.Run.staged ?_ (fun _ _ => trivial) (fun _ _ => rfl) _ _)
    fun _ _ _ => trivial
  intro pid c w r w' answer
  refine ⟨.inl (World.faulty_brokenAnswer answer), ?_⟩
  unfold orderHandler World.brokenAnswer at answer
  split at answer
  · next broken =>
      cases answer
      rintro statement r ⟨⟩
      cases broken
  · exact refuses_of_answer answer

/-- How the processes have ended. -/
def endings : List (Option (ResponseStatus ⊕ DeliveryResult)) :=
  orderRefused.procs.map fun proc =>
    match proc.rest with
    | .done (.ok (.inl response)) => some (.inl response.status)
    | .done (.ok (.inr result)) => some (.inr result)
    | _ => none

/-- The first request has failed, the second one is a duplicate, and the delivery is done. -/
theorem nothing_happens_order :
    ((orderRefused.shared.log = [] ∧ orderRefused.shared.inbox = [] ∧
        orderRefused.shared.db.messages = [] ∧ orderRefused.shared.db.deliveryAttempts = [] ∧
        orderRefused.shared.db.dlqEntries = [] ∧
        ∀ key, (orderRefused.shared.redis.zsets key).Sublist []) ∧
      ∀ (pid : ℕ) proc, orderRefused.procs[pid]? = some proc →
        (∀ response, proc.rest = .done (.ok (.inl response)) → response.status = .duplicate) ∧
        ∀ result, proc.rest = .done (.ok (.inr result)) → result = ⟨true, false⟩ ∧
          ∃ provider m, proc.job = .process provider m ∧
            ∃ e, ⟨.redis (.setNX ("delivered:" ++ m.dedupKey) (.number 1)), .error e⟩ ∈
              proc.trace) ∧
    endings = [none, some (.inl .duplicate), some (.inr ⟨true, false⟩)] :=
  ⟨UseCases.nothing_happens run_orderRefused, by decide⟩

end Notification
