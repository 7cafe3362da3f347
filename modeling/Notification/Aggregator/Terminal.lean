import Notification.Aggregator.Schema
import Notification.Interaction.Reaches

/-!
# SENT is terminal

Any number of `processDelivery` executions for the same messages run at once, and every
call may throw, with or without having had its effect. One `catch` covers the provider call
and everything that is written down after it, and `updateStatus` writes unconditionally, so a
failure after `SENT` was set takes it back. `SENT` stays as long as no execution for the
message is in its `catch` block while the row has it, however the two came about.
-/

namespace Notification

open Interaction Program

namespace Delivering

def dlqTopic (topic : String) : Bool := "dlq.".toList.isPrefixOf topic.toList

@[simp] theorem dlqTopic_append (channel : String) : dlqTopic ("dlq." ++ channel) := by
  simp [dlqTopic]

/-- A call that throws, other than one of Redis. -/
def threw : CallEvent → Bool
  | ⟨.redis _, _⟩ => false
  | ⟨_, .error _⟩ => true
  | _ => false

/-- The last call of a failed delivery that does more than logging. -/
def concludes : CallEvent → Bool
  | ⟨.redis (.zAdd _ _ _), _⟩ => true
  | ⟨.produce topic _ _ _, _⟩ => dlqTopic topic
  | _ => false

/-- The delivery has left its `try` block by a throw. -/
def Threw (t : Trace Reply JsError) : Prop := t.any threw = true

def Concluded (t : Trace Reply JsError) : Prop := t.any concludes = true

/-- What a delivery of `m` may do next. -/
def MayAttempt (m : MessageToDeliver) (ev : CallEvent) (before : Trace Reply JsError) : Prop :=
  match ev.call with
  | .repository (.updateStatus messageId status finalDelivered _) =>
    messageId = m.messageId ∧
      ((status = .sent ∧ finalDelivered = true ∧ ¬ Threw before) ∨
        (Threw before ∧ ¬ Concluded before))
  | .repository (.saveDLQEntry _) => Threw before ∧ ¬ Concluded before
  | .redis (.zAdd _ _ _) => Threw before ∧ ¬ Concluded before
  | .produce topic _ _ _ => dlqTopic topic = true → Threw before ∧ ¬ Concluded before
  | .repository _ => True
  | .redis _ => True
  | .send .. => True
  | .stringify _ => True
  | .now => True
  | _ => False

/-- Inside of the `try` block. -/
structure Trying (m : MessageToDeliver) (t : Trace Reply JsError) : Prop where
  always : Always (MayAttempt m) t
  quiet : ¬ Threw t
  unconcluded : ¬ Concluded t

/-- Inside of the `catch` block, before its last call that matters. -/
structure Failing (m : MessageToDeliver) (t : Trace Reply JsError) : Prop where
  always : Always (MayAttempt m) t
  threw : Threw t
  unconcluded : ¬ Concluded t

section Traces

variable {m : MessageToDeliver} {t : Trace Reply JsError} {ev : CallEvent} {provider : IProvider}

@[simp] theorem threw_cons : Threw (ev :: t) ↔ threw ev = true ∨ Threw t := by simp [Threw]

@[simp] theorem concluded_cons : Concluded (ev :: t) ↔ concludes ev = true ∨ Concluded t := by
  simp [Concluded]

theorem Trying.start : Trying m [] := ⟨trivial, by simp [Threw], by simp [Concluded]⟩

theorem Trying.cons (h : Trying m t) (may : MayAttempt m ev t) (quiet : threw ev = false)
    (unconcluded : concludes ev = false) : Trying m (ev :: t) :=
  ⟨⟨may, h.always⟩, by simp [quiet, h.quiet], by simp [unconcluded, h.unconcluded]⟩

theorem Trying.throw (h : Trying m t) (may : MayAttempt m ev t) (thrown : threw ev = true)
    (unconcluded : concludes ev = false) : Failing m (ev :: t) :=
  ⟨⟨may, h.always⟩, by simp [thrown], by simp [unconcluded, h.unconcluded]⟩

theorem Failing.cons (h : Failing m t) (may : MayAttempt m ev t)
    (unconcluded : concludes ev = false) : Failing m (ev :: t) :=
  ⟨⟨may, h.always⟩, by simp [h.threw], by simp [unconcluded, h.unconcluded]⟩

/-- One more event inside of the `try` block. -/
theorem Trying.and {Q : Prop} (h : Trying m t) (next : Trying m t → Q) :
    Always (MayAttempt m) t ∧ Q := ⟨h.always, next h⟩

/-- One more event inside of the `catch` block. -/
theorem Failing.and {Q : Prop} (h : Failing m t) (next : Failing m t → Q) :
    Always (MayAttempt m) t ∧ Q := ⟨h.always, next h⟩

/-- A Redis error of the duplicate check is caught there. -/
theorem wp_checkDeliveryDedup (h : Trying m t) :
    (DeliveryDeduplicationService.checkDeliveryDedup m.dedupKey).wp (recording fun _ => True)
      (Always (MayAttempt m)) (either (fun _ => Trying m) fun _ _ => False) t := by
  rw [DeliveryDeduplicationService.checkDeliveryDedup, wp_tryCatch, wp_bind, RedisClient.wp_exists]
  intro r _
  refine Trying.and (h.cons trivial rfl rfl) fun h => ?_
  cases r with
  | error e => exact h
  | ok n =>
      rw [either_ok, wp_ite]
      refine ⟨fun _ => h, fun _ => ?_⟩
      rw [wp_bind, RedisClient.wp_setNX]
      intro r _
      refine Trying.and (h.cons trivial rfl rfl) fun h => ?_
      cases r with
      | error e => exact h
      | ok b => exact h

theorem wp_alreadyDelivered (h : Trying m t) :
    (DeliveryProcessorService.alreadyDelivered interfaceRepository m).wp
      (recording fun _ => True) (Always (MayAttempt m))
      (either (fun _ => Trying m) fun _ => Failing m) t := by
  rw [DeliveryProcessorService.alreadyDelivered, wp_bind]
  apply mono_post (wp_checkDeliveryDedup h)
  intro o t' h
  cases o with
  | error e => exact h.elim
  | ok isNew =>
      rw [either_ok, wp_ite]
      refine ⟨fun _ => h, fun _ => ?_⟩
      rw [wp_bind, InterfaceRepository.wp_getStatus]
      intro r _
      cases r with
      | error e => exact Failing.and (Trying.throw h trivial rfl rfl) id
      | ok status => exact Trying.and (Trying.cons h trivial rfl rfl) id

theorem wp_publishSentLog (h : Trying m t) (log : Json) :
    (EventPublisherService.publishLog log).wp (recording fun _ => True)
      (Always (MayAttempt m)) (either (fun _ => Trying m) fun _ => Failing m) t := by
  have may : ∀ r, MayAttempt m ⟨.produce "logs" (log.get? "traceId") log [], r⟩ t :=
    fun _ hdlq => absurd hdlq (by decide)
  rw [EventPublisherService.publishLog, wp_produce]
  intro r _
  cases r with
  | error e => exact Failing.and (h.throw (may _) rfl rfl) id
  | ok _ => exact Trying.and (h.cons (may _) rfl rfl) id

theorem wp_recordSuccess (h : Trying m t) (currentAttempt : Int) (result : ProviderResult) :
    (DeliveryProcessorService.recordSuccess interfaceRepository m currentAttempt result).wp
      (recording fun _ => True) (Always (MayAttempt m))
      (either (fun _ => Trying m) fun _ => Failing m) t := by
  have may : ∀ r, MayAttempt m
      ⟨.repository (.updateStatus m.messageId .sent true currentAttempt), r⟩ t :=
    fun _ => ⟨rfl, .inl ⟨rfl, rfl, h.quiet⟩⟩
  rw [DeliveryProcessorService.recordSuccess, wp_bind, InterfaceRepository.wp_updateStatus]
  intro r _
  cases r with
  | error e => exact Failing.and (h.throw (may _) rfl rfl) id
  | ok _ =>
      apply Trying.and (h.cons (may _) rfl rfl)
      intro h
      rw [either_ok, wp_bind, wp_stringify]
      intro r _
      cases r with
      | error e => exact Failing.and (h.throw trivial rfl rfl) id
      | ok providerResponse =>
          refine Trying.and (h.cons trivial rfl rfl) fun h => ?_
          rw [either_ok, wp_bind, InterfaceRepository.wp_saveAttempt]
          intro r _
          cases r with
          | error e => exact Failing.and (h.throw trivial rfl rfl) id
          | ok _ =>
              refine Trying.and (h.cons trivial rfl rfl) fun h => ?_
              rw [either_ok, wp_bind, DeliveryDeduplicationService.setDeliveredCache, wp_tryCatch,
                RedisClient.wp_setEx]
              intro r _
              refine Trying.and (h.cons trivial rfl rfl) fun h => ?_
              cases r with
              | error e => exact wp_publishSentLog h _
              | ok _ => exact wp_publishSentLog h _

theorem wp_deliver (h : Trying m t) (currentAttempt : Int) :
    (DeliveryProcessorService.deliver interfaceRepository provider m currentAttempt).wp
      (recording fun _ => True) (Always (MayAttempt m))
      (either (fun _ t' => Always (MayAttempt m) t') fun _ => Failing m) t := by
  rw [DeliveryProcessorService.deliver, wp_bind]
  apply mono_post (wp_alreadyDelivered h)
  intro o t' h
  cases o with
  | error e => exact h
  | ok delivered =>
      rw [either_ok, wp_ite]
      refine ⟨fun _ => h.always, fun _ => ?_⟩
      rw [wp_bind, IProvider.wp_send]
      intro r _
      cases r with
      | error e => exact Failing.and (Trying.throw h trivial rfl rfl) id
      | ok result =>
          refine Trying.and (Trying.cons h trivial rfl rfl) fun h => ?_
          rw [either_ok, wp_bind]
          apply mono_post (wp_recordSuccess h _ _)
          intro o t' h
          cases o with
          | error e => exact h
          | ok _ => exact h.always

/-- Logging does no harm at any time. -/
theorem wp_produce_quiet {topic : String} {key : Option Json} {value : Json}
    {headers : List (String × String)} (quiet : dlqTopic topic = false)
    (h : Always (MayAttempt m) t) : (produce topic key value headers).wp (recording fun _ => True)
      (Always (MayAttempt m)) (fun _ t' => Always (MayAttempt m) t') t := by
  rw [wp_produce]
  intro r _
  have may : Always (MayAttempt m) (⟨.produce topic key value headers, r⟩ :: t) :=
    ⟨fun hdlq => absurd (quiet.symm.trans hdlq) (by decide), h⟩
  exact ⟨may, may⟩

theorem wp_handleMaxAttemptsReached (h : Failing m t) (attemptNumber : Int) (errorMsg : String) :
    (DeliveryProcessorService.handleMaxAttemptsReached interfaceRepository m attemptNumber
      errorMsg).wp (recording fun _ => True) (Always (MayAttempt m))
      (fun _ t' => Always (MayAttempt m) t') t := by
  rw [DeliveryProcessorService.handleMaxAttemptsReached, wp_bind,
    InterfaceRepository.wp_updateStatus]
  intro r _
  refine Failing.and (h.cons ⟨rfl, .inr ⟨h.threw, h.unconcluded⟩⟩ rfl) fun h => ?_
  cases r with
  | error e => exact h.always
  | ok _ =>
      rw [either_ok, wp_bind, InterfaceRepository.wp_saveDLQEntry]
      intro r _
      refine Failing.and (h.cons ⟨h.threw, h.unconcluded⟩ rfl) fun h => ?_
      cases r with
      | error e => exact h.always
      | ok _ =>
          rw [either_ok, wp_bind, EventPublisherService.publishDLQMessage, wp_produce]
          intro r _
          have may : MayAttempt m ⟨.produce ("dlq." ++ m.channel) _ _ _, r⟩ _ :=
            fun _ => ⟨h.threw, h.unconcluded⟩
          refine ⟨⟨may, h.always⟩, ?_⟩
          cases r with
          | error e => exact ⟨may, h.always⟩
          | ok _ =>
              rw [either_ok, wp_bind]
              refine mono_post (wp_produce_quiet (by decide) ⟨may, h.always⟩) fun o t' h => ?_
              cases o with
              | error e => exact h
              | ok _ =>
                  rw [either_ok, wp_bind]
                  apply mono_post (wp_produce_quiet (by decide) h)
                  intro o t' h
                  cases o with
                  | error e => exact h
                  | ok _ => exact h

theorem wp_handleRetry (h : Failing m t) (attemptNumber : Int) (errorMsg : String) :
    (DeliveryProcessorService.handleRetry interfaceRepository m attemptNumber errorMsg).wp
      (recording fun _ => True) (Always (MayAttempt m))
      (fun _ t' => Always (MayAttempt m) t') t := by
  rw [DeliveryProcessorService.handleRetry, wp_bind, InterfaceRepository.wp_updateStatus]
  intro r _
  refine Failing.and (h.cons ⟨rfl, .inr ⟨h.threw, h.unconcluded⟩⟩ rfl) fun h => ?_
  cases r with
  | error e => exact h.always
  | ok _ =>
      rw [either_ok, wp_bind, RetrySchedulerService.scheduleRetry, wp_bind, wp_dateNow]
      intro r _
      refine Failing.and (h.cons trivial rfl) fun h => ?_
      cases r with
      | error e => exact h.always
      | ok now =>
          rw [either_ok, wp_bind, wp_done]
          cases toISOString (Number.add now
            (DeliveryProcessorService.backoffDelay attemptNumber)) with
          | error e => exact h.always
          | ok _ =>
              rw [either_ok, RedisClient.wp_zAdd]
              intro r _
              have may : MayAttempt m ⟨.redis (.zAdd _ _ _), r⟩ _ := ⟨h.threw, h.unconcluded⟩
              refine ⟨⟨may, h.always⟩, ?_⟩
              cases r with
              | error e => exact ⟨may, h.always⟩
              | ok _ =>
                  rw [either_ok, wp_bind]
                  refine mono_post (wp_produce_quiet (by decide) ⟨may, h.always⟩) fun o t' h => ?_
                  cases o with
                  | error e => exact h
                  | ok _ => exact h

/-- What one delivery does, whatever the others do and whichever calls fail. -/
theorem wp_processDelivery :
    (DeliveryProcessorService.processDelivery interfaceRepository provider m).wp
      (recording fun _ => True) (Always (MayAttempt m)) (fun _ _ => True) [] := by
  rw [DeliveryProcessorService.processDelivery, wp_tryCatch]
  apply mono_post (wp_deliver .start _)
  intro o t h
  cases o with
  | ok _ => trivial
  | error e =>
      rw [either_error, DeliveryProcessorService.handleFailure, wp_bind,
        InterfaceRepository.wp_saveAttempt]
      intro r _
      refine Failing.and (Failing.cons h trivial rfl) fun h => ?_
      cases r with
      | error e => trivial
      | ok _ =>
          rw [either_ok, wp_ite]
          exact ⟨fun _ => mono_post (wp_handleMaxAttemptsReached h _ _) fun _ _ _ => trivial,
            fun _ => mono_post (wp_handleRetry h _ _) fun _ _ _ => trivial⟩

end Traces

/-- One execution of `processDelivery`. -/
structure Delivery where
  provider : IProvider
  message : MessageToDeliver

/-- Deliveries at any time, of any messages, in a world in which every call may fail, with or
without having had its effect. -/
def deliveries (uuid : ℕ → String) : Machine Reply JsError ProcessResult Delivery World where
  code d := DeliveryProcessorService.processDelivery interfaceRepository d.provider d.message
  starts _ _ := True
  answers := World.lossy uuid
  crashes _ _ _ := False
  settles _ _ _ _ := False
  drifts := World.later

abbrev Deliveries := Pool Reply JsError ProcessResult Delivery World

/-- An execution that has been started. -/
abbrev Execution := Proc Reply JsError ProcessResult Delivery

/-- The message has a row, and the row is `SENT` and finally delivered. -/
def sent (messageId : String) (w : World) : Bool :=
  (w.db.messages.any fun r => r.messageId == messageId) &&
    w.db.messages.all fun r => r.messageId != messageId || (r.status == .sent && r.finalDelivered)

/-- Schedules a retry, writes a DLQ entry or publishes a DLQ event. -/
def harms : Call → Bool
  | .redis (.zAdd _ _ _) => true
  | .repository (.saveDLQEntry _) => true
  | .produce topic _ _ _ => dlqTopic topic
  | _ => false

/-- `SENT` is terminal for a message: once its row has it, the row keeps it, and no execution
for the message tries to do harm. -/
structure SentIsTerminal (messageId : String) (s s' : Deliveries) : Prop where
  row : sent messageId s'.shared = true
  quiet : ∃ later, s'.history = later ++ s.history ∧ ∀ x ∈ later, ∀ P : Execution,
    s'.procs[x.1]? = some P → P.job.message.messageId = messageId → harms x.2.call = false

def ended {α : Type} : Prog α → Bool
  | .done _ => true
  | .step _ _ => false

/-- An execution is not in its `catch` block, or is past the calls there that matter. -/
def isSettled (P : Execution) : Bool := !P.trace.any threw || P.trace.any concludes || ended P.rest

/-- No turn is taken while a row is `SENT` and an execution for its message is in its `catch`
block: nothing in a `try` block has thrown at or after the call that set it, and it was not set
while another execution was failing. -/
def calm (s : Deliveries) : Action Reply JsError Delivery → Bool
  | .turn _ _ => s.procs.all fun P => isSettled P || !sent P.job.message.messageId s.shared
  | _ => true

section Runs

variable {uuid : ℕ → String} {init : World} {s s' : Deliveries} {pid : ℕ} {P : Execution}
  {a : Action Reply JsError Delivery} {messageId : String}

theorem follows {allowed : Deliveries → Action Reply JsError Delivery → Prop}
    (run : (deliveries uuid).Run allowed init s) (hP : s.procs[pid]? = some P) :
    Always (MayAttempt P.job.message) P.trace :=
  (run.local_invariant (fun _ _ _ _ _ => trivial) hP wp_processDelivery (always_nil _)).1

theorem sent_iff {w : World} : sent messageId w = true ↔
    (∃ r ∈ w.db.messages, r.messageId = messageId) ∧ ∀ r ∈ w.db.messages,
      r.messageId = messageId → r.status = .sent ∧ r.finalDelivered = true := by
  simp only [sent, Bool.and_eq_true, List.any_eq_true, List.all_eq_true, beq_iff_eq,
    Bool.or_eq_true, bne_iff_ne, ne_eq, ← imp_iff_not_or]

theorem sent_congr {w w' : World} (same : w'.db.messages = w.db.messages) :
    sent messageId w' = sent messageId w := by
  rw [sent, sent, same]

/-- The two ways rows can change: not at all, or by an `updateStatus` of the execution. -/
theorem rows_of_mayAttempt {m : MessageToDeliver} {ev : CallEvent} {before : Trace Reply JsError}
    {w w' : World} (may : MayAttempt m ev before) (answer : w.lossy uuid pid ev w') :
    w'.db.messages = w.db.messages ∨
    ∃ status finalDelivered attempts,
      w'.db.messages = (w.db.updateStatus m.messageId status finalDelivered attempts).messages ∧
      ((status = .sent ∧ finalDelivered = true ∧ ¬ Threw before) ∨
        (Threw before ∧ ¬ Concluded before)) := by
  obtain ⟨call, r⟩ := ev
  obtain ⟨r', answer | ⟨-, rfl, -⟩, -⟩ := World.effect_of_lossy answer
  · have notSql : ∀ c, call ≠ .sql c := by
      rintro c rfl
      exact may
    obtain ⟨-, -, ⟨hsame, -⟩ | ⟨messageId, status, finalDelivered, attempts, heq, -, hrows⟩⟩ :=
      World.rows_of_up answer notSql
    · exact .inl hsame
    · cases heq
      obtain ⟨rfl, hcase⟩ := may
      exact .inr ⟨status, finalDelivered, attempts, hrows, hcase⟩
  · exact .inl rfl

/-- A settled execution that goes on is not about to do harm. -/
theorem not_threw_of_settled {c : Call} {next : Except JsError (Reply c) → Prog ProcessResult}
    (h : isSettled P = true) (hrest : P.rest = .step c next) :
    ¬ (Threw P.trace ∧ ¬ Concluded P.trace) := by
  simp only [isSettled, hrest, ended, Bool.or_false, Bool.or_eq_true, Bool.not_eq_true'] at h
  rintro ⟨threw, unconcluded⟩
  cases h with
  | inl h => exact absurd (h.symm.trans threw) (by decide)
  | inr h => exact unconcluded h

theorem harms_of_mayAttempt {m : MessageToDeliver} {ev : CallEvent}
    {before : Trace Reply JsError} (may : MayAttempt m ev before)
    (safe : ¬ (Threw before ∧ ¬ Concluded before)) : harms ev.call = false := by
  by_contra hharms
  rw [Bool.not_eq_false] at hharms
  apply safe
  obtain ⟨call, r⟩ := ev
  cases call with
  | redis c =>
      cases c with
      | zAdd key score member => exact may
      | _ => cases hharms
  | repository c =>
      cases c with
      | saveDLQEntry entity => exact may
      | _ => cases hharms
  | produce topic key value headers => exact may hharms
  | _ => cases hharms

/-- An update of another row, or one that sets `SENT` again. -/
theorem sent_updateStatus {w w' : World} (set : sent messageId w = true) {id : String}
    {status : Status} {finalDelivered : Bool} {attempts : Int}
    (rows : w'.db.messages = (w.db.updateStatus id status finalDelivered attempts).messages)
    (own : id = messageId → status = .sent ∧ finalDelivered = true) :
    sent messageId w' = true := by
  obtain ⟨⟨r, hr, hid⟩, all⟩ := sent_iff.mp set
  rw [sent_iff, rows]
  refine ⟨⟨_, List.mem_map_of_mem hr, ?_⟩, fun r' hr' hid' => ?_⟩
  · split <;> exact hid
  · obtain ⟨r₀, hr₀, rfl⟩ := List.mem_map.mp hr'
    by_cases hown : r₀.messageId = id
    · rw [if_pos hown] at hid' ⊢
      exact own (hown.symm.trans hid')
    · rw [if_neg hown] at hid' ⊢
      exact all r₀ hr₀ hid'

/-- What the turn of one execution does to a row that is `SENT`. -/
theorem sent_turn {c : Call} {r : Except JsError (Reply c)} {shared : World}
    {next : Except JsError (Reply c) → Prog ProcessResult} (set : sent messageId s.shared = true)
    (hP : s.procs[pid]? = some P) (hrest : P.rest = .step c next)
    (answer : s.shared.lossy uuid pid ⟨c, r⟩ shared)
    (may : MayAttempt P.job.message ⟨c, r⟩ P.trace) (permitted : calm s (.turn pid ⟨c, r⟩) = true) :
    sent messageId shared = true ∧ (P.job.message.messageId = messageId → harms c = false) := by
  have safe (own : P.job.message.messageId = messageId) :
      ¬ (Threw P.trace ∧ ¬ Concluded P.trace) := by
    have settled := List.all_eq_true.mp permitted P (List.mem_of_getElem? hP)
    rw [own, set, Bool.not_true, Bool.or_false] at settled
    exact not_threw_of_settled settled hrest
  constructor
  · obtain hsame | ⟨status, finalDelivered, attempts, hrows, hcase⟩ :=
      rows_of_mayAttempt may answer
    · rw [sent_congr hsame, set]
    · refine sent_updateStatus set hrows fun own => ?_
      obtain ⟨hstatus, hfinal, -⟩ | failing := hcase
      · exact ⟨hstatus, hfinal⟩
      · exact absurd failing (safe own)
  · exact fun own => harms_of_mayAttempt may (safe own)

/-- One step keeps `SENT`. -/
theorem SentIsTerminal.step {s'' : Deliveries} (h : SentIsTerminal messageId s s')
    (run : (deliveries uuid).Run (fun s a => calm s a = true) init s')
    (step : (deliveries uuid).Step s' a s'') (permitted : calm s' a = true) :
    SentIsTerminal messageId s s'' := by
  obtain ⟨row, later, hlater, quiet⟩ := h
  have old : ∀ x ∈ later, ∀ P : Execution, s''.procs[x.1]? = some P →
      P.job.message.messageId = messageId → harms x.2.call = false := by
    intro x hx P hP own
    have hmem : x ∈ s'.history := hlater ▸ List.mem_append_left _ hx
    obtain ⟨P₀, hP₀, hjob⟩ := step.job_of_mem_history run.coherent hmem hP
    exact quiet x hx P₀ hP₀ (hjob ▸ own)
  have run' := run.next step permitted
  cases step with
  | start _ => exact ⟨row, later, hlater, old⟩
  | @turn pid P c next r shared hP hcrashed hrest answer =>
      have after : (s'.advance pid P ⟨c, r⟩ (next r) shared).procs[pid]? =
          some { P with rest := next r, trace := ⟨c, r⟩ :: P.trace } := by
        rw [Machine.getElem?_advance hP, if_pos rfl]
      obtain ⟨row', harmless⟩ := sent_turn row hP hrest answer (follows run' after).1 permitted
      refine ⟨row', (pid, ⟨c, r⟩) :: later, congrArg (List.cons _) hlater, fun x hx Q hQ own => ?_⟩
      obtain rfl | hx := List.mem_cons.mp hx
      · cases hQ.symm.trans after
        exact harmless own
      · exact old x hx Q hQ own
  | crash _ h => exact h.elim
  | settle _ _ _ h => exact h.elim
  | drift hlater' =>
      obtain ⟨t, -, rfl⟩ := hlater'
      exact ⟨row, later, hlater, old⟩

/-- `SENT` is terminal from any state of a calm run on, for every message. -/
theorem sent_is_terminal (run : (deliveries uuid).Run (fun s a => calm s a = true) init s)
    (onward : (deliveries uuid).Reaches (fun s a => calm s a = true) s s')
    (set : sent messageId s.shared = true) : SentIsTerminal messageId s s' := by
  induction onward with
  | refl => exact ⟨set, [], rfl, fun x hx => absurd hx List.not_mem_nil⟩
  | next before step permitted ih => exact ih.step (run.reaches before) step permitted

end Runs

/-! ## A failure after `SENT` -/

section Overwritten

def sampleJob : Delivery := ⟨⟨"SMSProvider"⟩, sampleMessage⟩

/-- Turns of one execution, in which the provider answers `outcome` and the calls in `broken`
throw. -/
def answering (outcome : Except JsError ProviderResult) (broken : Call → Bool) (pid : ℕ)
    (c : Call) (w : World) : Option (Except JsError (Reply c) × World) :=
  w.brokenAnswer broken toString pid { outcome := outcome } c

theorem answers_answering {outcome : Except JsError ProviderResult} {broken : Call → Bool}
    {pid : ℕ} (c : Call) (w : World) (r : Except JsError (Reply c)) (w' : World)
    (h : answering outcome broken pid c w = some (r, w')) :
    (deliveries toString).answers pid w ⟨c, r⟩ w' :=
  .inl (World.faulty_brokenAnswer h)

def isSaveSuccess : Call → Bool
  | .repository (.saveAttempt entity) => entity.status == .success
  | _ => false

/-- The provider accepts, and `SENT` is set on the row that has just been inserted. -/
def marked : Deliveries :=
  Machine.turns (fun _ _ => true) (answering (.ok ⟨true, none⟩) isSaveSuccess 0) 0 4
    ((Pool.initial sampleWorld).spawn sampleJob ((deliveries toString).code sampleJob))

/-- The attempt cannot be saved. -/
def overwritten : Deliveries :=
  Machine.turns (fun _ _ => true) (answering (.ok ⟨true, none⟩) isSaveSuccess 0) 0 12 marked

/-- The row is `PENDING` again, and a retry is scheduled. -/
theorem sent_is_terminal_fails :
    (overwritten.shared.row? "m-1").map MessageRow.status = some .pending ∧
    (overwritten.shared.redis.zsets "retries").map Prod.fst = ["m-1:sms:2"] ∧
    ¬ ∀ (s s' : Deliveries) (messageId : String),
      (deliveries toString).Run (fun _ _ => True) sampleWorld s →
      (deliveries toString).Reaches (fun _ _ => True) s s' → sent messageId s.shared = true →
        SentIsTerminal messageId s s' := by
  have run : (deliveries toString).Run (fun _ _ => True) sampleWorld marked :=
    .turns answers_answering (fun _ _ _ => trivial) (.next .initial (.start trivial) trivial) 4
  have onward : (deliveries toString).Reaches (fun _ _ => True) marked overwritten :=
    .turns answers_answering (fun _ _ _ => trivial) .refl 12
  refine ⟨by decide, by decide, fun terminal => ?_⟩
  exact absurd (terminal _ _ "m-1" run onward (by decide)).row (by decide)

/-- The provider fails in the first execution and accepts in the second one. -/
def delivered : Deliveries :=
  (deliveries toString).staged calm
    (fun pid => answering (if pid = 0 then .error { message := "down" } else .ok ⟨true, none⟩)
      (fun _ => false) pid) sampleWorld (List.replicate 3 sampleJob) [(0, 12), (1, 4)]

/-- The second execution goes on to its end, and the third one finds the message delivered. -/
def recovered : Deliveries :=
  Machine.turns calm (answering (.ok ⟨true, none⟩) (fun _ => false) 2) 2 12
    (Machine.turns calm (answering (.ok ⟨true, none⟩) (fun _ => false) 1) 1 12 delivered)

theorem sent_is_terminal_recovered :
    sent "m-1" delivered.shared = true ∧
    recovered.procs.map (fun P => ended P.rest) = [true, true, true] ∧
    SentIsTerminal "m-1" delivered recovered := by
  have run : (deliveries toString).Run (fun s a => calm s a = true) sampleWorld delivered :=
    .staged (fun _ => answers_answering) (fun _ _ => trivial) (fun _ _ => rfl) _ _
  have onward : (deliveries toString).Reaches (fun s a => calm s a = true) delivered recovered :=
    .turns answers_answering (fun _ _ h => h)
      (.turns answers_answering (fun _ _ h => h) .refl 12) 12
  exact ⟨by decide, by decide, sent_is_terminal run onward (by decide)⟩

end Overwritten

end Delivering

end Notification
