import Notification.Aggregator.DeliveryProcessorService
import Notification.Aggregator.BatchIdempotencyService

/-!
# Delivery through the schema of `init.sql`

The repository's statements name columns that `init.sql` does not create, or leave
out columns that it requires. MySQL refuses them whatever the rows are, so
`processDelivery` with this repository throws on every path: an error on the success
path is taken for a failed delivery, and the `catch` block starts with a statement
that is refused as well.
-/

namespace Notification

open Interaction Program

variable {σ : Type} {env : Env Reply JsError σ} {I : σ → Prop} {s : σ}

/-- The answer to a statement that the schema refuses is its error. -/
def ChecksStatements (ev : CallEvent) : Prop :=
  ∀ (st : Statement) (e : JsError) (r : Except JsError st.Result),
    ev = ⟨.sql (.execute st), r⟩ → st.check = some e → r = .error e

/-- The program ends in an error. -/
def throws {α : Type} : Except JsError α → σ → Prop := either (fun _ _ => False) fun _ _ => True

namespace Database

theorem execute_of_check {st : Statement} {e : JsError} (db : Database) (conn : ℕ)
    (h : st.check = some e) : db.execute conn st = some (.error e, db) := by
  cases st <;> simp only [execute, h]

end Database

theorem checksStatements_handler (uuid : ℕ → String) (choose : World → Choice) {w w' : World}
    {ev : CallEvent} (h : handled (World.handler uuid choose) w ev w') : ChecksStatements ev := by
  rintro st e r rfl hcheck
  simp only [handled, World.handler, World.answer, Database.answer,
    Database.execute_of_check _ _ hcheck, Option.map_some, Option.getD_some, Prod.mk.injEq] at h
  exact h.1.symm

namespace DeliveryRepository

theorem check_insertAttempt (entity : DeliveryAttempt) :
    (insertAttempt entity).check = some (SqlError.badField "error") := by
  rfl

theorem check_updateMessage (messageId : String) (status : Status) (finalDelivered : Bool)
    (attempts : Int) :
    (updateMessage messageId status finalDelivered attempts).check =
      some (SqlError.badField "attempts") := by
  rfl

theorem check_selectStatus (messageId : String) :
    (selectStatus messageId).check = some (SqlError.badField "attempts") := by
  rfl

/-- A refused statement makes the whole method throw; the connection is released. -/
theorem wp_refused {α : Type} (checks : ∀ s ev s', env s ev s' → ChecksStatements ev)
    {st : Statement} {e : JsError} (hcheck : st.check = some e) (f : st.Result → Prog α) :
    (withConnection (Connection.execute st >>= f)).wp env (fun _ => True) throws s := by
  rw [withConnection, wp_bind]
  intro r s' _
  refine ⟨trivial, ?_⟩
  cases r with
  | error e => trivial
  | ok _ =>
      rw [wp_done, either_ok, wp_andFinally, wp_bind]
      intro r s'' hr
      obtain rfl := checks _ _ _ hr st e r rfl hcheck
      refine ⟨trivial, fun r _ _ => ⟨trivial, ?_⟩⟩
      cases r <;> trivial

theorem wp_saveAttempt (checks : ∀ s ev s', env s ev s' → ChecksStatements ev)
    (entity : DeliveryAttempt) : (saveAttempt entity).wp env (fun _ => True) throws s := by
  have h := wp_refused (s := s) checks (check_insertAttempt entity) pure
  rwa [bind_pure] at h

theorem wp_updateStatus (checks : ∀ s ev s', env s ev s' → ChecksStatements ev)
    (messageId : String) (status : Status) (finalDelivered : Bool) (attempts : Int) :
    (updateStatus messageId status finalDelivered attempts).wp env (fun _ => True) throws s := by
  have h := wp_refused (s := s) checks
    (check_updateMessage messageId status finalDelivered attempts) pure
  rwa [bind_pure] at h

theorem wp_getStatus (checks : ∀ s ev s', env s ev s' → ChecksStatements ev)
    (messageId : String) : (getStatus messageId).wp env (fun _ => True) throws s :=
  wp_refused checks (check_selectStatus messageId) _

end DeliveryRepository

namespace DeliveryProcessorService

/-- With these answers the `try` block cannot be left without an error: every way to
its end goes through `getStatus` or `updateStatus`. -/
theorem deliver_throws (checks : ∀ s ev s', env s ev s' → ChecksStatements ev)
    (provider : IProvider) (m : MessageToDeliver) (currentAttempt : Int) :
    (deliver deliveryRepository provider m currentAttempt).wp env (fun _ => True) throws s := by
  have hdelivered : ∀ s, (alreadyDelivered deliveryRepository m).wp env (fun _ => True)
      (either (fun delivered _ => delivered = false) fun _ _ => True) s := by
    intro s
    rw [alreadyDelivered, wp_bind]
    apply mono_post (wp_true _ s)
    intro o s' _
    cases o with
    | error e => trivial
    | ok isNewDelivery =>
        rw [either_ok, wp_ite]
        refine ⟨fun _ => rfl, fun _ => ?_⟩
        rw [wp_bind]
        apply mono_post (DeliveryRepository.wp_getStatus checks m.messageId)
        intro o s'' h
        cases o with
        | error e => trivial
        | ok _ => exact h.elim
  rw [deliver, wp_bind]
  apply mono_post (hdelivered s)
  intro o s' h
  cases o with
  | error e => trivial
  | ok delivered =>
      rw [either_ok] at h ⊢
      subst h
      rw [wp_ite]
      refine ⟨fun h => absurd h (by decide), fun _ => ?_⟩
      rw [wp_bind]
      apply mono_post (wp_true _ s')
      intro o s'' _
      cases o with
      | error e => trivial
      | ok result =>
          rw [either_ok, wp_bind, recordSuccess, wp_bind]
          apply mono_post (DeliveryRepository.wp_updateStatus checks _ _ _ _)
          intro o _ h
          cases o with
          | error e => trivial
          | ok _ => exact h.elim

theorem processDelivery_throws (checks : ∀ s ev s', env s ev s' → ChecksStatements ev)
    (provider : IProvider) (m : MessageToDeliver) :
    (processDelivery deliveryRepository provider m).wp env (fun _ => True) throws s := by
  rw [processDelivery, wp_tryCatch]
  apply mono_post (deliver_throws checks provider m _)
  intro o s' h
  cases o with
  | ok _ => exact h.elim
  | error e =>
      rw [either_error, handleFailure, wp_bind]
      apply mono_post (DeliveryRepository.wp_saveAttempt checks _)
      intro o _ h
      cases o with
      | ok _ => exact h.elim
      | error e => trivial

end DeliveryProcessorService

/-! ## What a delivery should leave behind -/

/-- `after` is `before` and one more element, with the given property. -/
def OneMore {α : Type} (before after : List α) (p : α → Prop) : Prop :=
  ∃ a, after = before ++ [a] ∧ p a

def World.row? (w : World) (messageId : String) : Option MessageRow :=
  w.db.messages.find? fun r => r.messageId == messageId

/-- The state a delivery of `m` should lead from `w` to: the provider was called once,
and the row, the attempts, the retries and the DLQ say how that call ended. -/
def DeliveredThroughSchema (m : MessageToDeliver) (w w' : World) : Prop :=
  ∃ sending row, w'.inbox = w.inbox ++ [sending] ∧ w'.row? m.messageId = some row ∧
    match sending.outcome with
    | .ok _ =>
      row.status = .sent ∧ row.finalDelivered = true ∧ row.attemptCount = m.attempt + 1 ∧
        OneMore w.db.deliveryAttempts w'.db.deliveryAttempts fun a =>
          a.messageId = m.messageId ∧ a.status = .success
    | .error _ =>
      (OneMore w.db.deliveryAttempts w'.db.deliveryAttempts fun a =>
        a.messageId = m.messageId ∧ a.status = .failed) ∧
      if m.attempt + 1 < DeliveryProcessorService.MAX_ATTEMPTS then
        row.status = .pending ∧
          ((w'.redis.zsets "retries").filter fun x =>
            (RetrySchedulerService.parseItem x.1).messageId == m.messageId).length = 1
      else
        row.status = .failed ∧
          (OneMore w.db.dlqEntries w'.db.dlqEntries fun d => d.messageId = m.messageId) ∧
          OneMore (w.log.filter fun x => x.topic == "dlq." ++ m.channel)
            (w'.log.filter fun x => x.topic == "dlq." ++ m.channel) fun x =>
              x.key.bind Json.string? = some m.messageId

/-- On no input does `processDelivery`, run against the schema, end without throwing
in the state it should lead to: it never ends without throwing. -/
theorem processDelivery_never_through_schema (uuid : ℕ → String) (choose : World → Choice)
    (provider : IProvider) (m : MessageToDeliver) (w : World) :
    ¬ ∃ result w', (DeliveryProcessorService.processDelivery deliveryRepository provider m).run
        (World.handler uuid choose) w = (.ok result, w') ∧ DeliveredThroughSchema m w w' := by
  rintro ⟨result, w', hrun, -⟩
  have h := (DeliveryProcessorService.processDelivery_throws (s := w)
    (fun _ _ _ => checksStatements_handler uuid choose) provider m).run
  rw [hrun] at h
  exact h

/-- A message consumed from `messages.sms`, and its batch entry. -/
def sampleMessage : MessageToDeliver where
  messageId := "m-1"
  dedupKey := "d-1"
  userId := "user-1"
  tenantId := "tenant-1"
  channel := "sms"
  recipient := "+15550100"
  body := "hello"
  traceId := some "trace-1"
  idempotencyKey := some "key-1"
  attempt := 0

def sampleEntry : MessageToCheckIdempotency where
  messageId := some sampleMessage.messageId
  tenantId := some sampleMessage.tenantId
  idempotencyKey := sampleMessage.idempotencyKey
  dedupKey := some sampleMessage.dedupKey
  channel := some sampleMessage.channel
  userId := some sampleMessage.userId
  recipient := some sampleMessage.recipient
  body := some sampleMessage.body
  traceId := sampleMessage.traceId
  attempt := sampleMessage.attempt

/-- The provider accepts everything. -/
def providerAccepts : World → Choice := fun _ => { outcome := .ok ⟨true, some "{}"⟩ }

/-- The empty database after the batch consumer has inserted the row. -/
def sampleWorld : World :=
  ((BatchIdempotencyService.insertNewMessagesInProgress [sampleEntry]).run
    (World.handler toString providerAccepts) {}).2

/-- The outcome of delivering the message there, and the world it leaves. -/
def sampleDelivery : Except JsError ProcessResult × World :=
  (DeliveryProcessorService.processDelivery deliveryRepository ⟨"SMSProvider"⟩ sampleMessage).run
    (World.handler toString providerAccepts) sampleWorld

/-- With the row in place and a provider that succeeds, `processDelivery` throws and
leaves the row `IN_PROGRESS`, without a row in `delivery_attempts`. -/
theorem processDelivery_through_schema_fails :
    (sampleWorld.row? "m-1").map MessageRow.status = some .inProgress ∧
    sampleDelivery.1 = .error (SqlError.badField "error") ∧
    sampleDelivery.2.inbox.map Sending.outcome = [.ok ⟨true, some "{}"⟩] ∧
    (sampleDelivery.2.row? "m-1").map MessageRow.status = some .inProgress ∧
    ¬ DeliveredThroughSchema sampleMessage sampleWorld sampleDelivery.2 := by
  refine ⟨by decide, rfl, rfl, by decide, ?_⟩
  rintro ⟨sending, row, hinbox, hrow, h⟩
  have hattempts : sampleDelivery.2.db.deliveryAttempts = sampleWorld.db.deliveryAttempts := rfl
  have nothing : ∀ p, ¬ OneMore sampleWorld.db.deliveryAttempts
      sampleDelivery.2.db.deliveryAttempts p := by
    rintro p ⟨a, ha, -⟩
    simp [hattempts] at ha
  split at h
  · exact nothing _ h.2.2.2
  · exact nothing _ h.1

end Notification
