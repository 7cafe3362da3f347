import Notification.Infra.World

/-!
# The delivery repository

`IDeliveryRepository` is what the delivery processor is given. `DeliveryRepository`
implements it with the SQL statements of the source; `interfaceRepository`
implements it by calls that do what the interface says. The `find…` methods, which
no delivery uses, are left out.
-/

namespace Notification

open Interaction

structure IDeliveryRepository where
  saveAttempt : DeliveryAttempt → Prog Unit
  saveDLQEntry : DLQEntry → Prog Unit
  updateStatus (messageId : String) (status : Status) (finalDelivered : Bool)
    (attempts : Int) : Prog Unit
  getStatus : String → Prog (Option MessageStatus)

/-- The repository whose calls have their interface meaning. -/
def interfaceRepository : IDeliveryRepository where
  saveAttempt entity := Program.perform (Call.repository (.saveAttempt entity))
  saveDLQEntry entity := Program.perform (Call.repository (.saveDLQEntry entity))
  updateStatus messageId status finalDelivered attempts :=
    Program.perform (Call.repository (.updateStatus messageId status finalDelivered attempts))
  getStatus messageId := Program.perform (Call.repository (.getStatus messageId))

namespace InterfaceRepository

variable (uuid : ℕ → String) (choose : World → Choice) (w : World)

@[simp] theorem run_saveAttempt (entity : DeliveryAttempt) :
    (interfaceRepository.saveAttempt entity).run (World.handler uuid choose) w =
      (.ok (), { w with db :=
        { w.db with deliveryAttempts := w.db.deliveryAttempts ++ [entity] } }) := rfl

@[simp] theorem run_saveDLQEntry (entity : DLQEntry) :
    (interfaceRepository.saveDLQEntry entity).run (World.handler uuid choose) w =
      (.ok (), { w with db := { w.db with dlqEntries := w.db.dlqEntries ++ [entity] } }) := rfl

@[simp] theorem run_getStatus (messageId : String) :
    (interfaceRepository.getStatus messageId).run (World.handler uuid choose) w =
      (.ok (w.db.getStatus messageId), w) := rfl

theorem run_updateStatus {messageId : String} (status : Status) (finalDelivered : Bool)
    (attempts : Int) (idle : ∀ p ∈ w.db.pending, p.2.messageId ≠ messageId) :
    (interfaceRepository.updateStatus messageId status finalDelivered attempts).run
        (World.handler uuid choose) w =
      (.ok (), { w with db := w.db.updateStatus messageId status finalDelivered attempts }) := by
  have hidle : (w.db.pending.any fun p => p.2.messageId == messageId) = false := by
    simpa using idle
  simp [interfaceRepository, World.handler, World.answer, Database.repository, hidle]

section Record

variable {ok : CallEvent → Prop} {T : Trace Reply JsError → Prop} {t : Trace Reply JsError}

theorem wp_saveAttempt {entity : DeliveryAttempt}
    {Q : Except JsError Unit → Trace Reply JsError → Prop} :
    (interfaceRepository.saveAttempt entity).wp (recording ok) T Q t ↔
      ∀ r, ok ⟨.repository (.saveAttempt entity), r⟩ →
        T (⟨.repository (.saveAttempt entity), r⟩ :: t) ∧
        Q r (⟨.repository (.saveAttempt entity), r⟩ :: t) :=
  Program.wp_step_recording

theorem wp_saveDLQEntry {entity : DLQEntry}
    {Q : Except JsError Unit → Trace Reply JsError → Prop} :
    (interfaceRepository.saveDLQEntry entity).wp (recording ok) T Q t ↔
      ∀ r, ok ⟨.repository (.saveDLQEntry entity), r⟩ →
        T (⟨.repository (.saveDLQEntry entity), r⟩ :: t) ∧
        Q r (⟨.repository (.saveDLQEntry entity), r⟩ :: t) :=
  Program.wp_step_recording

theorem wp_updateStatus {messageId : String} {status : Status} {finalDelivered : Bool}
    {attempts : Int} {Q : Except JsError Unit → Trace Reply JsError → Prop} :
    (interfaceRepository.updateStatus messageId status finalDelivered attempts).wp
        (recording ok) T Q t ↔
      ∀ r, ok ⟨.repository (.updateStatus messageId status finalDelivered attempts), r⟩ →
        T (⟨.repository (.updateStatus messageId status finalDelivered attempts), r⟩ :: t) ∧
        Q r (⟨.repository (.updateStatus messageId status finalDelivered attempts), r⟩ :: t) :=
  Program.wp_step_recording

theorem wp_getStatus {messageId : String}
    {Q : Except JsError (Option MessageStatus) → Trace Reply JsError → Prop} :
    (interfaceRepository.getStatus messageId).wp (recording ok) T Q t ↔
      ∀ r, ok ⟨.repository (.getStatus messageId), r⟩ →
        T (⟨.repository (.getStatus messageId), r⟩ :: t) ∧
        Q r (⟨.repository (.getStatus messageId), r⟩ :: t) :=
  Program.wp_step_recording

end Record

end InterfaceRepository

/-- Run `body` on a connection of the pool and release it in the end. -/
def withConnection {α : Type} (body : Prog α) : Prog α := do
  Connection.getConnection
  body.andFinally Connection.release

namespace DeliveryRepository

/-- `value || null` -/
def orNull (value : Option String) : SqlValue :=
  match value with
  | some text => if text = "" then .null else .string text
  | none => .null

def insertAttempt (entity : DeliveryAttempt) : Statement :=
  .insert .deliveryAttempts ["messageId", "attemptNumber", "status", "error", "providerResponse"]
    [ .param (some (.string entity.messageId)), .param (some (.number entity.attemptNumber)),
      .param (some (.string entity.status.toText)), .param (some (orNull entity.error)),
      .param (some (orNull entity.providerResponse)) ]

def insertDLQEntry (entity : DLQEntry) : Statement :=
  .insert .dlqEntries ["messageId", "channel", "failureReason", "maxAttemptsReached"]
    [ .param (some (.string entity.messageId)), .param (some (.string entity.channel)),
      .param (some (.string entity.failureReason)),
      .param (some (.boolean entity.maxAttemptsReached)) ]

def updateMessage (messageId : String) (status : Status) (finalDelivered : Bool)
    (attempts : Int) : Statement :=
  .update
    [ ("status", .param (some (.string status.toText))),
      ("finalDelivered", .param (some (.boolean finalDelivered))),
      ("attempts", .param (some (.number attempts))) ]
    "messageId" (.param (some (.string messageId)))

def selectStatus (messageId : String) : Statement :=
  .select ["finalDelivered", "status", "attempts"] ["messageId"]
    [[.param (some (.string messageId))]]

/-- The first row of a result, read as a `MessageStatus`. -/
def firstStatus (rows : List MessageRow) : Option MessageStatus :=
  rows.head?.map fun r =>
    { finalDelivered := r.finalDelivered, status := r.status, attempts := r.attemptCount }

def saveAttempt (entity : DeliveryAttempt) : Prog Unit :=
  withConnection (Connection.execute (insertAttempt entity))

def saveDLQEntry (entity : DLQEntry) : Prog Unit :=
  withConnection (Connection.execute (insertDLQEntry entity))

def updateStatus (messageId : String) (status : Status) (finalDelivered : Bool)
    (attempts : Int) : Prog Unit :=
  withConnection (Connection.execute (updateMessage messageId status finalDelivered attempts))

def getStatus (messageId : String) : Prog (Option MessageStatus) :=
  withConnection do
    let rows ← Connection.execute (selectStatus messageId)
    return firstStatus rows

end DeliveryRepository

/-- The repository the worker is started with. -/
def deliveryRepository : IDeliveryRepository where
  saveAttempt := DeliveryRepository.saveAttempt
  saveDLQEntry := DeliveryRepository.saveDLQEntry
  updateStatus := DeliveryRepository.updateStatus
  getStatus := DeliveryRepository.getStatus

end Notification
