import Notification.Aggregator.DeliveryRepository

/-!
# BatchIdempotencyService: which messages of a batch are new

The fields of a message come from a parsed Kafka event and may be missing there.
-/

namespace Notification

open Interaction

structure MessageToCheckIdempotency where
  messageId : Option String
  tenantId : Option String
  idempotencyKey : Option String
  dedupKey : Option String
  channel : Option String
  userId : Option String
  recipient : Option String
  body : Option String
  traceId : Option String
  attempt : Int
  deriving DecidableEq, Repr

structure DuplicateMessage where
  messageId : Option String
  idempotencyKey : Option String
  status : String
  reason : String
  deriving DecidableEq, Repr

structure BatchIdempotencyResult where
  newMessages : List MessageToCheckIdempotency := []
  duplicateMessages : List DuplicateMessage := []
  totalProcessed : ℕ := 0
  deriving DecidableEq, Repr

inductive InsertStatus where
  | inProgress
  | skippedDup
  deriving DecidableEq, Repr

structure InsertResult where
  messageId : Option String
  status : InsertStatus
  deriving DecidableEq, Repr

/-- `${tenantId}:${idempotencyKey}` -/
def joinedKey (tenantId idempotencyKey : Option String) : String :=
  tenantId.getD "undefined" ++ ":" ++ idempotencyKey.getD "undefined"

namespace MessageToCheckIdempotency

def key (m : MessageToCheckIdempotency) : String := joinedKey m.tenantId m.idempotencyKey

end MessageToCheckIdempotency

/-- The joined key of a row. -/
def MessageRow.key (r : MessageRow) : String := joinedKey (some r.tenantId) (some r.idempotencyKey)

namespace BatchIdempotencyService

/-- The first pair for each joined key, in the order of the batch. -/
def extractUniqueIdempotencyKeys (messages : List MessageToCheckIdempotency) :
    List (Option String × Option String) :=
  let rec go (seen : List String) :
      List MessageToCheckIdempotency → List (Option String × Option String)
    | [] => []
    | m :: rest =>
      if m.key ∈ seen then go seen rest
      else (m.tenantId, m.idempotencyKey) :: go (m.key :: seen) rest
  go [] messages

def selectExisting (keys : List (Option String × Option String)) : Statement :=
  .select ["tenantId", "idempotencyKey", "messageId", "status", "finalDelivered", "attemptCount"]
    ["tenantId", "idempotencyKey"] (keys.map fun k => [.text k.1, .text k.2])

def queryExistingMessages (keys : List (Option String × Option String)) : Prog (List MessageRow) :=
  if keys.length = 0 then pure [] else Connection.execute (selectExisting keys)

/-- `existingMap.get(key)`: a later row replaces an earlier one. -/
def existingFor (rows : List MessageRow) (key : String) : Option MessageRow :=
  rows.reverse.find? fun r => r.key == key

/-- Split the batch into new and duplicate messages. The row's status only goes
into the reason. -/
def partitionBatch (rows : List MessageRow) :
    List MessageToCheckIdempotency → BatchIdempotencyResult
  | [] => {}
  | m :: rest =>
    let others := partitionBatch rows rest
    match existingFor rows m.key with
    | some existing =>
      { others with
        duplicateMessages :=
          { messageId := m.messageId, idempotencyKey := m.idempotencyKey,
            status := existing.status.toText,
            reason := "Duplicate idempotency key (existing: " ++ existing.messageId ++
              ", status: " ++ existing.status.toText ++ ")" } :: others.duplicateMessages
        totalProcessed := others.totalProcessed + 1 }
    | none =>
      { others with
        newMessages := m :: others.newMessages
        totalProcessed := others.totalProcessed + 1 }

def checkBatchIdempotency (messages : List MessageToCheckIdempotency) :
    Prog BatchIdempotencyResult :=
  if messages.length = 0 then
    pure {}
  else
    withConnection do
      let rows ← queryExistingMessages (extractUniqueIdempotencyKeys messages)
      return partitionBatch rows messages

def insertMessage (m : MessageToCheckIdempotency) : Statement :=
  .insert .messages
    ["messageId", "idempotencyKey", "tenantId", "dedupKey", "userId", "channel", "recipient",
      "body", "status", "finalDelivered", "attemptCount", "maxAttempts", "createdAt", "updatedAt"]
    [ .text m.messageId, .text m.idempotencyKey, .text m.tenantId, .text m.dedupKey,
      .text m.userId, .text m.channel, .text m.recipient, .text m.body,
      .literal (.string "IN_PROGRESS"), .literal (.boolean false), .literal (.number 0),
      .literal (.number 4), .now, .now ]

/-- One message of the transaction. A duplicate key is no error. -/
def insertOne (m : MessageToCheckIdempotency) : Prog InsertResult :=
  try
    let _ ← Connection.execute (insertMessage m)
    pure { messageId := m.messageId, status := .inProgress }
  catch error =>
    if error.code = some "ER_DUP_ENTRY" then
      pure { messageId := m.messageId, status := .skippedDup }
    else
      throw error

/-- The transaction, from `BEGIN` to `COMMIT`. -/
def insertAll (messages : List MessageToCheckIdempotency) : Prog (List InsertResult) := do
  Connection.beginTransaction
  let results ← Program.forEach messages insertOne
  Connection.commit
  return results

def insertNewMessagesInProgress (messages : List MessageToCheckIdempotency) :
    Prog (List InsertResult) :=
  if messages.length = 0 then
    pure []
  else
    withConnection <|
      tryCatch (insertAll messages) fun error => do
        Connection.rollback
        throw error

end BatchIdempotencyService

end Notification
