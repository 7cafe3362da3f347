import Notification.Js.Json

/-!
# Router models

The request and response types of the router's `models/Message.ts`. The body of a
request is whatever JSON the client sent, so every field may be missing or of any
type; a request whose fields are strings, as the interface declares them, is a
`TextRequest`. The creation times of a message and the request's `metadata`, which
nothing reads, are left out.
-/

namespace Notification

structure CreateMessageRequest where
  tenantId : Option Json
  userId : Option Json
  idempotencyKey : Option Json
  channel : Option Json
  recipient : Option Json
  body : Option Json

/-- A request with the field types of the interface. -/
structure TextRequest where
  tenantId : String
  userId : String
  idempotencyKey : String
  channel : String
  recipient : String
  body : String
  deriving DecidableEq, Repr

namespace TextRequest

def toRequest (r : TextRequest) : CreateMessageRequest where
  tenantId := some (.string r.tenantId)
  userId := some (.string r.userId)
  idempotencyKey := some (.string r.idempotencyKey)
  channel := some (.string r.channel)
  recipient := some (.string r.recipient)
  body := some (.string r.body)

/-- The pair that identifies a notification. -/
def pair (r : TextRequest) : String × String := (r.tenantId, r.idempotencyKey)

end TextRequest

inductive ResponseStatus where
  | accepted
  | duplicate
  deriving DecidableEq, Repr

structure MessageResponse where
  messageId : String
  dedupKey : String
  traceId : String
  status : ResponseStatus
  deriving DecidableEq, Repr

/-- The message that the router publishes. -/
structure Message where
  messageId : String
  dedupKey : String
  userId : Option Json
  tenantId : Option Json
  channel : Option Json
  recipient : Option Json
  body : Option Json
  traceId : String
  status : String
  finalDelivered : Bool
  attempts : Int
  idempotencyKey : Option Json

def Message.toJson (m : Message) : Json :=
  .ofFields
    [ ("messageId", some (.string m.messageId)),
      ("dedupKey", some (.string m.dedupKey)),
      ("userId", m.userId),
      ("tenantId", m.tenantId),
      ("channel", m.channel),
      ("recipient", m.recipient),
      ("body", m.body),
      ("traceId", some (.string m.traceId)),
      ("status", some (.string m.status)),
      ("finalDelivered", some (.bool m.finalDelivered)),
      ("attempts", some (.number m.attempts)),
      ("idempotencyKey", m.idempotencyKey) ]

theorem Message.get?_toJson (m : Message) :
    m.toJson.get? "messageId" = some (.string m.messageId) ∧
    m.toJson.get? "tenantId" = m.tenantId ∧
    m.toJson.get? "idempotencyKey" = m.idempotencyKey := by
  have nodup : ["messageId", "dedupKey", "userId", "tenantId", "channel", "recipient", "body",
      "traceId", "status", "finalDelivered", "attempts", "idempotencyKey"].Nodup := by decide
  refine ⟨?_, ?_, ?_⟩ <;> rw [toJson, Json.get?_ofFields] <;> first | rfl | exact nodup

end Notification
