import Notification.Js.Json

/-!
# Delivery models

The record types of the aggregator's `models/Delivery.ts` and the options of
`IProvider.send`. Database timestamps and generated row ids are left out.
-/

namespace Notification

/-- The `status` column of `messages`. -/
inductive Status where
  | pending
  | inProgress
  | sent
  | failed
  | retryScheduled
  deriving DecidableEq, Repr

namespace Status

def toText : Status → String
  | pending => "PENDING"
  | inProgress => "IN_PROGRESS"
  | sent => "SENT"
  | failed => "FAILED"
  | retryScheduled => "RETRY_SCHEDULED"

def ofText? : String → Option Status
  | "PENDING" => some pending
  | "IN_PROGRESS" => some inProgress
  | "SENT" => some sent
  | "FAILED" => some failed
  | "RETRY_SCHEDULED" => some retryScheduled
  | _ => none

@[simp] theorem ofText?_toText (s : Status) : ofText? s.toText = some s := by
  cases s <;> rfl

end Status

inductive AttemptStatus where
  | success
  | failed
  deriving DecidableEq, Repr

def AttemptStatus.toText : AttemptStatus → String
  | success => "SUCCESS"
  | failed => "FAILED"

structure DeliveryAttempt where
  messageId : String
  attemptNumber : Int
  status : AttemptStatus
  error : Option String := none
  providerResponse : Option String := none
  deriving DecidableEq, Repr

structure DLQEntry where
  messageId : String
  channel : String
  failureReason : String
  maxAttemptsReached : Bool
  deriving DecidableEq, Repr

/-- A message as the delivery loop hands it to the processor. Of its fields only
`traceId` and `idempotencyKey` can be missing there. -/
structure MessageToDeliver where
  messageId : String
  dedupKey : String
  userId : String
  tenantId : String
  channel : String
  recipient : String
  body : String
  traceId : Option String
  idempotencyKey : Option String
  attempt : Int
  deriving DecidableEq, Repr

namespace MessageToDeliver

/-- `m.idempotencyKey || m.dedupKey` -/
def effectiveKey (m : MessageToDeliver) : String :=
  match m.idempotencyKey with
  | some key => if key = "" then m.dedupKey else key
  | none => m.dedupKey

/-- The pair that identifies a notification: tenant and idempotency key. -/
def pair (m : MessageToDeliver) : String × String := (m.tenantId, m.effectiveKey)

end MessageToDeliver

structure MessageStatus where
  finalDelivered : Bool
  status : Status
  attempts : Int
  deriving DecidableEq, Repr

/-- `response` is what `JSON.stringify` makes of the provider's response, if it can print it. -/
structure ProviderResult where
  success : Bool
  response : Option String
  deriving DecidableEq, Repr

structure IdempotencyOptions where
  idempotencyToken : String
  attemptNumber : Int
  headers : List (String × String)
  deriving DecidableEq, Repr

end Notification
