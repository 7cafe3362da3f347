import Notification.Aggregator.Services

/-!
# ProcessDeliveryUseCase: the other implementation of one delivery

The use case of the domain layer with `RedisDeliveryService` as its deduplication service and
its retry scheduler. One `IDeliveryRepository` stands for its three repositories, which the
source implements by one class.
-/

namespace Notification

open Interaction

/-! ## RedisDeliveryService -/

namespace RedisDeliveryService

/-- The reply of `setNX` is a boolean, so it is never `null`; false when Redis fails. -/
def checkDeliveryDedup (dedupKey : String) : Prog Bool :=
  try
    let _ ← RedisClient.setNX ("delivered:" ++ dedupKey) (.number 1)
    pure true
  catch _ => pure false

/-- The attempt is written as it is given. With an undefined delay the score is `NaN`, which
Redis refuses. -/
def scheduleRetry (messageId channel : String) (nextAttempt : Int) (delayMs : Option Int) :
    Prog Unit := do
  let now ← dateNow
  match delayMs with
  | some delay =>
    RedisClient.zAdd "retries" (now + delay)
      (RetrySchedulerService.payload messageId channel nextAttempt)
  | none => throw { message := "ERR value is not a valid float" }

def getPendingRetries : Prog (List PendingRetry) := do
  let now ← dateNow
  let items ← RedisClient.zRangeByScore "retries" 0 now
  if items.length > 0 then
    let _ ← RedisClient.zRemRangeByScore "retries" 0 now
    pure (items.map RetrySchedulerService.parseItem)
  else
    pure (items.map RetrySchedulerService.parseItem)

end RedisDeliveryService

/-! ## MySQLDeliveryRepository -/

namespace MySQLDeliveryRepository

/-- An entity with an `attemptNumber` is an attempt, any other a dead letter. -/
def save : DeliveryAttempt ⊕ DLQEntry → Prog Unit
  | .inl entity => DeliveryRepository.saveAttempt entity
  | .inr entity => DeliveryRepository.saveDLQEntry entity

def updateStatus (messageId : String) (status : Status) (finalDelivered : Bool)
    (attempts : Int) : Prog Unit :=
  DeliveryRepository.updateStatus messageId status finalDelivered attempts

def getStatus (messageId : String) : Prog (Option MessageStatus) :=
  DeliveryRepository.getStatus messageId

end MySQLDeliveryRepository

/-- The repositories that the source has for the use case. -/
def mysqlDeliveryRepository : IDeliveryRepository where
  saveAttempt entity := MySQLDeliveryRepository.save (.inl entity)
  saveDLQEntry entity := MySQLDeliveryRepository.save (.inr entity)
  updateStatus := MySQLDeliveryRepository.updateStatus
  getStatus := MySQLDeliveryRepository.getStatus

/-- `KafkaEventPublisher.publishLog` -/
def KafkaEventPublisher.publishLog (log : Json) : Prog Unit :=
  produce "logs" (log.get? "traceId") log

/-! ## The use case -/

structure DeliveryResult where
  success : Bool
  shouldRetry : Bool
  deriving DecidableEq, Repr

namespace ProcessDeliveryUseCase

def BACKOFF_DELAYS : List Int := [0, 1000, 10000, 30000, 300000]

def MAX_ATTEMPTS : Int := 4

/-- `BACKOFF_DELAYS[Math.min(currentAttempt, BACKOFF_DELAYS.length - 1)]` -/
def backoffDelay (currentAttempt : Int) : Option Int :=
  let index := min currentAttempt (BACKOFF_DELAYS.length - 1)
  if 0 ≤ index then BACKOFF_DELAYS[index.toNat]? else none

def log (message : MessageToDeliver) (status : String) (attempt : Int) (error : Json) : Json :=
  .ofFields
    [ ("service", some (.string "aggregator")), ("traceId", message.traceId.map Json.string),
      ("messageId", some (.string message.messageId)), ("userId", some (.string message.userId)),
      ("dedupKey", some (.string message.dedupKey)), ("channel", some (.string message.channel)),
      ("status", some (.string status)), ("attempt", some (.number attempt)),
      ("error", some error) ]

/-- The use case gives the provider the recipient and the body only. -/
def noOptions : IdempotencyOptions := { idempotencyToken := "", attemptNumber := 0, headers := [] }

def successAttempt (message : MessageToDeliver) (currentAttempt : Int)
    (providerResponse : Option String) : DeliveryAttempt where
  messageId := message.messageId
  attemptNumber := currentAttempt
  status := .success
  providerResponse := providerResponse

def failedAttempt (message : MessageToDeliver) (currentAttempt : Int) (error : JsError) :
    DeliveryAttempt where
  messageId := message.messageId
  attemptNumber := currentAttempt
  status := .failed
  error := some error.message

def dlqEntry (message : MessageToDeliver) (currentAttempt : Int) (error : JsError) : DLQEntry where
  messageId := message.messageId
  channel := message.channel
  failureReason := "Max attempts (" ++ toString currentAttempt ++ ") reached: " ++ error.message
  maxAttemptsReached := true

variable (repository : IDeliveryRepository) (provider : IProvider)

/-- Steps 1 and 2: whether the message is taken for delivered. -/
def alreadyDelivered (message : MessageToDeliver) : Prog Bool := do
  let isNewDelivery ← RedisDeliveryService.checkDeliveryDedup message.dedupKey
  if isNewDelivery then
    let status ← repository.getStatus message.messageId
    pure ((status.map MessageStatus.finalDelivered).getD false)
  else
    pure true

def recordSuccess (message : MessageToDeliver) (currentAttempt : Int)
    (result : ProviderResult) : Prog Unit := do
  repository.updateStatus message.messageId .sent true currentAttempt
  let providerResponse ← stringify result.response
  repository.saveAttempt (successAttempt message currentAttempt providerResponse)
  KafkaEventPublisher.publishLog (log message "SENT" currentAttempt .null)

/-- The `try` block. -/
def deliver (message : MessageToDeliver) (currentAttempt : Int) : Prog DeliveryResult := do
  let delivered ← alreadyDelivered repository message
  if delivered then
    pure { success := true, shouldRetry := false }
  else
    let result ← provider.send message.recipient message.body noOptions message
    recordSuccess repository message currentAttempt result
    pure { success := true, shouldRetry := false }

def sendToDlq (message : MessageToDeliver) (currentAttempt : Int) (error : JsError) :
    Prog DeliveryResult := do
  repository.updateStatus message.messageId .failed false currentAttempt
  repository.saveDLQEntry (dlqEntry message currentAttempt error)
  KafkaEventPublisher.publishLog (log message "DLQ" currentAttempt (.string error.message))
  pure { success := false, shouldRetry := false }

def retry (message : MessageToDeliver) (currentAttempt : Int) (error : JsError) :
    Prog DeliveryResult := do
  RedisDeliveryService.scheduleRetry message.messageId message.channel currentAttempt
    (backoffDelay currentAttempt)
  KafkaEventPublisher.publishLog
    (log message "RETRYING" (currentAttempt + 1) (.string error.message))
  pure { success := false, shouldRetry := true }

/-- The `catch` block. -/
def handleFailure (message : MessageToDeliver) (currentAttempt : Int) (error : JsError) :
    Prog DeliveryResult := do
  repository.saveAttempt (failedAttempt message currentAttempt error)
  if MAX_ATTEMPTS ≤ currentAttempt then
    sendToDlq repository message currentAttempt error
  else
    retry message currentAttempt error

def execute (message : MessageToDeliver) : Prog DeliveryResult :=
  let currentAttempt := message.attempt + 1
  try
    deliver repository provider message currentAttempt
  catch error =>
    handleFailure repository message currentAttempt error

end ProcessDeliveryUseCase

end Notification
