import Notification.Aggregator.Services

/-!
# DeliveryProcessorService: one delivery attempt

`processDelivery` is the `try` block `deliver` followed by the `catch` block
`handleFailure`. Both only use the repository they are given.
-/

namespace Notification

open Interaction

structure ProcessResult where
  success : Bool
  shouldRetry : Bool
  isDuplicate : Bool := false
  deriving DecidableEq, Repr

/-- A log record of the aggregator. -/
def deliveryLog (message : MessageToDeliver) (status text : String) (attempt : Int)
    (error : Json) : Json :=
  .ofFields
    [ ("service", some (.string "aggregator")), ("traceId", message.traceId.map Json.string),
      ("messageId", some (.string message.messageId)), ("userId", some (.string message.userId)),
      ("dedupKey", some (.string message.dedupKey)), ("channel", some (.string message.channel)),
      ("status", some (.string status)), ("message", some (.string text)),
      ("attempt", some (.number attempt)), ("error", some error) ]

/-- The record of a failed message for the `errors` topic. -/
def deliveryError (message : MessageToDeliver) (attempt : Int) (errorMsg : String) : Json :=
  .ofFields
    [ ("service", some (.string "aggregator")), ("traceId", message.traceId.map Json.string),
      ("messageId", some (.string message.messageId)), ("userId", some (.string message.userId)),
      ("channel", some (.string message.channel)), ("level", some (.string "ERROR")),
      ("message", some (.string
        ("Message delivery failed after " ++ toString attempt ++ " attempts"))),
      ("error", some (.string errorMsg)), ("attempt", some (.number attempt)) ]

namespace DeliveryProcessorService

def BACKOFF_DELAYS : List Int := [0, 1000, 10000, 30000, 300000]

def MAX_ATTEMPTS : Int := 4

/-- `BACKOFF_DELAYS[attemptNumber] || 300000` -/
def backoffDelay (attemptNumber : Int) : Int :=
  match if 0 ≤ attemptNumber then BACKOFF_DELAYS[attemptNumber.toNat]? else none with
  | some delay => if delay = 0 then 300000 else delay
  | none => 300000

theorem backoffDelay_nonneg (attemptNumber : Int) : 0 ≤ backoffDelay attemptNumber := by
  rw [backoffDelay]
  split
  · next delay h =>
      split at h
      · have hmem := List.mem_of_getElem? h
        simp only [BACKOFF_DELAYS, List.mem_cons, List.not_mem_nil, or_false] at hmem
        split <;> omega
      · cases h
  · omega

theorem backoffDelay_le (attemptNumber : Int) : backoffDelay attemptNumber ≤ longestDelay := by
  rw [backoffDelay, longestDelay]
  split
  · next delay h =>
      split at h
      · have hmem := List.mem_of_getElem? h
        simp only [BACKOFF_DELAYS, List.mem_cons, List.not_mem_nil, or_false] at hmem
        split <;> omega
      · cases h
  · omega

variable (deliveryRepository : IDeliveryRepository) (provider : IProvider)

/-- `STEP 1`: whether the message is known to be delivered already. -/
def alreadyDelivered (message : MessageToDeliver) : Prog Bool := do
  let isNewDelivery ← DeliveryDeduplicationService.checkDeliveryDedup message.dedupKey
  if isNewDelivery then
    pure false
  else
    let dbStatus ← deliveryRepository.getStatus message.messageId
    pure ((dbStatus.map MessageStatus.finalDelivered).getD false)

/-- The options of the provider call. -/
def sendOptions (message : MessageToDeliver) (currentAttempt : Int) : IdempotencyOptions where
  idempotencyToken := message.messageId
  attemptNumber := currentAttempt
  headers := [("Idempotency-Key", message.messageId), ("Attempt-Number", toString currentAttempt)]

def successAttempt (message : MessageToDeliver) (currentAttempt : Int)
    (providerResponse : Option String) : DeliveryAttempt where
  messageId := message.messageId
  attemptNumber := currentAttempt
  status := .success
  providerResponse := providerResponse

/-- `STEP 3` and `STEP 4`: what is written down after the provider call succeeded. -/
def recordSuccess (message : MessageToDeliver) (currentAttempt : Int)
    (result : ProviderResult) : Prog Unit := do
  deliveryRepository.updateStatus message.messageId .sent true currentAttempt
  let providerResponse ← stringify result.response
  deliveryRepository.saveAttempt (successAttempt message currentAttempt providerResponse)
  DeliveryDeduplicationService.setDeliveredCache message.dedupKey
  EventPublisherService.publishLog (deliveryLog message "SENT"
    ("Successfully delivered " ++ message.channel ++ " message on attempt " ++
      toString currentAttempt) currentAttempt .null)

/-- The `try` block. -/
def deliver (message : MessageToDeliver) (currentAttempt : Int) : Prog ProcessResult := do
  let delivered ← alreadyDelivered deliveryRepository message
  if delivered then
    pure { success := true, shouldRetry := false, isDuplicate := true }
  else
    let result ← provider.send message.recipient message.body
      (sendOptions message currentAttempt) message
    recordSuccess deliveryRepository message currentAttempt result
    pure { success := true, shouldRetry := false }

def handleMaxAttemptsReached (message : MessageToDeliver) (attemptNumber : Int)
    (errorMsg : String) : Prog ProcessResult := do
  deliveryRepository.updateStatus message.messageId .failed false attemptNumber
  deliveryRepository.saveDLQEntry
    { messageId := message.messageId, channel := message.channel, failureReason := errorMsg,
      maxAttemptsReached := true }
  EventPublisherService.publishDLQMessage message.messageId message.channel errorMsg
  EventPublisherService.publishLog (deliveryLog message "FAILED"
    ("Message failed after " ++ toString attemptNumber ++ " attempts - moved to DLQ")
    attemptNumber (.string errorMsg))
  EventPublisherService.publishError (deliveryError message attemptNumber errorMsg)
  pure { success := false, shouldRetry := false }

/-- The attempt number is handed to the scheduler as it is; the scheduler adds one. -/
def handleRetry (message : MessageToDeliver) (attemptNumber : Int) (errorMsg : String) :
    Prog ProcessResult := do
  let nextAttemptNumber := attemptNumber + 1
  let delayMs := backoffDelay attemptNumber
  deliveryRepository.updateStatus message.messageId .pending false attemptNumber
  RetrySchedulerService.scheduleRetry message.messageId message.channel attemptNumber delayMs
  EventPublisherService.publishLog (deliveryLog message "RETRY_SCHEDULED"
    ("Scheduling retry " ++ toString nextAttemptNumber ++ " after " ++ toString delayMs ++ "ms")
    attemptNumber (.string errorMsg))
  pure { success := false, shouldRetry := true }

/-- `error.message || "Unknown error"` -/
def errorMessage (error : JsError) : String :=
  if error.message = "" then "Unknown error" else error.message

/-- `error.code || "UNKNOWN_ERROR"` -/
def errorCode (error : JsError) : String :=
  match error.code with
  | some code => if code = "" then "UNKNOWN_ERROR" else code
  | none => "UNKNOWN_ERROR"

def failedAttempt (message : MessageToDeliver) (currentAttempt : Int) (error : JsError) :
    DeliveryAttempt where
  messageId := message.messageId
  attemptNumber := currentAttempt
  status := .failed
  error := some (errorMessage error)
  providerResponse := some (errorCode error)

/-- The `catch` block: it does not tell where in the `try` block the error was thrown. -/
def handleFailure (message : MessageToDeliver) (currentAttempt : Int) (error : JsError) :
    Prog ProcessResult := do
  deliveryRepository.saveAttempt (failedAttempt message currentAttempt error)
  if MAX_ATTEMPTS ≤ currentAttempt then
    handleMaxAttemptsReached deliveryRepository message currentAttempt (errorMessage error)
  else
    handleRetry deliveryRepository message currentAttempt (errorMessage error)

def processDelivery (message : MessageToDeliver) : Prog ProcessResult :=
  let currentAttempt := message.attempt + 1
  try
    deliver deliveryRepository provider message currentAttempt
  catch error =>
    handleFailure deliveryRepository message currentAttempt error

end DeliveryProcessorService

/-- `DeliveryController.handleMessage` -/
def DeliveryController.handleMessage (deliveryRepository : IDeliveryRepository)
    (provider : IProvider) (message : MessageToDeliver) : Prog ProcessResult :=
  DeliveryProcessorService.processDelivery deliveryRepository provider message

end Notification
