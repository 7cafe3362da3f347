import Notification.Aggregator.BatchIdempotencyService
import Notification.Aggregator.DeliveryProcessorService

/-!
# The aggregator worker

The `eachBatch` handler and the retry loop of `index.ts`.
-/

namespace Notification

open Interaction

/-- A Kafka message: its value is missing, no JSON, or JSON. -/
structure KafkaMessage where
  offset : ℕ
  value : Option (Option Json)

/-- The parsed event. Whatever the type of a field is, it is kept as the text that MySQL
stores for it; a field that is missing or `null` is `none`. -/
structure ParsedKafkaMessage where
  messageId : Option String
  dedupKey : Option String
  userId : Option String
  tenantId : Option String
  channel : Option String
  recipient : Option String
  body : Option String
  traceId : Option String
  idempotencyKey : Option String
  attempt : Int
  deriving DecidableEq, Repr

namespace ParsedKafkaMessage

/-- `m.idempotencyKey || m.dedupKey` -/
def effectiveKey (m : ParsedKafkaMessage) : Option String :=
  match m.idempotencyKey with
  | some key => if key = "" then m.dedupKey else some key
  | none => m.dedupKey

def toCheck (m : ParsedKafkaMessage) : MessageToCheckIdempotency where
  messageId := m.messageId
  tenantId := m.tenantId
  idempotencyKey := m.effectiveKey
  dedupKey := m.dedupKey
  channel := m.channel
  userId := m.userId
  recipient := m.recipient
  body := m.body
  traceId := m.traceId
  attempt := m.attempt

/-- The cast to `MessageToDeliver`. A missing field prints as `undefined`. -/
def asMessage (m : ParsedKafkaMessage) : MessageToDeliver where
  messageId := m.messageId.getD "undefined"
  dedupKey := m.dedupKey.getD "undefined"
  userId := m.userId.getD "undefined"
  tenantId := m.tenantId.getD "undefined"
  channel := m.channel.getD "undefined"
  recipient := m.recipient.getD "undefined"
  body := m.body.getD "undefined"
  traceId := m.traceId
  idempotencyKey := m.idempotencyKey
  attempt := m.attempt

end ParsedKafkaMessage

/-- The attempt as a number: texts go through `parseInt`, everything falsy is 0, and `true`
counts as 1. Fractions, arrays and objects are no attempts and not told from 0. -/
def normalizeAttempt (attempt : Option Json) : Int :=
  match attempt with
  | some (.string text) => (parseInt10 text).getD 0
  | some (.number n) => n
  | some (.bool true) => 1
  | _ => 0

/-- The event of a JSON value. Reading a property of `null` throws, and so does
setting one on a primitive value in strict mode; an array has no named fields. -/
def parseEvent (value : Json) : Except JsError ParsedKafkaMessage :=
  match value with
  | .object _ | .array _ =>
    .ok { messageId := value.boundField "messageId", dedupKey := value.boundField "dedupKey",
          userId := value.boundField "userId", tenantId := value.boundField "tenantId",
          channel := value.boundField "channel", recipient := value.boundField "recipient",
          body := value.boundField "body", traceId := value.boundField "traceId",
          idempotencyKey := value.truthyField "idempotencyKey",
          attempt := normalizeAttempt (value.get? "attempt") }
  | .null => .error (.typeError "Cannot read properties of null (reading 'attempt')")
  | _ => .error (.typeError "Cannot create property 'attempt'")

/-- `JSON.parse(msg.value?.toString() || "{}")` -/
def KafkaMessage.parse (msg : KafkaMessage) : Except JsError ParsedKafkaMessage :=
  match msg.value with
  | none => parseEvent (.object [])
  | some none => .error (.syntaxError "Unexpected token in JSON")
  | some (some value) => parseEvent value

/-- The messages of one partition that `eachBatch` is called with. -/
structure Batch where
  topic : String
  partition : ℕ
  messages : List KafkaMessage

namespace Worker

variable (deliveryRepository : IDeliveryRepository)

/-- `topic.replace("messages.", "")` -/
def channelOf (topic : String) : String :=
  String.ofList (removeFirst "messages.".toList topic.toList)

/-- One message of `STEP 4`. -/
def processMessage (channel : String) (duplicateMessages : List DuplicateMessage)
    (msgData : ParsedKafkaMessage) : Prog ProcessResult :=
  if duplicateMessages.any fun dm => dm.messageId == msgData.messageId then
    pure { success := true, shouldRetry := false, isDuplicate := true }
  else
    try
      let provider ← Program.done (ProviderFactory.getProvider channel)
      DeliveryController.handleMessage deliveryRepository provider msgData.asMessage
    catch _ => pure { success := false, shouldRetry := true }

/-- `STEP 5`: resolve the last offset if nothing in the batch has failed. -/
def resolveBatch (messages : List KafkaMessage) (processedResults : List ProcessResult) :
    Prog Unit :=
  if processedResults.all fun r => r.success || r.isDuplicate then
    match messages.getLast? with
    | none => throw (.typeError "Cannot read properties of undefined (reading 'offset')")
    | some lastMessage => do
      Program.perform (Call.resolveOffset lastMessage.offset)
      Program.perform Call.heartbeat
  else
    pure ()

/-- `STEP 2` to `STEP 5` for the parsed messages of a batch. The results of the insert
are not looked at. -/
def processBatch (batch : Batch) (parsedMessages : List ParsedKafkaMessage) : Prog Unit := do
  let result ← BatchIdempotencyService.checkBatchIdempotency
    (parsedMessages.map ParsedKafkaMessage.toCheck)
  if result.newMessages.length > 0 then
    let _ ← BatchIdempotencyService.insertNewMessagesInProgress result.newMessages
  let processedResults ← Program.forEach parsedMessages
    (processMessage deliveryRepository (channelOf batch.topic) result.duplicateMessages)
  resolveBatch batch.messages processedResults

/-- The handler that `consumer.run` is given. Every error ends here. -/
def eachBatch (batch : Batch) : Prog Unit :=
  try
    let parsedMessages ← Program.done (batch.messages.mapM KafkaMessage.parse)
    processBatch deliveryRepository batch parsedMessages
  catch _ => pure ()

/-- What the retry loop publishes for a due retry. -/
def retryMessage (retry : PendingRetry) : RetryMessage where
  messageId := retry.messageId
  channel := retry.channel
  attempt := retry.attempt
  traceId := "retry-" ++ retry.messageId

/-- One call of the retry loop. -/
def pollRetries : Prog Unit :=
  try
    let retries ← RetrySchedulerService.getPendingRetries
    let _ ← Program.forEach retries fun retry =>
      EventPublisherService.publishRetryMessage (retryMessage retry)
  catch _ => pure ()

end Worker

end Notification
