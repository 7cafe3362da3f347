import Notification.Router.Services
import Notification.Router.Validation

/-!
# MessageController: the ingress point of the router
-/

namespace Notification

open Interaction

/-- What the client gets: the HTTP status and either a response or an error text. -/
structure HttpReply where
  status : ℕ
  body : MessageResponse ⊕ (String × String)

namespace MessageController

variable (sha256 : String → String)

/-- `cached?.messageId || messageId` -/
def cachedMessageId (cached : Option Json) (messageId : String) : String :=
  match cached.bind fun j => j.stringField "messageId" with
  | some id => if id = "" then messageId else id
  | none => messageId

def duplicateLog (request : CreateMessageRequest) (traceId spanId messageId dedupKey : String) :
    Json :=
  .ofFields
    [ ("service", some (.string "router")), ("traceId", some (.string traceId)),
      ("spanId", some (.string spanId)), ("messageId", some (.string messageId)),
      ("userId", request.userId), ("dedupKey", some (.string dedupKey)),
      ("channel", request.channel), ("status", some (.string "DUPLICATE")),
      ("message", some (.string "Duplicate request (Redis cache hit)")) ]

def acceptedLog (request : CreateMessageRequest) (traceId spanId messageId dedupKey : String)
    (channel recipient : String) : Json :=
  .ofFields
    [ ("service", some (.string "router")), ("traceId", some (.string traceId)),
      ("spanId", some (.string spanId)), ("messageId", some (.string messageId)),
      ("userId", request.userId), ("dedupKey", some (.string dedupKey)),
      ("channel", request.channel), ("status", some (.string "ACCEPTED")),
      ("message", some (.string
        ("Message accepted for " ++ channel ++ " delivery to " ++ recipient))) ]

/-- The reply to a request whose key is cached. Nothing is enqueued. -/
def replyDuplicate (request : CreateMessageRequest) (traceId messageId dedupKey : String) :
    Prog MessageResponse := do
  let cached ← DeduplicationService.getCachedIngressRequest request.tenantId
    request.idempotencyKey
  try
    let spanId ← uuidv4
    MessagePublisher.publishLog
      (duplicateLog request traceId spanId (cachedMessageId cached messageId) dedupKey)
  catch _ => pure ()
  pure { messageId := cachedMessageId cached messageId, dedupKey, traceId, status := .duplicate }

/-- The message of a new request. -/
def newMessage (request : CreateMessageRequest) (traceId messageId dedupKey : String) :
    Message where
  messageId := messageId
  dedupKey := dedupKey
  userId := request.userId
  tenantId := request.tenantId
  channel := request.channel
  recipient := request.recipient
  body := request.body
  traceId := traceId
  status := "PENDING"
  finalDelivered := false
  attempts := 0
  idempotencyKey := request.idempotencyKey

/-- Enqueue a new request and log that it was accepted. -/
def enqueue (request : CreateMessageRequest) (traceId messageId dedupKey : String) :
    Prog MessageResponse := do
  MessagePublisher.publishMessageEvent (newMessage request traceId messageId dedupKey)
  let spanId ← uuidv4
  let channel ← Program.done (Json.templateText request.channel)
  let recipient ← Program.done (Json.templateText request.recipient)
  MessagePublisher.publishLog
    (acceptedLog request traceId spanId messageId dedupKey channel recipient)
  pure { messageId, dedupKey, traceId, status := .accepted }

def handleCreateMessage (request : CreateMessageRequest) : Prog MessageResponse := do
  Program.done (validateRequest request)
  let traceId ← uuidv4
  let messageId ← uuidv4
  let dedupKey ← Program.done
    (HashService.generateDedupKey sha256 request.body request.userId request.recipient
      request.tenantId)
  let isNew ← DeduplicationService.checkAndCacheIngressRequest request.tenantId
    request.idempotencyKey
  if isNew then
    enqueue request traceId messageId dedupKey
  else
    replyDuplicate request traceId messageId dedupKey

def errorRecord (traceId : String) (error : JsError) : Json :=
  .ofFields
    [ ("service", some (.string "router")), ("traceId", some (.string traceId)),
      ("level", some (.string "ERROR")),
      ("message", some (.string ("Error processing message: " ++ error.message))),
      ("error", some (.string error.message)),
      ("errorType", some (.string (if error.name = "" then "UnknownError" else error.name))) ]

def createMessage (request : CreateMessageRequest) : Prog HttpReply :=
  try
    let response ← handleCreateMessage sha256 request
    if response.status = .duplicate then
      pure { status := 200, body := .inl response }
    else
      pure { status := 202, body := .inl response }
  catch error =>
    let traceId ← uuidv4
    try
      MessagePublisher.publishError (errorRecord traceId error)
    catch _ => pure ()
    pure { status := 400, body := .inr (error.message, traceId) }

end MessageController

end Notification
