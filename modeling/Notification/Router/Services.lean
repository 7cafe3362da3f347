import Notification.Infra.World
import Notification.Router.Message

/-!
# The router's services

`DeduplicationService`, `HashService` and `MessagePublisher`. Log time stamps are
left out of the records.
-/

namespace Notification

open Interaction

/-! ## DeduplicationService -/

namespace DeduplicationService

def INGRESS_TTL_SECONDS : Int := 259200

/-- `idem:tenant:{tenantId}:key:{idempotencyKey}` -/
def buildIngressCacheKey (tenantId idempotencyKey : Option Json) : Except JsError String := do
  let tenant ← Json.templateText tenantId
  let key ← Json.templateText idempotencyKey
  return "idem:tenant:" ++ tenant ++ ":key:" ++ key

/-- True for a new request. The reply of `setNX` is not looked at. -/
def checkAndCacheIngressRequest (tenantId idempotencyKey : Option Json) : Prog Bool :=
  try
    let cacheKey ← Program.done (buildIngressCacheKey tenantId idempotencyKey)
    let cached ← RedisClient.exists cacheKey
    if cached = 1 then
      pure false
    else
      let _ ← RedisClient.setNX cacheKey (.number 1)
      pure true
  catch _ =>
    -- The log line puts both values into a template string once more.
    let _ ← Program.done (Json.templateText tenantId)
    let _ ← Program.done (Json.templateText idempotencyKey)
    pure true

/-- Overwrite the cache entry with the state of a persisted message. -/
def warmIngressCache (tenantId idempotencyKey : Option Json)
    (messageId status channel createdAt : String) : Prog Unit :=
  try
    let cacheKey ← Program.done (buildIngressCacheKey tenantId idempotencyKey)
    let value := Json.ofFields
      [ ("messageId", some (.string messageId)), ("status", some (.string status)),
        ("channel", some (.string channel)), ("createdAt", some (.string createdAt)) ]
    RedisClient.setEx cacheKey INGRESS_TTL_SECONDS value
  catch _ =>
    let _ ← Program.done (Json.templateText tenantId)
    let _ ← Program.done (Json.templateText idempotencyKey)
    pure ()

/-- The parsed cache entry. A Redis error reads as "not cached". -/
def getCachedIngressRequest (tenantId idempotencyKey : Option Json) : Prog (Option Json) :=
  try
    let cacheKey ← Program.done (buildIngressCacheKey tenantId idempotencyKey)
    RedisClient.get cacheKey
  catch _ =>
    let _ ← Program.done (Json.templateText tenantId)
    let _ ← Program.done (Json.templateText idempotencyKey)
    pure none

end DeduplicationService

/-! ## HashService -/

/-- The dedup key of a message, for a given SHA-256 in hexadecimal. -/
def HashService.generateDedupKey (sha256 : String → String)
    (body userId recipient tenantId : Option Json) : Except JsError String := do
  let body ← Json.templateText body
  let userId ← Json.templateText userId
  let recipient ← Json.templateText recipient
  let tenantId ← Json.templateText tenantId
  return sha256 (body ++ ":" ++ userId ++ ":" ++ recipient ++ ":" ++ tenantId)

namespace TextRequest

/-- The ingress cache key. -/
def cacheKey (r : TextRequest) : String :=
  "idem:tenant:" ++ r.tenantId ++ ":key:" ++ r.idempotencyKey

def dedupKey (sha256 : String → String) (r : TextRequest) : String :=
  sha256 (r.body ++ ":" ++ r.userId ++ ":" ++ r.recipient ++ ":" ++ r.tenantId)

@[simp] theorem templateText_channel (r : TextRequest) :
    Json.templateText r.toRequest.channel = .ok r.channel := Json.templateText_string r.channel

@[simp] theorem templateText_recipient (r : TextRequest) :
    Json.templateText r.toRequest.recipient = .ok r.recipient :=
  Json.templateText_string r.recipient

@[simp] theorem buildIngressCacheKey_eq (r : TextRequest) :
    DeduplicationService.buildIngressCacheKey r.toRequest.tenantId r.toRequest.idempotencyKey =
      .ok r.cacheKey := by
  simp [DeduplicationService.buildIngressCacheKey, toRequest, cacheKey, pure, Except.pure, bind,
    Except.bind]

@[simp] theorem generateDedupKey_eq (sha256 : String → String) (r : TextRequest) :
    HashService.generateDedupKey sha256 r.toRequest.body r.toRequest.userId
      r.toRequest.recipient r.toRequest.tenantId = .ok (r.dedupKey sha256) := by
  simp [HashService.generateDedupKey, toRequest, dedupKey, pure, Except.pure, bind, Except.bind]

end TextRequest

/-! ## MessagePublisher -/

namespace MessagePublisher

def publishMessageEvent (message : Message) : Prog Unit := do
  let channel ← Program.done (Json.templateText message.channel)
  produce ("messages." ++ channel) message.userId message.toJson
    [("traceId", message.traceId), ("attempt", "0")]

def publishLog (log : Json) : Prog Unit :=
  produce "logs" (log.get? "traceId") log

/-- `error.traceId || "error"` -/
def publishError (error : Json) : Prog Unit :=
  let traceId := error.get? "traceId"
  produce "errors" (if Json.truthy traceId then traceId else some (.string "error")) error

end MessagePublisher

end Notification
