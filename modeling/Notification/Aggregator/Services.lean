import Notification.Aggregator.DeliveryRepository
import Notification.Js.Text

/-!
# The aggregator's services

`DeliveryDeduplicationService`, `RetrySchedulerService`, `EventPublisherService`
and `ProviderFactory`. Console output and log time stamps are left out.
-/

namespace Notification

open Interaction

/-! ## DeliveryDeduplicationService -/

namespace DeliveryDeduplicationService

def DELIVERY_CACHE_TTL : Int := 86400

def buildDeliveryKey (dedupKey : String) : String := "delivered:" ++ dedupKey

/-- True for a delivery that is not cached yet; also when Redis fails. -/
def checkDeliveryDedup (dedupKey : String) : Prog Bool :=
  try
    let exists? ← RedisClient.exists (buildDeliveryKey dedupKey)
    if exists? = 1 then
      pure false
    else
      let _ ← RedisClient.setNX (buildDeliveryKey dedupKey) (.number 1)
      pure true
  catch _ => pure true

def setDeliveredCache (dedupKey : String) : Prog Unit :=
  try
    RedisClient.setEx (buildDeliveryKey dedupKey) DELIVERY_CACHE_TTL (.number 1)
  catch _ => pure ()

end DeliveryDeduplicationService

/-! ## RetrySchedulerService -/

/-- A due retry. Missing parts of the member are `undefined`, and an attempt that is
no number is `NaN`. -/
structure PendingRetry where
  messageId : String
  channel : Option String
  attempt : Option Int
  deriving DecidableEq, Repr

namespace RetrySchedulerService

/-- `${messageId}:${channel}:${attempt}` -/
def payload (messageId channel : String) (attempt : Int) : String :=
  messageId ++ ":" ++ channel ++ ":" ++ Number.toText attempt

/-- The time of the retry is logged as a date before it is stored. An error is logged and
thrown on. -/
def scheduleRetry (messageId channel : String) (currentAttempt delayMs : Int) : Prog Unit := do
  let now ← dateNow
  Program.done (toISOString (Number.add now delayMs))
  RedisClient.zAdd "retries" (Number.add now delayMs)
    (payload messageId channel (Number.add currentAttempt 1))

/-- With a delay of the backoff table the retry is stored. -/
theorem run_scheduleRetry (uuid : ℕ → String) (choose : World → Choice) (w : World)
    (messageId channel : String) (currentAttempt : Int) {delayMs : Int} (nonneg : 0 ≤ delayMs)
    (short : delayMs ≤ longestDelay) :
    (scheduleRetry messageId channel currentAttempt delayMs).run (World.handler uuid choose) w =
      (.ok (), { w with
        redis := w.redis.zAdd "retries" ((choose w).now.time + delayMs)
          (payload messageId channel (Number.add currentAttempt 1)) }) := by
  simp only [scheduleRetry, Program.run_bind, run_dateNow, Program.andThen_ok, Program.run_done,
    (choose w).now.toISOString_add nonneg short, (choose w).now.add nonneg short,
    RedisClient.run_zAdd]

/-- `const [messageId, channel, attempt] = item.split(":")` -/
def parseItem (item : String) : PendingRetry :=
  match splitColon item with
  | [] => { messageId := "", channel := none, attempt := none }
  | [messageId] => { messageId, channel := none, attempt := none }
  | [messageId, channel] => { messageId, channel := some channel, attempt := none }
  | messageId :: channel :: attempt :: _ =>
    { messageId, channel := some channel, attempt := parseInt10 attempt }

def getPendingRetries : Prog (List PendingRetry) :=
  try
    let now ← dateNow
    let items ← RedisClient.zRangeByScore "retries" 0 now
    if items.length > 0 then
      let _ ← RedisClient.zRemRangeByScore "retries" 0 now
      pure (items.map parseItem)
    else
      pure (items.map parseItem)
  catch _ => pure []

/-- The members that are due at time `now`. -/
def due (w : World) (now : Int) : List String :=
  ((w.redis.zsets "retries").filter (Redis.inRange 0 now)).map Prod.fst

/-- A poll hands back what is due, and changes nothing outside of Redis. -/
theorem run_getPendingRetries (uuid : ℕ → String) {choose : World → Choice} {w : World} {now : Int}
    (hnow : (choose w).now.time = now) :
    ∃ redis, getPendingRetries.run (World.handler uuid choose) w =
      (.ok ((due w now).map parseItem), { w with redis := redis }) := by
  subst hnow
  simp only [getPendingRetries, Program.run_tryCatch, Program.run_bind, run_dateNow,
    Program.andThen_ok, RedisClient.run_zRangeByScore, Program.run_ite,
    RedisClient.run_zRemRangeByScore, Program.run_pure]
  split <;> exact ⟨_, rfl⟩

end RetrySchedulerService

/-! ## EventPublisherService -/

/-- What the retry loop publishes. `userId` is read as the key, but never set. -/
structure RetryMessage where
  messageId : String
  channel : Option String
  attempt : Option Int
  traceId : String
  userId : Option String := none

/-- `JSON.stringify` writes `NaN` as `null`. -/
def RetryMessage.toJson (m : RetryMessage) : Json :=
  .ofFields
    [ ("messageId", some (.string m.messageId)),
      ("channel", m.channel.map Json.string),
      ("attempt", some (match m.attempt with
        | some n => .number n
        | none => .null)),
      ("traceId", some (.string m.traceId)),
      ("userId", m.userId.map Json.string) ]

namespace EventPublisherService

def publishLog (log : Json) : Prog Unit := produce "logs" (log.get? "traceId") log

def publishRetryMessage (message : RetryMessage) : Prog Unit :=
  let attempt := match message.attempt with
    | some n => Number.toText n
    | none => "NaN"
  produce ("messages." ++ message.channel.getD "undefined") (message.userId.map Json.string)
    message.toJson [("traceId", message.traceId), ("attempt", attempt)]

def publishDLQMessage (messageId channel reason : String) : Prog Unit :=
  produce ("dlq." ++ channel) (some (.string messageId))
    (.ofFields
      [ ("messageId", some (.string messageId)), ("channel", some (.string channel)),
        ("reason", some (.string reason)) ])

/-- The key is `error.traceId || error.messageId || "error"`. -/
def publishError (error : Json) : Prog Unit :=
  let traceId := error.get? "traceId"
  let messageId := error.get? "messageId"
  let key := if Json.truthy traceId then traceId
    else if Json.truthy messageId then messageId else some (.string "error")
  produce "errors" key error

end EventPublisherService

/-! ## ProviderFactory -/

/-- A provider is known by its name; how its calls end is up to the environment. -/
structure IProvider where
  name : String
  deriving DecidableEq, Repr

/-- `provider.send(recipient, body, options)`, made for `message`. -/
def IProvider.send (provider : IProvider) (recipient body : String)
    (options : IdempotencyOptions) (message : MessageToDeliver) : Prog ProviderResult :=
  Program.perform (Call.send provider.name recipient body options message)

@[simp] theorem IProvider.run_send (uuid : ℕ → String) (choose : World → Choice) (w : World)
    (provider : IProvider) (recipient body : String) (options : IdempotencyOptions)
    (message : MessageToDeliver) :
    (provider.send recipient body options message).run (World.handler uuid choose) w =
      ((choose w).outcome, { w with inbox := w.inbox ++
        [⟨provider.name, recipient, body, options, message, (choose w).outcome⟩] }) := rfl

theorem IProvider.wp_send {ok : CallEvent → Prop} {T : Trace Reply JsError → Prop}
    {t : Trace Reply JsError} {provider : IProvider} {recipient body : String}
    {options : IdempotencyOptions} {message : MessageToDeliver}
    {Q : Except JsError ProviderResult → Trace Reply JsError → Prop} :
    (provider.send recipient body options message).wp (recording ok) T Q t ↔
      ∀ r, ok ⟨.send provider.name recipient body options message, r⟩ →
        T (⟨.send provider.name recipient body options message, r⟩ :: t) ∧
        Q r (⟨.send provider.name recipient body options message, r⟩ :: t) :=
  Program.wp_step_recording

def ProviderFactory.getProvider (channel : String) : Except JsError IProvider :=
  match channel with
  | "email" => .ok ⟨"EmailProvider"⟩
  | "sms" => .ok ⟨"SMSProvider"⟩
  | "whatsapp" => .ok ⟨"WhatsAppProvider"⟩
  | _ => .error { message := "Unknown channel: " ++ channel }

end Notification
