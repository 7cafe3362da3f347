import Notification.Router.Services
import Notification.Router.Validation

/-!
# AcceptMessageUseCase: the other ingress

The use case of the router's domain layer with `RedisDeduplicationService`. Its repository
saves messages, which the other ingress does not do, so it has calls and a world of its own.
-/

namespace Notification

open Interaction Program

/-! ## The calls and what they do -/

/-- `set` stands for `client.set(key, value, { EX: seconds })`. -/
inductive IngressCall where
  | exists (key : String)
  | set (key : String) (value : Json) (seconds : Int)
  | uuidv4
  | save (message : Message)
  | produce (topic : String) (key : Option Json) (value : Json) (headers : List (String × String))

namespace IngressCall

abbrev Reply : IngressCall → Type
  | .exists _ => ℕ
  | .set _ _ _ => Unit
  | .uuidv4 => String
  | .save _ => Unit
  | .produce .. => Unit

/-- Everything but the making of uuids goes over the network. -/
def external : IngressCall → Bool
  | .uuidv4 => false
  | _ => true

end IngressCall

abbrev IngressProg (α : Type) := Program IngressCall.Reply JsError α

abbrev IngressEvent := Event IngressCall.Reply JsError

/-- `log` lists the records of all topics, `messages` the saved messages. -/
structure IngressWorld where
  redis : Redis := {}
  messages : List Message := []
  log : List Record := []
  uuids : ℕ := 0

namespace IngressWorld

/-- The answer to a call; a record is written to the given partition. -/
def answer (uuid : ℕ → String) (partition : ℕ) (w : IngressWorld) :
    (c : IngressCall) → Except JsError c.Reply × IngressWorld
  | .exists key => (.ok (if (w.redis.live key).isSome then 1 else 0 : ℕ), w)
  | .set key value seconds =>
    (.ok (), { w with redis := w.redis.set key value (some (w.redis.time + seconds)) })
  | .uuidv4 => (.ok (uuid w.uuids), { w with uuids := w.uuids + 1 })
  | .save message => (.ok (), { w with messages := w.messages ++ [message] })
  | .produce topic key value headers =>
    (.ok (), { w with log := w.log ++ [⟨topic, partition, key, value, headers⟩] })

/-- Every external call may throw instead, before it has had its effect or after. -/
def lossy (uuid : ℕ → String) : Env IngressCall.Reply JsError IngressWorld := fun w ev w' =>
  ∃ partition, w.answer uuid partition ev.call = (ev.answer, w') ∨
    (ev.call.external = true ∧ (∃ e, ev.answer = .error e) ∧
      (w' = w ∨ w' = (w.answer uuid partition ev.call).2))

section Lossy

variable {uuid : ℕ → String} {w w' : IngressWorld} {c : IngressCall}

/-- Whatever a call answers, it has had its effect or none. -/
theorem effect_of_lossy {r : Except JsError c.Reply} (h : w.lossy uuid ⟨c, r⟩ w') :
    w' = w ∨ ∃ partition, w' = (w.answer uuid partition c).2 := by
  obtain ⟨partition, h | ⟨-, -, h | h⟩⟩ := h
  · exact .inr ⟨partition, (congrArg Prod.snd h).symm⟩
  · exact .inl h
  · exact .inr ⟨partition, h⟩

theorem answer_of_ok {a : c.Reply} (h : w.lossy uuid ⟨c, .ok a⟩ w') :
    ∃ partition, w.answer uuid partition c = (.ok a, w') := by
  obtain ⟨partition, h | ⟨-, ⟨e, he⟩, -⟩⟩ := h
  · exact ⟨partition, h⟩
  · cases he

end Lossy

/-- Nothing that is stored or published goes away. -/
structure Grows (w w' : IngressWorld) : Prop where
  messages : w.messages <+: w'.messages
  log : w.log <+: w'.log

theorem Grows.refl (w : IngressWorld) : w.Grows w := ⟨List.prefix_refl _, List.prefix_refl _⟩

theorem Grows.trans {w w' w'' : IngressWorld} (h : w.Grows w') (h' : w'.Grows w'') : w.Grows w'' :=
  ⟨h.messages.trans h'.messages, h.log.trans h'.log⟩

theorem grows_of_lossy {uuid : ℕ → String} {w w' : IngressWorld} {c : IngressCall}
    {r : Except JsError c.Reply} (h : w.lossy uuid ⟨c, r⟩ w') : w.Grows w' := by
  obtain rfl | ⟨partition, rfl⟩ := effect_of_lossy h
  · exact .refl w'
  · cases c with
    | save message => exact ⟨List.prefix_append _ _, List.prefix_refl _⟩
    | produce topic key value headers => exact ⟨List.prefix_refl _, List.prefix_append _ _⟩
    | _ => exact ⟨List.prefix_refl _, List.prefix_refl _⟩

/-- Redis's clock moves on. -/
def later (w w' : IngressWorld) : Prop :=
  ∃ t, w.redis.time ≤ t ∧ w' = { w with redis := { w.redis with time := t } }

/-- A handler for sequential runs in which the calls in `broken` throw if they can. -/
def handler (broken : IngressCall → Bool) (uuid : ℕ → String) (c : IngressCall) (w : IngressWorld) :
    Except JsError c.Reply × IngressWorld :=
  if c.external && broken c then (.error { message := "timeout" }, w) else w.answer uuid 0 c

theorem lossy_handler (broken : IngressCall → Bool) (uuid : ℕ → String) (c : IngressCall)
    (w : IngressWorld) :
    w.lossy uuid ⟨c, (handler broken uuid c w).1⟩ (handler broken uuid c w).2 := by
  unfold handler
  split
  · next h => exact ⟨0, .inr ⟨(Bool.and_eq_true_iff.mp h).1, ⟨_, rfl⟩, .inl rfl⟩⟩
  · exact ⟨0, .inl rfl⟩

end IngressWorld

/-! ## RedisDeduplicationService -/

namespace RedisDeduplicationService

def markerKey (dedupKey : String) : String := "dedup:" ++ dedupKey

/-- True for a new message; false when Redis fails. -/
def checkDuplicate (dedupKey : String) : IngressProg Bool :=
  try
    let exists? ← perform (IngressCall.exists (markerKey dedupKey))
    if exists? ≠ 0 then
      pure false
    else
      perform (IngressCall.set (markerKey dedupKey) (.number 1) 3600)
      pure true
  catch _ => pure false

end RedisDeduplicationService

/-! ## KafkaMessagePublisher -/

namespace KafkaMessagePublisher

def publishMessageEvent (message : Message) : IngressProg Unit := do
  let channel ← Program.done (Json.templateText message.channel)
  perform (IngressCall.produce ("messages." ++ channel) message.userId message.toJson
    [("traceId", message.traceId), ("attempt", "0")])

def publishLog (log : Json) : IngressProg Unit :=
  perform (IngressCall.produce "logs" (log.get? "traceId") log [])

end KafkaMessagePublisher

/-! ## The use case -/

namespace AcceptMessageUseCase

/-- Unlike the controller it does not look at the body once more. -/
def validateRequest (request : CreateMessageRequest) : Except JsError Unit := do
  if MessageController.missingField request then
    throw { message := "Missing required fields" }
  if !isChannel request.channel then
    throw { message := "Invalid channel" }
  if isText request.channel "email" then
    let recipient ← Json.templateText request.recipient
    if !EmailRegex.test recipient then
      throw { message := "Invalid email recipient" }

/-- The message entity has no idempotency key. -/
def newMessage (request : CreateMessageRequest) (traceId messageId dedupKey : String) :
    Message where
  messageId := messageId
  dedupKey := dedupKey
  userId := request.userId
  tenantId := request.tenantId
  channel := request.channel
  recipient := request.recipient
  body := request.body
  traceId := traceId
  status := "PENDING"
  finalDelivered := false
  attempts := 0
  idempotencyKey := none

def acceptedLog (request : CreateMessageRequest) (traceId spanId messageId dedupKey : String) :
    Json :=
  .ofFields
    [ ("service", some (.string "router")), ("traceId", some (.string traceId)),
      ("spanId", some (.string spanId)), ("messageId", some (.string messageId)),
      ("userId", request.userId), ("dedupKey", some (.string dedupKey)),
      ("channel", request.channel), ("status", some (.string "ACCEPTED")) ]

/-- Persist a new message, publish it and log that it was accepted. -/
def accept (request : CreateMessageRequest) (traceId messageId dedupKey : String) :
    IngressProg MessageResponse := do
  let message := newMessage request traceId messageId dedupKey
  perform (IngressCall.save message)
  KafkaMessagePublisher.publishMessageEvent message
  let spanId ← perform IngressCall.uuidv4
  KafkaMessagePublisher.publishLog (acceptedLog request traceId spanId messageId dedupKey)
  pure { messageId, dedupKey, traceId, status := .accepted }

def execute (sha256 : String → String) (request : CreateMessageRequest) :
    IngressProg MessageResponse := do
  Program.done (validateRequest request)
  let traceId ← perform IngressCall.uuidv4
  let messageId ← perform IngressCall.uuidv4
  let dedupKey ← Program.done
    (HashService.generateDedupKey sha256 request.body request.userId request.recipient
      request.tenantId)
  let isNew ← RedisDeduplicationService.checkDuplicate dedupKey
  if isNew then
    accept request traceId messageId dedupKey
  else
    pure { messageId, dedupKey, traceId, status := .duplicate }

end AcceptMessageUseCase

end Notification
