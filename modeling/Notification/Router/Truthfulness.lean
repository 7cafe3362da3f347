import Notification.Router.Admission

/-!
# Replies under failures

Requests are served one after another while every Redis and Kafka call may throw, with or
without having had its effect. The cache entry is written before the message event is
published and the log record is sent after it, under one catch, so a reply can disagree with
what was enqueued in two places, and a send that throws may have been carried out. Away from
these, and when different pairs have different cache keys, the replies are truthful.
-/

namespace Notification

open Interaction Program

/-- The pair that a request is for. -/
def CreateMessageRequest.pair (r : CreateMessageRequest) : Option Json × Option Json :=
  (r.tenantId, r.idempotencyKey)

/-- The pair that a record carries. -/
def Record.pair (r : Record) : Option Json × Option Json :=
  (r.value.get? "tenantId", r.value.get? "idempotencyKey")

namespace Ingress

/-- The message events that have been published. -/
def messages (w : World) : List Record := w.log.filter fun r => messageTopic r.topic

/-- One request with its reply and the worlds before and after it. -/
structure Exchange where
  request : CreateMessageRequest
  reply : HttpReply
  before : World
  after : World

/-- A reply that agrees with what was enqueued. -/
structure Truthful (x : Exchange) : Prop where
  duplicate : ∀ m, x.reply.body = .inl m → m.status = .duplicate →
    ∃ record ∈ messages x.before, record.pair = x.request.pair
  accepted : ∀ m, x.reply.body = .inl m → m.status = .accepted →
    ∃ record, messages x.after = messages x.before ++ [record] ∧
      record.pair = x.request.pair ∧
      record.value.get? "messageId" = some (.string m.messageId)
  refused : x.reply.status = 400 →
    messages x.after = messages x.before ∧ x.after.redis.strings = x.before.redis.strings

/-- In a request that begins in `w`, a send of a message event that throws has not been carried
out, and the cache is as it was before; no send of a log record throws after the publication. -/
def Harmless (w : World) : Env Reply JsError World
  | v, ⟨.produce topic _ _ _, .error _⟩, v' =>
    (messageTopic topic = true → v' = v ∧ v.redis = w.redis) ∧
      (topic = "logs" → messages v = messages w)
  | _, _, _ => True

/-- Published events with the cache key of a request have its pair. -/
def Distinguished (w : World) (request : CreateMessageRequest) : Prop :=
  ∀ record ∈ messages w, ∀ key,
    DeduplicationService.buildIngressCacheKey record.pair.1 record.pair.2 = .ok key →
    DeduplicationService.buildIngressCacheKey request.tenantId request.idempotencyKey = .ok key →
    record.pair = request.pair

/-- Failures as `fails` allows them. -/
def failing (uuid : ℕ → String) (fails : Env Reply JsError World) : Env Reply JsError World :=
  fun v ev v' => v.lossy uuid 0 ev v' ∧ fails v ev v'

/-- Requests one after another, from an empty ingress cache. -/
inductive Session (sha256 : String → String) (uuid : ℕ → String)
    (fails : World → Env Reply JsError World)
    (admits : World → CreateMessageRequest → Prop) : List Exchange → World → Prop
  | start {w} : (∀ key, w.redis.strings key = none) → Session sha256 uuid fails admits [] w
  | serve {xs w request reply w'} : Session sha256 uuid fails admits xs w → admits w request →
      Leads (failing uuid (fails w)) (MessageController.createMessage sha256 request) w
        (.done (.ok reply)) w' →
      Session sha256 uuid fails admits (xs ++ [⟨request, reply, w, w'⟩]) w'
  | wait {xs w time} : Session sha256 uuid fails admits xs w → w.redis.time ≤ time →
      Session sha256 uuid fails admits xs { w with redis := { w.redis with time := time } }

/-! ## What single calls do -/

section Calls

variable {uuid : ℕ → String} {fails : Env Reply JsError World} {w : World}

theorem failing_uuidv4 {Q : Except JsError String → World → Prop}
    (h : ∀ r w', w'.log = w.log → w'.redis = w.redis → Q (.ok r) w') :
    uuidv4.wp (failing uuid fails) (fun _ => True) Q w := by
  rintro r w' ⟨answer, -⟩
  obtain ⟨rfl, rfl⟩ := World.faulty_uuidv4 (World.faulty_of_lossy rfl answer)
  exact ⟨trivial, h _ _ rfl rfl⟩

theorem failing_redis {c : RedisCall} {Q : Except JsError c.Reply → World → Prop}
    (done : ∀ r, r = (w.redis.answer c).1 → Q r { w with redis := (w.redis.answer c).2 })
    (thrown : ∀ e redis, redis = w.redis ∨ redis = (w.redis.answer c).2 →
      Q (.error e) { w with redis := redis }) :
    (perform (Call.redis c) : Prog c.Reply).wp (failing uuid fails) (fun _ => True) Q w := by
  rintro r w' ⟨answer, -⟩
  refine ⟨trivial, ?_⟩
  cases r with
  | ok a =>
      obtain ⟨hr, rfl⟩ | ⟨-, e, he⟩ := World.faulty_redis (.inl (World.up_of_lossy_ok answer))
      · exact done _ hr
      · cases he
  | error e =>
      obtain rfl | ⟨rfl, -⟩ := World.lossy_redis answer
      · exact thrown e _ (.inr rfl)
      · exact thrown e _ (.inl rfl)

theorem failing_produce {topic : String} {key : Option Json} {value : Json}
    {headers : List (String × String)} {Q : Except JsError Unit → World → Prop}
    (done : ∀ partition,
      Q (.ok ()) { w with log := w.log ++ [⟨topic, partition, key, value, headers⟩] })
    (thrown : ∀ e w', (w' = w ∨ ∃ partition,
        w' = { w with log := w.log ++ [⟨topic, partition, key, value, headers⟩] }) →
      fails w ⟨.produce topic key value headers, .error e⟩ w' → Q (.error e) w') :
    (produce topic key value headers).wp (failing uuid fails) (fun _ => True) Q w := by
  rintro r w' ⟨answer, permitted⟩
  refine ⟨trivial, ?_⟩
  cases r with
  | ok _ =>
      obtain ⟨partition, rfl⟩ | ⟨-, e, he⟩ := World.lossy_produce answer
      · exact done partition
      · cases he
  | error e => exact thrown e w' ((World.lossy_produce answer).symm.imp_left And.left) permitted

end Calls

section Requests

variable {sha256 : String → String} {uuid : ℕ → String} {w v : World} {r : CreateMessageRequest}

/-- Nothing that matters to a later request has changed. -/
structure Unchanged (w v : World) : Prop where
  messages : messages v = messages w
  redis : v.redis = w.redis

/-- The check of a new request is over: its key may have been set. -/
structure Checked (r : CreateMessageRequest) (w v : World) : Prop where
  messages : messages v = messages w
  redis : v.redis = w.redis ∨
    ∃ key, DeduplicationService.buildIngressCacheKey r.tenantId r.idempotencyKey = .ok key ∧
      v.redis = w.redis.set key (.number 1) none

/-- The reply of a request and what it has left behind. -/
def Outcome (r : CreateMessageRequest) (w : World) :
    Except JsError MessageResponse → World → Prop :=
  either
    (fun m v => (m.status = .duplicate ∧ Unchanged w v ∧
        ∃ key, DeduplicationService.buildIngressCacheKey r.tenantId r.idempotencyKey = .ok key ∧
          (w.redis.live key).isSome) ∨
      (m.status = .accepted ∧ ∃ record, messages v = messages w ++ [record] ∧
        record.pair = r.pair ∧ record.value.get? "messageId" = some (.string m.messageId) ∧
        (v.redis = w.redis ∨ ∃ key,
          DeduplicationService.buildIngressCacheKey r.tenantId r.idempotencyKey = .ok key ∧
          v.redis = w.redis.set key (.number 1) none)))
    fun _ v => Unchanged w v

theorem texts_of_cacheKey {key : String}
    (h : DeduplicationService.buildIngressCacheKey r.tenantId r.idempotencyKey = .ok key) :
    (∃ a, Json.templateText r.tenantId = .ok a) ∧
      ∃ b, Json.templateText r.idempotencyKey = .ok b := by
  rw [DeduplicationService.buildIngressCacheKey] at h
  cases htenant : Json.templateText r.tenantId with
  | error e =>
      rw [htenant] at h
      cases h
  | ok a =>
      cases hidem : Json.templateText r.idempotencyKey with
      | error e =>
          rw [htenant, hidem] at h
          cases h
      | ok b => exact ⟨⟨a, rfl⟩, b, rfl⟩

/-- The log line of a failed check throws again if the pair has no text. -/
theorem wp_failing_retext {α : Type} {rest : Prog α} {Q : Except JsError α → World → Prop}
    (thrown : ∀ e, DeduplicationService.buildIngressCacheKey r.tenantId r.idempotencyKey =
      .error e → Q (.error e) v)
    (after : rest.wp (failing uuid (Harmless w)) (fun _ => True) Q v) :
    (do
      let _ ← Program.done (Json.templateText r.tenantId)
      let _ ← Program.done (Json.templateText r.idempotencyKey)
      rest : Prog α).wp (failing uuid (Harmless w)) (fun _ => True) Q v := by
  rw [wp_bind, wp_done]
  cases htenant : Json.templateText r.tenantId with
  | error e => exact thrown e (by rw [DeduplicationService.buildIngressCacheKey, htenant]; rfl)
  | ok tenant =>
      rw [either_ok, wp_bind, wp_done]
      cases hidem : Json.templateText r.idempotencyKey with
      | error e =>
          exact thrown e (by rw [DeduplicationService.buildIngressCacheKey, htenant, hidem]; rfl)
      | ok key => exact after

theorem wp_failing_check (h : Unchanged w v) :
    (DeduplicationService.checkAndCacheIngressRequest r.tenantId r.idempotencyKey).wp
      (failing uuid (Harmless w)) (fun _ => True)
      (either (fun isNew v' => if isNew then Checked r w v' else Unchanged w v' ∧
        ∃ key, DeduplicationService.buildIngressCacheKey r.tenantId r.idempotencyKey = .ok key ∧
          (w.redis.live key).isSome) fun _ v' => Unchanged w v') v := by
  rw [DeduplicationService.checkAndCacheIngressRequest, wp_tryCatch, wp_bind, wp_done]
  cases hkey : DeduplicationService.buildIngressCacheKey r.tenantId r.idempotencyKey with
  | error e =>
      have checked : Checked r w v := ⟨h.messages, .inl h.redis⟩
      exact wp_failing_retext (fun _ _ => h) checked
  | ok key =>
      -- a Redis error counts as a miss, and the log line has its texts
      have caught {redis : Redis} (hredis : redis = w.redis ∨
          redis = w.redis.set key (.number 1) none) :
          (do
            let _ ← Program.done (Json.templateText r.tenantId)
            let _ ← Program.done (Json.templateText r.idempotencyKey)
            pure true : Prog Bool).wp (failing uuid (Harmless w)) (fun _ => True)
            (either (fun isNew v' => if isNew then Checked r w v' else Unchanged w v' ∧
              ∃ key', (.ok key : Except JsError String) = .ok key' ∧
                (w.redis.live key').isSome)
              fun _ v' => Unchanged w v') { v with redis := redis } := by
        have checked : Checked r w { v with redis := redis } :=
          ⟨h.messages, hredis.imp_right fun hset => ⟨key, hkey, hset⟩⟩
        exact wp_failing_retext (fun e he => absurd (hkey.symm.trans he) (by simp)) checked
      rw [either_ok, wp_bind]
      refine failing_redis (fun n hn => ?_) fun e redis hredis => ?_
      · obtain rfl : n = .ok (if (w.redis.live key).isSome then 1 else 0) := by
          rw [hn, h.redis, Redis.answer]
        cases hlive : (w.redis.live key).isSome with
        | true => exact ⟨h, key, rfl, hlive⟩
        | false =>
            rw [either_ok, wp_ite]
            refine ⟨fun h => absurd h (by simp), fun _ => ?_⟩
            rw [wp_bind]
            have hset : (v.redis.answer (.setNX key (.number 1))).2 =
                w.redis.set key (.number 1) none := by
              simp [Redis.answer, h.redis, hlive]
            refine failing_redis (fun b hb => ?_) fun e redis hredis => ?_
            · obtain rfl : b = .ok true := by simp [hb, Redis.answer, h.redis, hlive]
              exact ⟨h.messages, .inr ⟨key, hkey, hset⟩⟩
            · exact caught (hredis.imp (fun hsame => hsame.trans h.redis) fun hset' =>
                hset'.trans hset)
      · exact caught (.inl (hredis.elim (fun hsame => hsame.trans h.redis) fun hsame =>
          hsame.trans h.redis))

theorem messages_append (v : World) (record : Record) :
    messages { v with log := v.log ++ [record] } =
      messages v ++ if messageTopic record.topic then [record] else [] := by
  by_cases h : messageTopic record.topic <;> simp [messages, h]

theorem messageTopic_logs : messageTopic "logs" = false := by decide

/-- A new request either publishes its message and is accepted, or fails before that. -/
theorem wp_failing_enqueue {traceId messageId dedupKey channel recipient : String}
    (h : Checked r w v) (hchannel : Json.templateText r.channel = .ok channel)
    (hrecipient : Json.templateText r.recipient = .ok recipient) :
    (MessageController.enqueue r traceId messageId dedupKey).wp (failing uuid (Harmless w))
      (fun _ => True) (Outcome r w) v := by
  have hfields := (MessageController.newMessage r traceId messageId dedupKey).get?_toJson
  rw [MessageController.enqueue, wp_bind, MessagePublisher.publishMessageEvent, wp_bind, wp_done]
  change either _ _ (Json.templateText r.channel) _
  rw [hchannel, either_ok]
  refine failing_produce (fun partition => ?_) fun e v' _ harmless => ?_
  · rw [either_ok, wp_bind]
    apply failing_uuidv4
    intro spanId v' hlog hredis
    have published : messages v' = messages w ++ [⟨"messages." ++ channel, partition, r.userId,
        (MessageController.newMessage r traceId messageId dedupKey).toJson,
        [("traceId", traceId), ("attempt", "0")]⟩] := by
      rw [messages, hlog]
      change messages { v with log := v.log ++ [_] } = _
      rw [messages_append, h.messages, if_pos (messageTopic_append channel)]
      rfl
    rw [either_ok, wp_bind, wp_done, either_ok, hrecipient, wp_bind, wp_done, either_ok, wp_bind]
    refine failing_produce (fun partition' => .inr ⟨rfl, ⟨"messages." ++ channel, partition,
      r.userId, (MessageController.newMessage r traceId messageId dedupKey).toJson,
      [("traceId", traceId), ("attempt", "0")]⟩, ?_, ?_, hfields.1, ?_⟩)
      fun e v'' _ harmless => ?_
    · rw [messages_append, messageTopic_logs, published]
      simp
    · rw [Record.pair, hfields.2.1, hfields.2.2]
      rfl
    · exact hredis ▸ h.redis
    · have same : messages v' = messages w := harmless.2 rfl
      exact absurd (published.symm.trans same) (by simp)
  · obtain ⟨rfl, hredis⟩ := harmless.1 (messageTopic_append channel)
    exact ⟨h.messages, hredis⟩

/-- The dedup key reads the recipient, so the log line of an accepted request cannot throw. -/
theorem recipient_of_dedupKey {dedupKey : String}
    (h : HashService.generateDedupKey sha256 r.body r.userId r.recipient r.tenantId =
      .ok dedupKey) :
    ∃ recipient, Json.templateText r.recipient = .ok recipient := by
  cases hrecipient : Json.templateText r.recipient with
  | ok recipient => exact ⟨recipient, rfl⟩
  | error e =>
      rw [HashService.generateDedupKey, hrecipient] at h
      cases hbody : Json.templateText r.body with
      | error e =>
          rw [hbody] at h
          cases h
      | ok body =>
          cases huser : Json.templateText r.userId with
          | error e =>
              rw [hbody, huser] at h
              cases h
          | ok user =>
              rw [hbody, huser] at h
              cases h

theorem channel_of_valid (h : MessageController.validateRequest r = .ok ()) :
    ∃ channel, Json.templateText r.channel = .ok channel := by
  have hchannel : isChannel r.channel = true := by
    by_contra hnot
    rw [Bool.not_eq_true] at hnot
    cases hmissing : MessageController.missingField r <;>
      simp [MessageController.validateRequest, hmissing, hnot, bind, Except.bind, throw,
        throwThe, MonadExceptOf.throw] at h
  unfold isChannel at hchannel
  split at hchannel
  · next s hs => exact ⟨s, by rw [hs, Json.templateText_string]⟩
  · cases hchannel

/-- A record on another topic does not count. -/
theorem messages_other {record : Record} (other : messageTopic record.topic = false) (v : World) :
    messages { v with log := v.log ++ [record] } = messages v := by
  rw [messages_append, other]
  simp

/-- A failed log record of a duplicate is not noticed. -/
theorem wp_failing_replyDuplicate {traceId messageId dedupKey key : String}
    (unchanged : Unchanged w v)
    (hkey : DeduplicationService.buildIngressCacheKey r.tenantId r.idempotencyKey = .ok key)
    (hlive : (w.redis.live key).isSome) :
    (MessageController.replyDuplicate r traceId messageId dedupKey).wp (failing uuid (Harmless w))
      (fun _ => True) (Outcome r w) v := by
  obtain ⟨⟨a, ha⟩, b, hb⟩ := texts_of_cacheKey hkey
  -- whatever the cache says, the reply is a duplicate
  suffices reply : ∀ v' (cached : Option Json), Unchanged w v' →
      (do
        try
          let spanId ← uuidv4
          MessagePublisher.publishLog (MessageController.duplicateLog r traceId spanId
            (MessageController.cachedMessageId cached messageId) dedupKey)
        catch _ => pure ()
        pure { messageId := MessageController.cachedMessageId cached messageId, dedupKey, traceId,
               status := .duplicate } : Prog MessageResponse).wp
        (failing uuid (Harmless w)) (fun _ => True) (Outcome r w) v' by
    rw [MessageController.replyDuplicate, wp_bind, DeduplicationService.getCachedIngressRequest,
      wp_tryCatch, wp_bind, hkey, wp_done, either_ok]
    refine failing_redis (fun cached hcached => ?_) fun e redis hredis => ?_
    · obtain ⟨value, hvalue⟩ := v.redis.answer_ok (.get key)
      rw [hvalue] at hcached
      subst hcached
      exact reply _ _ ⟨unchanged.messages, unchanged.redis⟩
    · rw [either_error, wp_bind, ha, wp_done, either_ok, wp_bind, hb, wp_done, either_ok]
      exact reply _ _ ⟨unchanged.messages,
        hredis.elim (fun hsame => hsame.trans unchanged.redis) fun hsame =>
          hsame.trans unchanged.redis⟩
  intro v' cached unchanged
  rw [wp_bind, wp_tryCatch, wp_bind]
  apply failing_uuidv4
  intro spanId v'' hlog hredis
  have same : Unchanged w v'' := ⟨by rw [messages, hlog]; exact unchanged.messages,
    hredis.trans unchanged.redis⟩
  have logged (partition : ℕ) (log : Json) : Unchanged w
      { v'' with log := v''.log ++ [⟨"logs", partition, log.get? "traceId", log, []⟩] } :=
    ⟨(messages_other messageTopic_logs v'').trans same.messages, same.redis⟩
  refine failing_produce (fun partition => .inl ⟨rfl, logged _ _, key, hkey, hlive⟩)
    fun e w' hw' _ => .inl ⟨rfl, ?_, key, hkey, hlive⟩
  obtain rfl | ⟨partition, rfl⟩ := hw'
  · exact same
  · exact logged _ _

theorem wp_failing_handleCreateMessage :
    (MessageController.handleCreateMessage sha256 r).wp (failing uuid (Harmless w))
      (fun _ => True) (Outcome r w) w := by
  rw [MessageController.handleCreateMessage, wp_bind, wp_done]
  cases hvalid : MessageController.validateRequest r with
  | error e => exact ⟨rfl, rfl⟩
  | ok _ =>
      obtain ⟨channel, hchannel⟩ := channel_of_valid hvalid
      rw [either_ok, wp_bind]
      apply failing_uuidv4
      intro traceId w₁ hlog₁ hredis₁
      rw [either_ok, wp_bind]
      apply failing_uuidv4
      intro messageId w₂ hlog₂ hredis₂
      have unchanged : Unchanged w w₂ :=
        ⟨by rw [messages, messages, hlog₂, hlog₁], hredis₂.trans hredis₁⟩
      rw [either_ok, wp_bind, wp_done]
      cases hdedup : HashService.generateDedupKey sha256 r.body r.userId r.recipient r.tenantId with
      | error e => exact unchanged
      | ok dedupKey =>
          obtain ⟨recipient, hrecipient⟩ := recipient_of_dedupKey hdedup
          rw [either_ok, wp_bind]
          apply mono_post (wp_failing_check unchanged)
          intro o v h
          cases o with
          | error e => exact h
          | ok isNew =>
              rw [either_ok, wp_ite]
              constructor
              · intro hnew
                rw [either_ok, if_pos hnew] at h
                exact wp_failing_enqueue h hchannel hrecipient
              · intro hold
                rw [either_ok, if_neg hold] at h
                obtain ⟨unchanged, key, hkey, hlive⟩ := h
                exact wp_failing_replyDuplicate unchanged hkey hlive

/-- Every cache entry stands for a published message event. -/
def Backed (w : World) : Prop :=
  ∀ key entry, w.redis.strings key = some entry → ∃ record ∈ messages w,
    DeduplicationService.buildIngressCacheKey record.pair.1 record.pair.2 = .ok key

theorem Unchanged.backed (h : Unchanged w v) (backed : Backed w) : Backed v := by
  intro key entry hentry
  rw [h.redis] at hentry
  rw [h.messages]
  exact backed key entry hentry

theorem backed_of_accepted {record : Record} (backed : Backed w)
    (hmessages : messages v = messages w ++ [record]) (hpair : record.pair = r.pair)
    (hredis : v.redis = w.redis ∨ ∃ key,
      DeduplicationService.buildIngressCacheKey r.tenantId r.idempotencyKey = .ok key ∧
      v.redis = w.redis.set key (.number 1) none) : Backed v := by
  intro key entry hentry
  rw [hmessages]
  have older : w.redis.strings key = some entry → ∃ record' ∈ messages w ++ [record],
      DeduplicationService.buildIngressCacheKey record'.pair.1 record'.pair.2 = .ok key := by
    intro hold
    obtain ⟨record', member, hkey⟩ := backed key entry hold
    exact ⟨record', List.mem_append_left _ member, hkey⟩
  obtain hredis | ⟨key', hkey', hredis⟩ := hredis
  · exact older (hredis ▸ hentry)
  · by_cases heq : key = key'
    · subst heq
      exact ⟨record, by simp, by rw [hpair]; exact hkey'⟩
    · apply older
      rw [hredis] at hentry
      simpa [Redis.set, Function.update_of_ne heq] using hentry

/-- One request: its reply is truthful, and the cache stays backed by published events. -/
theorem wp_failing_createMessage (backed : Backed w) (distinguished : Distinguished w r) :
    (MessageController.createMessage sha256 r).wp (failing uuid (Harmless w)) (fun _ => True)
      (either (fun reply v => Truthful ⟨r, reply, w, v⟩ ∧ Backed v) fun _ _ => False) w := by
  rw [MessageController.createMessage, wp_tryCatch, wp_bind]
  apply mono_post wp_failing_handleCreateMessage
  intro o v h
  cases o with
  | error e =>
      rw [either_error, either_error, wp_bind]
      apply failing_uuidv4
      intro traceId v' hlog hredis
      have unchanged : Unchanged w v' :=
        ⟨by rw [messages, hlog]; exact h.messages, hredis.trans h.redis⟩
      have refused (v'' : World) (h : Unchanged w v'') :
          Truthful ⟨r, ⟨400, .inr (e.message, traceId)⟩, w, v''⟩ ∧ Backed v'' :=
        ⟨⟨fun _ hm => absurd hm Sum.inr_ne_inl, fun _ hm => absurd hm Sum.inr_ne_inl,
          fun _ => ⟨h.messages, by rw [h.redis]⟩⟩, h.backed backed⟩
      rw [either_ok, wp_bind, wp_tryCatch, MessagePublisher.publishError]
      have reported (record : Record) (topic : record.topic = "errors") :
          Unchanged w { v' with log := v'.log ++ [record] } :=
        ⟨(messages_other (by rw [topic]; decide) v').trans unchanged.messages, unchanged.redis⟩
      refine failing_produce (fun partition => refused _ (reported _ rfl)) fun e' w' hw' _ => ?_
      obtain rfl | ⟨partition, rfl⟩ := hw'
      · exact refused _ unchanged
      · exact refused _ (reported _ rfl)
  | ok m =>
      rw [either_ok, wp_ite]
      rcases h with ⟨hstatus, unchanged, key, hkey, hlive⟩ | ⟨hstatus, record, hmessages, hpair,
        hid, hredis⟩
      · refine ⟨fun _ => ⟨⟨fun m' hm _ => ?_, fun m' hm haccepted => ?_,
          fun h => absurd h (by simp)⟩,
          unchanged.backed backed⟩, fun hnot => absurd hstatus hnot⟩
        · obtain ⟨entry, hentry⟩ := Option.isSome_iff_exists.mp hlive
          obtain ⟨record, member, hrecord⟩ :=
            backed key entry (Option.filter_eq_some_iff.mp hentry).1
          exact ⟨record, member, distinguished record member key hrecord hkey⟩
        · cases hm
          exact absurd (hstatus.symm.trans haccepted) (by decide)
      · refine ⟨fun h => absurd (hstatus.symm.trans h) (by decide), fun _ =>
          ⟨⟨fun m' hm hduplicate => ?_, fun m' hm _ => ?_, fun h => absurd h (by simp)⟩,
            backed_of_accepted backed hmessages hpair hredis⟩⟩
        · cases hm
          exact absurd (hstatus.symm.trans hduplicate) (by decide)
        · cases hm
          exact ⟨record, hmessages, hpair, hid⟩

/-- Every reply of a session is truthful, if no producer call throws at a harmful place
and different pairs have different cache keys. -/
theorem session_truthful {xs : List Exchange}
    (session : Session sha256 uuid Harmless Distinguished xs w) : ∀ x ∈ xs, Truthful x := by
  suffices h : Backed w ∧ ∀ x ∈ xs, Truthful x from h.2
  induction session with
  | start empty =>
      exact ⟨fun key entry h => absurd ((empty key).symm.trans h) (by simp), fun x h => by cases h⟩
  | @serve xs w request reply w' _ admitted leads ih =>
      obtain ⟨truthful, backed⟩ := (wp_failing_createMessage ih.1 admitted).outcome leads
      refine ⟨backed, fun x hx => ?_⟩
      cases List.mem_append.mp hx with
      | inl hx => exact ih.2 x hx
      | inr hx =>
          rw [List.mem_singleton.mp hx]
          exact truthful
  | wait _ _ ih => exact ⟨ih.1, ih.2⟩

end Requests

/-! ## A request whose publication fails -/

section Lost

/-- Calls answered in turn, except that those in `broken` throw if they can. -/
def brokenHandler (broken : Call → Bool) (c : Call) (w : World) :
    Except JsError (Reply c) × World :=
  World.brokenHandler broken toString (fun _ => { outcome := .ok ⟨true, none⟩ }) c w

/-- Serve the valid request `shipped` in world `w`. -/
def serveShipped (broken : Call → Bool) (w : World) : Except JsError HttpReply × World :=
  (MessageController.createMessage id shipped.toRequest).run (brokenHandler broken) w

theorem Session.andShipped {fails : World → Env Reply JsError World}
    {admits : World → CreateMessageRequest → Prop} {xs : List Exchange} {w : World}
    {reply : HttpReply} (session : Session id toString fails admits xs w) (broken : Call → Bool)
    (permitted : ∀ c v, fails w v ⟨c, (brokenHandler broken c v).1⟩ (brokenHandler broken c v).2)
    (admitted : admits w shipped.toRequest) (hreply : (serveShipped broken w).1 = .ok reply) :
    Session id toString fails admits
      (xs ++ [⟨shipped.toRequest, reply, w, (serveShipped broken w).2⟩])
      (serveShipped broken w).2 := by
  have answers : ∀ c v, failing toString (fails w) v ⟨c, (brokenHandler broken c v).1⟩
      (brokenHandler broken c v).2 := fun c v =>
    ⟨.inl (World.faulty_brokenHandler broken toString _ c v), permitted c v⟩
  have leads := leads_run answers (MessageController.createMessage id shipped.toRequest) w
  rw [serveShipped] at hreply
  rw [hreply] at leads
  exact .serve session admitted leads

def isMessageSend : Call → Bool
  | .produce topic _ _ _ => messageTopic topic
  | _ => false

def isExists : Call → Bool
  | .redis (.exists _) => true
  | _ => false

/-- The publication of the first request throws, and the second is its duplicate. -/
theorem session_truthful_fails : ¬ ∀ xs w,
    Session id toString (fun _ _ _ _ => True) (fun _ _ => True) xs w → ∀ x ∈ xs, Truthful x := by
  intro truthful
  have first : Session id toString (fun _ _ _ _ => True) (fun _ _ => True) _ _ :=
    (Session.start (w := {}) fun _ => rfl).andShipped isMessageSend (fun _ _ => trivial) trivial rfl
  have second := first.andShipped (fun _ => false) (fun _ _ => trivial) trivial rfl
  obtain ⟨record, member, -⟩ :=
    (truthful _ _ second _ (List.mem_append_right _ List.mem_cons_self)).duplicate _ rfl rfl
  cases member

theorem harmless_of_quiet {broken : Call → Bool}
    (quiet : ∀ topic key value headers, broken (.produce topic key value headers) = false)
    (w : World) (c : Call) (v : World) :
    Harmless w v ⟨c, (brokenHandler broken c v).1⟩ (brokenHandler broken c v).2 := by
  cases c with
  | produce topic key value headers =>
      rw [brokenHandler, World.brokenHandler_of_sound (quiet topic key value headers)]
      trivial
  | _ => trivial

/-- Redis fails the first check, so the pair is accepted twice before it is a duplicate. -/
theorem session_truthful_shipped : ∃ x y z : Exchange, (∀ e ∈ [x, y, z], Truthful e) ∧
    [x, y, z].map (fun x => x.reply.status) = [202, 202, 200] := by
  have first : Session id toString Harmless Distinguished _ _ :=
    (Session.start (w := {}) fun _ => rfl).andShipped isExists
      (harmless_of_quiet (fun _ _ _ _ => rfl) _) (fun _ member => absurd member List.not_mem_nil)
      rfl
  have second := first.andShipped (fun _ => false) (harmless_of_quiet (fun _ _ _ _ => rfl) _)
    (fun record member _ _ _ => by
      rw [List.mem_singleton.mp (show record ∈ [_] from member)]
      rfl) rfl
  have third := second.andShipped (fun _ => false) (harmless_of_quiet (fun _ _ _ _ => rfl) _)
    (fun record member _ _ _ => by
      rcases List.mem_pair.mp (show record ∈ [_, _] from member) with h | h <;> rw [h] <;> rfl) rfl
  exact ⟨_, _, _, session_truthful third, rfl⟩

end Lost

end Ingress

end Notification
