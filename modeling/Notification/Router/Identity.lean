import Notification.Router.MessageController

/-!
# Which message id a reply carries

Requests are handled one after another with the infrastructure up. The cache entry
of an accepted request is the number 1 and has no `messageId`, so the reply to a
duplicate falls back to the uuid drawn for the duplicate itself. The replies can be
computed in closed form: the `i`-th one carries the second uuid of the `i`-th
request whether it is accepted or not.
-/

namespace Notification

open Interaction

section Run

variable (sha256 : String → String) (uuid : ℕ → String) (choose : World → Choice)

theorem DeduplicationService.run_check_of_miss {r : TextRequest} {w : World}
    (miss : w.redis.live r.cacheKey = none) :
    (checkAndCacheIngressRequest r.toRequest.tenantId r.toRequest.idempotencyKey).run
        (World.handler uuid choose) w =
      (.ok true, { w with redis := w.redis.set r.cacheKey (.number 1) none }) := by
  simp [checkAndCacheIngressRequest, miss]

theorem DeduplicationService.run_check_of_hit {r : TextRequest} {w : World} {e : RedisEntry}
    (hit : w.redis.live r.cacheKey = some e) :
    (checkAndCacheIngressRequest r.toRequest.tenantId r.toRequest.idempotencyKey).run
        (World.handler uuid choose) w = (.ok false, w) := by
  simp [checkAndCacheIngressRequest, hit]

theorem DeduplicationService.run_getCached {r : TextRequest} {w : World} {e : RedisEntry}
    (hit : w.redis.live r.cacheKey = some e) :
    (getCachedIngressRequest r.toRequest.tenantId r.toRequest.idempotencyKey).run
        (World.handler uuid choose) w = (.ok (some e.value), w) := by
  simp [getCachedIngressRequest, hit]

namespace MessageController

/-- The record of a message event. -/
def messageRecord (r : TextRequest) (traceId messageId dedupKey : String) (partition : ℕ) :
    Record where
  topic := "messages." ++ r.channel
  partition := partition
  key := some (.string r.userId)
  value := (newMessage r.toRequest traceId messageId dedupKey).toJson
  headers := [("traceId", traceId), ("attempt", "0")]

theorem run_enqueue (r : TextRequest) (traceId messageId dedupKey : String) (w : World) :
    ∃ w' partition entry, (enqueue r.toRequest traceId messageId dedupKey).run
        (World.handler uuid choose) w =
          (.ok { messageId, dedupKey, traceId, status := .accepted }, w') ∧
      w'.uuids = w.uuids + 1 ∧ w'.redis = w.redis ∧ entry.topic = "logs" ∧
      w'.log = w.log ++ [messageRecord r traceId messageId dedupKey partition, entry] := by
  simp [enqueue, MessagePublisher.publishMessageEvent, MessagePublisher.publishLog, newMessage,
    TextRequest.toRequest, messageRecord]

/-- A duplicate is answered from its cache entry. -/
theorem run_replyDuplicate {r : TextRequest} (traceId messageId dedupKey : String) {w : World}
    {e : RedisEntry} (hit : w.redis.live r.cacheKey = some e) :
    ∃ w' entry, (replyDuplicate r.toRequest traceId messageId dedupKey).run
        (World.handler uuid choose) w =
          (.ok { messageId := cachedMessageId (some e.value) messageId, dedupKey, traceId,
                 status := .duplicate }, w') ∧
      w'.uuids = w.uuids + 1 ∧ w'.redis = w.redis ∧ entry.topic = "logs" ∧
      w'.log = w.log ++ [entry] := by
  simp [replyDuplicate, DeduplicationService.run_getCached uuid choose hit,
    MessagePublisher.publishLog]

/-- The response to the request that draws its uuids from the given number on. -/
def response (r : TextRequest) (first : ℕ) (status : ResponseStatus) : MessageResponse where
  messageId := uuid (first + 1)
  dedupKey := r.dedupKey sha256
  traceId := uuid first
  status := status

/-- A request whose key is not cached is accepted, and its key is cached. -/
theorem run_of_miss {r : TextRequest} {w : World} (valid : validateRequest r.toRequest = .ok ())
    (miss : w.redis.live r.cacheKey = none) :
    ∃ w' partition entry, (handleCreateMessage sha256 r.toRequest).run
        (World.handler uuid choose) w = (.ok (response sha256 uuid r w.uuids .accepted), w') ∧
      w'.uuids = w.uuids + 3 ∧ w'.redis = w.redis.set r.cacheKey (.number 1) none ∧
      entry.topic = "logs" ∧ w'.log = w.log ++ [messageRecord r (uuid w.uuids)
        (uuid (w.uuids + 1)) (r.dedupKey sha256) partition, entry] := by
  obtain ⟨w', partition, entry, hrun, huuids, hredis, htopic, hlog⟩ := run_enqueue uuid choose r
    (uuid w.uuids) (uuid (w.uuids + 1)) (r.dedupKey sha256)
    { w with uuids := w.uuids + 1 + 1, redis := w.redis.set r.cacheKey (.number 1) none }
  refine ⟨w', partition, entry, ?_, huuids, hredis, htopic, hlog⟩
  simpa [handleCreateMessage, response, valid, DeduplicationService.run_check_of_miss,
    miss] using hrun

/-- A request whose key is cached is a duplicate. -/
theorem run_of_hit {r : TextRequest} {w : World} (valid : validateRequest r.toRequest = .ok ())
    {e : RedisEntry} (hit : w.redis.live r.cacheKey = some e) :
    ∃ w' entry, (handleCreateMessage sha256 r.toRequest).run (World.handler uuid choose) w =
        (.ok { response sha256 uuid r w.uuids .duplicate with
          messageId := cachedMessageId (some e.value) (uuid (w.uuids + 1)) }, w') ∧
      w'.uuids = w.uuids + 3 ∧ w'.redis = w.redis ∧ entry.topic = "logs" ∧
      w'.log = w.log ++ [entry] := by
  obtain ⟨w', entry, hrun, huuids, hredis, htopic, hlog⟩ := run_replyDuplicate uuid choose
    (uuid w.uuids) (uuid (w.uuids + 1)) (r.dedupKey sha256)
    (w := { w with uuids := w.uuids + 1 + 1 }) hit
  refine ⟨w', entry, ?_, huuids, hredis, htopic, hlog⟩
  have hcheck := DeduplicationService.run_check_of_hit uuid choose
    (w := { w with uuids := w.uuids + 1 + 1 }) hit
  simpa [handleCreateMessage, response, valid, hcheck] using hrun

/-- The number 1 has no `messageId`, so the reply carries the one it is given. -/
theorem cachedMessageId_one (messageId : String) :
    cachedMessageId (some (.number 1)) messageId = messageId := rfl

end MessageController

/-! ## Sequences of requests -/

/-- The replies to requests that are handled one after another. -/
def serveAll : List TextRequest → World → List (Except JsError MessageResponse)
  | [], _ => []
  | r :: rest, w =>
    let handled := (MessageController.handleCreateMessage sha256 r.toRequest).run
      (World.handler uuid choose) w
    handled.1 :: serveAll rest handled.2

/-- Every `DUPLICATE` reply carries the message id of an earlier `ACCEPTED` reply for
the same pair. -/
def OriginalIdentity (requests : List TextRequest)
    (replies : List (Except JsError MessageResponse)) : Prop :=
  ∀ (i : ℕ) (request : TextRequest) (reply : MessageResponse),
    requests[i]? = some request → replies[i]? = some (.ok reply) → reply.status = .duplicate →
      ∃ j < i, ∃ (original : TextRequest) (accepted : MessageResponse),
        requests[j]? = some original ∧ original.pair = request.pair ∧
        replies[j]? = some (.ok accepted) ∧ accepted.status = .accepted ∧
        accepted.messageId = reply.messageId

/-- The closed form of the replies, for the keys that are cached before. -/
theorem serveAll_getElem? (requests : List TextRequest) (cached : List String) (w : World)
    (valid : ∀ r ∈ requests, MessageController.validateRequest r.toRequest = .ok ())
    (hit : ∀ key ∈ cached, ∃ e, w.redis.live key = some e ∧ e.value = .number 1)
    (miss : ∀ r ∈ requests, r.cacheKey ∉ cached → w.redis.live r.cacheKey = none) (i : ℕ) :
    (serveAll sha256 uuid choose requests w)[i]? = requests[i]?.map fun r =>
      .ok (MessageController.response sha256 uuid r (w.uuids + 3 * i)
        (if r.cacheKey ∈ cached ++ (requests.take i).map TextRequest.cacheKey
          then .duplicate else .accepted)) := by
  induction requests generalizing cached w i with
  | nil => simp [serveAll]
  | cons r rest ih =>
      have hvalid := valid r List.mem_cons_self
      have hrest : ∀ r' ∈ rest, MessageController.validateRequest r'.toRequest = .ok () :=
        fun r' h => valid r' (List.mem_cons_of_mem _ h)
      by_cases hmem : r.cacheKey ∈ cached
      · obtain ⟨e, he, one⟩ := hit _ hmem
        obtain ⟨w', -, hrun, huuids, hredis, -⟩ :=
          MessageController.run_of_hit sha256 uuid choose hvalid he
        rw [one, MessageController.cachedMessageId_one] at hrun
        change _ = (Except.ok (MessageController.response sha256 uuid r w.uuids .duplicate), w')
          at hrun
        rw [serveAll, hrun]
        cases i with
        | zero => simp [hmem]
        | succ i =>
            have hnext := ih cached w' hrest (by rwa [hredis])
              (by
                rw [hredis]
                exact fun r' h => miss r' (List.mem_cons_of_mem _ h)) i
            simp only [List.getElem?_cons_succ, hnext, huuids]
            congr 1
            funext r'
            have hkeys : r'.cacheKey ∈ cached ++
              ((r :: rest).take (i + 1)).map TextRequest.cacheKey ↔
                r'.cacheKey ∈ cached ++ (rest.take i).map TextRequest.cacheKey := by
              simp only [List.take_succ_cons, List.map_cons, List.mem_append, List.mem_cons]
              constructor
              · rintro (h | h | h)
                · exact .inl h
                · exact .inl (h ▸ hmem)
                · exact .inr h
              · rintro (h | h)
                · exact .inl h
                · exact .inr (.inr h)
            have hfirst : w.uuids + 3 + 3 * i = w.uuids + 3 * (i + 1) := by omega
            simp only [hkeys, hfirst]
      · obtain ⟨w', -, -, hrun, huuids, hredis, -⟩ :=
          MessageController.run_of_miss sha256 uuid choose hvalid (miss r List.mem_cons_self hmem)
        rw [serveAll, hrun]
        cases i with
        | zero => simp [hmem]
        | succ i =>
            have hnext := ih (cached ++ [r.cacheKey]) w' hrest
              (by
                intro key hkey
                rw [hredis]
                by_cases heq : key = r.cacheKey
                · exact ⟨⟨.number 1, none⟩, by rw [heq, Redis.live_set_self], rfl⟩
                · rw [Redis.live_set_ne _ heq]
                  exact hit key (by simpa [heq] using hkey))
              (by
                intro r' h hnot
                have hne : r'.cacheKey ≠ r.cacheKey := fun h => hnot (by simp [h])
                rw [hredis, Redis.live_set_ne _ hne]
                exact miss r' (List.mem_cons_of_mem _ h) fun h => hnot (by simp [h])) i
            simp only [List.getElem?_cons_succ, hnext, huuids]
            have hfirst : w.uuids + 3 + 3 * i = w.uuids + 3 * (i + 1) := by omega
            simp only [hfirst, List.append_assoc, List.singleton_append, List.take_succ_cons,
              List.map_cons]

/-- From an empty ingress cache, duplicates carry the original message's identity
exactly when there are none: no two requests share a cache key. -/
theorem originalIdentity_iff_nodup {sha256 : String → String} {uuid : ℕ → String}
    {choose : World → Choice} (fresh : Function.Injective uuid) {requests : List TextRequest}
    (valid : ∀ r ∈ requests, MessageController.validateRequest r.toRequest = .ok ()) {w : World}
    (uncached : ∀ r ∈ requests, w.redis.live r.cacheKey = none) :
    OriginalIdentity requests (serveAll sha256 uuid choose requests w) ↔
      (requests.map TextRequest.cacheKey).Nodup := by
  have hreply := serveAll_getElem? sha256 uuid choose requests [] w valid (by simp)
    fun r h _ => uncached r h
  simp only [List.nil_append] at hreply
  rw [List.nodup_iff_getElem?_ne_getElem?]
  constructor
  · intro identity i j hij hlen heq
    rw [List.length_map] at hlen
    have hseen : requests[j].cacheKey ∈ (requests.take j).map TextRequest.cacheKey := by
      refine List.mem_map.mpr ⟨requests[i], List.mem_take_iff_getElem.mpr ⟨i, by omega, rfl⟩, ?_⟩
      simpa [List.getElem?_eq_getElem, hlen, hij.trans hlen] using heq
    obtain ⟨k, hk, original, accepted, horiginal, -, haccepted, -, hid⟩ := identity j requests[j] _
      (List.getElem?_eq_getElem hlen) (by rw [hreply, List.getElem?_eq_getElem hlen]; rfl)
      (if_pos hseen)
    rw [hreply, horiginal] at haccepted
    simp only [Option.map_some, Option.some.injEq, Except.ok.injEq] at haccepted
    subst haccepted
    have := fresh hid
    omega
  · intro distinct i request reply hrequest hrep hdup
    rw [hreply, hrequest] at hrep
    simp only [Option.map_some, Option.some.injEq, Except.ok.injEq] at hrep
    subst hrep
    have hseen : request.cacheKey ∈ (requests.take i).map TextRequest.cacheKey := by
      by_contra hnot
      exact absurd ((if_neg hnot).symm.trans hdup) (by decide)
    obtain ⟨original, horiginal, hkey⟩ := List.mem_map.mp hseen
    obtain ⟨j, hj, rfl⟩ := List.mem_take_iff_getElem.mp horiginal
    have hi := (List.getElem?_eq_some_iff.mp hrequest).1
    refine absurd ?_ (distinct j i (by omega) (by simpa using hi))
    simp [hrequest, List.getElem?_eq_getElem (show j < requests.length by omega), hkey]

end Run

/-- A valid request. -/
def orderShipped : TextRequest where
  tenantId := "tenant-1"
  userId := "user-1"
  idempotencyKey := "key-1"
  channel := "sms"
  recipient := "+15550100"
  body := "Your order has shipped"

/-- A request that is sent again gets a message id that was never enqueued. -/
theorem duplicate_gets_fresh_identity :
    serveAll (fun text => text) toString (fun _ => { outcome := .ok ⟨true, none⟩ })
        [orderShipped, orderShipped] {} =
      [ .ok (MessageController.response (fun text => text) toString orderShipped 0 .accepted),
        .ok (MessageController.response (fun text => text) toString orderShipped 3 .duplicate) ] ∧
    ¬ OriginalIdentity [orderShipped, orderShipped]
      (serveAll (fun text => text) toString (fun _ => { outcome := .ok ⟨true, none⟩ })
        [orderShipped, orderShipped] {}) := by
  refine ⟨rfl, fun identity => ?_⟩
  obtain ⟨j, hj, original, accepted, -, -, haccepted, -, hid⟩ := identity 1 orderShipped
    (MessageController.response (fun text => text) toString orderShipped 3 .duplicate) rfl rfl rfl
  obtain rfl : j = 0 := by omega
  obtain rfl : MessageController.response (fun text => text) toString orderShipped 0 .accepted =
    accepted := Except.ok.inj (Option.some.inj haccepted)
  exact absurd hid (by decide)

theorem originalIdentity_single :
    OriginalIdentity [orderShipped] (serveAll (fun text => text) Nat.repr
      (fun _ => { outcome := .ok ⟨true, none⟩ }) [orderShipped] {}) :=
  (originalIdentity_iff_nodup repr_injective (fun r h => by
    rw [List.mem_singleton.mp h]
    rfl) (fun _ _ => rfl)).mpr (by simp)

end Notification
