import Notification.Aggregator.Footprint
import Notification.Router.Admission

/-!
# The calls of one request

A request draws its ids before it does anything else, so everything that it publishes and
replies can be traced back to its first two uuids.
-/

namespace Notification

open Interaction Program

/-- A request together with the ids that the router has drawn for it. -/
structure Origin where
  request : TextRequest
  traceId : String
  messageId : String

namespace Origin

variable (sha256 : String → String) (o : Origin)

/-- The reply to the request. -/
def reply (status : ResponseStatus) : MessageResponse where
  messageId := o.messageId
  dedupKey := o.request.dedupKey sha256
  traceId := o.traceId
  status := status

/-- The record of the request's message event. -/
def record (partition : ℕ) : Record :=
  MessageController.messageRecord o.request o.traceId o.messageId (o.request.dedupKey sha256)
    partition

end Origin

/-- The uuids that have been drawn, the latest first. -/
def draws (t : Trace Reply JsError) : List String :=
  t.filterMap fun
    | ⟨.uuidv4, .ok id⟩ => some id
    | _ => none

@[simp] theorem draws_nil : draws [] = [] := rfl

@[simp] theorem draws_uuidv4 (id : String) (t : Trace Reply JsError) :
    draws (⟨.uuidv4, .ok id⟩ :: t) = id :: draws t := rfl

@[simp] theorem draws_redis {c : RedisCall} (r : Except JsError c.Reply)
    (t : Trace Reply JsError) : draws (⟨.redis c, r⟩ :: t) = draws t := rfl

@[simp] theorem draws_produce {topic : String} {key : Option Json} {value : Json}
    {headers : List (String × String)} (r : Except JsError Unit) (t : Trace Reply JsError) :
    draws (⟨.produce topic key value headers, r⟩ :: t) = draws t := rfl

/-- The first two uuids that have been drawn are those of the origin. -/
def Origin.Drawn (o : Origin) (t : Trace Reply JsError) : Prop :=
  ∃ later, draws t = later ++ [o.messageId, o.traceId]

theorem Origin.Drawn.cons {o : Origin} {t : Trace Reply JsError} (h : o.Drawn t)
    (ev : CallEvent) : o.Drawn (ev :: t) := by
  obtain ⟨later, hdraws⟩ := h
  unfold Drawn draws at *
  rw [List.filterMap_cons]
  split
  · exact ⟨later, hdraws⟩
  · next id _ => exact ⟨id :: later, by rw [hdraws]; rfl⟩

/-- A request has one origin. -/
theorem Origin.Drawn.unique {o o' : Origin} {t : Trace Reply JsError} (h : o.Drawn t)
    (h' : o'.Drawn t) : o.messageId = o'.messageId ∧ o.traceId = o'.traceId := by
  obtain ⟨later, hdraws⟩ := h
  obtain ⟨later', hdraws'⟩ := h'
  have same := (List.append_inj' (hdraws.symm.trans hdraws') rfl).2
  simpa using same

namespace Ingress

section Calls

variable (sha256 : String → String) (r : TextRequest)

/-- What a request calls, given what it has called before. -/
inductive RequestCall (before : Trace Reply JsError) : Call → Prop
  | draw : RequestCall before .uuidv4
  | lookup : RequestCall before (.redis (.exists r.cacheKey))
  | claim : RequestCall before (.redis (.setNX r.cacheKey (.number 1)))
  | read : RequestCall before (.redis (.get r.cacheKey))
  | publish (o : Origin) : o.request = r → o.Drawn before → ¬ Published before →
      MessageController.validateRequest r.toRequest = .ok () →
      RequestCall before (.produce (o.record sha256 0).topic (o.record sha256 0).key
        (o.record sha256 0).value (o.record sha256 0).headers)
  | accepted (o : Origin) (spanId : String) : o.request = r → o.Drawn before →
      RequestCall before (.produce "logs" (some (.string o.traceId))
        (MessageController.acceptedLog r.toRequest o.traceId spanId o.messageId
          (r.dedupKey sha256) r.channel r.recipient) [])
  | duplicate (o : Origin) (spanId : String) (cached : Option Json) : o.request = r →
      o.Drawn before →
      (cached = none ∨ ⟨.redis (.get r.cacheKey), .ok cached⟩ ∈ before) →
      RequestCall before (.produce "logs" (some (.string o.traceId))
        (MessageController.duplicateLog r.toRequest o.traceId spanId
          (MessageController.cachedMessageId cached o.messageId) (r.dedupKey sha256)) [])
  | failed (key : Option Json) (traceId : String) (error : JsError) :
      RequestCall before (.produce "errors" key (MessageController.errorRecord traceId error) [])

/-- The calls so far are those of the request. -/
def Asking (t : Trace Reply JsError) : Prop :=
  Always (fun ev before => RequestCall sha256 r before ev.call) t

/-- The reply says what has been published: the message of the reply, or nothing. A duplicate
is given the id in the cache, if there is one. -/
def Replied (o : Origin) (reply : MessageResponse) (t : Trace Reply JsError) : Prop :=
  (reply = o.reply sha256 .accepted ∧
    ⟨.produce (o.record sha256 0).topic (o.record sha256 0).key (o.record sha256 0).value
      (o.record sha256 0).headers, .ok ()⟩ ∈ t) ∨
  (¬ Published t ∧ ∃ cached, (cached = none ∨ ⟨.redis (.get r.cacheKey), .ok cached⟩ ∈ t) ∧
    reply = { o.reply sha256 .duplicate with
      messageId := MessageController.cachedMessageId cached o.messageId })

/-- What the client is told, and what has happened by then. -/
def Told (t : Trace Reply JsError) (reply : HttpReply) : Prop :=
  (∃ o m, o.request = r ∧ o.Drawn t ∧ Replied sha256 r o m t ∧ reply.body = .inl m ∧
    reply.status = if m.status = .duplicate then 200 else 202) ∨
  (∃ message, reply.body = .inr message ∧ reply.status = 400)

end Calls

end Ingress

/-- Answers as they come: a uuid can be drawn, and what the schema refuses is refused. -/
structure Honest (ev : CallEvent) : Prop where
  refuses : Refuses ev
  draws : ∀ r, ev = ⟨.uuidv4, r⟩ → ∃ id, r = .ok id

namespace Ingress

variable {sha256 : String → String} {r : TextRequest} {o : Origin} {t : Trace Reply JsError}

theorem asking_check (before : Asking sha256 r t) (drawn : o.Drawn t) (silent : ¬ Published t) :
    (DeduplicationService.checkAndCacheIngressRequest r.toRequest.tenantId
        r.toRequest.idempotencyKey).wp (recording Honest) (Asking sha256 r)
      (either (fun _ t' => Asking sha256 r t' ∧ o.Drawn t' ∧ ¬ Published t') fun _ _ => False)
        t := by
  rw [DeduplicationService.checkAndCacheIngressRequest, wp_tryCatch, wp_bind,
    TextRequest.buildIngressCacheKey_eq, wp_done, either_ok, wp_bind, RedisClient.wp_exists]
  intro answer _
  have asked : Asking sha256 r (⟨.redis (.exists r.cacheKey), answer⟩ :: t) := ⟨.lookup, before⟩
  have silent' : ¬ Published (⟨.redis (.exists r.cacheKey), answer⟩ :: t) := by
    simpa [Published, isPublish] using silent
  refine ⟨asked, ?_⟩
  cases answer with
  | error e => exact ⟨asked, drawn.cons _, silent'⟩
  | ok n =>
      rw [either_ok, wp_ite]
      refine ⟨fun _ => ⟨asked, drawn.cons _, silent'⟩, fun _ => ?_⟩
      rw [wp_bind, RedisClient.wp_setNX]
      intro answer _
      have claimed : Asking sha256 r (⟨.redis (.setNX r.cacheKey (.number 1)), answer⟩ ::
          ⟨.redis (.exists r.cacheKey), .ok n⟩ :: t) := ⟨.claim, asked⟩
      have silent'' : ¬ Published (⟨.redis (.setNX r.cacheKey (.number 1)), answer⟩ ::
          ⟨.redis (.exists r.cacheKey), .ok n⟩ :: t) := by
        simpa [Published, isPublish] using silent
      refine ⟨claimed, ?_⟩
      cases answer <;> exact ⟨claimed, (drawn.cons _).cons _, silent''⟩

/-- The event of the message that an origin publishes. -/
theorem asking_enqueue (hrequest : o.request = r) (before : Asking sha256 r t)
    (drawn : o.Drawn t) (silent : ¬ Published t)
    (valid : MessageController.validateRequest r.toRequest = .ok ()) :
    (MessageController.enqueue r.toRequest o.traceId o.messageId (r.dedupKey sha256)).wp
      (recording Honest) (Asking sha256 r)
      (either (fun m t' => Asking sha256 r t' ∧ o.Drawn t' ∧ Replied sha256 r o m t') fun _ t' =>
        Asking sha256 r t') t := by
  subst hrequest
  rw [MessageController.enqueue, wp_bind, MessagePublisher.publishMessageEvent, wp_bind]
  change (produce (o.record sha256 0).topic (o.record sha256 0).key (o.record sha256 0).value
    (o.record sha256 0).headers).wp _ _ _ _
  rw [wp_produce]
  intro answer _
  have published : Asking sha256 o.request (⟨_, answer⟩ :: t) :=
    ⟨RequestCall.publish o rfl drawn silent valid, before⟩
  refine ⟨published, ?_⟩
  cases answer with
  | error e => exact published
  | ok _ =>
      rw [either_ok, wp_bind, wp_uuidv4]
      intro answer honest
      obtain ⟨spanId, rfl⟩ := honest.draws _ rfl
      refine ⟨⟨.draw, published⟩, ?_⟩
      rw [either_ok, wp_bind, TextRequest.templateText_channel, wp_done, either_ok, wp_bind,
        TextRequest.templateText_recipient, wp_done, either_ok, wp_bind,
        MessagePublisher.publishLog, wp_produce]
      intro answer _
      have logged : Asking sha256 o.request (⟨_, answer⟩ :: ⟨.uuidv4, .ok spanId⟩ :: ⟨_, .ok ()⟩ ::
          t) :=
        ⟨RequestCall.accepted o spanId rfl ((drawn.cons _).cons _), .draw, published⟩
      refine ⟨logged, ?_⟩
      cases answer with
      | error e => exact logged
      | ok _ => exact ⟨logged, ((drawn.cons _).cons _).cons _, .inl ⟨rfl, by simp⟩⟩

/-- A duplicate reports itself at most. -/
theorem asking_replyDuplicate (hrequest : o.request = r) (before : Asking sha256 r t)
    (drawn : o.Drawn t) (silent : ¬ Published t) :
    (MessageController.replyDuplicate r.toRequest o.traceId o.messageId (r.dedupKey sha256)).wp
      (recording Honest) (Asking sha256 r)
      (either (fun m t' => Asking sha256 r t' ∧ o.Drawn t' ∧ Replied sha256 r o m t') fun _ _ =>
        False) t := by
  rw [MessageController.replyDuplicate, wp_bind, DeduplicationService.getCachedIngressRequest,
    wp_tryCatch, wp_bind, TextRequest.buildIngressCacheKey_eq, wp_done, either_ok,
    RedisClient.wp_get]
  intro answer _
  have asked : Asking sha256 r (⟨.redis (.get r.cacheKey), answer⟩ :: t) := ⟨.read, before⟩
  have silent' : ¬ Published (⟨.redis (.get r.cacheKey), answer⟩ :: t) := by
    simpa [Published, isPublish] using silent
  refine ⟨asked, ?_⟩
  -- an error of the read is taken for an entry that is not there
  have replies (cached : Option Json)
      (hcached : cached = none ∨ ⟨.redis (.get r.cacheKey), .ok cached⟩ ∈
        (⟨.redis (.get r.cacheKey), answer⟩ :: t : Trace Reply JsError)) :
      (do
        try
          let spanId ← uuidv4
          MessagePublisher.publishLog (MessageController.duplicateLog r.toRequest o.traceId spanId
            (MessageController.cachedMessageId cached o.messageId) (r.dedupKey sha256))
        catch _ => pure ()
        pure { messageId := MessageController.cachedMessageId cached o.messageId,
               dedupKey := r.dedupKey sha256, traceId := o.traceId,
               status := .duplicate } : Prog MessageResponse).wp
        (recording Honest) (Asking sha256 r)
        (either (fun m t' => Asking sha256 r t' ∧ o.Drawn t' ∧ Replied sha256 r o m t') fun _ _ =>
          False) (⟨.redis (.get r.cacheKey), answer⟩ :: t) := by
    rw [wp_bind, wp_tryCatch, wp_bind, wp_uuidv4]
    intro answer' honest
    obtain ⟨spanId, rfl⟩ := honest.draws _ rfl
    refine ⟨⟨.draw, asked⟩, ?_⟩
    rw [either_ok, MessagePublisher.publishLog, wp_produce]
    intro answer'' _
    have logged : Asking sha256 r (⟨_, answer''⟩ :: ⟨.uuidv4, .ok spanId⟩ ::
        ⟨.redis (.get r.cacheKey), answer⟩ :: t) :=
      ⟨RequestCall.duplicate o spanId cached hrequest ((drawn.cons _).cons _)
        (hcached.imp_right (List.mem_cons_of_mem _)), .draw, asked⟩
    have hlog : messageTopic "logs" = false := by decide
    have replied : Replied sha256 r o
        { messageId := MessageController.cachedMessageId cached o.messageId,
          dedupKey := r.dedupKey sha256, traceId := o.traceId, status := .duplicate }
        (⟨_, answer''⟩ :: ⟨.uuidv4, .ok spanId⟩ :: ⟨.redis (.get r.cacheKey), answer⟩ :: t) := by
      refine .inr ⟨by simpa [Published, isPublish, hlog] using silent', cached, ?_, ?_⟩
      · exact hcached.imp_right fun h => List.mem_cons_of_mem _ (List.mem_cons_of_mem _ h)
      · rw [Origin.reply, hrequest]
    refine ⟨logged, ?_⟩
    cases answer'' <;> exact ⟨logged, ((drawn.cons _).cons _).cons _, replied⟩
  cases answer with
  | error e => exact replies none (.inl rfl)
  | ok cached => exact replies cached (.inr List.mem_cons_self)

theorem asking_handleCreateMessage : (MessageController.handleCreateMessage sha256
    r.toRequest).wp (recording Honest) (Asking sha256 r)
      (either (fun m t' => Asking sha256 r t' ∧ ∃ o : Origin, o.request = r ∧ o.Drawn t' ∧
        Replied sha256 r o m t') fun _ t' => Asking sha256 r t') [] := by
  rw [MessageController.handleCreateMessage]
  cases hvalid : MessageController.validateRequest r.toRequest with
  | error e =>
      rw [wp_bind, wp_done, either_error]
      exact trivial
  | ok _ =>
      rw [wp_bind, wp_done, either_ok, wp_bind, wp_uuidv4]
      intro answer honest
      obtain ⟨traceId, rfl⟩ := honest.draws _ rfl
      refine ⟨⟨.draw, always_nil _⟩, ?_⟩
      rw [either_ok, wp_bind, wp_uuidv4]
      intro answer honest
      obtain ⟨messageId, rfl⟩ := honest.draws _ rfl
      have drawing : Asking sha256 r [⟨.uuidv4, .ok messageId⟩, ⟨.uuidv4, .ok traceId⟩] :=
        ⟨.draw, .draw, always_nil _⟩
      refine ⟨drawing, ?_⟩
      rw [either_ok, wp_bind, TextRequest.generateDedupKey_eq, wp_done, either_ok, wp_bind]
      let o : Origin := ⟨r, traceId, messageId⟩
      have drawn : o.Drawn [⟨.uuidv4, .ok messageId⟩, ⟨.uuidv4, .ok traceId⟩] := ⟨[], rfl⟩
      apply mono_post (asking_check drawing drawn (by simp [Published, isPublish]))
      intro out t' h
      cases out with
      | error e => exact h.elim
      | ok isNew =>
          obtain ⟨asking, drawn, silent⟩ := h
          rw [either_ok, wp_ite]
          constructor
          · intro _
            apply mono_post (asking_enqueue rfl asking drawn silent hvalid)
            intro out t'' h
            cases out with
            | error e => exact h
            | ok m => exact ⟨h.1, o, rfl, h.2.1, h.2.2⟩
          · intro _
            apply mono_post (asking_replyDuplicate rfl asking drawn silent)
            intro out t'' h
            cases out with
            | error e => exact h.elim
            | ok m => exact ⟨h.1, o, rfl, h.2.1, h.2.2⟩

/-- What a request calls, and that it always ends in a reply that says what was published. -/
theorem calls_createMessage : (MessageController.createMessage sha256 r.toRequest).wp
    (recording Honest) (Asking sha256 r)
      (either (fun reply t => Told sha256 r t reply) fun _ _ => False) [] := by
  rw [MessageController.createMessage, wp_tryCatch, wp_bind]
  apply mono_post asking_handleCreateMessage
  intro out t h
  cases out with
  | ok m =>
      obtain ⟨-, o, hrequest, drawn, replied⟩ := h
      rw [either_ok, wp_ite]
      constructor
      · intro hduplicate
        exact .inl ⟨o, m, hrequest, drawn, replied, rfl, by simp [hduplicate]⟩
      · intro haccepted
        exact .inl ⟨o, m, hrequest, drawn, replied, rfl, by simp [haccepted]⟩
  | error e =>
      rw [either_error, either_error, wp_bind, wp_uuidv4]
      intro answer honest
      obtain ⟨traceId, rfl⟩ := honest.draws _ rfl
      refine ⟨⟨.draw, h⟩, ?_⟩
      rw [either_ok, wp_bind, wp_tryCatch, MessagePublisher.publishError, wp_produce]
      intro answer _
      have reported : Asking sha256 r (⟨_, answer⟩ :: ⟨.uuidv4, .ok traceId⟩ :: t) :=
        ⟨RequestCall.failed _ traceId e, .draw, h⟩
      refine ⟨reported, ?_⟩
      cases answer <;> exact .inr ⟨_, rfl, rfl⟩

end Ingress

end Notification
