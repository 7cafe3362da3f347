import Notification.Router.Identity

/-!
# Concurrent requests for one idempotency key

The ingress check is an `EXISTS` followed by a `SETNX` whose reply decides nothing, so
two requests that both miss are both accepted. As long as nobody looks at a key while
another request is between its miss and its `SETNX`, a key is accepted once.
-/

namespace Notification

open Interaction Program

namespace Ingress

/-- A topic of message events. -/
def messageTopic (topic : String) : Bool := "messages.".toList.isPrefixOf topic.toList

@[simp] theorem messageTopic_append (channel : String) : messageTopic ("messages." ++ channel) := by
  simp [messageTopic]

/-- An `EXISTS` that does not find the key. -/
def isMiss (key : String) : CallEvent → Bool
  | ⟨.redis (.exists key'), .ok n⟩ => key' == key && n != 1
  | _ => false

def isClaim (key : String) : CallEvent → Bool
  | ⟨.redis (.setNX key' _), _⟩ => key' == key
  | _ => false

def isPublish : CallEvent → Bool
  | ⟨.produce topic _ _ _, _⟩ => messageTopic topic
  | _ => false

/-- A request has found its key missing. -/
def Missed (key : String) (t : Trace Reply JsError) : Prop := t.any (isMiss key) = true

/-- A request has set its key, or found that it was set in between. -/
def Claimed (key : String) (t : Trace Reply JsError) : Prop := t.any (isClaim key) = true

/-- A request has published a message event. -/
def Published (t : Trace Reply JsError) : Prop := t.any isPublish = true

/-- What a request with the given cache key may do next. -/
def MayDo (key : String) (ev : CallEvent) (before : Trace Reply JsError) : Prop :=
  match ev.call with
  | .uuidv4 => True
  | .redis (.exists key') => key' = key
  | .redis (.setNX key' _) => key' = key ∧ Missed key before
  | .redis (.get _) => True
  | .produce topic .. => messageTopic topic = true → Claimed key before
  | _ => False

/-- The reply of a finished request says whether it has published its message. -/
def Answers (o : Except JsError MessageResponse) (t : Trace Reply JsError) : Prop :=
  ∃ r, o = .ok r ∧
    ((r.status = .accepted ∧ Published t) ∨ (r.status = .duplicate ∧ ¬ Published t))

section Traces

variable {sha256 : String → String} {r : TextRequest} {t : Trace Reply JsError}

/-- The check is new only after a miss and a `SETNX`. -/
theorem wp_checkAndCache (before : Always (MayDo r.cacheKey) t) (silent : ¬ Published t) :
    (DeduplicationService.checkAndCacheIngressRequest r.toRequest.tenantId
        r.toRequest.idempotencyKey).wp (recording Succeeds) (Always (MayDo r.cacheKey))
      (either (fun isNew t' => Always (MayDo r.cacheKey) t' ∧ ¬ Published t' ∧
        (isNew = true → Claimed r.cacheKey t')) fun _ _ => False) t := by
  rw [DeduplicationService.checkAndCacheIngressRequest, wp_tryCatch, wp_bind,
    TextRequest.buildIngressCacheKey_eq, wp_done, either_ok, wp_bind, RedisClient.wp_exists]
  rintro _ ⟨n, rfl⟩
  refine ⟨⟨rfl, before⟩, ?_⟩
  rw [either_ok, wp_ite]
  constructor
  · intro _
    exact ⟨⟨rfl, before⟩, by simpa [Published, isPublish] using silent,
      fun h => absurd h (by decide)⟩
  · intro hmiss
    rw [wp_bind, RedisClient.wp_setNX]
    rintro _ ⟨b, rfl⟩
    have hset : Always (MayDo r.cacheKey) (⟨.redis (.setNX r.cacheKey (.number 1)), .ok b⟩ ::
        ⟨.redis (.exists r.cacheKey), .ok n⟩ :: t) :=
      ⟨⟨rfl, by simp [Missed, isMiss, hmiss]⟩, rfl, before⟩
    exact ⟨hset, hset, by simpa [Published, isPublish] using silent,
      fun _ => by simp [Claimed, isClaim]⟩

/-- A new request publishes its message and is accepted. -/
theorem wp_enqueue {traceId messageId dedupKey : String} (before : Always (MayDo r.cacheKey) t)
    (claimed : Claimed r.cacheKey t) :
    (MessageController.enqueue r.toRequest traceId messageId dedupKey).wp (recording Succeeds)
      (Always (MayDo r.cacheKey)) Answers t := by
  rw [MessageController.enqueue, wp_bind, MessagePublisher.publishMessageEvent, wp_bind]
  change (produce ("messages." ++ r.channel) _ _ _).wp _ _ _ _
  rw [wp_produce]
  rintro _ ⟨_, rfl⟩
  refine ⟨⟨fun _ => claimed, before⟩, ?_⟩
  rw [either_ok, wp_bind, wp_uuidv4]
  rintro _ ⟨spanId, rfl⟩
  refine ⟨⟨trivial, fun _ => claimed, before⟩, ?_⟩
  rw [either_ok, wp_bind, TextRequest.templateText_channel, wp_done, either_ok, wp_bind,
    TextRequest.templateText_recipient, wp_done, either_ok, wp_bind, MessagePublisher.publishLog,
    wp_produce]
  rintro _ ⟨_, rfl⟩
  have hlog : messageTopic "logs" = false := by decide
  refine ⟨⟨fun h => absurd (hlog.symm.trans h) (by decide), trivial, fun _ => claimed, before⟩, ?_⟩
  exact ⟨_, rfl, .inl ⟨rfl, by simp [Published, isPublish]⟩⟩

/-- A duplicate publishes a log record at most. -/
theorem wp_replyDuplicate {traceId messageId dedupKey : String}
    (before : Always (MayDo r.cacheKey) t) (silent : ¬ Published t) :
    (MessageController.replyDuplicate r.toRequest traceId messageId dedupKey).wp
      (recording Succeeds) (Always (MayDo r.cacheKey)) Answers t := by
  rw [MessageController.replyDuplicate, wp_bind, DeduplicationService.getCachedIngressRequest,
    wp_tryCatch, wp_bind, TextRequest.buildIngressCacheKey_eq, wp_done, either_ok,
    RedisClient.wp_get]
  rintro _ ⟨cached, rfl⟩
  refine ⟨⟨trivial, before⟩, ?_⟩
  rw [either_ok, either_ok, wp_bind, wp_tryCatch, wp_bind, wp_uuidv4]
  rintro _ ⟨spanId, rfl⟩
  refine ⟨⟨trivial, trivial, before⟩, ?_⟩
  rw [either_ok, MessagePublisher.publishLog, wp_produce]
  rintro _ ⟨_, rfl⟩
  have hlog : messageTopic "logs" = false := by decide
  refine ⟨⟨fun h => absurd (hlog.symm.trans h) (by decide), trivial, trivial, before⟩, ?_⟩
  exact ⟨_, rfl, .inr ⟨rfl, by simpa [Published, isPublish, hlog] using silent⟩⟩

/-- What one request does, whatever the others do in between. -/
theorem wp_handleCreateMessage
    (valid : MessageController.validateRequest r.toRequest = .ok ()) :
    (MessageController.handleCreateMessage sha256 r.toRequest).wp (recording Succeeds)
      (Always (MayDo r.cacheKey)) Answers [] := by
  rw [MessageController.handleCreateMessage, valid, wp_bind, wp_done, either_ok, wp_bind,
    wp_uuidv4]
  rintro _ ⟨traceId, rfl⟩
  refine ⟨⟨trivial, trivial⟩, ?_⟩
  rw [either_ok, wp_bind, wp_uuidv4]
  rintro _ ⟨messageId, rfl⟩
  refine ⟨⟨trivial, trivial, trivial⟩, ?_⟩
  rw [either_ok, wp_bind, TextRequest.generateDedupKey_eq, wp_done, either_ok, wp_bind]
  refine mono_post (wp_checkAndCache ⟨trivial, trivial, trivial⟩
    (by simp [Published, isPublish])) fun o t' h => ?_
  cases o with
  | error e => exact h.elim
  | ok isNew =>
      obtain ⟨before, silent, claimed⟩ := h
      rw [either_ok, wp_ite]
      exact ⟨fun hnew => wp_enqueue before (claimed hnew), fun _ => wp_replyDuplicate before silent⟩

end Traces

/-- A request that passes validation. -/
structure ValidRequest extends TextRequest where
  valid : MessageController.validateRequest toTextRequest.toRequest = .ok ()

/-- The router's requests: every infrastructure call succeeds, and Redis's clock moves. -/
def router (sha256 : String → String) (uuid : ℕ → String) :
    Machine Reply JsError MessageResponse ValidRequest World where
  code r := MessageController.handleCreateMessage sha256 r.toRequest
  starts _ _ := True
  answers := World.up uuid
  crashes _ _ _ := False
  settles _ _ _ _ := False
  drifts := World.later

abbrev Requests := Pool Reply JsError MessageResponse ValidRequest World

/-- A request that has been started. -/
abbrev Request := Proc Reply JsError MessageResponse ValidRequest

/-- Nobody is between its miss and its `SETNX` of a key that is looked at. -/
def undisturbed (s : Requests) : Action Reply JsError ValidRequest → Bool
  | .turn _ ⟨.redis (.exists key), _⟩ => s.procs.all fun p =>
      p.job.cacheKey != key || !p.trace.any (isMiss key) || p.trace.any (isClaim key)
  | _ => true

/-- At most one of the requests for a pair publishes a message event, and a request
that has ended was accepted if it did and is a duplicate if it did not. -/
structure AcceptsOnce (s : Requests) : Prop where
  once : ∀ ⦃p q : ℕ⦄ ⦃P Q : Request⦄, s.procs[p]? = some P → s.procs[q]? = some Q →
    P.job.pair = Q.job.pair → Published P.trace → Published Q.trace → p = q
  answered : ∀ ⦃p : ℕ⦄ ⦃P : Request⦄ ⦃o⦄, s.procs[p]? = some P → P.rest = .done o →
    Answers o P.trace

section Runs

variable {sha256 : String → String} {uuid : ℕ → String} {init : World} {s s' : Requests}
  {a : Action Reply JsError ValidRequest} {pid : ℕ} {P : Request}

theorem follows {allowed : Requests → Action Reply JsError ValidRequest → Prop}
    (run : (router sha256 uuid).Run allowed init s) (hP : s.procs[pid]? = some P) :
    Always (MayDo P.job.cacheKey) P.trace ∧ ∀ o, P.rest = .done o → Answers o P.trace :=
  run.local_invariant (fun _ _ _ _ h => World.up_succeeds h) hP
    (wp_handleCreateMessage P.job.valid) (always_nil _)

/-- What requests leave of a Redis key: one without expiry stays, and no entry with
an expiry comes. -/
def Keeps (r r' : Redis) : Prop :=
  ∀ key, (∀ v, r.strings key = some ⟨v, none⟩ → r'.strings key = some ⟨v, none⟩) ∧
    ∀ e, r'.live key = some e → e.expiresAt = none ∨ r.live key = some e

theorem Keeps.refl (r : Redis) : Keeps r r := fun _ => ⟨fun _ h => h, fun _ h => .inr h⟩

theorem keeps_set {r : Redis} {key : String} {v : Json} (absent : (r.live key).isSome = false) :
    Keeps r (r.set key v none) := by
  intro key'
  by_cases heq : key' = key
  · subst heq
    constructor
    · intro v' h
      simp [Redis.live, h] at absent
    · intro e he
      rw [Redis.live_set_self] at he
      cases he
      exact .inl rfl
  · constructor
    · intro v' h
      simpa [Redis.set, Function.update_of_ne heq] using h
    · intro e he
      rw [Redis.live_set_ne _ heq] at he
      exact .inr he

theorem keeps_time {r : Redis} {t : Int} (h : r.time ≤ t) : Keeps r { r with time := t } := by
  intro key
  refine ⟨fun _ h => h, fun e he => .inr ?_⟩
  simp only [Redis.live, Option.filter_eq_some_iff] at he ⊢
  refine ⟨he.1, ?_⟩
  cases hexp : e.expiresAt with
  | none => simp
  | some x =>
      have := he.2
      simp only [hexp, Option.all_some, decide_eq_true_eq] at this ⊢
      omega

/-- What one call of a request does to Redis. -/
theorem keeps_answer {key : String} {ev : CallEvent} {before : Trace Reply JsError} {w w' : World}
    (may : MayDo key ev before) (answer : w.up uuid pid ev w') : Keeps w.redis w'.redis := by
  obtain ⟨call, r⟩ := ev
  obtain ⟨choice, answer⟩ := answer
  cases call with
  | redis c =>
      simp only [World.answer, Option.some.injEq, Prod.mk.injEq] at answer
      obtain ⟨-, rfl⟩ := answer
      cases c with
      | setNX key' v =>
          simp only [Redis.answer]
          split
          · exact Keeps.refl _
          · next absent => exact keeps_set (by simpa using absent)
      | «exists» key' => exact Keeps.refl _
      | get key' => exact Keeps.refl _
      | _ => exact may.elim
  | uuidv4 =>
      cases answer
      exact Keeps.refl _
  | produce topic k v headers =>
      cases answer
      exact Keeps.refl _
  | _ => exact may.elim

theorem keeps_step {allowed : Requests → Action Reply JsError ValidRequest → Prop}
    (run : (router sha256 uuid).Run allowed init s) (step : (router sha256 uuid).Step s a s')
    (permitted : allowed s a) : Keeps s.shared.redis s'.shared.redis := by
  cases step with
  | start _ => exact Keeps.refl _
  | @turn pid P c next r shared hP hcrashed hrest answer =>
      have after := (follows (.next run (.turn hP hcrashed hrest answer) permitted)
        (Machine.getElem?_advance hP |>.trans (if_pos rfl))).1
      exact keeps_answer after.1 answer
  | crash _ h => exact h.elim
  | settle _ _ _ h => exact h.elim
  | drift h =>
      obtain ⟨t, ht, rfl⟩ := h
      exact keeps_time ht

/-- Among the requests for a key, only one is past a miss, and its entry has come to stay. -/
structure Exclusive (s : Requests) : Prop where
  permanent : ∀ ⦃p : ℕ⦄ ⦃P : Request⦄, s.procs[p]? = some P → Claimed P.job.cacheKey P.trace →
    ∃ v, s.shared.redis.strings P.job.cacheKey = some ⟨v, none⟩
  unexpiring : ∀ ⦃p : ℕ⦄ ⦃P : Request⦄, s.procs[p]? = some P → Missed P.job.cacheKey P.trace →
    ∀ e, s.shared.redis.live P.job.cacheKey = some e → e.expiresAt = none
  alone : ∀ ⦃p q : ℕ⦄ ⦃P Q : Request⦄, s.procs[p]? = some P → s.procs[q]? = some Q →
    P.job.cacheKey = Q.job.cacheKey → Missed P.job.cacheKey P.trace →
    Missed Q.job.cacheKey Q.trace → p = q

@[simp] theorem missed_cons {key : String} {ev : CallEvent} {t : Trace Reply JsError} :
    Missed key (ev :: t) ↔ isMiss key ev = true ∨ Missed key t := by
  simp [Missed]

@[simp] theorem claimed_cons {key : String} {ev : CallEvent} {t : Trace Reply JsError} :
    Claimed key (ev :: t) ↔ isClaim key ev = true ∨ Claimed key t := by
  simp [Claimed]

/-- A key that is missed has no entry. -/
theorem absent_of_isMiss {key : String} {ev : CallEvent} {w w' : World} (miss : isMiss key ev)
    (answer : w.up uuid pid ev w') : w'.redis.live key = none ∧ w' = w := by
  unfold isMiss at miss
  split at miss
  · next key' n =>
      obtain ⟨choice, answer⟩ := answer
      simp only [World.answer, Redis.answer, Option.some.injEq, Prod.mk.injEq,
        Except.ok.injEq] at answer
      obtain ⟨hn, rfl⟩ := answer
      simp only [Bool.and_eq_true, beq_iff_eq, bne_iff_ne] at miss
      obtain ⟨rfl, hmiss⟩ := miss
      refine ⟨?_, rfl⟩
      by_contra hlive
      exact hmiss (by simp [← hn, Option.isSome_iff_ne_none.mpr hlive])
  · cases miss

/-- A `SETNX` leaves an entry without expiry, unless it finds one with an expiry. -/
theorem stored_of_isClaim {key : String} {ev : CallEvent} {w w' : World} (claim : isClaim key ev)
    (answer : w.up uuid pid ev w')
    (unexpiring : ∀ e, w.redis.live key = some e → e.expiresAt = none) :
    ∃ v, w'.redis.strings key = some ⟨v, none⟩ := by
  unfold isClaim at claim
  split at claim
  · next key' v r =>
      obtain rfl : key' = key := by simpa using claim
      obtain ⟨choice, answer⟩ := answer
      simp only [World.answer, Redis.answer, Option.some.injEq, Prod.mk.injEq] at answer
      obtain ⟨-, rfl⟩ := answer
      split
      · next present =>
          obtain ⟨e, he⟩ := Option.isSome_iff_exists.mp present
          have hexp := unexpiring e he
          obtain ⟨value, expiresAt⟩ := e
          cases hexp
          exact ⟨value, (Option.filter_eq_some_iff.mp he).1⟩
      · exact ⟨v, by simp [Redis.set]⟩
  · cases claim

theorem isMiss_call {key : String} {ev : CallEvent} (miss : isMiss key ev) :
    ∃ r, ev = ⟨.redis (.exists key), r⟩ := by
  unfold isMiss at miss
  split at miss
  · next key' n =>
      simp only [Bool.and_eq_true, beq_iff_eq] at miss
      exact ⟨_, by rw [miss.1]⟩
  · cases miss

/-- Nobody misses a key after another request did. -/
theorem Exclusive.not_isMiss (h : Exclusive s) {p q : ℕ} {P Q : Request} {ev : CallEvent}
    {w' : World}
    (hP : s.procs[p]? = some P) (hkey : P.job.cacheKey = Q.job.cacheKey)
    (missed : Missed P.job.cacheKey P.trace) (permitted : undisturbed s (.turn q ev) = true)
    (answer : s.shared.up uuid q ev w') : ¬ isMiss Q.job.cacheKey ev = true := by
  intro miss
  obtain ⟨absent, rfl⟩ := absent_of_isMiss miss answer
  obtain ⟨r, rfl⟩ := isMiss_call miss
  have hclaim := List.all_eq_true.mp permitted P (List.mem_of_getElem? hP)
  rw [← hkey] at hclaim
  have hclaimed : Claimed P.job.cacheKey P.trace := by
    simpa [Claimed, show P.trace.any (isMiss P.job.cacheKey) = true from missed] using hclaim
  obtain ⟨v, hv⟩ := h.permanent hP hclaimed
  rw [← hkey] at absent
  simp [Redis.live, hv] at absent

theorem Exclusive.step (h : Exclusive s)
    (run : (router sha256 uuid).Run (fun s a => undisturbed s a = true) init s)
    (step : (router sha256 uuid).Step s a s') (permitted : undisturbed s a = true) :
    Exclusive s' := by
  have keeps := keeps_step run step permitted
  refine ⟨fun p P' hP' claimed => ?_, fun p P' hP' missed => ?_,
    fun p q P' Q' hP' hQ' hkey missed missed' => ?_⟩
  · obtain hnil | ⟨P, hP, hjob, hold | ⟨ev, rfl, answer, hcons⟩⟩ := step.trace_cases hP'
    · simp [Claimed, hnil] at claimed
    · rw [hold] at claimed
      rw [← hjob] at claimed ⊢
      obtain ⟨v, hv⟩ := h.permanent hP claimed
      exact ⟨v, (keeps _).1 v hv⟩
    · rw [hcons, claimed_cons] at claimed
      rw [← hjob] at claimed ⊢
      cases claimed with
      | inl claim =>
          -- the `SETNX` comes after this request's own miss
          have may := (follows (.next run step permitted) hP').1
          rw [hcons, always_cons, ← hjob] at may
          refine stored_of_isClaim claim answer (h.unexpiring hP ?_)
          unfold isClaim at claim
          split at claim
          · exact may.1.2
          · cases claim
      | inr claimed =>
          obtain ⟨v, hv⟩ := h.permanent hP claimed
          exact ⟨v, (keeps _).1 v hv⟩
  · obtain hnil | ⟨P, hP, hjob, hold | ⟨ev, rfl, answer, hcons⟩⟩ := step.trace_cases hP'
    · simp [Missed, hnil] at missed
    · rw [hold] at missed
      rw [← hjob] at missed ⊢
      intro e he
      exact ((keeps _).2 e he).elim id (h.unexpiring hP missed e)
    · rw [hcons, missed_cons] at missed
      rw [← hjob] at missed ⊢
      intro e he
      cases missed with
      | inl miss => simp [(absent_of_isMiss miss answer).1] at he
      | inr missed => exact ((keeps _).2 e he).elim id (h.unexpiring hP missed e)
  · obtain hnil | ⟨P, hP, hjob, hold | ⟨ev, rfl, answer, hcons⟩⟩ := step.trace_cases hP'
    · simp [Missed, hnil] at missed
    · rw [hold, ← hjob] at missed
      obtain hnil | ⟨Q, hQ, hjob', hold' | ⟨ev, rfl, answer, hcons⟩⟩ := step.trace_cases hQ'
      · simp [Missed, hnil] at missed'
      · rw [hold', ← hjob'] at missed'
        exact h.alone hP hQ (by rw [hjob, hjob', hkey]) missed missed'
      · rw [hcons, missed_cons, ← hjob'] at missed'
        have hkey' : P.job.cacheKey = Q.job.cacheKey := by rw [hjob, hjob', hkey]
        exact missed'.elim (fun miss => absurd miss (h.not_isMiss hP hkey' missed permitted answer))
          (h.alone hP hQ hkey' missed)
    · rw [hcons, missed_cons, ← hjob] at missed
      obtain hnil | ⟨Q, hQ, hjob', hold' | ⟨ev', heq, answer', hcons'⟩⟩ := step.trace_cases hQ'
      · simp [Missed, hnil] at missed'
      · rw [hold', ← hjob'] at missed'
        have hkey' : P.job.cacheKey = Q.job.cacheKey := by rw [hjob, hjob', hkey]
        exact missed.elim
          (fun miss => absurd miss (h.not_isMiss hQ hkey'.symm missed' permitted answer))
          fun missed => h.alone hP hQ hkey' missed missed'
      · cases heq
        rfl

theorem exclusive (run : (router sha256 uuid).Run (fun s a => undisturbed s a = true) init s) :
    Exclusive s :=
  run.invariant
    ⟨fun p P h => by simp [Pool.initial] at h, fun p P h => by simp [Pool.initial] at h,
      fun p q P Q h => by simp [Pool.initial] at h⟩
    fun _ _ _ before h step permitted => h.step before step permitted

theorem missed_of_claimed {key : String} {t : Trace Reply JsError} (may : Always (MayDo key) t)
    (claimed : Claimed key t) : Missed key t := by
  induction t with
  | nil => simp [Claimed] at claimed
  | cons ev t ih =>
      rw [claimed_cons] at claimed
      refine missed_cons.mpr (.inr ?_)
      cases claimed with
      | inl claim =>
          have hev := may.1
          unfold isClaim at claim
          split at claim
          · exact hev.2
          · cases claim
      | inr claimed => exact ih may.2 claimed

theorem missed_of_published {key : String} {t : Trace Reply JsError} (may : Always (MayDo key) t)
    (published : Published t) : Missed key t := by
  induction t with
  | nil => simp [Published] at published
  | cons ev t ih =>
      refine missed_cons.mpr (.inr ?_)
      rcases (by simpa [Published] using published : isPublish ev = true ∨ Published t) with
        publish | published
      · have hev := may.1
        unfold isPublish at publish
        split at publish
        · exact missed_of_claimed may.2 (hev publish)
        · cases publish
      · exact ih may.2 published

/-- A pair is accepted once in every run in which nobody looks at a key while another
request is between its miss and its `SETNX`. -/
theorem accepts_once (run : (router sha256 uuid).Run (fun s a => undisturbed s a = true) init s) :
    AcceptsOnce s := by
  refine ⟨fun p q P Q hP hQ hpair published published' => ?_, fun p P o hP => (follows run hP).2 o⟩
  have hkey : P.job.cacheKey = Q.job.cacheKey := by
    obtain ⟨htenant, hkey⟩ := Prod.mk.inj hpair
    simp only [TextRequest.cacheKey, htenant, hkey]
  exact (exclusive run).alone hP hQ hkey (missed_of_published (follows run hP).1 published)
    (missed_of_published (follows run hQ).1 published')

end Runs

/-! ## Two requests for one pair -/

section Race

/-- The order of `orderShipped`, which is valid. -/
def shipped : ValidRequest := ⟨orderShipped, rfl⟩

/-- Two requests for `shipped`, in an order given by whose turns come when. -/
def schedule (permit : Requests → Action Reply JsError ValidRequest → Bool)
    (order : List (ℕ × ℕ)) : Requests :=
  (router id toString).staged permit
    (fun pid c w => w.answer toString pid { outcome := .ok ⟨true, none⟩ } c) {} [shipped, shipped]
    order

theorem run_schedule {permit : Requests → Action Reply JsError ValidRequest → Bool}
    (starting : ∀ s r, permit s (.start r) = true) (order : List (ℕ × ℕ)) :
    (router id toString).Run (fun s a => permit s a = true) {} (schedule permit order) :=
  .staged (fun _ _ _ _ _ => World.up_of_answer) (fun _ _ => trivial) starting _ _

/-- Both requests look for the key before one of them sets it. -/
def raced : Requests := schedule (fun _ _ => true) [(0, 3), (1, 3), (0, 9), (1, 9)]

theorem accepts_once_fails :
    ¬ ∀ s, (router id toString).Run (fun _ _ => True) {} s → AcceptsOnce s := by
  intro acceptsOnce
  have h := acceptsOnce raced ((run_schedule (fun _ _ => rfl) _).mono fun _ _ _ => trivial)
  have hlen : raced.procs.length = 2 := rfl
  have := h.once (List.getElem?_eq_getElem (i := 0) (by omega))
    (List.getElem?_eq_getElem (i := 1) (by omega)) rfl rfl rfl
  omega

/-- One after the other. -/
theorem accepts_once_shipped :
    AcceptsOnce (schedule undisturbed [(0, 9), (1, 9)]) ∧
    (schedule undisturbed [(0, 9), (1, 9)]).procs.map (fun P => P.trace.any isPublish) =
      [true, false] :=
  ⟨accepts_once (run_schedule (fun _ _ => rfl) [(0, 9), (1, 9)]), rfl⟩

end Race

end Ingress

end Notification
