import Notification.Interaction.Series
import Notification.Router.AcceptMessageUseCase

/-!
# What the other ingress loses

The use case sets the marker of a dedup key before it saves and publishes, and takes a failure of
Redis for a duplicate. So a reply `DUPLICATE` is right only as long as Redis answers, and no
request comes while the marker of a call that has thrown is alive.
-/

namespace Notification

open Interaction Program

namespace LosesNothing

open AcceptMessageUseCase RedisDeduplicationService

abbrev IngressTurn :=
  Turn IngressCall.Reply JsError IngressWorld fun _ : CreateMessageRequest => MessageResponse

variable (sha256 : String → String)

def dedupKeyOf (request : CreateMessageRequest) : Except JsError String :=
  HashService.generateDedupKey sha256 request.body request.userId request.recipient request.tenantId

def onRedis : IngressEvent → Bool
  | ⟨.exists _, _⟩ => true
  | ⟨.set _ _ _, _⟩ => true
  | _ => false

def redisEvents (t : Trace IngressCall.Reply JsError) : List IngressEvent := t.filter onRedis

/-- A marker has been found. -/
def finds : IngressEvent → Bool
  | ⟨.exists _, .ok n⟩ => n != 0
  | _ => false

/-- When the marker of a dedup key expires, if there is one. -/
def expiry (dedupKey : String) (w : IngressWorld) : Option Int :=
  (w.redis.strings (markerKey dedupKey)).bind RedisEntry.expiresAt

/-- The call has set the marker of a dedup key, whether it knows or not. -/
def Marks (dedupKey : String) (x : IngressTurn) : Prop :=
  expiry dedupKey x.after ≠ expiry dedupKey x.before

instance (dedupKey : String) (x : IngressTurn) : Decidable (Marks dedupKey x) :=
  inferInstanceAs (Decidable (_ ≠ _))

/-- The last call that has set the marker of a dedup key. -/
def lastMark (dedupKey : String) (xs : List IngressTurn) : Option IngressTurn :=
  Series.latest (Marks dedupKey) xs

def Throws (x : IngressTurn) : Prop := ∃ e, x.outcome = .error e

def IsDuplicate (outcome : Except JsError MessageResponse) : Prop :=
  ∃ response, outcome = .ok response ∧ response.status = .duplicate

/-- The call has saved a message and published its event, whether it knows or not. -/
def SavedAndPublished (x : IngressTurn) : Prop :=
  ∃ message ∈ x.after.messages.drop x.before.messages.length,
    ∃ record ∈ x.after.log.drop x.before.log.length, record.value = message.toJson

/-- An earlier call with the same dedup key has saved its message and published its event. -/
def StoredBefore (xs : List IngressTurn) (request : CreateMessageRequest) : Prop :=
  ∃ dedupKey, dedupKeyOf sha256 request = .ok dedupKey ∧ ∃ y ∈ xs,
    dedupKeyOf sha256 y.job = .ok dedupKey ∧ SavedAndPublished y

/-- `x` has found the marker that `y` has set. -/
def BecauseOf (dedupKey : String) (xs : List IngressTurn) (y x : IngressTurn) : Prop :=
  lastMark dedupKey xs = some y ∧ (redisEvents x.trace).any finds = true

/-- A duplicate has been stored before, and no call that has thrown is the reason for it. -/
structure NothingLost (xs : List IngressTurn) (x : IngressTurn) : Prop where
  stored : IsDuplicate x.outcome → StoredBefore sha256 xs x.job
  blameless : IsDuplicate x.outcome → ∀ dedupKey y, dedupKeyOf sha256 x.job = .ok dedupKey →
    Throws y → ¬ BecauseOf dedupKey xs y x

/-- Calls of `execute` one after another, without markers in the beginning, in a world in which
every call may throw, whether it has had its effect or not. -/
def executions (uuid : ℕ → String) :
    Series IngressCall.Reply JsError IngressWorld
      fun _ : CreateMessageRequest => MessageResponse where
  program := execute sha256
  env := IngressWorld.lossy uuid
  starts w := ∀ key, w.redis.strings key = none
  drifts := IngressWorld.later
  admits _ _ _ := True
  permits _ _ _ _ _ _ := True

/-- It is an hour or more since the last call with the dedup key set its marker, if that call has
thrown. -/
def MarkerGone (xs : List IngressTurn) (request : CreateMessageRequest) (w : IngressWorld) : Prop :=
  ∀ dedupKey y, dedupKeyOf sha256 request = .ok dedupKey → lastMark dedupKey xs = some y →
    Throws y → y.before.redis.time + 3600 ≤ w.redis.time

/-- Redis is asked when the marker of a call that has thrown is gone, and fails only for requests
that have been stored before. -/
def Harmless (xs : List IngressTurn) (x : IngressTurn) : IngressEvent → Prop
  | ⟨.exists _, .ok _⟩ => MarkerGone sha256 xs x.job x.before
  | ⟨.exists _, .error _⟩ => StoredBefore sha256 xs x.job
  | ⟨.set _ _ _, .error _⟩ => StoredBefore sha256 xs x.job
  | _ => True

def AllHarmless (xs : List IngressTurn) (x : IngressTurn) : Prop :=
  ∀ ev ∈ x.trace, Harmless sha256 xs x ev

/-! ## What one call does -/

/-- The ways a check goes: whether it takes the key for new, and the events. -/
inductive Checked (r : Redis) (key : String) : Bool → Redis → List IngressEvent → Prop
  | found : (r.live key).isSome = true → Checked r key false r [⟨.exists key, .ok (1 : ℕ)⟩]
  | unanswered {e} : Checked r key false r [⟨.exists key, .error e⟩]
  | unset {value seconds e} : ¬ (r.live key).isSome = true →
      Checked r key false r [⟨.set key value seconds, .error e⟩, ⟨.exists key, .ok (0 : ℕ)⟩]
  | unaware {value seconds e} : ¬ (r.live key).isSome = true →
      Checked r key false (r.set key (.number 1) (some (r.time + 3600)))
        [⟨.set key value seconds, .error e⟩, ⟨.exists key, .ok (0 : ℕ)⟩]
  | marked {seconds} : ¬ (r.live key).isSome = true →
      Checked r key true (r.set key (.number 1) (some (r.time + 3600)))
        [⟨.set key (.number 1) seconds, .ok ()⟩, ⟨.exists key, .ok (0 : ℕ)⟩]

/-- A call does not come to its check, is a duplicate by it, or goes on to store its message. -/
inductive Effect (w : IngressWorld) (request : CreateMessageRequest)
    (o : Except JsError MessageResponse) (w' : IngressWorld)
    (t : Trace IngressCall.Reply JsError) : Prop
  | unchecked : w'.redis = w.redis → redisEvents t = [] → ¬ IsDuplicate o → Effect w request o w' t
  | duplicate (dedupKey redis events) : dedupKeyOf sha256 request = .ok dedupKey →
      Checked w.redis (markerKey dedupKey) false redis events → w'.redis = redis →
      redisEvents t = events → IsDuplicate o → Effect w request o w' t
  | accepted (dedupKey redis events) : dedupKeyOf sha256 request = .ok dedupKey →
      Checked w.redis (markerKey dedupKey) true redis events → w'.redis = redis →
      redisEvents t = events → ¬ IsDuplicate o →
      (∀ response, o = .ok response → SavedAndPublished ⟨request, w, o, w', t⟩) →
      Effect w request o w' t

section Calls

variable {sha256} {uuid : ℕ → String} {w w' : IngressWorld} {t : Trace IngressCall.Reply JsError}

/-- The environment of one call. -/
abbrev env (uuid : ℕ → String) :
    Env IngressCall.Reply JsError (IngressWorld × Trace IngressCall.Reply JsError) :=
  traced (IngressWorld.lossy uuid) fun _ _ _ => True

/-- Only calls of Redis change it. -/
theorem redis_of_lossy {c : IngressCall} {r : Except JsError c.Reply}
    (h : w.lossy uuid ⟨c, r⟩ w') (other : onRedis ⟨c, r⟩ = false) : w'.redis = w.redis := by
  obtain rfl | ⟨partition, rfl⟩ := IngressWorld.effect_of_lossy h
  · rfl
  · cases c with
    | set key value seconds => cases other
    | _ => rfl

theorem not_isDuplicate_error {e : JsError} : ¬ IsDuplicate (.error e) := by
  rintro ⟨response, h, -⟩
  cases h

/-- What a call outside of Redis leaves as it is. -/
theorem wp_aside {c : IngressCall} (aside : ∀ r, onRedis ⟨c, r⟩ = false)
    {Q : Except JsError c.Reply → IngressWorld × Trace IngressCall.Reply JsError → Prop}
    (next : ∀ r w', w.lossy uuid ⟨c, r⟩ w' → w'.redis = w.redis →
      redisEvents (⟨c, r⟩ :: t) = redisEvents t → Q r (w', ⟨c, r⟩ :: t)) :
    (perform c : IngressProg c.Reply).wp (env uuid) (fun _ => True) Q (w, t) := by
  refine wp_perform_traced.mpr fun r w' answer _ => ⟨trivial, ?_⟩
  apply next r w' answer (redis_of_lossy answer (aside r))
  rw [redisEvents, List.filter_cons_of_neg (by simp [aside r]), redisEvents]

/-- What is known when a new message has been dealt with, or not. -/
structure Dealt (w : IngressWorld) (t : Trace IngressCall.Reply JsError)
    (o : Except JsError MessageResponse) (s : IngressWorld × Trace IngressCall.Reply JsError) :
    Prop where
  redis : s.1.redis = w.redis
  events : redisEvents s.2 = redisEvents t
  fresh : ¬ IsDuplicate o
  stored : ∀ response, o = .ok response → ∃ message record, record.value = message.toJson ∧
    w.messages ++ [message] <+: s.1.messages ∧ w.log ++ [record] <+: s.1.log

theorem Dealt.thrown {s : IngressWorld × Trace IngressCall.Reply JsError} {e : JsError}
    (redis : s.1.redis = w.redis) (events : redisEvents s.2 = redisEvents t) :
    Dealt w t (.error e) s :=
  ⟨redis, events, not_isDuplicate_error, fun _ h => by cases h⟩

theorem mem_drop_of_prefix {β : Type} {a : β} {l l₁ l₂ : List β} (h : l <+: l₁)
    (h' : l₁ ++ [a] <+: l₂) : a ∈ l₂.drop l.length := by
  obtain ⟨more, rfl⟩ := h
  obtain ⟨others, rfl⟩ := h'
  simp

theorem Dealt.savedAndPublished {w₀ : IngressWorld} {o : Except JsError MessageResponse}
    {s : IngressWorld × Trace IngressCall.Reply JsError} {request : CreateMessageRequest}
    {response : MessageResponse} (dealt : Dealt w t o s) (grows : w₀.Grows w)
    (h : o = .ok response) : SavedAndPublished ⟨request, w₀, o, s.1, s.2⟩ := by
  obtain ⟨message, record, hvalue, saved, published⟩ := dealt.stored response h
  exact ⟨message, mem_drop_of_prefix grows.messages saved, record,
    mem_drop_of_prefix grows.log published, hvalue⟩

theorem wp_accept {request : CreateMessageRequest} {traceId messageId dedupKey : String} :
    (accept request traceId messageId dedupKey).wp (env uuid) (fun _ => True)
      (Dealt w t) (w, t) := by
  rw [accept, wp_bind]
  apply wp_aside (fun _ => rfl)
  intro saved w₁ answer hredis hevents
  cases saved with
  | error e => exact .thrown hredis hevents
  | ok _ =>
      obtain ⟨_, stored⟩ := IngressWorld.answer_of_ok answer
      obtain rfl := congrArg Prod.snd stored
      rw [either_ok, wp_bind, KafkaMessagePublisher.publishMessageEvent, wp_bind, wp_done]
      cases Json.templateText (newMessage request traceId messageId dedupKey).channel with
      | error e => exact .thrown hredis hevents
      | ok channel =>
          apply wp_aside (fun _ => rfl)
          intro published w₂ answer₂ hredis₂ hevents₂
          replace hredis := hredis₂.trans hredis
          replace hevents := hevents₂.trans hevents
          cases published with
          | error e => exact .thrown hredis hevents
          | ok _ =>
              obtain ⟨partition, logged⟩ := IngressWorld.answer_of_ok answer₂
              obtain rfl := congrArg Prod.snd logged
              rw [either_ok, wp_bind]
              apply wp_aside (fun _ => rfl)
              intro spanId w₃ answer₃ hredis₃ hevents₃
              replace hredis := hredis₃.trans hredis
              replace hevents := hevents₃.trans hevents
              cases spanId with
              | error e => exact .thrown hredis hevents
              | ok spanId =>
                  rw [either_ok, wp_bind, KafkaMessagePublisher.publishLog]
                  apply wp_aside (fun _ => rfl)
                  intro logged w₄ answer₄ hredis₄ hevents₄
                  replace hredis := hredis₄.trans hredis
                  replace hevents := hevents₄.trans hevents
                  cases logged with
                  | error e => exact .thrown hredis hevents
                  | ok _ =>
                      refine ⟨hredis, hevents, ?_, fun _ _ => ?_⟩
                      · rintro ⟨response, h, duplicate⟩
                        cases h
                        cases duplicate
                      · have grows := (IngressWorld.grows_of_lossy answer₃).trans
                          (IngressWorld.grows_of_lossy answer₄)
                        exact ⟨newMessage request traceId messageId dedupKey, _, rfl,
                          grows.messages, grows.log⟩

/-- The key is looked up and, if it is new, set. -/
theorem wp_checkDuplicate {dedupKey : String} :
    (checkDuplicate dedupKey).wp (env uuid) (fun _ => True)
      (either (fun isNew s => ∃ events,
        Checked w.redis (markerKey dedupKey) isNew s.1.redis events ∧ w.Grows s.1 ∧
        redisEvents s.2 = events ++ redisEvents t) fun _ _ => False) (w, t) := by
  rw [checkDuplicate, wp_tryCatch, wp_bind]
  refine wp_perform_traced.mpr fun found w₁ answer _ => ⟨trivial, ?_⟩
  have same : w₁ = w := by
    obtain h | ⟨_, h⟩ := IngressWorld.effect_of_lossy answer <;> exact h
  subst same
  cases found with
  | error e => exact ⟨_, .unanswered, .refl w₁, rfl⟩
  | ok n =>
      obtain ⟨_, found⟩ := IngressWorld.answer_of_ok answer
      obtain rfl := Except.ok.inj (congrArg Prod.fst found)
      by_cases live : (w₁.redis.live (markerKey dedupKey)).isSome = true
      · rw [if_pos live, either_ok, if_pos Nat.one_ne_zero]
        exact ⟨_, .found live, .refl w₁, rfl⟩
      · rw [if_neg live, either_ok, if_neg (not_not.mpr rfl), wp_bind]
        refine wp_perform_traced.mpr fun set w₂ answer _ => ⟨trivial, ?_⟩
        have grows := IngressWorld.grows_of_lossy answer
        cases set with
        | error e =>
            obtain rfl | ⟨_, rfl⟩ := IngressWorld.effect_of_lossy answer
            · exact ⟨_, .unset live, grows, rfl⟩
            · exact ⟨_, .unaware live, grows, rfl⟩
        | ok _ =>
            obtain ⟨_, answered⟩ := IngressWorld.answer_of_ok answer
            obtain rfl := congrArg Prod.snd answered
            exact ⟨_, .marked live, grows, rfl⟩

theorem wp_execute (request : CreateMessageRequest) :
    (execute sha256 request).wp (env uuid) (fun _ => True)
      (fun o s => Effect sha256 w request o s.1 s.2) (w, []) := by
  rw [execute, wp_bind, wp_done]
  cases validateRequest request with
  | error e => exact .unchecked rfl rfl not_isDuplicate_error
  | ok _ =>
      rw [either_ok, wp_bind]
      apply wp_aside (fun _ => rfl)
      intro traceId w₁ answer hredis hevents
      have grows := IngressWorld.grows_of_lossy answer
      cases traceId with
      | error e => exact .unchecked hredis hevents not_isDuplicate_error
      | ok traceId =>
          rw [either_ok, wp_bind]
          apply wp_aside (fun _ => rfl)
          intro messageId w₂ answer₂ hredis₂ hevents₂
          replace grows := grows.trans (IngressWorld.grows_of_lossy answer₂)
          replace hredis := hredis₂.trans hredis
          replace hevents := hevents₂.trans hevents
          cases messageId with
          | error e => exact .unchecked hredis hevents not_isDuplicate_error
          | ok messageId =>
              rw [either_ok, wp_bind, wp_done]
              cases hkey : dedupKeyOf sha256 request with
              | error e =>
                  rw [← dedupKeyOf, hkey]
                  exact .unchecked hredis hevents not_isDuplicate_error
              | ok dedupKey =>
                  rw [← dedupKeyOf, hkey, either_ok, wp_bind]
                  apply mono_post wp_checkDuplicate
                  intro o s checked
                  cases o with
                  | error e => exact checked.elim
                  | ok isNew =>
                      obtain ⟨events, checked, grows', hall⟩ := checked
                      replace grows := grows.trans grows'
                      rw [hevents] at hall
                      replace hall := hall.trans (List.append_nil events)
                      rw [hredis] at checked
                      cases isNew with
                      | false => exact .duplicate _ _ _ hkey checked rfl hall ⟨_, rfl, rfl⟩
                      | true =>
                          apply mono_post wp_accept
                          intro o s' dealt
                          exact .accepted _ _ _ hkey checked dealt.redis (dealt.events.trans hall)
                            dealt.fresh fun response h => dealt.savedAndPublished grows h

end Calls

/-! ## Runs -/

variable {sha256} {uuid : ℕ → String} {xs : List IngressTurn} {x : IngressTurn} {w : IngressWorld}

/-- The markers are those of the last calls. Who sets one stores its message, throws or does not
know. -/
structure Accounted (sha256 : String → String) (xs : List IngressTurn)
    (w : IngressWorld) : Prop where
  markers : ∀ dedupKey, w.redis.strings (markerKey dedupKey) =
    (lastMark dedupKey xs).map fun y => ⟨.number 1, some (y.before.redis.time + 3600)⟩
  stored : ∀ y ∈ xs, ∀ dedupKey, Marks dedupKey y → dedupKeyOf sha256 y.job = .ok dedupKey ∧
    (¬ Throws y → SavedAndPublished y ∨ IsDuplicate y.outcome)

/-- A call that does not set a marker keeps the account. -/
theorem Accounted.unmarked (h : Accounted sha256 xs x.before)
    (redis : x.after.redis = x.before.redis) : Accounted sha256 (xs ++ [x]) x.after := by
  have unmarked (dedupKey : String) : ¬ Marks dedupKey x := by
    rw [Marks, expiry, expiry, redis, not_not]
  constructor
  · intro dedupKey
    rw [redis, lastMark, Series.latest_snoc, if_neg (unmarked dedupKey)]
    exact h.markers dedupKey
  · intro y hy dedupKey marked
    cases List.mem_append.mp hy with
    | inl hy => exact h.stored y hy dedupKey marked
    | inr hy =>
        rw [List.mem_singleton.mp hy] at marked
        exact absurd marked (unmarked dedupKey)

/-- A call that sets its marker, since there is none that is alive. -/
theorem Accounted.marked (h : Accounted sha256 xs x.before) {dedupKey : String}
    (hkey : dedupKeyOf sha256 x.job = .ok dedupKey)
    (missing : ¬ (x.before.redis.live (markerKey dedupKey)).isSome = true)
    (redis : x.after.redis = x.before.redis.set (markerKey dedupKey) (.number 1)
      (some (x.before.redis.time + 3600)))
    (stored : ¬ Throws x → SavedAndPublished x ∨ IsDuplicate x.outcome) :
    Accounted sha256 (xs ++ [x]) x.after := by
  have other {dedupKey' : String} (hne : dedupKey' ≠ dedupKey) :
      x.after.redis.strings (markerKey dedupKey') =
        x.before.redis.strings (markerKey dedupKey') := by
    rw [redis]
    refine Function.update_of_ne ?_ _ _
    simpa [markerKey] using hne
  have marked_iff (dedupKey' : String) : Marks dedupKey' x ↔ dedupKey' = dedupKey := by
    by_cases own : dedupKey' = dedupKey
    · subst own
      refine iff_of_true (fun same => missing ?_) rfl
      -- a marker that expires in an hour is alive
      have after : expiry dedupKey' x.after = some (x.before.redis.time + 3600) := by
        simp [expiry, redis, Redis.set]
      rw [after, expiry, eq_comm, Option.bind_eq_some_iff] at same
      obtain ⟨entry, hentry, hexpires⟩ := same
      simp [Redis.live, hentry, hexpires, Option.filter]
    · exact iff_of_false (by rw [Marks, expiry, expiry, other own, not_not]) own
  constructor
  · intro dedupKey'
    rw [lastMark, Series.latest_snoc]
    by_cases own : dedupKey' = dedupKey
    · subst own
      rw [if_pos ((marked_iff dedupKey').mpr rfl), redis]
      simp [Redis.set]
    · rw [if_neg (mt (marked_iff dedupKey').mp own), other own]
      exact h.markers dedupKey'
  · intro y hy dedupKey' marked
    cases List.mem_append.mp hy with
    | inl hy => exact h.stored y hy dedupKey' marked
    | inr hy =>
        obtain rfl := List.mem_singleton.mp hy
        obtain rfl := (marked_iff dedupKey').mp marked
        exact ⟨hkey, stored⟩

theorem Accounted.step (h : Accounted sha256 xs x.before)
    (effect : Effect sha256 x.before x.job x.outcome x.after x.trace) :
    Accounted sha256 (xs ++ [x]) x.after := by
  cases effect with
  | unchecked redis _ _ => exact h.unmarked redis
  | duplicate dedupKey _ _ hkey checked redis _ duplicate =>
      cases checked with
      | unaware missing => exact h.marked hkey missing redis fun _ => .inr duplicate
      | _ => exact h.unmarked redis
  | accepted dedupKey _ _ hkey checked redis _ _ stored =>
      cases checked with
      | marked missing =>
          refine h.marked hkey missing redis fun returned => .inl ?_
          cases houtcome : x.outcome with
          | error e => exact absurd ⟨e, houtcome⟩ returned
          | ok response => exact stored response houtcome

theorem accounted (run : (executions sha256 uuid).Runs xs w) : Accounted sha256 xs w := by
  refine run.invariant ?_ ?_ ?_
  · exact fun w empty => ⟨fun dedupKey => empty (markerKey dedupKey),
      fun y hy => absurd hy List.not_mem_nil⟩
  · rintro xs w w' ⟨time, -, rfl⟩ h
    exact ⟨h.markers, h.stored⟩
  · exact fun xs request w _ _ h => mono_post (wp_execute request) fun o s effect =>
      Accounted.step (x := ⟨request, w, o, s.1, s.2⟩) h effect

/-- A marker is found for an hour after it has been set. -/
theorem Accounted.live_iff (h : Accounted sha256 xs w) (dedupKey : String) :
    (w.redis.live (markerKey dedupKey)).isSome = true ↔
      ∃ y, lastMark dedupKey xs = some y ∧ w.redis.time < y.before.redis.time + 3600 := by
  rw [Redis.live, h.markers dedupKey]
  cases lastMark dedupKey xs <;> simp [Option.filter]

theorem Accounted.markerGone (h : Accounted sha256 xs w) {request : CreateMessageRequest}
    {dedupKey : String} (hkey : dedupKeyOf sha256 request = .ok dedupKey)
    (missing : ¬ (w.redis.live (markerKey dedupKey)).isSome = true) :
    MarkerGone sha256 xs request w := by
  intro dedupKey' y hkey' hlast _
  obtain rfl := Except.ok.inj (hkey.symm.trans hkey')
  by_contra early
  exact missing ((h.live_iff dedupKey).mpr ⟨y, hlast, Int.not_le.mp early⟩)

/-- Only the answers of Redis can do harm. -/
theorem allHarmless_iff :
    AllHarmless sha256 xs x ↔ ∀ ev ∈ redisEvents x.trace, Harmless sha256 xs x ev := by
  refine ⟨fun h ev hev => h ev (List.mem_of_mem_filter hev), fun h ev hev => ?_⟩
  by_cases redis : onRedis ev = true
  · exact h ev (List.mem_filter.mpr ⟨hev, redis⟩)
  · obtain ⟨call, r⟩ := ev
    cases call with
    | «exists» | set => exact absurd rfl redis
    | _ => trivial

theorem nothingLost_of_fresh (fresh : ¬ IsDuplicate x.outcome) : NothingLost sha256 xs x :=
  ⟨fun duplicate => absurd duplicate fresh, fun duplicate => absurd duplicate fresh⟩

/-- Redis has answered with an error, so no marker is to blame. -/
theorem nothingLost_of_unfound (stored : StoredBefore sha256 xs x.job)
    (unfound : (redisEvents x.trace).any finds = false) : NothingLost sha256 xs x := by
  refine ⟨fun _ => stored, fun _ dedupKey y _ _ because => ?_⟩
  rw [because.2] at unfound
  cases unfound

theorem nothingLost_of_found (h : Accounted sha256 xs x.before)
    (nothingLost : Series.Throughout (NothingLost sha256) xs) {dedupKey : String}
    (hkey : dedupKeyOf sha256 x.job = .ok dedupKey)
    (live : (x.before.redis.live (markerKey dedupKey)).isSome = true)
    (gone : MarkerGone sha256 xs x.job x.before) : NothingLost sha256 xs x := by
  obtain ⟨y, hlast, early⟩ := (h.live_iff dedupKey).mp live
  have returned : ¬ Throws y := fun throws =>
    Int.not_le.mpr early (gone dedupKey y hkey hlast throws)
  obtain ⟨hmem, marked⟩ := Series.mem_of_latest hlast
  obtain ⟨hkey', stored⟩ := h.stored y hmem dedupKey marked
  have storedBefore : StoredBefore sha256 xs x.job := by
    obtain stored | duplicate := stored returned
    · exact ⟨dedupKey, hkey, y, hmem, hkey', stored⟩
    · -- a duplicate that has set the marker without knowing has been stored before itself
      obtain ⟨ys, zs, rfl⟩ := List.append_of_mem hmem
      obtain ⟨dedupKey', hkey'', z, hz, stored⟩ :=
        (nothingLost ys y zs rfl).stored duplicate
      obtain rfl := Except.ok.inj (hkey'.symm.trans hkey'')
      exact ⟨dedupKey, hkey, z, List.mem_append_left _ hz, stored⟩
  refine ⟨fun _ => storedBefore, ?_⟩
  rintro - dedupKey' y' hkey' throws ⟨hlast', -⟩
  obtain rfl := Except.ok.inj (hkey.symm.trans hkey')
  obtain rfl := Option.some.inj (hlast.symm.trans hlast')
  exact returned throws

theorem nothingLost_iff_allHarmless (h : Accounted sha256 xs x.before)
    (nothingLost : Series.Throughout (NothingLost sha256) xs)
    (effect : Effect sha256 x.before x.job x.outcome x.after x.trace) :
    NothingLost sha256 xs x ↔ AllHarmless sha256 xs x := by
  rw [allHarmless_iff]
  cases effect with
  | unchecked _ events fresh =>
      rw [events]
      exact iff_of_true (nothingLost_of_fresh fresh) fun ev hev => absurd hev List.not_mem_nil
  | accepted dedupKey _ _ hkey checked _ events fresh _ =>
      cases checked with
      | marked missing =>
          rw [events]
          apply iff_of_true (nothingLost_of_fresh fresh)
          rw [List.forall_mem_cons, List.forall_mem_singleton]
          exact ⟨trivial, h.markerGone hkey missing⟩
  | duplicate dedupKey _ _ hkey checked _ events duplicate =>
      cases checked with
      | found live =>
          have found : (redisEvents x.trace).any finds = true := by rw [events]; rfl
          rw [events, List.forall_mem_singleton]
          refine ⟨fun rightly => ?_, nothingLost_of_found h nothingLost hkey live⟩
          intro dedupKey' y hkey' hlast throws
          exact absurd ⟨hlast, found⟩ (rightly.blameless duplicate dedupKey' y hkey' throws)
      | unanswered =>
          have unfound : (redisEvents x.trace).any finds = false := by rw [events]; rfl
          rw [events, List.forall_mem_singleton]
          exact ⟨fun rightly => rightly.stored duplicate,
            fun stored => nothingLost_of_unfound stored unfound⟩
      | unset missing | unaware missing =>
          have unfound : (redisEvents x.trace).any finds = false := by rw [events]; rfl
          rw [events, List.forall_mem_cons, List.forall_mem_singleton]
          exact ⟨fun rightly => ⟨rightly.stored duplicate, h.markerGone hkey missing⟩,
            fun harmless => nothingLost_of_unfound harmless.1 unfound⟩

/-- Nothing is lost throughout a run if and only if every answer of Redis is harmless. -/
theorem nothing_lost_iff (run : (executions sha256 uuid).Runs xs w) :
    Series.Throughout (NothingLost sha256) xs ↔ Series.Throughout (AllHarmless sha256) xs := by
  apply run.throughout_iff
  intro xs x w run nothingLost
  obtain ⟨before, -, leads⟩ := run.last
  have effect := (wp_execute x.job).outcome leads
  exact nothingLost_iff_allHarmless (accounted before) nothingLost effect

def sampleRequest : CreateMessageRequest :=
  TextRequest.toRequest ⟨"t-1", "u-1", "k-1", "sms", "+100", "hello"⟩

def noRedis : IngressCall → Bool
  | .exists _ | .set _ _ _ => true
  | _ => false

def noDatabase : IngressCall → Bool
  | .save _ => true
  | _ => false

/-- One call of `execute` in a given state, with the calls in `broken` failing. -/
def executed (broken : IngressCall → Bool) (w : IngressWorld) : IngressTurn :=
  let s := (execute (fun text => text) sampleRequest).run
    (recorded (IngressWorld.handler broken toString)) (w, [])
  ⟨sampleRequest, w, s.1, s.2.1, s.2.2⟩

theorem runs_executed {xs : List IngressTurn} {w : IngressWorld}
    (run : (executions (fun text => text) toString).Runs xs w) (broken : IngressCall → Bool) :
    (executions (fun text => text) toString).Runs (xs ++ [executed broken w])
      (executed broken w).after :=
  run.executed (j := sampleRequest) trivial (IngressWorld.lossy_handler broken toString)
    fun _ _ => trivial

/-- The first request of all is a duplicate while Redis is down, and so is a request that is
repeated after its message could not be saved. -/
theorem nothing_lost_fails :
    ¬ (∀ (xs : List IngressTurn) (w : IngressWorld),
        (executions (fun text => text) toString).Runs xs w →
          Series.Throughout (fun ys y => IsDuplicate y.outcome →
            StoredBefore (fun text => text) ys y.job) xs) ∧
      ¬ ∀ (xs : List IngressTurn) (w : IngressWorld),
        (executions (fun text => text) toString).Runs xs w →
          Series.Throughout (fun ys y => IsDuplicate y.outcome → ∀ dedupKey x,
            dedupKeyOf (fun text => text) y.job = .ok dedupKey → Throws x →
              ¬ BecauseOf dedupKey ys x y) xs := by
  have start : (executions (fun text => text) toString).Runs [] {} := .start fun _ => rfl
  constructor
  · intro allStored
    obtain ⟨dedupKey, -, y, hy, -⟩ :=
      allStored _ _ (runs_executed start noRedis) [] _ [] rfl ⟨_, rfl, rfl⟩
    exact List.not_mem_nil hy
  · intro neverBecause
    have repeated := runs_executed (runs_executed start noDatabase) fun _ => false
    exact neverBecause _ _ repeated [_] _ [] rfl ⟨_, rfl, rfl⟩ _ _ rfl ⟨_, rfl⟩ ⟨rfl, rfl⟩

/-- With everything up a repeated request is a duplicate rightly. -/
theorem nothing_lost_repeated :
    Series.Throughout (NothingLost fun text => text)
      [executed (fun _ => false) {},
        executed (fun _ => false) (executed (fun _ => false) {}).after] ∧
    IsDuplicate (executed (fun _ => false) (executed (fun _ => false) {}).after).outcome := by
  have start : (executions (fun text => text) toString).Runs [] {} := .start fun _ => rfl
  have run := runs_executed (runs_executed start fun _ => false) fun _ => false
  refine ⟨(nothing_lost_iff run).mpr fun ys y zs h => ?_, _, rfl, rfl⟩
  have returned : ¬ Throws (executed (fun _ => false) {}) := by
    rintro ⟨e, h⟩
    cases h
  have gone {ys : List IngressTurn} (h : ∀ y ∈ ys, ¬ Throws y) (w : IngressWorld) :
      MarkerGone (fun text => text) ys sampleRequest w := fun _ y _ hlast throws =>
    absurd throws (h y (Series.mem_of_latest hlast).1)
  rw [allHarmless_iff]
  obtain _ | ⟨y₁, _ | ⟨y₂, ys⟩⟩ := ys
  · obtain ⟨rfl, -⟩ := List.cons.inj h
    exact List.forall_mem_cons.mpr ⟨trivial, List.forall_mem_singleton.mpr
      (gone (fun y hy => absurd hy List.not_mem_nil) _)⟩
  · obtain ⟨rfl, htail⟩ := List.cons.inj h
    obtain ⟨rfl, -⟩ := List.cons.inj htail
    exact List.forall_mem_singleton.mpr (gone (List.forall_mem_singleton.mpr returned) _)
  · exact absurd (congrArg List.length h) (by simp)

end LosesNothing

end Notification
