import Notification.Aggregator.DeliveredCache
import Notification.Router.Services

/-!
# The windows of the ingress and the delivery cache

The checks of both services set their key with `setNX` and an expiry that the client ignores;
only warming a key gives it one. A key that has been set by a check stays until it is warmed, so
a check is refused rightly only if such a key is not checked after its window.
-/

namespace Notification

open Interaction Program

namespace CacheWindows

open DeliveredCache (redisUp redisUp_brokenHandler)

/-- An entry of one of the two caches. -/
inductive CacheKey where
  | ingress (tenantId idempotencyKey : Option Json)
  | delivery (dedupKey : String)

/-- The name of the key, unless the template throws. -/
def CacheKey.text : CacheKey → Except JsError String
  | .ingress tenantId idempotencyKey =>
    DeduplicationService.buildIngressCacheKey tenantId idempotencyKey
  | .delivery dedupKey => .ok (DeliveryDeduplicationService.buildDeliveryKey dedupKey)

def CacheKey.window : CacheKey → Int
  | .ingress _ _ => DeduplicationService.INGRESS_TTL_SECONDS
  | .delivery _ => DeliveryDeduplicationService.DELIVERY_CACHE_TTL

inductive CacheOp where
  | check (k : CacheKey)
  | warmIngressCache (tenantId idempotencyKey : Option Json)
      (messageId status channel createdAt : String)
  | setDeliveredCache (dedupKey : String)

namespace CacheOp

abbrev Result : CacheOp → Type
  | .check _ => Bool
  | .warmIngressCache .. => Unit
  | .setDeliveredCache _ => Unit

def program : (op : CacheOp) → Prog op.Result
  | .check (.ingress tenantId idempotencyKey) =>
    DeduplicationService.checkAndCacheIngressRequest tenantId idempotencyKey
  | .check (.delivery dedupKey) => DeliveryDeduplicationService.checkDeliveryDedup dedupKey
  | .warmIngressCache tenantId idempotencyKey messageId status channel createdAt =>
    DeduplicationService.warmIngressCache tenantId idempotencyKey messageId status channel createdAt
  | .setDeliveredCache dedupKey => DeliveryDeduplicationService.setDeliveredCache dedupKey

def key : CacheOp → CacheKey
  | .check k => k
  | .warmIngressCache tenantId idempotencyKey _ _ _ _ => .ingress tenantId idempotencyKey
  | .setDeliveredCache dedupKey => .delivery dedupKey

def isCheck : CacheOp → Bool
  | .check _ => true
  | _ => false

end CacheOp

abbrev CacheTurn := Turn Reply JsError World CacheOp.Result

/-- The key has been set or warmed. -/
def writes (key : String) : CallEvent → Bool
  | ⟨.redis (.setNX key' _), .ok true⟩ => key' == key
  | ⟨.redis (.setEx key' _ _), .ok _⟩ => key' == key
  | _ => false

def Writes (key : String) (x : CacheTurn) : Prop := x.trace.any (writes key) = true

instance (key : String) (x : CacheTurn) : Decidable (Writes key x) :=
  inferInstanceAs (Decidable (_ = true))

/-- The last call that has set or warmed the key. -/
def lastWrite (key : String) (xs : List CacheTurn) : Option CacheTurn :=
  Series.latest (Writes key) xs

/-- Calls of both services one after another, from an empty Redis that is up. -/
def calls (uuid : ℕ → String) (admits : List CacheTurn → CacheOp → World → Prop) :
    Series Reply JsError World CacheOp.Result where
  program := CacheOp.program
  env := redisUp uuid
  starts w := ∀ key, w.redis.strings key = none
  drifts := World.later
  admits := admits
  permits _ _ _ _ _ _ := True

/-- A key that has been set by a check, and not been warmed since, is not checked after its
window. -/
def ChecksInTime (xs : List CacheTurn) : CacheOp → World → Prop
  | .check k, w => ∀ key x, k.text = .ok key → lastWrite key xs = some x → x.job.isCheck = true →
      w.redis.time ≤ x.before.redis.time + k.window
  | _, _ => True

/-- A call for the same key has set or warmed it within the window before. -/
def CachedInWindow (xs : List CacheTurn) (k : CacheKey) (w : World) : Prop :=
  ∃ x ∈ xs, ∃ key, k.text = .ok key ∧ x.job.key.text = .ok key ∧ Writes key x ∧
    x.before.redis.time ≤ w.redis.time ∧ w.redis.time ≤ x.before.redis.time + k.window

theorem text_of_ingress {tenantId idempotencyKey : Option Json} {key : String}
    (h : DeduplicationService.buildIngressCacheKey tenantId idempotencyKey = .ok key) :
    "idem:".toList <+: key.toList := by
  unfold DeduplicationService.buildIngressCacheKey at h
  cases htenant : Json.templateText tenantId with
  | error e =>
      rw [htenant] at h
      cases h
  | ok tenant =>
      cases hkey : Json.templateText idempotencyKey with
      | error e =>
          rw [htenant, hkey] at h
          cases h
      | ok text =>
          rw [htenant, hkey] at h
          cases h
          simp only [String.append_assoc]
          exact ⟨("tenant:" ++ (tenant ++ (":key:" ++ text))).toList, by simp⟩

/-- The name of a key tells which cache it is in. -/
theorem window_of_text {k k' : CacheKey} {key : String} (h : k.text = .ok key)
    (h' : k'.text = .ok key) : k.window = k'.window := by
  have apart {tenantId idempotencyKey dedupKey}
      (hi : (CacheKey.ingress tenantId idempotencyKey).text = .ok key)
      (hd : (CacheKey.delivery dedupKey).text = .ok key) : False := by
    obtain ⟨rest, hrest⟩ := text_of_ingress hi
    have hkey : "delivered:" ++ dedupKey = key := Except.ok.inj hd
    rw [← hkey] at hrest
    simp at hrest
  cases k <;> cases k'
  · rfl
  · exact (apart h h').elim
  · exact (apart h' h).elim
  · rfl

/-! ## What one call does -/

/-- What a call writes, if anything. -/
inductive Effect (w : World) (op : CacheOp) (w' : World) (t : Trace Reply JsError) : Prop
  | kept : w' = w → (∀ key, t.any (writes key) = false) → Effect w op w' t
  | wrote {key : String} {value : Json} {expiresAt : Option Int} : op.key.text = .ok key →
      w' = { w with redis := w.redis.set key value expiresAt } →
      (∀ key', t.any (writes key') = (key == key')) →
      (expiresAt = none ∧ op.isCheck = true) ∨
        expiresAt = some (w.redis.time + op.key.window) → Effect w op w' t

/-- A check has found its key. -/
def Refused : (op : CacheOp) → Except JsError op.Result → Prop
  | .check _, .ok false => True
  | _, _ => False

/-- What is known when a call has ended. -/
def Done (w : World) (op : CacheOp) (o : Except JsError op.Result)
    (s : World × Trace Reply JsError) : Prop :=
  Effect w op s.1 s.2 ∧
    (Refused op o → ∃ key, op.key.text = .ok key ∧ (w.redis.live key).isSome = true)

section Calls

variable {uuid : ℕ → String} {w : World}

/-- A Redis that is up answers. -/
theorem answered {w' : World} {c : RedisCall} {r : Except JsError c.Reply}
    (h : redisUp uuid w ⟨.redis c, r⟩ w') :
    r = (w.redis.answer c).1 ∧ w' = { w with redis := (w.redis.answer c).2 } := by
  obtain ⟨lossy, up⟩ := h
  obtain ⟨a, rfl⟩ : ∃ a, r = .ok a := up c rfl
  obtain h | ⟨-, e, he⟩ := World.faulty_redis (.inl (World.up_of_lossy_ok lossy))
  · exact h
  · cases he

theorem answered_setNX {w' : World} {key : String} {value : Json} {r : Except JsError Bool}
    (h : redisUp uuid w ⟨.redis (.setNX key value), r⟩ w')
    (free : ¬ (w.redis.live key).isSome = true) :
    r = .ok true ∧ w' = { w with redis := w.redis.set key value none } := by
  have hanswer : w.redis.answer (.setNX key value) = (.ok true, w.redis.set key value none) := by
    rw [Redis.answer, if_neg free]
  have h := answered h
  rw [hanswer] at h
  exact h

/-- The environment of one call. -/
abbrev env (uuid : ℕ → String) : Env Reply JsError (World × Trace Reply JsError) :=
  traced (redisUp uuid) fun _ _ _ => True

/-- The part that the checks of both services have in common. -/
theorem wp_lookup {k : CacheKey} {key : String} (text : k.text = .ok key) :
    (do
      let cached ← RedisClient.exists key
      if cached = 1 then
        pure false
      else
        let _ ← RedisClient.setNX key (.number 1)
        pure true : Prog Bool).wp (env uuid) (fun _ => True)
      (either (fun b s => Done w (.check k) (.ok b) s) fun _ _ => False) (w, []) := by
  rw [wp_bind]
  refine wp_perform_traced.mpr fun r w₁ answer _ => ⟨trivial, ?_⟩
  obtain ⟨rfl, rfl⟩ : r = .ok (if (w.redis.live key).isSome then 1 else 0) ∧ w₁ = w :=
    answered answer
  by_cases live : (w₁.redis.live key).isSome = true
  · rw [if_pos live, either_ok, if_pos rfl]
    exact ⟨.kept rfl fun _ => rfl, fun _ => ⟨key, text, live⟩⟩
  · rw [if_neg live, either_ok, if_neg Nat.zero_ne_one, wp_bind]
    refine wp_perform_traced.mpr fun r w₂ answer _ => ⟨trivial, ?_⟩
    obtain ⟨rfl, rfl⟩ := answered_setNX answer live
    exact ⟨.wrote text rfl (fun key' => by simp [writes]) (.inl ⟨rfl, rfl⟩), fun h => h.elim⟩

/-- The log line of the `catch` block throws the error of the template again. -/
theorem log_throws {α : Type} {tenantId idempotencyKey : Option Json} {e : JsError} {a : α}
    (h : DeduplicationService.buildIngressCacheKey tenantId idempotencyKey = .error e) :
    (do
      let _ ← Program.done (Json.templateText tenantId)
      let _ ← Program.done (Json.templateText idempotencyKey)
      pure a : Prog α) = Program.done (.error e) := by
  unfold DeduplicationService.buildIngressCacheKey at h
  cases htenant : Json.templateText tenantId with
  | error e' =>
      rw [htenant] at h
      cases h
      rfl
  | ok tenant =>
      cases hkey : Json.templateText idempotencyKey with
      | error e' =>
          rw [htenant, hkey] at h
          cases h
          rfl
      | ok text =>
          rw [htenant, hkey] at h
          cases h

/-- A call that throws has done nothing. -/
theorem done_of_throw {op : CacheOp} {e : JsError} : Done w op (.error e) (w, []) := by
  refine ⟨.kept rfl fun _ => rfl, fun h => ?_⟩
  cases op <;> exact h.elim

theorem wp_check (k : CacheKey) :
    (CacheOp.check k).program.wp (env uuid) (fun _ => True) (Done w (.check k)) (w, []) := by
  cases k with
  | ingress tenantId idempotencyKey =>
      change (DeduplicationService.checkAndCacheIngressRequest tenantId idempotencyKey).wp _ _ _ _
      rw [DeduplicationService.checkAndCacheIngressRequest, wp_tryCatch, wp_bind, wp_done]
      cases text : DeduplicationService.buildIngressCacheKey tenantId idempotencyKey with
      | error e =>
          change (do
            let _ ← Program.done (Json.templateText tenantId)
            let _ ← Program.done (Json.templateText idempotencyKey)
            pure true : Prog Bool).wp _ _ _ _
          rw [log_throws text]
          exact done_of_throw
      | ok key =>
          apply mono_post (wp_lookup (k := .ingress tenantId idempotencyKey) text)
          intro o s h
          cases o with
          | error e => exact h.elim
          | ok b => exact h
  | delivery dedupKey =>
      change (DeliveryDeduplicationService.checkDeliveryDedup dedupKey).wp _ _ _ _
      rw [DeliveryDeduplicationService.checkDeliveryDedup, wp_tryCatch]
      apply mono_post (wp_lookup (k := .delivery dedupKey) rfl)
      intro o s h
      cases o with
      | error e => exact h.elim
      | ok b => exact h

/-- The part that both ways of warming a key have in common. -/
theorem wp_warm (op : CacheOp) {key : String} {value : Json} (text : op.key.text = .ok key)
    (unrefused : ∀ o, ¬ Refused op o) :
    (RedisClient.setEx key op.key.window value).wp (env uuid) (fun _ => True)
      (either (fun _ s => ∀ o, Done w op o s) fun _ _ => False) (w, []) := by
  refine wp_perform_traced.mpr fun r w₁ answer _ => ⟨trivial, ?_⟩
  obtain ⟨rfl, rfl⟩ : r = .ok () ∧ w₁ = { w with
      redis := w.redis.set key value (some (w.redis.time + op.key.window)) } := answered answer
  exact fun o => ⟨.wrote text rfl (fun key' => by simp [writes]) (.inr rfl),
    fun h => (unrefused o h).elim⟩

theorem wp_program (op : CacheOp) :
    op.program.wp (env uuid) (fun _ => True) (Done w op) (w, []) := by
  cases op with
  | check k => exact wp_check k
  | setDeliveredCache dedupKey =>
      change (DeliveryDeduplicationService.setDeliveredCache dedupKey).wp _ _ _ _
      rw [DeliveryDeduplicationService.setDeliveredCache, wp_tryCatch]
      apply mono_post (wp_warm (.setDeliveredCache dedupKey) rfl fun o h => h.elim)
      intro o s h
      cases o with
      | error e => exact h.elim
      | ok _ => exact h _
  | warmIngressCache tenantId idempotencyKey messageId status channel createdAt =>
      change (DeduplicationService.warmIngressCache tenantId idempotencyKey messageId status channel
        createdAt).wp _ _ _ _
      rw [DeduplicationService.warmIngressCache, wp_tryCatch, wp_bind, wp_done]
      cases text : DeduplicationService.buildIngressCacheKey tenantId idempotencyKey with
      | error e =>
          change (do
            let _ ← Program.done (Json.templateText tenantId)
            let _ ← Program.done (Json.templateText idempotencyKey)
            pure () : Prog Unit).wp _ _ _ _
          rw [log_throws text]
          exact done_of_throw
      | ok key =>
          apply mono_post (wp_warm (.warmIngressCache tenantId idempotencyKey messageId status
            channel createdAt) text fun o h => h.elim)
          intro o s h
          cases o with
          | error e => exact h.elim
          | ok _ => exact h _

end Calls

/-! ## Runs -/

variable {uuid : ℕ → String} {xs : List CacheTurn} {w : World}

/-- A key without expiry was set by a check, and any other has the window of its last call. -/
def Accounted (xs : List CacheTurn) (w : World) : Prop :=
  ∀ key entry, w.redis.strings key = some entry → ∃ x, lastWrite key xs = some x ∧
    x.job.key.text = .ok key ∧ x.before.redis.time ≤ w.redis.time ∧
    ((entry.expiresAt = none ∧ x.job.isCheck = true) ∨
      entry.expiresAt = some (x.before.redis.time + x.job.key.window))

theorem Accounted.step (h : Accounted xs w) {op : CacheOp} {o : Except JsError op.Result}
    {w' : World} {t : Trace Reply JsError} (effect : Effect w op w' t) :
    Accounted (xs ++ [⟨op, w, o, w', t⟩]) w' := by
  intro key entry hentry
  cases effect with
  | kept same silent =>
      obtain rfl := same
      have hlast : lastWrite key (xs ++ [⟨op, w', o, w', t⟩]) = lastWrite key xs := by
        rw [lastWrite, Series.latest_snoc, if_neg (by simp [Writes, silent key]), lastWrite]
      rw [hlast]
      exact h key entry hentry
  | wrote text heq writes kind =>
      next key' value expiresAt =>
      obtain rfl := heq
      by_cases own : key = key'
      · subst own
        have hlast := Series.latest_snoc (Writes key) xs
          ⟨op, w, o, { w with redis := w.redis.set key value expiresAt }, t⟩
        rw [if_pos (by simp [Writes, writes key])] at hlast
        have hentry : some (⟨value, expiresAt⟩ : RedisEntry) = some entry := by
          rw [← hentry]
          simp [Redis.set]
        cases hentry
        exact ⟨_, hlast, text, Int.le_refl _, kind.imp_left id⟩
      · have hlast := Series.latest_snoc (Writes key) xs
          ⟨op, w, o, { w with redis := w.redis.set key' value expiresAt }, t⟩
        rw [if_neg (by simp [Writes, writes key, Ne.symm own])] at hlast
        rw [lastWrite, hlast]
        apply h key entry
        rw [← hentry]
        simp [Redis.set, Function.update_of_ne own]

theorem accounted {admits : List CacheTurn → CacheOp → World → Prop}
    (run : (calls uuid admits).Runs xs w) : Accounted xs w := by
  refine run.invariant (fun w empty key entry hentry => ?_) ?_ ?_
  · rw [empty key] at hentry
    cases hentry
  · rintro xs w w' ⟨time, later, rfl⟩ h key entry hentry
    obtain ⟨x, hlast, text, htime, kind⟩ := h key entry hentry
    exact ⟨x, hlast, text, Int.le_trans htime later, kind⟩
  · intro xs op w _ _ h
    exact mono_post (wp_program op) fun o s done => h.step done.1

/-- In a run in which no key is checked after the window of the check that has set it, a call
is refused only if its key has been set or warmed within the window. -/
theorem windows_expire {k : CacheKey} {w w' s : World} {t : Trace Reply JsError}
    (run : (calls uuid ChecksInTime).Runs (xs ++ [⟨.check k, w, .ok false, w', t⟩]) s) :
    CachedInWindow xs k w := by
  obtain ⟨before, inTime, leads⟩ := run.last
  obtain ⟨key, text, live⟩ := ((wp_program (.check k)).outcome leads).2 trivial
  obtain ⟨entry, hlive⟩ := Option.isSome_iff_exists.mp live
  obtain ⟨hentry, unexpired⟩ := Option.filter_eq_some_iff.mp hlive
  obtain ⟨x, hlast, htext, htime, kind⟩ := accounted before key entry hentry
  obtain ⟨hmem, hwrites⟩ := Series.mem_of_latest hlast
  refine ⟨x, hmem, key, text, htext, hwrites, htime, ?_⟩
  obtain ⟨-, check⟩ | expires := kind
  · exact inTime key x text hlast check
  · have hexpires : w.redis.time < x.before.redis.time + x.job.key.window := by
      simpa [expires] using unexpired
    have hwindow : k.window = x.job.key.window := window_of_text text htext
    omega

/-- A handler whose Redis is up and answers. -/
theorem sound (c : Call) (w : World) :
    redisUp toString w ⟨c, (World.brokenHandler (fun _ => false) toString
        (fun _ => { outcome := .ok ⟨true, none⟩ }) c w).1⟩
      (World.brokenHandler (fun _ => false) toString
        (fun _ => { outcome := .ok ⟨true, none⟩ }) c w).2 :=
  redisUp_brokenHandler (fun _ => false) (fun _ => rfl) _ _ c w

/-- The key is still there after its window. -/
def afterWindow : World :=
  { redis := { ({} : Redis).set "delivered:d-1" (.number 1) none with time := 86401 } }

/-- Two checks of one key, the second one second after the window of the first. -/
theorem windows_expire_fails :
    ¬ ∀ (xs : List CacheTurn) (k : CacheKey) (w w' s : World) (t : Trace Reply JsError),
      (calls toString fun _ _ _ => True).Runs (xs ++ [⟨.check k, w, .ok false, w', t⟩]) s →
        CachedInWindow xs k w := by
  intro expire
  have start : (calls toString fun _ _ _ => True).Runs [] {} := .start fun _ => rfl
  have first := start.executed (j := .check (.delivery "d-1")) trivial sound fun _ _ => trivial
  have waited : (calls toString fun _ _ _ => True).Runs _ afterWindow :=
    first.drift ⟨86401, by decide, rfl⟩
  have second := waited.executed (j := .check (.delivery "d-1")) trivial sound fun _ _ => trivial
  obtain ⟨x, hx, -, -, -, -, -, hwindow⟩ := expire _ (.delivery "d-1") _ _ _ _ second
  rw [List.mem_singleton.mp hx] at hwindow
  exact absurd hwindow (by decide)

/-- A key that is warmed in its window is refused again. -/
theorem windows_expire_warmed : ∃ (xs : List CacheTurn) (w : World),
    xs.map Turn.job = [.check (.delivery "d-1"), .setDeliveredCache "d-1"] ∧
    CachedInWindow xs (.delivery "d-1") w := by
  have start : (calls toString ChecksInTime).Runs [] {} := .start fun _ => rfl
  have first := start.executed (j := .check (.delivery "d-1"))
    (fun _ _ _ h => by cases h) sound fun _ _ => trivial
  have warmed := first.executed (j := .setDeliveredCache "d-1") trivial sound fun _ _ => trivial
  refine ⟨_, _, rfl, windows_expire (warmed.executed (j := .check (.delivery "d-1")) ?_ sound
    fun _ _ => trivial)⟩
  intro key x _ last _
  cases List.mem_append.mp (Series.mem_of_latest last).1 with
  | inl hx =>
      rw [List.mem_singleton.mp hx]
      decide
  | inr hx =>
      rw [List.mem_singleton.mp hx]
      decide

end CacheWindows

end Notification
