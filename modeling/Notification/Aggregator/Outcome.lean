import Notification.Aggregator.Attempts
import Notification.Aggregator.Authority

/-!
# What one delivery leaves behind

When every infrastructure call succeeds, a delivery either finds the message delivered and
changes nothing, or calls the provider once and writes the outcome of that call down.
-/

namespace Notification

open Interaction Program

namespace Redis

/-- A key that is set with a time to live is there. -/
theorem live_set_of_lt (r : Redis) (key : String) (value : Json) {seconds : Int}
    (positive : 0 < seconds) :
    (r.set key value (some (r.time + seconds))).live key =
      some ⟨value, some (r.time + seconds)⟩ := by
  have hlt : r.time < r.time + seconds := by omega
  simp [live, set, hlt]

theorem zsets_zAdd_congr {r r' : Redis} (h : r.zsets = r'.zsets) (key : String) (score : Int)
    (member : String) : (r.zAdd key score member).zsets = (r'.zAdd key score member).zsets := by
  simp only [zAdd, h]

end Redis

/-- The message is found delivered: its row is, and its key is in Redis. -/
def Blocked (w : World) (m : MessageToDeliver) : Prop :=
  FinallyDelivered w m.messageId ∧
    (w.redis.live (DeliveryDeduplicationService.buildDeliveryKey m.dedupKey)).isSome = true

/-- The tables after a provider call with this outcome has been written down. -/
def Database.afterOutcome (db : Database) (m : MessageToDeliver) :
    Except JsError ProviderResult → Database
  | .ok result =>
    { db.updateStatus m.messageId .sent true (m.attempt + 1) with
      deliveryAttempts := db.deliveryAttempts ++
        [DeliveryProcessorService.successAttempt m (m.attempt + 1) result.response] }
  | .error e =>
    let attempts := db.deliveryAttempts ++
      [DeliveryProcessorService.failedAttempt m (m.attempt + 1) e]
    if DeliveryProcessorService.MAX_ATTEMPTS ≤ m.attempt + 1 then
      { db.updateStatus m.messageId .failed false (m.attempt + 1) with
        deliveryAttempts := attempts
        dlqEntries := db.dlqEntries ++
          [{ messageId := m.messageId, channel := m.channel,
             failureReason := DeliveryProcessorService.errorMessage e,
             maxAttemptsReached := true }] }
    else
      { db.updateStatus m.messageId .pending false (m.attempt + 1) with
        deliveryAttempts := attempts }

/-- The status that a provider call with this outcome leads to. -/
def statusAfter (m : MessageToDeliver) : Except JsError ProviderResult → Status
  | .ok _ => .sent
  | .error _ => if DeliveryProcessorService.MAX_ATTEMPTS ≤ m.attempt + 1 then .failed else .pending

namespace Database

variable (db : Database) (m : MessageToDeliver) (outcome : Except JsError ProviderResult)

theorem afterOutcome_messages : (db.afterOutcome m outcome).messages =
    (db.updateStatus m.messageId (statusAfter m outcome) outcome.isOk
      (m.attempt + 1)).messages := by
  cases outcome with
  | ok result => rfl
  | error e =>
      simp only [afterOutcome, statusAfter]
      split <;> rfl

@[simp] theorem afterOutcome_pending : (db.afterOutcome m outcome).pending = db.pending := by
  cases outcome with
  | ok result => rfl
  | error e =>
      simp only [afterOutcome]
      split <;> rfl

end Database

/-- A provider call with this outcome leaves a retry behind. -/
def leavesRetry (m : MessageToDeliver) : Except JsError ProviderResult → Bool
  | .ok _ => false
  | .error _ => m.attempt + 1 < DeliveryProcessorService.MAX_ATTEMPTS

/-- A delivery has called the provider in `w`, and `w'` is the world it leaves. -/
structure Leaves (provider : IProvider) (m : MessageToDeliver)
    (outcome : Except JsError ProviderResult) (w w' : World) : Prop where
  inbox : w'.inbox = w.inbox ++ [sending provider m outcome]
  db : w'.db = w.db.afterOutcome m outcome
  live : ∀ key, (w'.redis.live key).isSome = ((w.redis.live key).isSome ||
    key == DeliveryDeduplicationService.buildDeliveryKey m.dedupKey)
  zsets : if leavesRetry m outcome
    then ∃ score, w'.redis.zsets = (w.redis.zAdd "retries" score (retryMember m)).zsets
    else w'.redis.zsets = w.redis.zsets
  resolved : w'.resolved = w.resolved

namespace DeliveryProcessorService

variable (uuid : ℕ → String) (choose : World → Choice) (provider : IProvider)
  {m : MessageToDeliver} {w : World}

/-- Redis after the duplicate check. -/
def checkedRedis (r : Redis) (dedupKey : String) : Redis :=
  let key := DeliveryDeduplicationService.buildDeliveryKey dedupKey
  if (r.live key).isSome then r else r.set key (.number 1) none

theorem run_check (dedupKey : String) (w : World) :
    (DeliveryDeduplicationService.checkDeliveryDedup dedupKey).run (World.handler uuid choose) w =
      (.ok (!(w.redis.live (DeliveryDeduplicationService.buildDeliveryKey dedupKey)).isSome),
        { w with redis := checkedRedis w.redis dedupKey }) := by
  by_cases h : (w.redis.live (DeliveryDeduplicationService.buildDeliveryKey dedupKey)).isSome
  · simp [DeliveryDeduplicationService.checkDeliveryDedup, checkedRedis, h]
  · simp [DeliveryDeduplicationService.checkDeliveryDedup, checkedRedis, h]

theorem live_checkedRedis (r : Redis) (dedupKey key : String) :
    ((checkedRedis r dedupKey).live key).isSome = ((r.live key).isSome ||
      key == DeliveryDeduplicationService.buildDeliveryKey dedupKey) := by
  rw [checkedRedis]
  by_cases hkey : key = DeliveryDeduplicationService.buildDeliveryKey dedupKey
  · subst hkey
    split
    · next h => simp [h]
    · simp
  · split
    · simp [hkey]
    · simp [Redis.live_set_ne _ hkey, hkey]

theorem zsets_checkedRedis (r : Redis) (dedupKey : String) :
    (checkedRedis r dedupKey).zsets = r.zsets := by
  rw [checkedRedis]
  split <;> rfl

theorem run_alreadyDelivered_of_blocked (h : Blocked w m) :
    (alreadyDelivered interfaceRepository m).run (World.handler uuid choose) w = (.ok true, w) := by
  obtain ⟨⟨row, hrow, hdelivered⟩, hlive⟩ := h
  have hstatus : ((w.db.getStatus m.messageId).map MessageStatus.finalDelivered).getD false =
      true := by
    rw [World.row?] at hrow
    simp [Database.getStatus, hrow, hdelivered]
  have hredis : checkedRedis w.redis m.dedupKey = w.redis := by rw [checkedRedis, if_pos hlive]
  simp [alreadyDelivered, run_check, hlive, hredis, hstatus]

/-- A message that is found delivered is left alone. -/
theorem run_of_blocked (h : Blocked w m) :
    (processDelivery interfaceRepository provider m).run (World.handler uuid choose) w =
      (.ok { success := true, shouldRetry := false, isDuplicate := true }, w) := by
  simp [processDelivery, deliver, run_alreadyDelivered_of_blocked uuid choose h]

theorem run_alreadyDelivered_of_unblocked (h : ¬ Blocked w m) :
    (alreadyDelivered interfaceRepository m).run (World.handler uuid choose) w =
      (.ok false, { w with redis := checkedRedis w.redis m.dedupKey }) := by
  simp only [alreadyDelivered, run_bind, run_check, andThen_ok, run_ite]
  cases hlive : (w.redis.live
    (DeliveryDeduplicationService.buildDeliveryKey m.dedupKey)).isSome with
  | false => simp
  | true =>
      have hstatus : ((w.db.getStatus m.messageId).map MessageStatus.finalDelivered).getD false =
          false := by
        rw [Database.getStatus]
        cases hrow : w.db.messages.find? fun r => r.messageId == m.messageId with
        | none => rfl
        | some row =>
            by_contra hdelivered
            exact h ⟨⟨row, hrow, by simpa using hdelivered⟩, hlive⟩
      simp [hstatus]

/-- The world in which the provider has answered. -/
def called (provider : IProvider) (m : MessageToDeliver) (outcome : Except JsError ProviderResult)
    (w : World) : World :=
  { w with
    redis := checkedRedis w.redis m.dedupKey
    inbox := w.inbox ++ [sending provider m outcome] }

/-- What is written down after a success. -/
theorem run_success (idle : ∀ p ∈ w.db.pending, p.2.messageId ≠ m.messageId)
    (result : ProviderResult) :
    ∃ w', (recordSuccess interfaceRepository m (m.attempt + 1) result).run
      (World.handler uuid choose) (called provider m (.ok result) w) = (.ok (), w') ∧
      Leaves provider m (.ok result) w w' := by
  cases hout : (recordSuccess interfaceRepository m (m.attempt + 1) result).run
    (World.handler uuid choose) (called provider m (.ok result) w) with
  | mk o w' =>
      simp only [recordSuccess, run_bind, andThen_ok, run_tryCatch, orElse_ok,
        InterfaceRepository.run_updateStatus uuid choose (called provider m (.ok result) w) _ _ _
          idle,
        run_stringify, InterfaceRepository.run_saveAttempt,
        DeliveryDeduplicationService.setDeliveredCache, RedisClient.run_setEx,
        EventPublisherService.publishLog, run_produce, Prod.mk.injEq] at hout
      obtain ⟨rfl, rfl⟩ := hout
      refine ⟨_, rfl, rfl, rfl, fun key => ?_, ?_, rfl⟩
      · by_cases hkey : key = DeliveryDeduplicationService.buildDeliveryKey m.dedupKey
        · subst hkey
          simp [Redis.live_set_of_lt, DeliveryDeduplicationService.DELIVERY_CACHE_TTL]
        · simp [Redis.live_set_ne _ hkey, called, live_checkedRedis]
      · simp [leavesRetry, called, Redis.set, zsets_checkedRedis]

/-- What is written down after a failure. -/
theorem run_failure (idle : ∀ p ∈ w.db.pending, p.2.messageId ≠ m.messageId) (e : JsError) :
    ∃ w', (handleFailure interfaceRepository m (m.attempt + 1) e).run
      (World.handler uuid choose) (called provider m (.error e) w) =
        (.ok { success := false, shouldRetry := leavesRetry m (.error e) }, w') ∧
      Leaves provider m (.error e) w w' := by
  have hupdate (w₁ : World) (status : Status) (same : w₁.db.pending = w.db.pending) :=
    InterfaceRepository.run_updateStatus uuid choose w₁ status false (m.attempt + 1) (same ▸ idle)
  cases hout : (handleFailure interfaceRepository m (m.attempt + 1) e).run
    (World.handler uuid choose) (called provider m (.error e) w) with
  | mk o w' =>
      simp only [handleFailure, run_bind, InterfaceRepository.run_saveAttempt, andThen_ok,
        run_ite, called] at hout
      by_cases hmax : MAX_ATTEMPTS ≤ m.attempt + 1
      · have hlast : leavesRetry m (.error e) = false := by simpa [leavesRetry] using hmax
        simp only [if_pos hmax, handleMaxAttemptsReached, run_bind, hupdate, andThen_ok,
          InterfaceRepository.run_saveDLQEntry, EventPublisherService.publishDLQMessage,
          EventPublisherService.publishLog, EventPublisherService.publishError, run_produce,
          run_pure, Prod.mk.injEq] at hout
        obtain ⟨rfl, rfl⟩ := hout
        rw [hlast]
        refine ⟨_, rfl, rfl, ?_, live_checkedRedis w.redis m.dedupKey, ?_, rfl⟩
        · rw [Database.afterOutcome, if_pos hmax]
          rfl
        · rw [hlast]
          exact zsets_checkedRedis w.redis m.dedupKey
      · have hmore : leavesRetry m (.error e) = true := by simpa [leavesRetry] using hmax
        simp only [if_neg hmax, handleRetry, run_bind, hupdate, andThen_ok,
          RetrySchedulerService.run_scheduleRetry uuid choose _ _ _ _ (backoffDelay_nonneg _)
            (backoffDelay_le _),
          EventPublisherService.publishLog, run_produce, run_pure, Prod.mk.injEq] at hout
        obtain ⟨rfl, rfl⟩ := hout
        rw [hmore]
        refine ⟨_, rfl, rfl, ?_, live_checkedRedis w.redis m.dedupKey, ?_, rfl⟩
        · rw [Database.afterOutcome, if_neg hmax]
          rfl
        · rw [hmore, if_pos rfl]
          exact ⟨_, Redis.zsets_zAdd_congr (zsets_checkedRedis w.redis m.dedupKey) _ _ _⟩

/-- A message that is not found delivered: the provider is called once, and the outcome is
written down. -/
theorem run_of_unblocked (idle : ∀ p ∈ w.db.pending, p.2.messageId ≠ m.messageId)
    (h : ¬ Blocked w m) :
    let outcome := (choose { w with redis := checkedRedis w.redis m.dedupKey }).outcome
    ∃ w', (processDelivery interfaceRepository provider m).run (World.handler uuid choose) w =
        (.ok { success := outcome.isOk, shouldRetry := leavesRetry m outcome }, w') ∧
      Leaves provider m outcome w w' := by
  intro outcome
  have hdelivered := run_alreadyDelivered_of_unblocked uuid choose h
  simp only [processDelivery, deliver, run_tryCatch, run_bind, hdelivered, andThen_ok,
    Bool.false_eq_true, if_false, IProvider.run_send]
  change ∃ w', orElse _ (andThen _ (outcome, called provider m outcome w)) = _ ∧ _
  cases outcome with
  | ok result =>
      obtain ⟨w', hrun, leaves⟩ := run_success uuid choose provider idle result
      exact ⟨w', by simp only [andThen_ok, run_bind, hrun, run_pure, orElse_ok]; rfl, leaves⟩
  | error e =>
      obtain ⟨w', hrun, leaves⟩ := run_failure uuid choose provider idle e
      exact ⟨w', by simp only [andThen_error, orElse_error, hrun]; rfl, leaves⟩

end DeliveryProcessorService

end Notification
