import Notification.Aggregator.Worker

/-!
# Runs of a single delivery

What `processDelivery` does to the world when every infrastructure call succeeds:
one lemma for each way it can end. The provider's outcomes are given as a sequence,
by the number of provider calls made before, and the clock stands still during one
delivery.
-/

namespace Notification

open Interaction

/-- The outcome of the `n`-th provider call is `outcomes n`, and it is `t`. -/
def steady (outcomes : ℕ → Except JsError ProviderResult) (t : Clock) : World → Choice :=
  fun w => { outcome := outcomes w.inbox.length, now := t }

@[simp] theorem steady_outcome (outcomes : ℕ → Except JsError ProviderResult) (t : Clock)
    (w : World) : (steady outcomes t w).outcome = outcomes w.inbox.length := rfl

@[simp] theorem steady_now (outcomes : ℕ → Except JsError ProviderResult) (t : Clock)
    (w : World) : (steady outcomes t w).now = t := rfl

/-- No row of the message is being inserted, and none is delivered. -/
structure Deliverable (w : World) (m : MessageToDeliver) : Prop where
  idle : ∀ p ∈ w.db.pending, p.2.messageId ≠ m.messageId
  undelivered : ∀ r ∈ w.db.messages, r.messageId = m.messageId → r.finalDelivered = false

/-- The provider call for `m`, as the inbox keeps it. -/
def sending (provider : IProvider) (m : MessageToDeliver)
    (outcome : Except JsError ProviderResult) : Sending where
  provider := provider.name
  recipient := m.recipient
  body := m.body
  options := DeliveryProcessorService.sendOptions m (m.attempt + 1)
  message := m
  outcome := outcome

/-- The member that `handleRetry` adds to the sorted set. -/
def retryMember (m : MessageToDeliver) : String :=
  RetrySchedulerService.payload m.messageId m.channel (Number.add (m.attempt + 1) 1)

namespace Deliverable

variable {w w' : World} {m m' : MessageToDeliver}

theorem mono (h : Deliverable w m) (pending : w'.db.pending = w.db.pending)
    (messages : w'.db.messages = w.db.messages) (id : m'.messageId = m.messageId) :
    Deliverable w' m' where
  idle := by rw [pending, id]; exact h.idle
  undelivered := by rw [messages, id]; exact h.undelivered

theorem getStatus (h : Deliverable w m) :
    ((w.db.getStatus m.messageId).map MessageStatus.finalDelivered).getD false = false := by
  rw [Database.getStatus, Option.map_map]
  cases hfind : w.db.messages.find? fun r => r.messageId == m.messageId with
  | none => rfl
  | some r =>
      exact h.undelivered r (List.mem_of_find?_eq_some hfind) (by simpa using List.find?_some hfind)

theorem updateStatus (h : Deliverable w m) (status : Status) (attempts : Int) :
    Deliverable { w with db := w.db.updateStatus m.messageId status false attempts } m where
  idle := h.idle
  undelivered := by
    intro r hr hid
    obtain ⟨r₀, hr₀, rfl⟩ := List.mem_map.mp hr
    split at hid
    · next heq => simp [heq]
    · next hne => exact absurd hid hne

end Deliverable

namespace DeliveryProcessorService

variable (uuid : ℕ → String) (choose : World → Choice) (provider : IProvider)
  {m : MessageToDeliver} {w : World}

theorem run_checkDeliveryDedup (dedupKey : String) (w : World) :
    ∃ isNew redis, (DeliveryDeduplicationService.checkDeliveryDedup dedupKey).run
        (World.handler uuid choose) w = (.ok isNew, { w with redis := redis }) ∧
      redis.zsets = w.redis.zsets := by
  by_cases h : (w.redis.live (DeliveryDeduplicationService.buildDeliveryKey dedupKey)).isSome
  · exact ⟨false, w.redis, by simp [DeliveryDeduplicationService.checkDeliveryDedup, h], rfl⟩
  · exact ⟨true, w.redis.set (DeliveryDeduplicationService.buildDeliveryKey dedupKey) (.number 1)
      none, by simp [DeliveryDeduplicationService.checkDeliveryDedup, h], rfl⟩

theorem run_alreadyDelivered (h : Deliverable w m) :
    ∃ redis, (alreadyDelivered interfaceRepository m).run (World.handler uuid choose) w =
        (.ok false, { w with redis := redis }) ∧ redis.zsets = w.redis.zsets := by
  obtain ⟨isNew, redis, hrun, hzsets⟩ := run_checkDeliveryDedup uuid choose m.dedupKey w
  refine ⟨redis, ?_, hzsets⟩
  cases isNew <;> simp [alreadyDelivered, hrun, h.getStatus]

theorem run_recordSuccess (h : Deliverable w m) (currentAttempt : Int) (result : ProviderResult) :
    ∃ w', (recordSuccess interfaceRepository m currentAttempt result).run
        (World.handler uuid choose) w = (.ok (), w') ∧
      w'.inbox = w.inbox ∧ w'.redis.zsets = w.redis.zsets := by
  simp [recordSuccess, InterfaceRepository.run_updateStatus uuid choose w _ _ _ h.idle,
    DeliveryDeduplicationService.setDeliveredCache, EventPublisherService.publishLog]
  rfl

variable {outcomes : ℕ → Except JsError ProviderResult} (t : Clock)

/-- The provider accepts: no retry is scheduled. -/
theorem run_of_success (h : Deliverable w m) {result : ProviderResult}
    (accepted : outcomes w.inbox.length = .ok result) :
    ∃ w', (processDelivery interfaceRepository provider m).run
        (World.handler uuid (steady outcomes t)) w =
          (.ok { success := true, shouldRetry := false }, w') ∧
      w'.inbox = w.inbox ++ [sending provider m (.ok result)] ∧
      w'.redis.zsets = w.redis.zsets := by
  obtain ⟨redis, hrun, hzsets⟩ := run_alreadyDelivered uuid (steady outcomes t) h
  obtain ⟨w', hrecord, hinbox, hzsets'⟩ := run_recordSuccess uuid (steady outcomes t)
    (w := { w with redis := redis, inbox := w.inbox ++ [sending provider m (.ok result)] })
    (h.mono rfl rfl rfl) (m.attempt + 1) result
  refine ⟨w', ?_, hinbox, hzsets'.trans hzsets⟩
  simp only [sending] at hrecord
  simp [processDelivery, deliver, hrun, accepted, hrecord]

/-- The provider fails: the attempt is written down, and then the branch is chosen. -/
theorem run_of_failure (h : Deliverable w m) {e : JsError}
    (failed : outcomes w.inbox.length = .error e) :
    ∃ w₁, (processDelivery interfaceRepository provider m).run
        (World.handler uuid (steady outcomes t)) w =
          (if MAX_ATTEMPTS ≤ m.attempt + 1 then
            handleMaxAttemptsReached interfaceRepository m (m.attempt + 1) (errorMessage e)
          else handleRetry interfaceRepository m (m.attempt + 1) (errorMessage e)).run
            (World.handler uuid (steady outcomes t)) w₁ ∧
      w₁.inbox = w.inbox ++ [sending provider m (.error e)] ∧
      w₁.redis.zsets = w.redis.zsets ∧ Deliverable w₁ m := by
  obtain ⟨redis, hrun, hzsets⟩ := run_alreadyDelivered uuid (steady outcomes t) h
  refine ⟨{ w with
    redis := redis, inbox := w.inbox ++ [sending provider m (.error e)],
    db := { w.db with deliveryAttempts :=
      w.db.deliveryAttempts ++ [failedAttempt m (m.attempt + 1) e] } },
    ?_, rfl, hzsets, h.mono rfl rfl rfl⟩
  simp [processDelivery, deliver, hrun, failed, handleFailure, sending]

/-- The provider fails with attempts left: one retry is scheduled. -/
theorem run_of_retry (h : Deliverable w m) {e : JsError}
    (failed : outcomes w.inbox.length = .error e) (left : m.attempt + 1 < MAX_ATTEMPTS) :
    ∃ w', (processDelivery interfaceRepository provider m).run
        (World.handler uuid (steady outcomes t)) w =
          (.ok { success := false, shouldRetry := true }, w') ∧
      w'.inbox = w.inbox ++ [sending provider m (.error e)] ∧
      w'.redis.zsets = (w.redis.zAdd "retries" (t.time + backoffDelay (m.attempt + 1))
        (retryMember m)).zsets ∧ Deliverable w' m := by
  obtain ⟨w₁, hrun, hinbox, hzsets, hdeliverable⟩ := run_of_failure uuid provider t h failed
  rw [hrun, if_neg (Int.not_le.mpr left)]
  cases hout : (handleRetry interfaceRepository m (m.attempt + 1) (errorMessage e)).run
    (World.handler uuid (steady outcomes t)) w₁ with
  | mk o w' =>
      simp only [handleRetry, RetrySchedulerService.run_scheduleRetry uuid (steady outcomes t) _ _ _
          _ (backoffDelay_nonneg _) (backoffDelay_le _), Program.run_bind,
        InterfaceRepository.run_updateStatus uuid (steady outcomes t) _ _ _ _ hdeliverable.idle,
        EventPublisherService.publishLog, run_produce,
        Program.run_pure, Program.andThen_ok, steady_now, Prod.mk.injEq] at hout
      obtain ⟨rfl, rfl⟩ := hout
      refine ⟨_, rfl, hinbox, ?_,
        (hdeliverable.updateStatus .pending (m.attempt + 1)).mono rfl rfl rfl⟩
      simp only [Redis.zAdd, hzsets, retryMember]

/-- The provider fails in the last attempt: no retry is scheduled. -/
theorem run_of_exhausted (h : Deliverable w m) {e : JsError}
    (failed : outcomes w.inbox.length = .error e) (exhausted : MAX_ATTEMPTS ≤ m.attempt + 1) :
    ∃ w', (processDelivery interfaceRepository provider m).run
        (World.handler uuid (steady outcomes t)) w =
          (.ok { success := false, shouldRetry := false }, w') ∧
      w'.inbox = w.inbox ++ [sending provider m (.error e)] ∧
      w'.redis.zsets = w.redis.zsets := by
  obtain ⟨w₁, hrun, hinbox, hzsets, hdeliverable⟩ := run_of_failure uuid provider t h failed
  rw [hrun, if_pos exhausted]
  cases hout : (handleMaxAttemptsReached interfaceRepository m (m.attempt + 1)
    (errorMessage e)).run (World.handler uuid (steady outcomes t)) w₁ with
  | mk o w' =>
      simp only [handleMaxAttemptsReached, Program.run_bind,
        InterfaceRepository.run_updateStatus uuid (steady outcomes t) _ _ _ _ hdeliverable.idle,
        InterfaceRepository.run_saveDLQEntry, EventPublisherService.publishLog,
        EventPublisherService.publishDLQMessage, EventPublisherService.publishError, run_produce,
        Program.run_pure, Program.andThen_ok, Prod.mk.injEq] at hout
      obtain ⟨rfl, rfl⟩ := hout
      exact ⟨_, rfl, hinbox, hzsets⟩

end DeliveryProcessorService

end Notification
