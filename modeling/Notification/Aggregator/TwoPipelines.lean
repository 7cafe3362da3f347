import Notification.Aggregator.ProcessDeliveryUseCase
import Notification.Aggregator.RetryBudget

/-!
# The two implementations of a retry

`DeliveryProcessorService` with `RetrySchedulerService` and `ProcessDeliveryUseCase` with
`RedisDeliveryService` decide alike and wait alike after a failed provider call. But
`RetrySchedulerService` adds one to the attempt it is given and `RedisDeliveryService` does not,
so what they schedule, and with it the rest of the chain, is different.
-/

namespace Notification

open Interaction Program

namespace TwoPipelines

/-- A delivery and the poll that takes its retry. -/
structure Pipeline where
  Result : Type
  deliver : MessageToDeliver → Prog Result
  getPendingRetries : Prog (List PendingRetry)

def processor (provider : IProvider) : Pipeline where
  Result := ProcessResult
  deliver := DeliveryProcessorService.processDelivery interfaceRepository provider
  getPendingRetries := RetrySchedulerService.getPendingRetries

def useCase (provider : IProvider) : Pipeline where
  Result := DeliveryResult
  deliver := ProcessDeliveryUseCase.execute interfaceRepository provider
  getPendingRetries := RedisDeliveryService.getPendingRetries

/-- One delivery: how many provider calls it has made, the attempt numbers it has written down
for them, what it has scheduled with which delay, and whether it has saved a DLQ entry. -/
structure DeliveryRound where
  calls : ℕ
  attemptNumbers : List Int
  scheduled : List (String × Int)
  dlq : Bool

/-- Nothing is scheduled, and the message is not delivered. -/
structure Fresh (w : World) (m : MessageToDeliver) : Prop extends Deliverable w m where
  unscheduled : w.redis.zsets "retries" = []

section Chain

variable (uuid : ℕ → String) (outcomes : ℕ → Except JsError ProviderResult)
  (clock late : World → Clock)

/-- The world after a delivery. -/
def after (P : Pipeline) (m : MessageToDeliver) (w : World) : World :=
  ((P.deliver m).run (World.handler uuid (steady outcomes (clock w))) w).2

/-- What has come about between two worlds. -/
def roundBetween (w w' : World) : DeliveryRound where
  calls := w'.inbox.length - w.inbox.length
  attemptNumbers := (w'.db.deliveryAttempts.drop w.db.deliveryAttempts.length).map
    DeliveryAttempt.attemptNumber
  scheduled := (w'.redis.zsets "retries").map fun x => (x.1, x.2 - (clock w).time)
  dlq := w.db.dlqEntries.length < w'.db.dlqEntries.length

/-- The round of a delivery. -/
def roundOf (P : Pipeline) (m : MessageToDeliver) (w : World) : DeliveryRound :=
  roundBetween clock w (after uuid outcomes clock P m w)

/-- The first `n` rounds of a message: its retry is polled at the time `late`, and the attempt of
the retry is that of the next delivery. -/
def chain (P : Pipeline) : ℕ → MessageToDeliver → World → List DeliveryRound
  | 0, _, _ => []
  | n + 1, m, w =>
    let w' := after uuid outcomes clock P m w
    match P.getPendingRetries.run
      (World.handler uuid (steady outcomes (late w'))) w' with
    | (.ok retries, w'') =>
      match retries.find? fun r => r.messageId == m.messageId with
      | some ⟨_, _, some attempt⟩ =>
        roundOf uuid outcomes clock P m w :: chain P n { m with attempt := attempt } w''
      | _ => [roundOf uuid outcomes clock P m w]
    | (.error _, _) => [roundOf uuid outcomes clock P m w]

def numbers (rounds : List DeliveryRound) : List Int := rounds.flatMap DeliveryRound.attemptNumbers

def calls (rounds : List DeliveryRound) : ℕ := rounds.foldr (fun round n => round.calls + n) 0

/-- Two pipelines do the same after a failed provider call, and make the same calls until the
DLQ if no provider call ever works. -/
structure RetryAlike (P P' : Pipeline) (m : MessageToDeliver) (w : World) : Prop where
  decision : ((roundOf uuid outcomes clock P m w).scheduled ≠ [] ∧
      (roundOf uuid outcomes clock P' m w).scheduled ≠ []) ∨
    ((roundOf uuid outcomes clock P m w).dlq = true ∧
      (roundOf uuid outcomes clock P' m w).dlq = true)
  scheduled : (roundOf uuid outcomes clock P m w).scheduled =
    (roundOf uuid outcomes clock P' m w).scheduled
  chains : (∀ i, ∃ e, outcomes i = .error e) → ∀ n,
    calls (chain uuid outcomes clock late P n m w) =
        calls (chain uuid outcomes clock late P' n m w) ∧
      numbers (chain uuid outcomes clock late P n m w) =
        numbers (chain uuid outcomes clock late P' n m w)

variable {m : MessageToDeliver} {w : World} (provider : IProvider)

/-! ## One round -/

/-- The world `w₁` when a failed provider call has been written down. -/
structure Attempted (m : MessageToDeliver) (w w₁ : World) : Prop where
  inbox : w₁.inbox.length = w.inbox.length + 1
  attempts : ∃ a, w₁.db.deliveryAttempts = w.db.deliveryAttempts ++ [a] ∧
    a.attemptNumber = m.attempt + 1
  dlq : w₁.db.dlqEntries = w.db.dlqEntries
  fresh : Fresh w₁ m

/-- What follows after that: some retries and perhaps a DLQ entry. -/
structure Settled (w₁ w' : World) (scheduled : List (String × Int)) (buried : Bool) : Prop where
  inbox : w'.inbox = w₁.inbox
  attempts : w'.db.deliveryAttempts = w₁.db.deliveryAttempts
  retries : w'.redis.zsets "retries" = scheduled
  dlq : w'.db.dlqEntries.length = w₁.db.dlqEntries.length + if buried then 1 else 0

theorem roundBetween_eq {w₁ w' : World} {scheduled : List (String × Int)} {buried : Bool}
    (attempted : Attempted m w w₁) (settled : Settled w₁ w' scheduled buried) :
    roundBetween clock w w' =
      ⟨1, [m.attempt + 1], scheduled.map fun x => (x.1, x.2 - (clock w).time), buried⟩ := by
  obtain ⟨a, hattempts, hnumber⟩ := attempted.attempts
  have hdlq : decide (w.db.dlqEntries.length < w'.db.dlqEntries.length) = buried := by
    rw [settled.dlq, attempted.dlq]
    cases buried <;> simp
  simp only [roundBetween, settled.inbox, attempted.inbox, settled.attempts, hattempts,
    settled.retries, hdlq, List.drop_left, List.map_cons, List.map_nil, hnumber,
    Nat.add_sub_cancel_left]

theorem attempted_of_failure (h : Fresh w m) {redis : Redis} (zsets : redis.zsets = w.redis.zsets)
    {x : Sending} {a : DeliveryAttempt} (number : a.attemptNumber = m.attempt + 1) :
    Attempted m w { w with
      redis := redis, inbox := w.inbox ++ [x],
      db := { w.db with deliveryAttempts := w.db.deliveryAttempts ++ [a] } } where
  inbox := by rw [List.length_append, List.length_singleton]
  attempts := ⟨a, rfl, number⟩
  dlq := rfl
  fresh := ⟨h.toDeliverable.mono rfl rfl rfl, by rw [zsets, h.unscheduled]⟩

/-- One retry is scheduled in an empty set. -/
theorem settled_of_retry {w₁ : World} (h : w₁.redis.zsets "retries" = []) {member : String}
    {due : Int} {w' : World} (inbox : w'.inbox = w₁.inbox)
    (attempts : w'.db.deliveryAttempts = w₁.db.deliveryAttempts)
    (dlq : w'.db.dlqEntries = w₁.db.dlqEntries)
    (zsets : w'.redis.zsets = (w₁.redis.zAdd "retries" due member).zsets) :
    Settled w₁ w' [(member, due)] false where
  inbox := inbox
  attempts := attempts
  retries := by rw [zsets, Redis.zAdd_zsets, h]; rfl
  dlq := by rw [dlq]; rfl

section Processor

open DeliveryProcessorService

theorem processor_failed (h : Fresh w m) {e : JsError}
    (failed : outcomes w.inbox.length = .error e) :
    ∃ w₁, Attempted m w w₁ ∧ after uuid outcomes clock (processor provider) m w =
      ((if MAX_ATTEMPTS ≤ m.attempt + 1 then
          handleMaxAttemptsReached interfaceRepository m (m.attempt + 1) (errorMessage e)
        else handleRetry interfaceRepository m (m.attempt + 1) (errorMessage e)).run
          (World.handler uuid (steady outcomes (clock w))) w₁).2 := by
  obtain ⟨redis, hrun, hzsets⟩ := run_alreadyDelivered uuid (steady outcomes (clock w))
    h.toDeliverable
  refine ⟨_, attempted_of_failure h hzsets (x := sending provider m (.error e))
    (a := failedAttempt m (m.attempt + 1) e) rfl, ?_⟩
  simp [after, processor, processDelivery, deliver, hrun, failed, handleFailure, sending]

theorem processor_exhausted (h : Fresh w m) {e : JsError}
    (failed : outcomes w.inbox.length = .error e) (exhausted : MAX_ATTEMPTS ≤ m.attempt + 1) :
    ∃ w₁, Attempted m w w₁ ∧
      Settled w₁ (after uuid outcomes clock (processor provider) m w) [] true := by
  obtain ⟨w₁, attempted, hafter⟩ := processor_failed uuid outcomes clock provider h failed
  refine ⟨w₁, attempted, ?_⟩
  rw [hafter, if_pos exhausted]
  simp only [handleMaxAttemptsReached, run_bind,
    InterfaceRepository.run_updateStatus uuid
      (steady outcomes (clock w)) _ _ _ _ attempted.fresh.idle,
    InterfaceRepository.run_saveDLQEntry, EventPublisherService.publishLog,
    EventPublisherService.publishDLQMessage, EventPublisherService.publishError, run_produce,
    run_pure, andThen_ok]
  exact ⟨rfl, rfl, attempted.fresh.unscheduled, List.length_append⟩

theorem processor_retry (h : Fresh w m) {e : JsError} (failed : outcomes w.inbox.length = .error e)
    (start : 0 ≤ m.attempt) (left : m.attempt + 1 < MAX_ATTEMPTS) : ∃ w₁, Attempted m w w₁ ∧
      Settled w₁ (after uuid outcomes clock (processor provider) m w)
        [(RetrySchedulerService.payload m.messageId m.channel (m.attempt + 2),
          (clock w).time + backoffDelay (m.attempt + 1))] false := by
  obtain ⟨w₁, attempted, hafter⟩ := processor_failed uuid outcomes clock provider h failed
  refine ⟨w₁, attempted, ?_⟩
  rw [hafter, if_neg (Int.not_le.mpr left)]
  simp only [handleRetry, RetrySchedulerService.run_scheduleRetry uuid (steady outcomes (clock w))
      _ _ _ _ (backoffDelay_nonneg _) (backoffDelay_le _), run_bind,
    InterfaceRepository.run_updateStatus uuid
      (steady outcomes (clock w)) _ _ _ _ attempted.fresh.idle,
    EventPublisherService.publishLog, run_produce, run_pure, andThen_ok, steady_now,
    add_of_left start left]
  exact settled_of_retry attempted.fresh.unscheduled rfl rfl rfl rfl

end Processor

section UseCase

open ProcessDeliveryUseCase

/-- The marker is set or was set before; the use case goes on in both cases. -/
theorem run_checkDeliveryDedup (choose : World → Choice) (dedupKey : String) (w : World) :
    ∃ redis, (RedisDeliveryService.checkDeliveryDedup dedupKey).run (World.handler uuid choose) w =
      (.ok true, { w with redis := redis }) ∧ redis.zsets = w.redis.zsets := by
  by_cases h : (w.redis.live ("delivered:" ++ dedupKey)).isSome
  · exact ⟨w.redis, by simp [RedisDeliveryService.checkDeliveryDedup, h], rfl⟩
  · exact ⟨w.redis.set ("delivered:" ++ dedupKey) (.number 1) none,
      by simp [RedisDeliveryService.checkDeliveryDedup, h], rfl⟩

theorem useCase_failed (h : Fresh w m) {e : JsError} (failed : outcomes w.inbox.length = .error e) :
    ∃ w₁, Attempted m w w₁ ∧ after uuid outcomes clock (useCase provider) m w =
      ((if MAX_ATTEMPTS ≤ m.attempt + 1 then
          sendToDlq interfaceRepository m (m.attempt + 1) e
        else retry m (m.attempt + 1) e).run
          (World.handler uuid (steady outcomes (clock w))) w₁).2 := by
  obtain ⟨redis, hrun, hzsets⟩ :=
    run_checkDeliveryDedup uuid (steady outcomes (clock w)) m.dedupKey w
  refine ⟨_, attempted_of_failure h hzsets
    (x := ⟨provider.name, m.recipient, m.body, noOptions, m, .error e⟩)
    (a := failedAttempt m (m.attempt + 1) e) rfl, ?_⟩
  simp [after, useCase, execute, deliver, alreadyDelivered, hrun, h.toDeliverable.getStatus, failed,
    handleFailure]

theorem useCase_exhausted (h : Fresh w m) {e : JsError}
    (failed : outcomes w.inbox.length = .error e) (exhausted : MAX_ATTEMPTS ≤ m.attempt + 1) :
    ∃ w₁, Attempted m w w₁ ∧
      Settled w₁ (after uuid outcomes clock (useCase provider) m w) [] true := by
  obtain ⟨w₁, attempted, hafter⟩ := useCase_failed uuid outcomes clock provider h failed
  refine ⟨w₁, attempted, ?_⟩
  rw [hafter, if_pos exhausted]
  simp only [sendToDlq, run_bind,
    InterfaceRepository.run_updateStatus uuid
      (steady outcomes (clock w)) _ _ _ _ attempted.fresh.idle,
    InterfaceRepository.run_saveDLQEntry, KafkaEventPublisher.publishLog, run_produce, run_pure,
    andThen_ok]
  exact ⟨rfl, rfl, attempted.fresh.unscheduled, List.length_append⟩

/-- With attempts left the delays of the two implementations are the same. -/
theorem backoffDelay_eq {a : Int} (start : 0 ≤ a) (left : a + 1 < MAX_ATTEMPTS) :
    backoffDelay (a + 1) = some (DeliveryProcessorService.backoffDelay (a + 1)) := by
  have cases : a = 0 ∨ a = 1 ∨ a = 2 := by
    rw [MAX_ATTEMPTS] at left
    omega
  rcases cases with rfl | rfl | rfl <;> rfl

theorem useCase_retry (h : Fresh w m) {e : JsError} (failed : outcomes w.inbox.length = .error e)
    (start : 0 ≤ m.attempt) (left : m.attempt + 1 < MAX_ATTEMPTS) : ∃ w₁, Attempted m w w₁ ∧
      Settled w₁ (after uuid outcomes clock (useCase provider) m w)
        [(RetrySchedulerService.payload m.messageId m.channel (m.attempt + 1),
          (clock w).time + DeliveryProcessorService.backoffDelay (m.attempt + 1))] false := by
  obtain ⟨w₁, attempted, hafter⟩ := useCase_failed uuid outcomes clock provider h failed
  refine ⟨w₁, attempted, ?_⟩
  rw [hafter, if_neg (Int.not_le.mpr left)]
  simp only [retry, RedisDeliveryService.scheduleRetry, backoffDelay_eq start left, run_bind,
    KafkaEventPublisher.publishLog, run_dateNow, RedisClient.run_zAdd, run_produce, run_pure,
    andThen_ok, steady_now]
  exact settled_of_retry attempted.fresh.unscheduled rfl rfl rfl rfl

theorem run_getPendingRetries {choose : World → Choice} (h : w.redis.zsets "retries" = []) :
    RedisDeliveryService.getPendingRetries.run (World.handler uuid choose) w = (.ok [], w) := by
  simp [RedisDeliveryService.getPendingRetries, h]

end UseCase

/-! ## The chain -/

theorem payload_injective {messageId channel : String} {a b : ℕ} (exact : a ≤ Number.exactLimit)
    (exact' : b ≤ Number.exactLimit) (h : RetrySchedulerService.payload messageId channel a =
      RetrySchedulerService.payload messageId channel b) : a = b := by
  have htext := (append_colon_inj (noColon_toText a) (noColon_toText b) h).2
  rw [Number.toText_of_le exact, Number.toText_of_le exact'] at htext
  exact repr_injective htext

/-- With nothing to poll the chain ends. -/
theorem chain_of_settled {P : Pipeline} (n : ℕ)
    (poll : (P.getPendingRetries.run (World.handler uuid (steady outcomes
      (late (after uuid outcomes clock P m w)))) (after uuid outcomes clock P m w)).1 = .ok []) :
    chain uuid outcomes clock late P (n + 1) m w = [roundOf uuid outcomes clock P m w] := by
  cases hrun : P.getPendingRetries.run (World.handler uuid (steady outcomes
      (late (after uuid outcomes clock P m w)))) (after uuid outcomes clock P m w) with
  | mk o w' =>
      rw [hrun] at poll
      obtain rfl : o = .ok [] := poll
      simp only [chain, hrun, List.find?_nil]

/-- Pipelines that stop after the same round are alike. -/
theorem alike_of_settled {P P' : Pipeline}
    (same : roundOf uuid outcomes clock P m w = roundOf uuid outcomes clock P' m w)
    (buried : (roundOf uuid outcomes clock P m w).dlq = true)
    (stops : ∀ n, chain uuid outcomes clock late P (n + 1) m w =
      [roundOf uuid outcomes clock P m w])
    (stops' : ∀ n, chain uuid outcomes clock late P' (n + 1) m w =
      [roundOf uuid outcomes clock P' m w]) :
    RetryAlike uuid outcomes clock late P P' m w where
  decision := .inr ⟨buried, same ▸ buried⟩
  scheduled := by rw [same]
  chains _ n := by
    cases n with
    | zero => exact ⟨rfl, rfl⟩
    | succ n =>
        rw [stops n, stops' n, same]
        exact ⟨rfl, rfl⟩

/-- The two implementations retry alike just when there is nothing to retry: they schedule
different members, unless the message goes to the DLQ at once. -/
theorem retry_alike_iff (h : Fresh w m) (start : 0 ≤ m.attempt) {e : JsError}
    (failed : outcomes w.inbox.length = .error e) :
    RetryAlike uuid outcomes clock late (processor provider) (useCase provider) m w ↔
      DeliveryProcessorService.MAX_ATTEMPTS ≤ m.attempt + 1 := by
  constructor
  · intro alike
    by_contra exhausted
    have left := Int.not_le.mp exhausted
    obtain ⟨w₁, attempted, settled⟩ :=
      processor_retry uuid outcomes clock provider h failed start left
    obtain ⟨w₂, attempted', settled'⟩ :=
      useCase_retry uuid outcomes clock provider h failed start left
    have hmembers := alike.scheduled
    rw [roundOf, roundOf, roundBetween_eq clock attempted settled,
      roundBetween_eq clock attempted' settled'] at hmembers
    have hpayload := congrArg Prod.fst (List.singleton_inj.mp hmembers)
    obtain ⟨a, ha⟩ := Int.eq_ofNat_of_zero_le (show 0 ≤ m.attempt + 2 by omega)
    obtain ⟨b, hb⟩ := Int.eq_ofNat_of_zero_le (show 0 ≤ m.attempt + 1 by omega)
    rw [DeliveryProcessorService.MAX_ATTEMPTS] at left
    rw [ha, hb] at hpayload
    have := payload_injective (by rw [Number.exactLimit]; omega) (by rw [Number.exactLimit]; omega)
      hpayload
    omega
  · intro exhausted
    obtain ⟨w₁, attempted, settled⟩ :=
      processor_exhausted uuid outcomes clock provider h failed exhausted
    obtain ⟨w₂, attempted', settled'⟩ :=
      useCase_exhausted uuid outcomes clock provider h failed exhausted
    have hround := roundBetween_eq clock attempted settled
    have hround' := roundBetween_eq clock attempted' settled'
    refine alike_of_settled uuid outcomes clock late (hround.trans hround'.symm)
      (by rw [roundOf, hround]) (fun n => ?_) fun n => ?_
    · apply chain_of_settled uuid outcomes clock late n
      let w' := after uuid outcomes clock (processor provider) m w
      obtain ⟨redis, hrun⟩ := RetrySchedulerService.run_getPendingRetries uuid
        (rfl : ((steady outcomes (late w') w').now.time : Int) = _)
      apply (congrArg Prod.fst hrun).trans
      rw [RetrySchedulerService.due, settled.retries]
      rfl
    · apply chain_of_settled uuid outcomes clock late n
      exact congrArg Prod.fst (run_getPendingRetries uuid settled'.retries)

end Chain

/-- A message that always fails gets three provider calls from the processor, numbered 1, 3 and
5, and four from the use case. -/
theorem retry_alike_fails :
    numbers (chain toString alwaysDown (fun _ => .epoch) (fun _ => minuteLater)
      (processor ⟨"SMSProvider"⟩) 5 sampleMessage sampleWorld) = [1, 3, 5] ∧
    numbers (chain toString alwaysDown (fun _ => .epoch) (fun _ => minuteLater)
      (useCase ⟨"SMSProvider"⟩) 5 sampleMessage sampleWorld) = [1, 2, 3, 4] ∧
    ¬ RetryAlike toString alwaysDown (fun _ => .epoch) (fun _ => minuteLater)
      (processor ⟨"SMSProvider"⟩) (useCase ⟨"SMSProvider"⟩) sampleMessage sampleWorld := by
  refine ⟨by decide, by decide, fun alike => ?_⟩
  have := (alike.chains (fun i => ⟨_, rfl⟩) 5).2
  exact absurd this (by decide)

/-- The last attempt of a message. -/
theorem retry_alike_last : RetryAlike toString alwaysDown (fun _ => .epoch) (fun _ => minuteLater)
    (processor ⟨"SMSProvider"⟩) (useCase ⟨"SMSProvider"⟩) { sampleMessage with attempt := 3 }
    sampleWorld :=
  (retry_alike_iff toString alwaysDown (fun _ => .epoch) (fun _ => minuteLater) ⟨"SMSProvider"⟩
    ⟨⟨by decide, by decide⟩, rfl⟩ (by decide) rfl).mpr (by decide)

end TwoPipelines

end Notification
