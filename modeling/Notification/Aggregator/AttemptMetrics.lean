import Notification.Aggregator.IdempotencyMetricsService

/-!
# What the attempt metrics say of the attempts

The counters count calls. No attempt number ever gets into one of them, so the average is that
of all calls over the successful ones, and the retry success rate is that of all calls.
-/

namespace Notification

namespace AttemptMetrics

open IdempotencyMetricsService

/-- The record methods, and `reset`. -/
inductive RecordCall where
  | recordIngressCacheHit
  | recordIngressCacheMiss
  | recordBatchProcessed (totalMessages newMessages duplicates latencyMs : ℚ)
  | recordDeliverySuccess (latencyMs attemptNumber : ℚ)
  | recordDeliveryFailure (latencyMs attemptNumber : ℚ)
  | recordRetryScheduled
  | recordDedupCheckLatency (latencyMs : ℚ)
  | reset

def RecordCall.apply (service : IdempotencyMetricsService) : RecordCall → IdempotencyMetricsService
  | recordIngressCacheHit => service.recordIngressCacheHit
  | recordIngressCacheMiss => service.recordIngressCacheMiss
  | recordBatchProcessed totalMessages newMessages duplicates latencyMs =>
    service.recordBatchProcessed totalMessages newMessages duplicates latencyMs
  | recordDeliverySuccess latencyMs attemptNumber =>
    service.recordDeliverySuccess latencyMs attemptNumber
  | recordDeliveryFailure latencyMs attemptNumber =>
    service.recordDeliveryFailure latencyMs attemptNumber
  | recordRetryScheduled => service.recordRetryScheduled
  | recordDedupCheckLatency latencyMs => service.recordDedupCheckLatency latencyMs
  | reset => service.reset

/-- The service after some calls. -/
def after (calls : List RecordCall) : IdempotencyMetricsService := calls.foldl RecordCall.apply new

/-! ## What should be reported -/

/-- A recorded delivery. -/
structure Attempt where
  attemptNumber : ℚ
  success : Bool
  deriving DecidableEq, Repr

def record (attempts : List Attempt) : RecordCall → List Attempt
  | .recordDeliverySuccess _ attemptNumber => attempts ++ [⟨attemptNumber, true⟩]
  | .recordDeliveryFailure _ attemptNumber => attempts ++ [⟨attemptNumber, false⟩]
  | .reset => []
  | _ => attempts

/-- The deliveries that have been recorded since the last reset. -/
def recorded (calls : List RecordCall) : List Attempt := calls.foldl record []

def successes (attempts : List Attempt) : ℕ := attempts.countP Attempt.success

/-- The attempts that are not a first one. -/
def retries (attempts : List Attempt) : List Attempt := attempts.filter fun a => 1 < a.attemptNumber

def numbers (attempts : List Attempt) : ℚ := (attempts.map Attempt.attemptNumber).sum

/-- The average attempt number, to two decimals. -/
def averageAttempts (attempts : List Attempt) : ℚ :=
  if attempts = [] then 0 else round (numbers attempts / attempts.length * 100) / 100

/-- How many percent of the retries were successful, to two decimals. -/
def retrySuccessRate (attempts : List Attempt) : ℚ :=
  if retries attempts = [] then 0
  else round ((successes (retries attempts) : ℚ) / (retries attempts).length * 10000) / 100

/-- Two numbers are nearest to the same hundredth; the upper end of the range belongs to the
next one. -/
def SameHundredth (x y : ℚ) : Prop :=
  ∃ k : ℤ, (k - 1 / 2 ≤ x * 100 ∧ x * 100 < k + 1 / 2) ∧
    (k - 1 / 2 ≤ y * 100 ∧ y * 100 < k + 1 / 2)

/-- The average of the attempt numbers is nearly the number of attempts for each success, and
the retries are nearly as often successful as all attempts are. -/
def Agree (attempts : List Attempt) : Prop :=
  SameHundredth (attempts.length / successes attempts) (numbers attempts / attempts.length) ∧
  SameHundredth (successes attempts / attempts.length * 100)
    (successes (retries attempts) / (retries attempts).length * 100)

/-- Nothing has been delivered, or all attempts have the same number, not the first one, and one
in so many of them has been successful. -/
def Steady (attempts : List Attempt) : Prop :=
  attempts = [] ∨ ∃ k : ℚ, 1 < k ∧ (∀ a ∈ attempts, a.attemptNumber = k) ∧
    (attempts.length : ℚ) = k * successes attempts

/-! ## The counters -/

/-- What the counters hold. -/
structure Counts (attempts : List Attempt) (service : IdempotencyMetricsService) : Prop where
  attempted : service.get "retryAttemptCount" = attempts.length
  delivered : service.get "messagesDeliveredCount" = successes attempts
  succeeded : service.get "retrySuccessCount" = successes attempts

variable {attempts : List Attempt} {service : IdempotencyMetricsService}

theorem counts_initializeMetrics (service : IdempotencyMetricsService) :
    Counts [] service.initializeMetrics := by
  constructor <;> simp [initializeMetrics, successes]

theorem Counts.record (h : Counts attempts service) (call : RecordCall) :
    Counts (record attempts call) (call.apply service) := by
  obtain ⟨attempted, delivered, succeeded⟩ := h
  have deliveryLatencies (service : IdempotencyMetricsService) (latencies : List ℚ)
      (key : String) :
      ({ service with deliveryLatencies := latencies } : IdempotencyMetricsService).get key =
        service.get key := rfl
  have batchLatencies (service : IdempotencyMetricsService) (latencies : List ℚ) (key : String) :
      ({ service with batchLatencies := latencies } : IdempotencyMetricsService).get key =
        service.get key := rfl
  cases call with
  | recordDeliverySuccess latencyMs attemptNumber =>
      constructor <;> simp [AttemptMetrics.record, RecordCall.apply, recordDeliverySuccess,
        deliveryLatencies, attempted, delivered, succeeded, successes]
  | recordDeliveryFailure latencyMs attemptNumber =>
      constructor <;> simp [AttemptMetrics.record, RecordCall.apply, recordDeliveryFailure,
        deliveryLatencies, attempted, delivered, succeeded, successes]
  | recordBatchProcessed totalMessages newMessages duplicates latencyMs =>
      constructor <;> simp [AttemptMetrics.record, RecordCall.apply, recordBatchProcessed,
        batchLatencies, attempted, delivered, succeeded]
  | recordDedupCheckLatency latencyMs => exact ⟨attempted, delivered, succeeded⟩
  | reset =>
      obtain ⟨attempted, delivered, succeeded⟩ := counts_initializeMetrics service
      exact ⟨attempted, delivered, succeeded⟩
  | _ =>
      constructor <;> simp [AttemptMetrics.record, RecordCall.apply, recordIngressCacheHit,
        recordIngressCacheMiss, recordRetryScheduled, attempted, delivered, succeeded]

/-- After any calls the counters hold the number of deliveries since the last reset, and how
many of them were successful. -/
theorem counts_after (calls : List RecordCall) : Counts (recorded calls) (after calls) := by
  suffices h : ∀ attempts service, Counts attempts service →
      Counts (calls.foldl AttemptMetrics.record attempts)
        (calls.foldl RecordCall.apply service) from
    h [] new (counts_initializeMetrics {})
  induction calls with
  | nil => exact fun _ _ h => h
  | cons call rest ih => exact fun _ _ h => ih _ _ (h.record call)

/-! ## The ratios -/

theorem hundredths_eq_iff (x y : ℚ) :
    (round (x * 100) : ℚ) / 100 = round (y * 100) / 100 ↔ SameHundredth x y := by
  rw [div_left_inj' (by norm_num), Int.cast_inj]
  constructor
  · intro h
    exact ⟨round (y * 100), round_eq_iff.mp h, round_eq_iff.mp rfl⟩
  · rintro ⟨k, hx, hy⟩
    rw [round_eq_iff.mpr hx, round_eq_iff.mpr hy]

theorem calculateAverageAttempts_eq (h : Counts attempts service) :
    service.calculateAverageAttempts =
      round ((attempts.length / successes attempts : ℚ) * 100) / 100 := by
  rw [calculateAverageAttempts, h.attempted, h.delivered]
  by_cases none : (successes attempts : ℚ) = 0
  · simp [none]
  · simp [none]

theorem getRetrySuccessRate_eq (h : Counts attempts service) : service.getRetrySuccessRate =
    round ((successes attempts / attempts.length * 100 : ℚ) * 100) / 100 := by
  have hpercent (x : ℚ) : x * 100 * 100 = x * 10000 := by ring
  rw [getRetrySuccessRate, h.attempted, h.succeeded, hpercent]
  by_cases none : (attempts.length : ℚ) = 0
  · simp [none]
  · simp [none]

theorem averageAttempts_eq (attempts : List Attempt) : averageAttempts attempts =
    round ((numbers attempts / attempts.length : ℚ) * 100) / 100 := by
  rw [averageAttempts]
  split
  · next none => simp [none]
  · rfl

theorem retrySuccessRate_eq (attempts : List Attempt) : retrySuccessRate attempts =
    round ((successes (retries attempts) / (retries attempts).length * 100 : ℚ) * 100) / 100 := by
  have hpercent (x : ℚ) : x * 100 * 100 = x * 10000 := by ring
  rw [retrySuccessRate, hpercent]
  split
  · next none => simp [none]
  · rfl

/-- After any calls, average and success rate are those of the recorded attempts exactly if the
attempts happen to agree. -/
theorem reflected_iff_agree (calls : List RecordCall) :
    ((after calls).getMetrics.averageAttemptsPerMessage = averageAttempts (recorded calls) ∧
      (after calls).getRetrySuccessRate = retrySuccessRate (recorded calls)) ↔
    Agree (recorded calls) := by
  have counts := counts_after calls
  have haverage : (after calls).getMetrics.averageAttemptsPerMessage =
    (after calls).calculateAverageAttempts := rfl
  rw [haverage, calculateAverageAttempts_eq counts, averageAttempts_eq, hundredths_eq_iff,
    getRetrySuccessRate_eq counts, retrySuccessRate_eq, hundredths_eq_iff]
  rfl

theorem SameHundredth.refl (x : ℚ) : SameHundredth x x := (hundredths_eq_iff x x).mp rfl

/-- Steady attempts agree, since all of them are retries. -/
theorem Steady.agree (steady : Steady attempts) : Agree attempts := by
  obtain rfl | ⟨k, later, numbered, frequency⟩ := steady
  · exact ⟨.refl _, .refl _⟩
  · have hretries : retries attempts = attempts :=
      List.filter_eq_self.mpr fun a ha => by simpa [numbered a ha] using later
    have hnumbers : numbers attempts = attempts.length * k := by
      rw [numbers, List.map_congr_left numbered, List.map_const', List.sum_replicate,
        nsmul_eq_mul]
    refine ⟨?_, hretries.symm ▸ .refl _⟩
    by_cases none : (successes attempts : ℚ) = 0
    · rw [none, mul_zero] at frequency
      simp [none, frequency, SameHundredth.refl]
    · have some : (attempts.length : ℚ) ≠ 0 := by
        rw [frequency]
        exact mul_ne_zero (by linarith) none
      have haverage : (attempts.length / successes attempts : ℚ) = k := by
        rw [frequency, mul_div_cancel_right₀ k none]
      have hmean : numbers attempts / attempts.length = k := by
        rw [hnumbers, mul_div_cancel_left₀ k some]
      rw [haverage, hmean]
      exact .refl k

/-- After any calls whose attempts are steady, average and success rate are those of the recorded
attempts. -/
theorem attempts_reflected_of_steady {calls : List RecordCall} (steady : Steady (recorded calls)) :
    (after calls).getMetrics.averageAttemptsPerMessage = averageAttempts (recorded calls) ∧
      (after calls).getRetrySuccessRate = retrySuccessRate (recorded calls) :=
  (reflected_iff_agree calls).mpr steady.agree

/-- Two messages that are retried once, one of them in vain. -/
def retriedOnce : List RecordCall :=
  [.recordDeliverySuccess 20 1, .reset, .recordDeliverySuccess 20 2, .recordDedupCheckLatency 1,
    .recordDeliveryFailure 30 2]

theorem attempts_reflected_retriedOnce :
    ((after retriedOnce).getMetrics.averageAttemptsPerMessage =
        averageAttempts (recorded retriedOnce) ∧
      (after retriedOnce).getRetrySuccessRate = retrySuccessRate (recorded retriedOnce)) ∧
    averageAttempts (recorded retriedOnce) = 2 ∧ retrySuccessRate (recorded retriedOnce) = 50 := by
  have hrecorded : recorded retriedOnce = [⟨2, true⟩, ⟨2, false⟩] := rfl
  have steady : Steady (recorded retriedOnce) := by
    rw [hrecorded]
    exact .inr ⟨2, one_lt_two, by simp, by norm_num [successes]⟩
  refine ⟨attempts_reflected_of_steady steady, ?_, ?_⟩
  · rw [hrecorded, averageAttempts, if_neg (List.cons_ne_nil _ _)]
    norm_num [numbers, round_eq]
  · rw [hrecorded, retrySuccessRate_eq]
    norm_num [retries, successes, round_eq]

/-- A message that is delivered at once, and one that is given up after four attempts. -/
def oneOfEach : List RecordCall := [.recordDeliverySuccess 20 1, .recordDeliveryFailure 30 4]

/-- There were 2.5 attempts on average, and the only retry failed. -/
theorem attempts_reflected_fails :
    (after oneOfEach).getMetrics.averageAttemptsPerMessage = 2 ∧
    averageAttempts (recorded oneOfEach) = 5 / 2 ∧
    (after oneOfEach).getRetrySuccessRate = 50 ∧ retrySuccessRate (recorded oneOfEach) = 0 ∧
    ¬ ((after oneOfEach).getMetrics.averageAttemptsPerMessage =
        averageAttempts (recorded oneOfEach) ∧
      (after oneOfEach).getRetrySuccessRate = retrySuccessRate (recorded oneOfEach)) := by
  have hrecorded : recorded oneOfEach = [⟨1, true⟩, ⟨4, false⟩] := rfl
  have counts := counts_after oneOfEach
  rw [hrecorded] at counts ⊢
  have haverage : (after oneOfEach).getMetrics.averageAttemptsPerMessage = 2 := by
    apply (calculateAverageAttempts_eq counts).trans
    norm_num [successes, round_eq]
  have hclaimed : averageAttempts [⟨1, true⟩, ⟨4, false⟩] = 5 / 2 := by
    rw [averageAttempts, if_neg (List.cons_ne_nil _ _)]
    norm_num [numbers, round_eq]
  have hrate : (after oneOfEach).getRetrySuccessRate = 50 := by
    apply (getRetrySuccessRate_eq counts).trans
    norm_num [successes, round_eq]
  have hfailed : retrySuccessRate [⟨1, true⟩, ⟨4, false⟩] = 0 := by
    norm_num [retrySuccessRate, retries, successes, round_eq]
  refine ⟨haverage, hclaimed, hrate, hfailed, ?_⟩
  rw [haverage, hclaimed]
  norm_num

end AttemptMetrics

end Notification
