import Mathlib.Algebra.Order.BigOperators.Group.List
import Notification.Aggregator.AttemptMetrics
import Notification.Lookup.Since

/-!
# What the metrics report

A report is determined by the calls since the last reset: each counter is a sum over these
calls, and each average is that of their latencies. Several counters say the same.
-/

namespace Notification

namespace AttemptMetrics

open IdempotencyMetricsService Lookup

/-! ## What single calls say -/

namespace RecordCall

def resets : RecordCall → Bool
  | reset => true
  | _ => false

def hits : RecordCall → ℚ
  | recordIngressCacheHit => 1
  | _ => 0

def misses : RecordCall → ℚ
  | recordIngressCacheMiss => 1
  | _ => 0

def batches : RecordCall → ℚ
  | recordBatchProcessed .. => 1
  | _ => 0

def messages : RecordCall → ℚ
  | recordBatchProcessed totalMessages _ _ _ => totalMessages
  | _ => 0

def newMessages : RecordCall → ℚ
  | recordBatchProcessed _ newMessages _ _ => newMessages
  | _ => 0

def duplicates : RecordCall → ℚ
  | recordBatchProcessed _ _ duplicates _ => duplicates
  | _ => 0

def deliveries : RecordCall → ℚ
  | recordDeliverySuccess .. => 1
  | _ => 0

def failures : RecordCall → ℚ
  | recordDeliveryFailure .. => 1
  | _ => 0

def scheduled : RecordCall → ℚ
  | recordRetryScheduled => 1
  | _ => 0

def batchLatency? : RecordCall → Option ℚ
  | recordBatchProcessed _ _ _ latencyMs => some latencyMs
  | _ => none

def deliveryLatency? : RecordCall → Option ℚ
  | recordDeliverySuccess latencyMs _ => some latencyMs
  | recordDeliveryFailure latencyMs _ => some latencyMs
  | _ => none

def dedupCheckLatency? : RecordCall → Option ℚ
  | recordDedupCheckLatency latencyMs => some latencyMs
  | _ => none

/-- A batch has no more duplicates than messages. -/
def Sound : RecordCall → Prop
  | recordBatchProcessed totalMessages _ duplicates _ =>
    0 ≤ duplicates ∧ duplicates ≤ totalMessages
  | _ => True

theorem hits_nonneg (call : RecordCall) : 0 ≤ call.hits := by cases call <;> simp [hits]

theorem misses_nonneg (call : RecordCall) : 0 ≤ call.misses := by cases call <;> simp [misses]

theorem deliveries_nonneg (call : RecordCall) : 0 ≤ call.deliveries := by
  cases call <;> simp [deliveries]

theorem failures_nonneg (call : RecordCall) : 0 ≤ call.failures := by
  cases call <;> simp [failures]

theorem Sound.duplicates_bounds {call : RecordCall} (h : call.Sound) :
    0 ≤ call.duplicates ∧ call.duplicates ≤ call.messages := by
  cases call with
  | recordBatchProcessed totalMessages newMessages duplicates latencyMs => exact h
  | _ => simp [duplicates, messages]

end RecordCall

open RecordCall

/-! ## What all of them say -/

def total (f : RecordCall → ℚ) (calls : List RecordCall) : ℚ := (calls.map f).sum

/-- `Math.round((part / whole) * 10000) / 100` -/
def percent (part whole : ℚ) : ℚ := if 0 < whole then round (part / whole * 10000) / 100 else 0

/-- The report on some calls. -/
def snapshot (calls : List RecordCall) : IdempotencyMetrics where
  ingressCacheHits := total hits calls
  ingressCacheMisses := total misses calls
  batchesProcessed := total batches calls
  messagesProcessed := total messages calls
  messagesNewCount := total newMessages calls
  messagesDuplicateCount := total duplicates calls
  messagesDeliveredCount := total deliveries calls
  messagesFailedCount := total failures calls
  messagesRetryScheduledCount := total scheduled calls
  messagesInDLQCount := total failures calls
  retryAttemptCount := total deliveries calls + total failures calls
  retrySuccessCount := total deliveries calls
  retryFailureCount := total failures calls
  averageAttemptsPerMessage :=
    if total deliveries calls = 0 then 0
    else
      round ((total deliveries calls + total failures calls) / total deliveries calls * 100) / 100
  averageBatchLatencyMs := calculateAverage (calls.filterMap batchLatency?)
  averageDeliveryLatencyMs := calculateAverage (calls.filterMap deliveryLatency?)
  averageDedupCheckLatencyMs := calculateAverage (calls.filterMap dedupCheckLatency?)
  emailSuccessRate := 0
  smsSuccessRate := 0
  whatsappSuccessRate := 0

/-- The counters, and what a call adds to each. -/
def contributions : List (String × (RecordCall → ℚ)) :=
  [ ("ingressCacheHits", hits), ("ingressCacheMisses", misses), ("batchesProcessed", batches),
    ("messagesProcessed", messages), ("messagesNewCount", newMessages),
    ("messagesDuplicateCount", duplicates), ("messagesDeliveredCount", deliveries),
    ("messagesFailedCount", failures), ("messagesRetryScheduledCount", scheduled),
    ("messagesInDLQCount", failures), ("retryAttemptCount", fun c => deliveries c + failures c),
    ("retrySuccessCount", deliveries), ("retryFailureCount", failures) ]

section Counters

variable {key : String} {f : RecordCall → ℚ}

/-- The latencies are no counters. -/
theorem get_with_latencies (service : IdempotencyMetricsService) (batch delivery check : List ℚ)
    (key : String) :
    (IdempotencyMetricsService.mk service.metrics batch delivery check).get key =
      service.get key := rfl

/-- A call adds to each counter what it says. -/
theorem get_apply (h : (key, f) ∈ contributions) (service : IdempotencyMetricsService)
    {call : RecordCall} (kept : call.resets = false) :
    (call.apply service).get key = service.get key + f call := by
  simp only [contributions, List.mem_cons, Prod.mk.injEq, List.not_mem_nil, or_false] at h
  -- one case for each counter, and in it one for each method
  rcases h with h | h | h | h | h | h | h | h | h | h | h | h | h <;> obtain ⟨rfl, rfl⟩ := h <;>
    cases call with
    | reset => cases kept
    | _ =>
        simp [RecordCall.apply, IdempotencyMetricsService.recordIngressCacheHit,
          IdempotencyMetricsService.recordIngressCacheMiss,
          IdempotencyMetricsService.recordBatchProcessed,
          IdempotencyMetricsService.recordDeliverySuccess,
          IdempotencyMetricsService.recordDeliveryFailure,
          IdempotencyMetricsService.recordRetryScheduled,
          IdempotencyMetricsService.recordDedupCheckLatency, get_with_latencies, hits, misses,
          batches, messages, newMessages, duplicates, deliveries, failures, scheduled]

/-- The constructor and `reset` leave no counts. -/
theorem get_initializeMetrics (h : (key, f) ∈ contributions)
    (service : IdempotencyMetricsService) : service.initializeMetrics.get key = 0 := by
  simp only [contributions, List.mem_cons, Prod.mk.injEq, List.not_mem_nil, or_false] at h
  rcases h with h | h | h | h | h | h | h | h | h | h | h | h | h <;> obtain ⟨rfl, -⟩ := h <;>
    simp [initializeMetrics]

theorem apply_of_resets {call : RecordCall} (h : call.resets = true)
    (service : IdempotencyMetricsService) : call.apply service = service.reset := by
  cases call with
  | reset => rfl
  | _ => cases h

/-- A counter holds the sum over the calls since the last reset. -/
theorem get_after (h : (key, f) ∈ contributions) (calls : List RecordCall) :
    (after calls).get key = total f (since resets calls) := by
  have hfold : ∀ (cs : List RecordCall) (x : ℚ),
      cs.foldl (fun x c => x + f c) x = x + total f cs := by
    intro cs
    induction cs with
    | nil => simp [total]
    | cons c rest ih =>
        intro x
        rw [List.foldl_cons, ih, total, total, List.map_cons, List.sum_cons, add_assoc]
  have reset (service : IdempotencyMetricsService) (call : RecordCall)
      (resets : call.resets = true) : (call.apply service).get key = 0 := by
    rw [apply_of_resets resets]
    exact get_initializeMetrics h service
  have observed : (calls.foldl RecordCall.apply new).get key =
      (since resets calls).foldl (fun x c => x + f c) 0 :=
    observe_foldl (fun service => service.get key) (fun x c => x + f c) reset
      (fun service _ kept => get_apply h service kept) (get_initializeMetrics h {}) calls
  rw [after, observed, hfold, zero_add]

end Counters

section Latencies

variable {observe : IdempotencyMetricsService → List ℚ} {f : RecordCall → Option ℚ}

/-- A list of latencies holds those since the last reset. -/
theorem latencies_after (start : observe new = [])
    (reset : ∀ service : IdempotencyMetricsService, observe service.reset = [])
    (step : ∀ (service : IdempotencyMetricsService) (call : RecordCall), call.resets = false →
      observe (call.apply service) = observe service ++ (f call).toList)
    (calls : List RecordCall) : observe (after calls) = (since resets calls).filterMap f := by
  have hfold : ∀ (cs : List RecordCall) (l : List ℚ),
      cs.foldl (fun l c => l ++ (f c).toList) l = l ++ cs.filterMap f := by
    intro cs
    induction cs with
    | nil => simp
    | cons c rest ih =>
        intro l
        rw [List.foldl_cons, ih, List.append_assoc, List.filterMap_cons]
        cases f c <;> rfl
  have observed : observe (calls.foldl RecordCall.apply new) =
      (since resets calls).foldl (fun l c => l ++ (f c).toList) [] :=
    observe_foldl observe (fun l c => l ++ (f c).toList)
      (fun service call resets => by rw [apply_of_resets resets, reset]) step start calls
  rw [after, observed, hfold, List.nil_append]

end Latencies

/-! ## The report -/

section Percent

variable {part whole : ℚ}

/-- What is part of a whole is no more than a hundred percent of it. -/
theorem percent_bounds (hpart : 0 ≤ part) (hwhole : part ≤ whole) :
    0 ≤ percent part whole ∧ percent part whole ≤ 100 := by
  unfold percent
  split
  · next positive =>
      have hlow : (0 : ℤ) ≤ round (part / whole * 10000) := by
        rw [round_eq, Int.floor_nonneg]
        positivity
      have hhigh : round (part / whole * 10000) ≤ (10000 : ℤ) := by
        have hshare : part / whole ≤ 1 := (div_le_one positive).mpr hwhole
        rw [round_eq, Int.floor_le_iff]
        push_cast
        linarith
      have hlow' : (0 : ℚ) ≤ round (part / whole * 10000) := by exact_mod_cast hlow
      have hhigh' : (round (part / whole * 10000) : ℚ) ≤ 10000 := by exact_mod_cast hhigh
      constructor <;> linarith
  · norm_num

theorem percent_mono {part' : ℚ} (h : part ≤ part') (whole : ℚ) :
    percent part whole ≤ percent part' whole := by
  unfold percent
  split
  · have hround : round (part / whole * 10000) ≤ round (part' / whole * 10000) := by
      rw [round_eq, round_eq]
      gcongr
    gcongr
  · exact le_rfl

end Percent

section Totals

variable {f g : RecordCall → ℚ} {calls calls' : List RecordCall}

theorem total_nonneg (h : ∀ call ∈ calls, 0 ≤ f call) : 0 ≤ total f calls := by
  apply List.sum_nonneg
  intro x hx
  obtain ⟨call, hcall, rfl⟩ := List.mem_map.mp hx
  exact h call hcall

theorem total_le (h : ∀ call ∈ calls, f call ≤ g call) : total f calls ≤ total g calls :=
  List.sum_le_sum h

theorem total_add (f g : RecordCall → ℚ) (calls : List RecordCall) :
    total (fun call => f call + g call) calls = total f calls + total g calls := by
  induction calls with
  | nil => simp [total]
  | cons call rest ih =>
      simp only [total, List.map_cons, List.sum_cons] at ih ⊢
      rw [ih]
      ring

theorem total_perm (h : calls.Perm calls') (f : RecordCall → ℚ) :
    total f calls = total f calls' := (h.map f).sum_eq

theorem calculateAverage_perm {values values' : List ℚ} (h : values.Perm values') :
    calculateAverage values = calculateAverage values' := by
  rw [calculateAverage, calculateAverage, h.length_eq, h.sum_eq]

/-- The order of the calls does not show. -/
theorem snapshot_perm (h : calls.Perm calls') : snapshot calls = snapshot calls' := by
  simp only [snapshot, total_perm h, calculateAverage_perm (h.filterMap _)]

end Totals

section Report

theorem batchLatencies_apply (service : IdempotencyMetricsService) (call : RecordCall)
    (kept : call.resets = false) : (call.apply service).batchLatencies =
      service.batchLatencies ++ call.batchLatency?.toList := by
  cases call with
  | recordBatchProcessed totalMessages newMessages duplicates latencyMs => rfl
  | reset => cases kept
  | _ => exact (List.append_nil _).symm

theorem deliveryLatencies_apply (service : IdempotencyMetricsService) (call : RecordCall)
    (kept : call.resets = false) : (call.apply service).deliveryLatencies =
      service.deliveryLatencies ++ call.deliveryLatency?.toList := by
  cases call with
  | recordDeliverySuccess latencyMs attemptNumber => rfl
  | recordDeliveryFailure latencyMs attemptNumber => rfl
  | reset => cases kept
  | _ => exact (List.append_nil _).symm

theorem dedupCheckLatencies_apply (service : IdempotencyMetricsService) (call : RecordCall)
    (kept : call.resets = false) : (call.apply service).dedupCheckLatencies =
      service.dedupCheckLatencies ++ call.dedupCheckLatency?.toList := by
  cases call with
  | recordDedupCheckLatency latencyMs => rfl
  | reset => cases kept
  | _ => exact (List.append_nil _).symm

variable (calls : List RecordCall)

theorem getMetrics_after : (after calls).getMetrics = snapshot (since resets calls) := by
  have counter {key : String} {f : RecordCall → ℚ} (h : (key, f) ∈ contributions) :
      (after calls).get key = total f (since resets calls) := get_after h calls
  have attempts : (after calls).get "retryAttemptCount" =
      total deliveries (since resets calls) + total failures (since resets calls) := by
    rw [← total_add]
    exact counter (by simp [contributions])
  simp [getMetrics, snapshot, calculateAverageAttempts, attempts,
    latencies_after rfl (fun _ => rfl) batchLatencies_apply,
    latencies_after rfl (fun _ => rfl) deliveryLatencies_apply,
    latencies_after rfl (fun _ => rfl) dedupCheckLatencies_apply, counter, contributions]

/-- How many percent of the attempts were successful. -/
theorem getRetrySuccessRate_after : (after calls).getRetrySuccessRate =
    percent (total deliveries (since resets calls))
      (total deliveries (since resets calls) + total failures (since resets calls)) := by
  have attempts : (after calls).get "retryAttemptCount" =
      total deliveries (since resets calls) + total failures (since resets calls) := by
    rw [← total_add]
    exact get_after (by simp [contributions]) calls
  have successful : (after calls).get "retrySuccessCount" = total deliveries (since resets calls) :=
    get_after (by simp [contributions]) calls
  have hattempts :
      0 ≤ total deliveries (since resets calls) + total failures (since resets calls) :=
    add_nonneg (total_nonneg fun call _ => deliveries_nonneg call)
      (total_nonneg fun call _ => failures_nonneg call)
  rw [getRetrySuccessRate, attempts, successful, percent]
  obtain none | some := hattempts.eq_or_lt
  · simp [← none]
  · simp [some, some.ne']

theorem getDeduplicationEffectiveness_after : (after calls).getDeduplicationEffectiveness =
    { cacheHitRate := percent (total hits (since resets calls))
        (total hits (since resets calls) + total misses (since resets calls))
      duplicateRate := percent (total duplicates (since resets calls))
        (total messages (since resets calls)) } := by
  have counter {key : String} {f : RecordCall → ℚ} (h : (key, f) ∈ contributions) :
      (after calls).get key = total f (since resets calls) := get_after h calls
  simp [getDeduplicationEffectiveness, percent, counter, contributions]

end Report

/-- A share in percent. -/
def Percentage (rate : ℚ) : Prop := 0 ≤ rate ∧ rate ≤ 100

/-- Whatever has been called, the report is the one on the calls since the last reset, in whatever
order these came. The rates are percentages, that of the duplicates if no batch has more of them
than messages. -/
theorem report_after {calls counted : List RecordCall}
    (order : (since resets calls).Perm counted) :
    (after calls).getMetrics = snapshot counted ∧
    (after calls).getRetrySuccessRate =
      percent (total deliveries counted) (total deliveries counted + total failures counted) ∧
    (after calls).getDeduplicationEffectiveness =
      { cacheHitRate := percent (total hits counted) (total hits counted + total misses counted)
        duplicateRate := percent (total duplicates counted) (total messages counted) } ∧
    Percentage (after calls).getRetrySuccessRate ∧
    Percentage (after calls).getDeduplicationEffectiveness.cacheHitRate ∧
    ((∀ call ∈ counted, call.Sound) →
      Percentage (after calls).getDeduplicationEffectiveness.duplicateRate) := by
  have hdeliveries : 0 ≤ total deliveries counted :=
    total_nonneg fun call _ => deliveries_nonneg call
  have hfailures : 0 ≤ total failures counted := total_nonneg fun call _ => failures_nonneg call
  have hhits : 0 ≤ total hits counted := total_nonneg fun call _ => hits_nonneg call
  have hmisses : 0 ≤ total misses counted := total_nonneg fun call _ => misses_nonneg call
  rw [getMetrics_after, getRetrySuccessRate_after, getDeduplicationEffectiveness_after,
    snapshot_perm order]
  simp only [total_perm order]
  refine ⟨trivial, trivial, trivial, percent_bounds hdeliveries (by linarith),
    percent_bounds hhits (by linarith), fun sound => ?_⟩
  have hduplicates : 0 ≤ total duplicates counted :=
    total_nonneg fun call hcall => (sound call hcall).duplicates_bounds.1
  have hmessages : total duplicates counted ≤ total messages counted :=
    total_le fun call hcall => (sound call hcall).duplicates_bounds.2
  exact percent_bounds hduplicates hmessages

/-- A batch with one duplicate and two deliveries, after a request that is no longer counted. -/
def dayCalls : List RecordCall :=
  [ .recordIngressCacheHit, .reset, .recordIngressCacheMiss, .recordBatchProcessed 4 3 1 20,
    .recordDeliverySuccess 5 1, .recordDeliveryFailure 6 4 ]

theorem report_after_day :
    (after dayCalls).getMetrics.messagesProcessed = 4 ∧
    (after dayCalls).getRetrySuccessRate = 50 ∧
    (after dayCalls).getDeduplicationEffectiveness = ⟨0, 25⟩ ∧
    Percentage (after dayCalls).getDeduplicationEffectiveness.duplicateRate := by
  have order : (since resets dayCalls).Perm (dayCalls.drop 2).reverse := by
    have hcounted : since resets dayCalls = dayCalls.drop 2 := rfl
    rw [hcounted]
    exact (List.reverse_perm _).symm
  have sound : ∀ call ∈ (dayCalls.drop 2).reverse, call.Sound := by
    intro call hcall
    simp only [dayCalls, List.drop_succ_cons, List.drop_zero, List.mem_reverse, List.mem_cons,
      List.not_mem_nil, or_false] at hcall
    obtain rfl | rfl | rfl | rfl := hcall
    · exact trivial
    · exact ⟨by norm_num, by norm_num⟩
    · exact trivial
    · exact trivial
  obtain ⟨hmetrics, hretries, hdeduplication, -, -, hrate⟩ := report_after order
  refine (and_assoc.trans (and_congr_right fun _ => and_assoc)).mp ⟨?_, hrate sound⟩
  rw [hmetrics, hretries, hdeduplication]
  norm_num [dayCalls, snapshot, total, percent, round_eq, hits, misses, messages, duplicates,
    deliveries, failures]

end AttemptMetrics

end Notification
