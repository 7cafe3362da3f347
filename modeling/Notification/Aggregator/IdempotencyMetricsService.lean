import Mathlib.Algebra.Order.Round
import Mathlib.Data.Rat.Floor
import Mathlib.Tactic.Linarith
import Mathlib.Tactic.NormNum

/-!
# IdempotencyMetricsService: counters and the ratios that are reported

Numbers are exact rationals. The success rates by provider, which are read from the database,
have a module of their own.
-/

namespace Notification

/-- The counters by name, and the latencies. -/
structure IdempotencyMetricsService where
  metrics : String → Option ℚ := fun _ => none
  batchLatencies : List ℚ := []
  deliveryLatencies : List ℚ := []
  dedupCheckLatencies : List ℚ := []

structure IdempotencyMetrics where
  ingressCacheHits : ℚ
  ingressCacheMisses : ℚ
  batchesProcessed : ℚ
  messagesProcessed : ℚ
  messagesNewCount : ℚ
  messagesDuplicateCount : ℚ
  messagesDeliveredCount : ℚ
  messagesFailedCount : ℚ
  messagesRetryScheduledCount : ℚ
  messagesInDLQCount : ℚ
  retryAttemptCount : ℚ
  retrySuccessCount : ℚ
  retryFailureCount : ℚ
  averageAttemptsPerMessage : ℚ
  averageBatchLatencyMs : ℚ
  averageDeliveryLatencyMs : ℚ
  averageDedupCheckLatencyMs : ℚ
  emailSuccessRate : ℚ
  smsSuccessRate : ℚ
  whatsappSuccessRate : ℚ
  deriving DecidableEq, Repr

namespace IdempotencyMetricsService

variable (service : IdempotencyMetricsService)

/-- `this.metrics.get(key) || 0` -/
def get (key : String) : ℚ := (service.metrics key).getD 0

def set (key : String) (value : ℚ) : IdempotencyMetricsService :=
  { service with metrics := Function.update service.metrics key (some value) }

def increment (key : String) : IdempotencyMetricsService := service.set key (service.get key + 1)

def initializeMetrics : IdempotencyMetricsService :=
  [ "ingressCacheHits", "ingressCacheMisses", "batchesProcessed", "messagesProcessed",
    "messagesNewCount", "messagesDuplicateCount", "messagesDeliveredCount",
    "messagesFailedCount", "messagesRetryScheduledCount", "messagesInDLQCount",
    "retryAttemptCount", "retrySuccessCount", "retryFailureCount" ].foldl
      (fun service key => service.set key 0) service

/-- The constructor. -/
def new : IdempotencyMetricsService := initializeMetrics {}

def recordIngressCacheHit : IdempotencyMetricsService := service.increment "ingressCacheHits"

def recordIngressCacheMiss : IdempotencyMetricsService := service.increment "ingressCacheMisses"

def recordBatchProcessed (totalMessages newMessages duplicates latencyMs : ℚ) :
    IdempotencyMetricsService :=
  let service := service.increment "batchesProcessed"
  let service := service.set "messagesProcessed" (service.get "messagesProcessed" + totalMessages)
  let service := service.set "messagesNewCount" (service.get "messagesNewCount" + newMessages)
  let service := service.set "messagesDuplicateCount"
    (service.get "messagesDuplicateCount" + duplicates)
  { service with batchLatencies := service.batchLatencies ++ [latencyMs] }

/-- The attempt number is not looked at. -/
def recordAttemptMetrics (_attemptNumber : ℚ) (success : Bool) : IdempotencyMetricsService :=
  let service := service.increment "retryAttemptCount"
  if success then service.increment "retrySuccessCount" else service.increment "retryFailureCount"

def recordDeliverySuccess (latencyMs attemptNumber : ℚ) : IdempotencyMetricsService :=
  let service := service.increment "messagesDeliveredCount"
  let service := { service with deliveryLatencies := service.deliveryLatencies ++ [latencyMs] }
  service.recordAttemptMetrics attemptNumber true

def recordDeliveryFailure (latencyMs attemptNumber : ℚ) : IdempotencyMetricsService :=
  let service := service.increment "messagesFailedCount"
  let service := service.increment "messagesInDLQCount"
  let service := { service with deliveryLatencies := service.deliveryLatencies ++ [latencyMs] }
  service.recordAttemptMetrics attemptNumber false

def recordRetryScheduled : IdempotencyMetricsService :=
  service.increment "messagesRetryScheduledCount"

def recordDedupCheckLatency (latencyMs : ℚ) : IdempotencyMetricsService :=
  { service with dedupCheckLatencies := service.dedupCheckLatencies ++ [latencyMs] }

def reset : IdempotencyMetricsService :=
  { service.initializeMetrics with
    batchLatencies := [], deliveryLatencies := [], dedupCheckLatencies := [] }

def calculateAverage (values : List ℚ) : ℚ :=
  if values.length = 0 then 0 else round (values.sum / values.length * 100) / 100

def calculateAverageAttempts : ℚ :=
  let totalDelivered := service.get "messagesDeliveredCount"
  if totalDelivered = 0 then 0
  else
    let totalAttempts := service.get "retryAttemptCount"
    round (totalAttempts / totalDelivered * 100) / 100

def getMetrics : IdempotencyMetrics where
  ingressCacheHits := service.get "ingressCacheHits"
  ingressCacheMisses := service.get "ingressCacheMisses"
  batchesProcessed := service.get "batchesProcessed"
  messagesProcessed := service.get "messagesProcessed"
  messagesNewCount := service.get "messagesNewCount"
  messagesDuplicateCount := service.get "messagesDuplicateCount"
  messagesDeliveredCount := service.get "messagesDeliveredCount"
  messagesFailedCount := service.get "messagesFailedCount"
  messagesRetryScheduledCount := service.get "messagesRetryScheduledCount"
  messagesInDLQCount := service.get "messagesInDLQCount"
  retryAttemptCount := service.get "retryAttemptCount"
  retrySuccessCount := service.get "retrySuccessCount"
  retryFailureCount := service.get "retryFailureCount"
  averageAttemptsPerMessage := service.calculateAverageAttempts
  averageBatchLatencyMs := calculateAverage service.batchLatencies
  averageDeliveryLatencyMs := calculateAverage service.deliveryLatencies
  averageDedupCheckLatencyMs := calculateAverage service.dedupCheckLatencies
  emailSuccessRate := 0
  smsSuccessRate := 0
  whatsappSuccessRate := 0

def getRetrySuccessRate : ℚ :=
  let totalRetries := service.get "retryAttemptCount"
  let successRetries := service.get "retrySuccessCount"
  if totalRetries = 0 then 0 else round (successRetries / totalRetries * 10000) / 100

/-- How many percent of the requests were found in the cache, and how many percent of the messages
were duplicates. -/
structure DeduplicationEffectiveness where
  cacheHitRate : ℚ
  duplicateRate : ℚ
  deriving DecidableEq, Repr

def getDeduplicationEffectiveness : DeduplicationEffectiveness :=
  let totalCache := service.get "ingressCacheHits" + service.get "ingressCacheMisses"
  let totalProcessed := service.get "messagesProcessed"
  { cacheHitRate :=
      if 0 < totalCache then round (service.get "ingressCacheHits" / totalCache * 10000) / 100
      else 0
    duplicateRate :=
      if 0 < totalProcessed then
        round (service.get "messagesDuplicateCount" / totalProcessed * 10000) / 100
      else 0 }

@[simp] theorem get_set (key key' : String) (value : ℚ) :
    (service.set key value).get key' = if key' = key then value else service.get key' := by
  by_cases h : key' = key
  · simp [get, set, h]
  · simp [get, set, h]

@[simp] theorem get_increment (key key' : String) :
    (service.increment key).get key' =
      if key' = key then service.get key + 1 else service.get key' := get_set service key key' _

@[simp] theorem get_recordAttemptMetrics (attemptNumber : ℚ) (success : Bool) (key : String) :
    (service.recordAttemptMetrics attemptNumber success).get key =
      ((service.increment "retryAttemptCount").increment
        (if success then "retrySuccessCount" else "retryFailureCount")).get key := by
  cases success <;> rfl

end IdempotencyMetricsService

end Notification
