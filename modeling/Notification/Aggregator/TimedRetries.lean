import Notification.Aggregator.RetryBudget
import Notification.Interaction.Series
import Notification.Lookup.TimedQueue

/-!
# The retry queue is a timed queue

Calls of `scheduleRetry` and `getPendingRetries` one after another, with a positive clock. What
waits in the sorted set is a map from triples of message, channel and attempt to due times.
A call puts one triple there or takes what is due; a call one of whose Redis commands fails
leaves the map as it is, and so does one whose due time is no date. Attempts are counted as far
as numbers are exact: beyond that the member does not tell the attempt any more.
-/

namespace Notification

open Interaction Program
open Lookup (TimedQueue)

namespace TimedRetries

/-- A retry that waits, with the attempt it will be. -/
structure Retry where
  messageId : String
  channel : String
  attempt : Int
  id_noColon : NoColon messageId
  channel_noColon : NoColon channel
  attempt_nonneg : 0 ≤ attempt
  attempt_exact : attempt ≤ Number.exactLimit
  deriving DecidableEq

/-- The member of the sorted set. -/
def Retry.member (r : Retry) : String :=
  RetrySchedulerService.payload r.messageId r.channel r.attempt

/-- What a poll hands back for the retry. -/
def Retry.pending (r : Retry) : PendingRetry :=
  { messageId := r.messageId, channel := some r.channel, attempt := some r.attempt }

theorem Retry.parseItem_member (r : Retry) :
    RetrySchedulerService.parseItem r.member = r.pending := by
  obtain ⟨n, hn⟩ := Int.eq_ofNat_of_zero_le r.attempt_nonneg
  have exact : n ≤ Number.exactLimit := Int.ofNat_le.mp (hn ▸ r.attempt_exact)
  rw [Retry.member, Retry.pending, hn,
    RetrySchedulerService.parseItem_payload r.id_noColon r.channel_noColon exact]

theorem Retry.member_injective : Function.Injective Retry.member := by
  intro r r' same
  have hpending : r.pending = r'.pending := by
    rw [← r.parseItem_member, ← r'.parseItem_member, same]
  obtain ⟨messageId, channel, attempt, _, _, _, _⟩ := r
  obtain ⟨messageId', channel', attempt', _, _, _, _⟩ := r'
  simp only [Retry.pending, PendingRetry.mk.injEq, Option.some.injEq] at hpending
  obtain ⟨rfl, rfl, rfl⟩ := hpending
  rfl

inductive QueueOp where
  | scheduleRetry (messageId channel : String) (currentAttempt delayMs : Int)
  | getPendingRetries

abbrev QueueOp.Result : QueueOp → Type
  | .scheduleRetry .. => Unit
  | .getPendingRetries => List PendingRetry

def QueueOp.program : (op : QueueOp) → Prog op.Result
  | .scheduleRetry messageId channel currentAttempt delayMs =>
    RetrySchedulerService.scheduleRetry messageId channel currentAttempt delayMs
  | .getPendingRetries => RetrySchedulerService.getPendingRetries

/-- Ids and channels have no colon, and neither attempts nor delays are negative. -/
def WellFormed : QueueOp → Prop
  | .scheduleRetry messageId channel currentAttempt delayMs =>
    NoColon messageId ∧ NoColon channel ∧ 0 ≤ currentAttempt ∧ 0 ≤ delayMs
  | .getPendingRetries => True

/-- The next attempt is an exact integer. -/
def Counted : QueueOp → Prop
  | .scheduleRetry _ _ currentAttempt _ => currentAttempt < Number.exactLimit
  | .getPendingRetries => True

def PositiveTime : CallEvent → Prop
  | ⟨.now, .ok now⟩ => 0 < now
  | _ => True

/-- Any sequence of such calls, in a world in which every command may fail. The clock need not
even be monotone. -/
def sequential (uuid : ℕ → String) (admitted : QueueOp → Prop) :
    Series Reply JsError World QueueOp.Result where
  program := QueueOp.program
  env := World.faulty uuid 0
  starts w := w.redis.zsets "retries" = []
  drifts := World.later
  admits _ op _ := admitted op
  permits _ _ _ _ ev _ := PositiveTime ev

abbrev QueueTurn := Turn Reply JsError World QueueOp.Result

/-- The clock has been read, and always like this. -/
def TimeRead (t : Trace Reply JsError) (now : Int) : Prop := ∀ r, ⟨.now, r⟩ ∈ t ↔ r = .ok now

/-- A command of Redis has thrown. -/
def RedisFailed (t : Trace Reply JsError) : Prop := ∃ c e, ⟨.redis c, .error e⟩ ∈ t

/-- What a call does with the queue and what it returns. -/
inductive Step : TimedQueue Retry → QueueTurn → TimedQueue Retry → Prop
  | scheduled {q messageId channel currentAttempt delayMs w w' t now} {r : Retry} :
      r.messageId = messageId → r.channel = channel → r.attempt = currentAttempt + 1 →
      TimeRead t now → ¬ RedisFailed t → now + delayMs ≤ maxTimeValue →
      Step q ⟨.scheduleRetry messageId channel currentAttempt delayMs, w, .ok (), w', t⟩
        (q.put r (now + delayMs))
  | undated {q messageId channel currentAttempt delayMs w e w' t now} :
      TimeRead t now → maxTimeValue < now + delayMs → e.name = "RangeError" →
      Step q ⟨.scheduleRetry messageId channel currentAttempt delayMs, w, .error e, w', t⟩ q
  | notScheduled {q messageId channel currentAttempt delayMs w e w' t} : RedisFailed t →
      Step q ⟨.scheduleRetry messageId channel currentAttempt delayMs, w, .error e, w', t⟩ q
  | taken {q w w' t now} {items : List Retry} : TimeRead t now → ¬ RedisFailed t →
      q.Due now items →
      Step q ⟨.getPendingRetries, w, .ok (items.map Retry.pending), w', t⟩ (q.later now)
  | notTaken {q w w' t} : RedisFailed t → Step q ⟨.getPendingRetries, w, .ok [], w', t⟩ q

/-- The sorted set holds the queue, and no due time is negative. -/
structure Holds (q : TimedQueue Retry) (w : World) : Prop where
  represents : TimedQueue.Represents Retry.member q (w.redis.zsets "retries")
  nonneg : ∀ x ∈ w.redis.zsets "retries", 0 ≤ x.2

/-! ## The two calls -/

variable {uuid : ℕ → String} {q : TimedQueue Retry} {w : World}

theorem Holds.put (h : Holds q w) (r : Retry) {due : Int} (positive : 0 ≤ due) :
    Holds (q.put r due) { w with redis := w.redis.zAdd "retries" due r.member } := by
  refine ⟨h.represents.put Retry.member_injective r due ?_ ?_, fun x hx => ?_⟩
  · rw [Redis.zAdd_zsets]
    exact Redis.insertSorted_perm _ _
  · rw [Redis.zAdd_zsets]
    exact Redis.sorted_insertSorted (h.represents.sorted.filter _)
  · obtain rfl | ⟨hx, -⟩ := Redis.mem_zAdd.mp hx
    · exact positive
    · exact h.nonneg x hx

/-- No due time is negative, so the range from 0 is all that is due. -/
theorem Holds.inRange_eq (h : Holds q w) (now : Int) {x : String × Int}
    (member : x ∈ w.redis.zsets "retries") : Redis.inRange 0 now x = decide (x.2 ≤ now) := by
  simp [Redis.inRange, h.nonneg x member]

theorem Holds.due (h : Holds q w) (now : Int) : ∃ items, q.Due now items ∧
    (RetrySchedulerService.due w now).map RetrySchedulerService.parseItem =
      items.map Retry.pending := by
  obtain ⟨items, hdue, hitems⟩ := h.represents.due Retry.member_injective now
  refine ⟨items, hdue, ?_⟩
  rw [RetrySchedulerService.due, List.filter_congr fun x hx => h.inRange_eq now hx, ← hitems,
    List.map_map]
  exact List.map_congr_left fun r _ => r.parseItem_member

theorem Holds.later (h : Holds q w) (now : Int) :
    Holds (q.later now) { w with redis := w.redis.zRemRangeByScore "retries" 0 now } := by
  have hkept : (w.redis.zRemRangeByScore "retries" 0 now).zsets "retries" =
      (w.redis.zsets "retries").filter fun x => now < x.2 := by
    rw [Redis.zRemRangeByScore_zsets]
    apply List.filter_congr
    intro x hx
    rw [h.inRange_eq now hx, ← decide_not, decide_eq_decide, Int.not_le]
  constructor
  · rw [hkept]
    exact h.represents.later now
  · intro x hx
    rw [hkept] at hx
    exact h.nonneg x (List.mem_of_mem_filter hx)

/-- With nothing due, everything stays. -/
theorem Holds.later_of_none (h : Holds q w) {now : Int}
    (none : RetrySchedulerService.due w now = []) : Holds (q.later now) w := by
  have hkept : (w.redis.zsets "retries").filter (fun x => now < x.2) = w.redis.zsets "retries" := by
    apply List.filter_eq_self.mpr
    intro x hx
    by_contra hdue
    have hmem : x.1 ∈ RetrySchedulerService.due w now :=
      List.mem_map_of_mem (List.mem_filter.mpr ⟨hx, by
        rw [h.inRange_eq now hx]
        simpa using hdue⟩)
    rw [none] at hmem
    exact absurd hmem List.not_mem_nil
  refine ⟨?_, h.nonneg⟩
  rw [← hkept]
  exact h.represents.later now

section Calls

variable {t : Trace Reply JsError}

theorem not_redisFailed_of_ok (ok : ∀ ev ∈ t, ∃ a, ev.answer = .ok a) : ¬ RedisFailed t := by
  rintro ⟨c, e, hmem⟩
  obtain ⟨a, ha⟩ := ok _ hmem
  cases ha

/-- The environment of one call. -/
abbrev env (uuid : ℕ → String) : Env Reply JsError (World × Trace Reply JsError) :=
  traced (World.faulty uuid 0) fun _ ev _ => PositiveTime ev

theorem wp_scheduleRetry (h : Holds q w) {messageId channel : String} {currentAttempt delayMs : Int}
    (wellFormed : WellFormed (.scheduleRetry messageId channel currentAttempt delayMs))
    (counted : Counted (.scheduleRetry messageId channel currentAttempt delayMs)) :
    (RetrySchedulerService.scheduleRetry messageId channel currentAttempt delayMs).wp (env uuid)
      (fun _ => True)
      (fun o s => ∃ q', Step q
        ⟨.scheduleRetry messageId channel currentAttempt delayMs, w, o, s.1, s.2⟩ q' ∧
        Holds q' s.1) (w, []) := by
  obtain ⟨hid, hchannel, hattempt, hdelay⟩ := wellFormed
  rw [RetrySchedulerService.scheduleRetry, wp_bind]
  refine wp_perform_traced.mpr fun r w₁ answer positive => ⟨trivial, ?_⟩
  obtain ⟨rfl, now, rfl⟩ := World.faulty_now answer
  rw [either_ok, wp_bind, wp_done]
  by_cases dated : now.time + delayMs ≤ maxTimeValue
  · have counted : currentAttempt < Number.exactLimit := counted
    have due : Number.add now.time delayMs = now.time + delayMs :=
      Number.add_of_le (by rw [Number.exactLimit]; rw [maxTimeValue] at dated; omega)
    have next : Number.add currentAttempt 1 = currentAttempt + 1 := Number.add_of_le (by omega)
    rw [due, next, toISOString_of_le (by omega), either_ok]
    refine wp_perform_traced.mpr fun r w₂ answer _ => ⟨trivial, ?_⟩
    obtain ⟨rfl, rfl⟩ | ⟨rfl, e, rfl⟩ := World.faulty_redis answer
    · let retry : Retry :=
        ⟨messageId, channel, currentAttempt + 1, hid, hchannel, by omega, by omega⟩
      refine ⟨_, .scheduled (r := retry) rfl rfl rfl ?_ ?_ dated, h.put _ (by omega)⟩
      · exact fun r => by simp
      · exact not_redisFailed_of_ok (by simp [Redis.answer])
    · exact ⟨q, .notScheduled ⟨_, e, List.mem_cons_self⟩, h⟩
  · have undated := Int.not_le.mp dated
    rw [toISOString_add_of_lt undated, either_error]
    exact ⟨q, .undated (fun r => by simp) undated rfl, h⟩

/-- A poll that has read what is due takes it out of the queue. -/
theorem Holds.taken (h : Holds q w) {now : Int} {w' : World} (read : TimeRead t now)
    (up : ¬ RedisFailed t) : Step q ⟨.getPendingRetries, w,
      .ok ((RetrySchedulerService.due w now).map RetrySchedulerService.parseItem), w', t⟩
      (q.later now) := by
  obtain ⟨items, hdue, hitems⟩ := h.due now
  rw [hitems]
  exact .taken read up hdue

theorem wp_getPendingRetries (h : Holds q w) :
    RetrySchedulerService.getPendingRetries.wp (env uuid) (fun _ => True)
      (fun o s => ∃ q', Step q ⟨.getPendingRetries, w, o, s.1, s.2⟩ q' ∧ Holds q' s.1) (w, []) := by
  rw [RetrySchedulerService.getPendingRetries, wp_tryCatch, wp_bind]
  refine wp_perform_traced.mpr fun r w₁ answer _ => ⟨trivial, ?_⟩
  obtain ⟨rfl, now, rfl⟩ := World.faulty_now answer
  rw [either_ok, wp_bind]
  refine wp_perform_traced.mpr fun r w₂ answer _ => ⟨trivial, ?_⟩
  obtain ⟨rfl, rfl⟩ | ⟨rfl, e, rfl⟩ := World.faulty_redis answer
  · change (if (RetrySchedulerService.due w₁ now.time).length > 0 then _ else _ : Prog _).wp _ _ _ _
    rw [wp_ite]
    constructor
    · intro some
      rw [wp_bind]
      refine wp_perform_traced.mpr fun r w₃ answer _ => ⟨trivial, ?_⟩
      obtain ⟨rfl, rfl⟩ | ⟨rfl, e, rfl⟩ := World.faulty_redis answer
      · exact ⟨_, h.taken (fun r => by simp) (not_redisFailed_of_ok (by simp [Redis.answer])),
          h.later now.time⟩
      · exact ⟨q, .notTaken ⟨_, e, List.mem_cons_self⟩, h⟩
    · intro none
      exact ⟨_, h.taken (fun r => by simp) (not_redisFailed_of_ok (by simp [Redis.answer])),
        h.later_of_none (List.eq_nil_of_length_eq_zero (by omega))⟩
  · exact ⟨q, .notTaken ⟨_, e, List.mem_cons_self⟩, h⟩

end Calls

/-- What is asked of the calls: they are well-formed, and their attempts can be counted. -/
def Admitted (op : QueueOp) : Prop := WellFormed op ∧ Counted op

/-- Every sequence of calls follows the timed queue, and what waits in Redis after it is what
waits in the timed queue. -/
theorem timed_queue {xs : List QueueTurn} (run : (sequential uuid Admitted).Runs xs w) :
    ∃ q, Series.Follows Step TimedQueue.empty xs q ∧
      TimedQueue.Represents Retry.member q (w.redis.zsets "retries") := by
  have follows : ∃ q, Series.Follows Step TimedQueue.empty xs q ∧ Holds q w := by
    refine run.follows Holds (fun w empty => ?_) ?_ ?_
    · have empty : w.redis.zsets "retries" = [] := empty
      exact ⟨by rw [empty]; exact .nil _, by simp [empty]⟩
    · rintro q w w' ⟨time, -, rfl⟩ h
      exact ⟨h.represents, h.nonneg⟩
    · intro xs op w q admitted h
      cases op with
      | scheduleRetry messageId channel currentAttempt delayMs =>
          exact wp_scheduleRetry h admitted.1 admitted.2
      | getPendingRetries => exact wp_getPendingRetries h
  obtain ⟨q, hfollows, hholds⟩ := follows
  exact ⟨q, hfollows, hholds.represents⟩

section Sample

/-- Time stands still at two seconds, and every call succeeds. -/
def still (_ : World) : Choice := { outcome := .ok ⟨true, none⟩, now := .ofTime 2000 }

theorem positiveTime_still (c : Call) (w : World) :
    PositiveTime ⟨c, (World.handler toString still c w).1⟩ := by
  cases c with
  | now => exact (by decide : (0 : Int) < 2000)
  | _ => trivial

/-- A retry without delay is polled, one with a delay stays. -/
theorem timed_queue_polled : ∃ (xs : List QueueTurn) (w : World) (q : TimedQueue Retry),
    xs.map Turn.job = [.scheduleRetry "m-1" "sms" 0 0, .scheduleRetry "m-2" "sms" 1 1000,
      .getPendingRetries] ∧
    w.redis.zsets "retries" = [("m-2:sms:2", 3000)] ∧
    Series.Follows Step TimedQueue.empty xs q ∧
    TimedQueue.Represents Retry.member q (w.redis.zsets "retries") := by
  have start : (sequential toString Admitted).Runs [] {} := .start rfl
  have sound := World.faulty_handler toString still
  have first := start.executed (j := .scheduleRetry "m-1" "sms" 0 0)
    ⟨⟨by decide, by decide, by decide, by decide⟩, (by decide : (0 : Int) < Number.exactLimit)⟩
    sound fun c w => positiveTime_still c w
  have second := first.executed (j := .scheduleRetry "m-2" "sms" 1 1000)
    ⟨⟨by decide, by decide, by decide, by decide⟩, (by decide : (1 : Int) < Number.exactLimit)⟩
    sound fun c w => positiveTime_still c w
  have third := second.executed (j := .getPendingRetries) ⟨trivial, trivial⟩ sound
    fun c w => positiveTime_still c w
  obtain ⟨q, follows, represents⟩ := timed_queue third
  exact ⟨_, _, q, rfl, by decide, follows, represents⟩

/-- A retry has been asked for, with the attempt before it. -/
def AskedFor (xs : List QueueTurn) (retry : PendingRetry) : Prop :=
  ∃ messageId channel currentAttempt delayMs,
    QueueOp.scheduleRetry messageId channel currentAttempt delayMs ∈ xs.map Turn.job ∧
    retry = ⟨messageId, some channel, some (currentAttempt + 1)⟩

/-- The attempt `10 ^ 21` is printed with an exponent and read back as 1, and a retry that is due
after the last date is not stored although Redis works. -/
theorem timed_queue_overflows :
    (¬ ∀ xs w, (sequential toString WellFormed).Runs xs w → ∀ w₁ retries w₂ t,
      (⟨.getPendingRetries, w₁, .ok retries, w₂, t⟩ : QueueTurn) ∈ xs →
        ∀ retry ∈ retries, AskedFor xs retry) ∧
    ¬ ∀ xs w, (sequential toString WellFormed).Runs xs w →
      ∀ messageId channel currentAttempt delayMs w₁ e w₂ t,
        (⟨.scheduleRetry messageId channel currentAttempt delayMs, w₁, .error e, w₂, t⟩ :
          QueueTurn) ∈ xs → RedisFailed t := by
  have start : (sequential toString WellFormed).Runs [] {} := .start rfl
  have sound := World.faulty_handler toString still
  constructor
  · intro asksForAll
    have first := start.executed (j := .scheduleRetry "m-1" "sms" (10 ^ 21) 0)
      ⟨by decide, by decide, by decide, by decide⟩ sound fun c w => positiveTime_still c w
    have second := first.executed (j := .getPendingRetries) trivial sound
      fun c w => positiveTime_still c w
    obtain ⟨messageId, channel, currentAttempt, delayMs, asked, same⟩ :=
      asksForAll _ _ second _ [⟨"m-1", some "sms", some 1⟩] _ _
        (List.mem_append_right _ (List.mem_singleton.mpr rfl)) _ (List.mem_singleton.mpr rfl)
    simp at asked same
    omega
  · intro onlyRedisFails
    have first := start.executed (j := .scheduleRetry "m-1" "sms" 0 8640000000000000)
      ⟨by decide, by decide, by decide, by decide⟩ sound fun c w => positiveTime_still c w
    obtain ⟨c, e, failed⟩ := onlyRedisFails _ _ first _ _ _ _ _ _ _ _
      (List.mem_append_right _ (List.mem_singleton.mpr rfl))
    cases List.mem_singleton.mp failed

end Sample

end TimedRetries

end Notification
