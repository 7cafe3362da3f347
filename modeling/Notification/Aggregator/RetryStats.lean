import Notification.Aggregator.TimedRetries

/-!
# The statistics of the retry queue

`getRetryStats` asks for the oldest retry by a range from 0 to 0. The options that go with it
make this a range of scores, or they are ignored and Redis refuses the command. Either way the
oldest retry is not found, unless it was due at the epoch.
-/

namespace Notification

open Interaction Program

/-- What the client does with `{ BYSCORE: true, LIMIT: { offset, count } }`. -/
inductive OptionReading where
  | honoured
  | ignored
  deriving DecidableEq, Repr

/-- The calls of `getRetryStats`. -/
inductive StatsCall where
  | zCard (key : String)
  | zRange (key : String) (start stop : Int) (offset count : ℕ)
  | zScore (key member : String)
  | now

abbrev StatsCall.Reply : StatsCall → Type
  | .zCard _ => ℕ
  | .zRange .. => List String
  | .zScore _ _ => Option Int
  | .now => Int

namespace Redis

/-- `ZRANGE key start stop BYSCORE LIMIT offset count` -/
def zRangeByScoreLimit (r : Redis) (key : String) (start stop : Int) (offset count : ℕ) :
    List String :=
  ((((r.zsets key).filter (inRange start stop)).drop offset).take count).map Prod.fst

def zScore (r : Redis) (key member : String) : Option Int :=
  ((r.zsets key).find? fun m => m.1 == member).map Prod.snd

def limitError : JsError :=
  { message :=
      "ERR syntax error, LIMIT is only supported in combination with either BYSCORE or BYLEX" }

/-- The replies of a Redis that is up, while the clock shows `now`. -/
def answerStats (reading : OptionReading) (now : Int) :
    (c : StatsCall) → Redis → Except JsError c.Reply × Redis
  | .zCard key, r => (.ok (r.zsets key).length, r)
  | .zRange key start stop offset count, r =>
    match reading with
    | .honoured => (.ok (r.zRangeByScoreLimit key start stop offset count), r)
    | .ignored => (.error limitError, r)
  | .zScore key member, r => (.ok (r.zScore key member), r)
  | .now, r => (.ok now, r)

end Redis

structure RetryStats where
  pendingCount : ℕ
  oldestRetryAge : Int
  deriving DecidableEq, Repr

namespace RetrySchedulerService

/-- A missing score is `null`, which counts as 0. -/
def getRetryStats : Program StatsCall.Reply JsError RetryStats :=
  try
    let pendingCount ← perform (StatsCall.zCard "retries")
    let oldest ← perform (StatsCall.zRange "retries" 0 0 0 1)
    let oldestRetryAge ←
      match oldest with
      | [] => pure 0
      | first :: _ => do
        let oldestItem ← perform (StatsCall.zScore "retries" first)
        let now ← perform StatsCall.now
        pure (max 0 (now - oldestItem.getD 0))
    pure { pendingCount, oldestRetryAge }
  catch _ => pure { pendingCount := 0, oldestRetryAge := 0 }

end RetrySchedulerService

namespace RetryStats

/-- Any sequence of calls, with any arguments and any clock; any command may fail. -/
def calls (uuid : ℕ → String) : Series Reply JsError World TimedRetries.QueueOp.Result where
  program := TimedRetries.QueueOp.program
  env := World.faulty uuid 0
  starts w := w.redis.zsets "retries" = []
  drifts := World.later
  admits _ _ _ := True
  permits _ _ _ _ _ _ := True

/-- What is returned for the queue as it is when the clock shows `now`. -/
def stats (reading : OptionReading) (now : Int) (r : Redis) : Except JsError RetryStats :=
  (RetrySchedulerService.getRetryStats.run (Redis.answerStats reading now) r).1

/-- The number of members, and how long the member with the smallest score is overdue. -/
structure Describes (queue : List (String × Int)) (now : Int) (stats : RetryStats) : Prop where
  count : stats.pendingCount = queue.length
  empty : queue = [] → stats.oldestRetryAge = 0
  oldest : ∀ x ∈ queue, (∀ y ∈ queue, x.2 ≤ y.2) → stats.oldestRetryAge = max 0 (now - x.2)

/-! ## What is returned -/

section Replies

variable {r : Redis} {now : Int} {x : String × Int}

theorem stats_ignored (now : Int) (r : Redis) :
    stats .ignored now r = .ok { pendingCount := 0, oldestRetryAge := 0 } := rfl

theorem zScore_of_mem (nodup : ((r.zsets "retries").map Prod.fst).Nodup)
    (member : x ∈ r.zsets "retries") : r.zScore "retries" x.1 = some x.2 := by
  cases hfind : (r.zsets "retries").find? fun m => m.1 == x.1 with
  | none => exact absurd (List.find?_eq_none.mp hfind x member) (by simp)
  | some y =>
      have hname : y.1 = x.1 := by simpa using List.find?_some hfind
      have hsame : y = x :=
        List.inj_on_of_nodup_map nodup (List.mem_of_find?_eq_some hfind) member hname
      rw [Redis.zScore, hfind, hsame]
      rfl

/-- The range from 0 to 0 is empty if no score is 0. -/
theorem stats_of_none (none : ∀ x ∈ r.zsets "retries", x.2 ≠ 0) : stats .honoured now r =
    .ok { pendingCount := (r.zsets "retries").length, oldestRetryAge := 0 } := by
  have hrange : (r.zsets "retries").filter (Redis.inRange 0 0) = [] := by
    apply List.filter_eq_nil_iff.mpr
    intro x hx hzero
    have : x.2 ≠ 0 := none x hx
    simp only [Redis.inRange, Bool.and_eq_true, decide_eq_true_eq] at hzero
    omega
  have holdest : r.zRangeByScoreLimit "retries" 0 0 0 1 = [] := by
    rw [Redis.zRangeByScoreLimit, hrange]
    rfl
  simp [stats, RetrySchedulerService.getRetryStats, Redis.answerStats, holdest]

/-- Otherwise a member with score 0 is taken for the oldest one. -/
theorem stats_of_zero (nodup : ((r.zsets "retries").map Prod.fst).Nodup)
    (member : x ∈ r.zsets "retries") (zero : x.2 = 0) : stats .honoured now r =
    .ok { pendingCount := (r.zsets "retries").length, oldestRetryAge := max 0 now } := by
  obtain ⟨y, rest, hrange⟩ : ∃ y rest,
      (r.zsets "retries").filter (Redis.inRange 0 0) = y :: rest := by
    apply List.exists_cons_of_ne_nil
    exact List.ne_nil_of_mem (List.mem_filter.mpr ⟨member, by simp [Redis.inRange, zero]⟩)
  obtain ⟨hy, hzero⟩ : y ∈ r.zsets "retries" ∧ Redis.inRange 0 0 y = true :=
    List.mem_filter.mp (hrange ▸ List.mem_cons_self)
  have hscore : r.zScore "retries" y.1 = some 0 := by
    rw [zScore_of_mem nodup hy, Option.some.injEq]
    simp only [Redis.inRange, Bool.and_eq_true, decide_eq_true_eq] at hzero
    omega
  have holdest : r.zRangeByScoreLimit "retries" 0 0 0 1 = [y.1] := by
    rw [Redis.zRangeByScoreLimit, hrange]
    rfl
  simp [stats, RetrySchedulerService.getRetryStats, Redis.answerStats, holdest, hscore]

theorem exists_oldest {queue : List (String × Int)} (nonempty : queue ≠ []) :
    ∃ x ∈ queue, ∀ y ∈ queue, x.2 ≤ y.2 := by
  obtain ⟨score, hmin⟩ := Option.isSome_iff_exists.mp (List.isSome_min?_of_ne_nil
    (mt List.map_eq_nil_iff.mp nonempty : queue.map Prod.snd ≠ []))
  obtain ⟨hmem, hle⟩ := List.min?_eq_some_iff.mp hmin
  obtain ⟨x, hx, rfl⟩ := List.mem_map.mp hmem
  exact ⟨x, hx, fun y hy => hle y.2 (List.mem_map_of_mem hy)⟩

/-- With the options ignored, only an empty queue is described. -/
theorem describes_ignored_iff (queue : List (String × Int)) (now : Int) :
    Describes queue now { pendingCount := 0, oldestRetryAge := 0 } ↔ queue = [] := by
  constructor
  · exact fun h => List.eq_nil_of_length_eq_zero h.count.symm
  · rintro rfl
    exact ⟨rfl, fun _ => rfl, by simp⟩

/-- An age of 0 is right as long as nothing is overdue. -/
theorem describes_none_iff (queue : List (String × Int)) (now : Int) :
    Describes queue now { pendingCount := queue.length, oldestRetryAge := 0 } ↔
      ∀ x ∈ queue, now ≤ x.2 := by
  constructor
  · intro h x hx
    obtain ⟨y, hy, hle⟩ := exists_oldest (List.ne_nil_of_mem hx)
    have hage : (0 : Int) = max 0 (now - y.2) := h.oldest y hy hle
    have := hle x hx
    omega
  · intro h
    constructor
    · rfl
    · exact fun _ => rfl
    · intro x hx _
      have := h x hx
      change (0 : Int) = _
      omega

/-- The time since the epoch is right if nothing is overdue, or if nothing is older. -/
theorem describes_zero_iff {queue : List (String × Int)} (now : Int) (member : x ∈ queue)
    (zero : x.2 = 0) :
    Describes queue now { pendingCount := queue.length, oldestRetryAge := max 0 now } ↔
      (∀ y ∈ queue, now ≤ y.2) ∨ ∀ y ∈ queue, 0 ≤ y.2 := by
  obtain ⟨first, hfirst, hle⟩ := exists_oldest (List.ne_nil_of_mem member)
  have hbefore := hle x member
  constructor
  · intro h
    have hage : max 0 now = max 0 (now - first.2) := h.oldest first hfirst hle
    by_cases hzero : first.2 = 0
    · exact .inr fun y hy => hzero ▸ hle y hy
    · left
      intro y hy
      have := hle y hy
      omega
  · intro h
    constructor
    · rfl
    · exact fun none => absurd none (List.ne_nil_of_mem member)
    · intro y hy oldest
      have hsame : y.2 = first.2 := Int.le_antisymm (oldest first hfirst) (hle y hy)
      change max 0 now = _
      cases h with
      | inl h =>
          have := h y hy
          omega
      | inr h =>
          have := h first hfirst
          omega

/-- What `getRetryStats` returns describes the queue exactly if the queue is empty, or if the
options are honoured and nothing is overdue or the oldest retry was due at the epoch. -/
theorem stats_describe_iff (nodup : ((r.zsets "retries").map Prod.fst).Nodup)
    (reading : OptionReading) (now : Int) :
    (∃ stats', stats reading now r = .ok stats' ∧ Describes (r.zsets "retries") now stats') ↔
      r.zsets "retries" = [] ∨ reading = .honoured ∧ ((∀ x ∈ r.zsets "retries", now ≤ x.2) ∨
        ((∃ x ∈ r.zsets "retries", x.2 = 0) ∧ ∀ x ∈ r.zsets "retries", 0 ≤ x.2)) := by
  cases reading with
  | ignored =>
      rw [stats_ignored]
      simp only [Except.ok.injEq, exists_eq_left', describes_ignored_iff, reduceCtorEq, false_and,
        or_false]
  | honoured =>
      have hnil (h : r.zsets "retries" = []) : ∀ x ∈ r.zsets "retries", now ≤ x.2 := by simp [h]
      by_cases hzero : ∃ x ∈ r.zsets "retries", x.2 = 0
      · obtain ⟨x, hx, zero⟩ := hzero
        rw [stats_of_zero nodup hx zero]
        simp only [Except.ok.injEq, exists_eq_left', describes_zero_iff now hx zero, true_and]
        constructor
        · exact fun h => .inr (h.imp_right fun h => ⟨⟨x, hx, zero⟩, h⟩)
        · rintro (h | h)
          · exact .inl (hnil h)
          · exact h.imp_right fun h => h.2
      · rw [stats_of_none fun x hx zero => hzero ⟨x, hx, zero⟩]
        simp only [Except.ok.injEq, exists_eq_left', describes_none_iff, true_and]
        constructor
        · exact fun h => .inr (.inl h)
        · rintro (h | h | ⟨h, -⟩)
          · exact hnil h
          · exact h
          · exact absurd h hzero

end Replies

/-! ## Queues of all runs -/

section Runs

variable {uuid : ℕ → String} {xs : List TimedRetries.QueueTurn} {w : World}

/-- The set lists each of its members once. -/
theorem nodup_of_run (run : (calls uuid).Runs xs w) :
    ((w.redis.zsets "retries").map Prod.fst).Nodup := by
  refine run.kept (I := fun w => ((w.redis.zsets "retries").map Prod.fst).Nodup) ?_ ?_ ?_
  · intro w empty
    have empty : w.redis.zsets "retries" = [] := empty
    rw [empty]
    exact List.nodup_nil
  · rintro w w' ⟨time, -, rfl⟩ h
    exact h
  · intro w ev w' answer h
    by_cases hredis : ∃ c, ev.call = .redis c
    · obtain ⟨call, answered⟩ := ev
      obtain ⟨c, rfl⟩ := hredis
      obtain ⟨-, rfl⟩ | ⟨rfl, -⟩ := World.faulty_redis answer
      · exact Redis.nodup_answer h c
      · exact h
    · rw [World.faulty_redis_eq answer fun c hc => hredis ⟨c, hc⟩]
      exact h

/-- After any sequence of calls, with either reading of the options: the statistics describe
the queue exactly if it is empty, or if the options are honoured and nothing is overdue or the
oldest retry was due at the epoch. -/
theorem retryStats_describe_iff (run : (calls uuid).Runs xs w) (reading : OptionReading)
    (now : Int) :
    (∃ stats', stats reading now w.redis = .ok stats' ∧
        Describes (w.redis.zsets "retries") now stats') ↔
      w.redis.zsets "retries" = [] ∨
      reading = .honoured ∧ ((∀ x ∈ w.redis.zsets "retries", now ≤ x.2) ∨
        ((∃ x ∈ w.redis.zsets "retries", x.2 = 0) ∧ ∀ x ∈ w.redis.zsets "retries", 0 ≤ x.2)) :=
  stats_describe_iff (nodup_of_run run) reading now

end Runs

/-- It is 1000, and every call succeeds. -/
def atThousand (_ : World) : Choice := { outcome := .ok ⟨true, none⟩, now := .ofTime 1000 }

/-- Redis after one retry has been scheduled at 1000 with a delay of 1000. -/
def scheduledWorld : World :=
  ((RetrySchedulerService.scheduleRetry "m-1" "sms" 1 1000).run
    (World.handler toString atThousand) {}).2

theorem run_scheduledWorld : ∃ xs, (calls toString).Runs xs scheduledWorld := by
  have start : (calls toString).Runs [] {} := .start rfl
  have run := start.executed (j := .scheduleRetry "m-1" "sms" 1 1000) trivial
    (World.faulty_handler toString atThousand) fun _ _ => trivial
  exact ⟨_, run⟩

/-- The retry is overdue by 3000. With one reading it is counted without an age, with the other
one it is not even counted. -/
theorem retryStats_fails :
    (∃ xs, (calls toString).Runs xs scheduledWorld) ∧
    scheduledWorld.redis.zsets "retries" = [("m-1:sms:2", 2000)] ∧
    stats .honoured 5000 scheduledWorld.redis =
      .ok { pendingCount := 1, oldestRetryAge := 0 } ∧
    stats .ignored 5000 scheduledWorld.redis = .ok { pendingCount := 0, oldestRetryAge := 0 } ∧
    ∀ reading, ¬ ∃ stats', stats reading 5000 scheduledWorld.redis = .ok stats' ∧
      Describes (scheduledWorld.redis.zsets "retries") 5000 stats' := by
  obtain ⟨xs, run⟩ := run_scheduledWorld
  refine ⟨⟨xs, run⟩, by decide, rfl, rfl, ?_⟩
  intro reading
  have hqueue : scheduledWorld.redis.zsets "retries" = [("m-1:sms:2", 2000)] := by decide
  rw [stats_describe_iff (nodup_of_run run), hqueue]
  simp

/-- While nothing is due yet, the age of 0 is right. -/
theorem retryStats_describe_scheduled :
    (∃ stats', stats .honoured 1500 scheduledWorld.redis = .ok stats' ∧
      Describes (scheduledWorld.redis.zsets "retries") 1500 stats') ∧
    ¬ ∃ stats', stats .ignored 1500 scheduledWorld.redis = .ok stats' ∧
      Describes (scheduledWorld.redis.zsets "retries") 1500 stats' := by
  obtain ⟨xs, run⟩ := run_scheduledWorld
  exact ⟨(retryStats_describe_iff run .honoured 1500).mpr (.inr ⟨rfl, .inl (by decide)⟩),
    fun h => absurd ((retryStats_describe_iff run .ignored 1500).mp h) (by decide)⟩

end RetryStats

end Notification
