import Notification.Aggregator.Attempts
import Notification.Aggregator.Schema

/-!
# Attempt numbers along the retry loop

The attempt counter is increased three times on its way round: the processor calls
the provider with `attempt + 1`, hands this number to the scheduler, the scheduler
writes one more into the sorted set, and the consumer reads that back as the attempt
of the next delivery. So the numbers go up in steps of two.

The chain follows one message. Each round is a delivery and the poll that finds its
retry due, with the message's other fields restored.
-/

namespace Notification

open Interaction

namespace RetrySchedulerService

/-- A member is read back as it was written. -/
theorem parseItem_payload {messageId channel : String} (hid : NoColon messageId)
    (hchannel : NoColon channel) {attempt : ℕ} (exact : attempt ≤ Number.exactLimit) :
    parseItem (payload messageId channel attempt) =
      { messageId, channel := some channel, attempt := some attempt } := by
  have htext : payload messageId channel attempt =
      messageId ++ ":" ++ (channel ++ ":" ++ Number.toText attempt) := by
    simp only [payload, String.append_assoc]
  simp only [parseItem, htext, splitColon_append hid, splitColon_append hchannel,
    splitColon_of_noColon (noColon_toText attempt), parseInt10_toText exact]

end RetrySchedulerService

/-- The attempt that the consumer reads from what the retry loop publishes. -/
def republishedAttempt (retry : PendingRetry) : Int :=
  normalizeAttempt ((Worker.retryMessage retry).toJson.get? "attempt")

theorem republishedAttempt_some {messageId channel : String} {attempt : Int} :
    republishedAttempt { messageId, channel := some channel, attempt := some attempt } =
      attempt := by
  rfl

namespace World

/-- The retries of one message. -/
def retriesOf (w : World) (messageId : String) : List (String × Int) :=
  (w.redis.zsets "retries").filter fun x =>
    (RetrySchedulerService.parseItem x.1).messageId == messageId

/-- A moment at which every retry is due. -/
def allDue (w : World) : Int := ((w.redis.zsets "retries").map Prod.snd).foldr max 0

theorem le_allDue {w : World} {x : String × Int} (h : x ∈ w.redis.zsets "retries") :
    x.2 ≤ w.allDue := by
  rw [allDue]
  generalize w.redis.zsets "retries" = members at h
  induction members with
  | nil => exact absurd h List.not_mem_nil
  | cons y rest ih =>
      rw [List.map_cons, List.foldr_cons]
      obtain rfl | h := List.mem_cons.mp h
      · omega
      · have := ih h
        omega

end World

/-- One round of the chain: the numbers of its provider calls, how long its retry has
to wait, and whether the message has been moved to the DLQ. -/
structure Round where
  attemptNumbers : List Int
  wait : Option Int
  dlq : Bool

section Chain

variable (uuid : ℕ → String) (provider : IProvider)
  (outcomes : ℕ → Except JsError ProviderResult) (clock late : World → Clock)

/-- The world after one delivery of `m`, which takes place at the time of the clock. -/
def delivered (m : MessageToDeliver) (w : World) : World :=
  ((DeliveryProcessorService.processDelivery interfaceRepository provider m).run
    (World.handler uuid (steady outcomes (clock w))) w).2

/-- The poll after a delivery, at the time `late`. -/
def polled (w : World) : Except JsError (List PendingRetry) × World :=
  RetrySchedulerService.getPendingRetries.run (World.handler uuid (steady outcomes (late w))) w

def roundOf (m : MessageToDeliver) (w w' : World) : Round where
  attemptNumbers := (w'.inbox.drop w.inbox.length).map fun x => x.options.attemptNumber
  wait := (w'.retriesOf m.messageId).head?.map fun x => x.2 - (clock w).time
  dlq := w.db.dlqEntries.length < w'.db.dlqEntries.length

/-- The first `n` rounds of the chain of `m`. -/
def chain : ℕ → MessageToDeliver → World → List Round
  | 0, _, _ => []
  | n + 1, m, w =>
    let w' := delivered uuid provider outcomes clock m w
    let round := roundOf clock m w w'
    match polled uuid outcomes late w' with
    | (.ok retries, w'') =>
      match retries.find? fun r => r.messageId == m.messageId with
      | some retry => round :: chain n { m with attempt := republishedAttempt retry } w''
      | none => [round]
    | (.error _, _) => [round]

/-- The numbers of the provider calls in order. -/
def callNumbers (rounds : List Round) : List Int := rounds.flatMap Round.attemptNumbers

/-- The law of attempt numbers and of the retry budget for a message that starts with
attempt `a`. -/
structure RetryLaw (a : Int) (rounds : ℕ → List Round) : Prop where
  consecutive : ∀ (n i : ℕ) (k : Int), (callNumbers (rounds n))[i]? = some k → k = a + 1 + i
  waits : ∀ n, ∀ round ∈ rounds n, ∀ k d, round.attemptNumbers = [k] → round.wait = some d →
    0 ≤ k ∧ DeliveryProcessorService.BACKOFF_DELAYS[k.toNat]? = some d
  budget : a = 0 → (∀ i, ∃ e, outcomes i = .error e) →
    (∃ n, ∃ round ∈ rounds n, round.dlq = true) ∧
    ∀ n, (∃ round ∈ rounds n, round.dlq = true) →
      ((callNumbers (rounds n)).length : Int) = DeliveryProcessorService.MAX_ATTEMPTS

variable {m : MessageToDeliver} {w : World}

/-- A delivery whose provider call succeeds, or fails for the last time, schedules no
retry. -/
theorem delivered_of_stop (h : Deliverable w m)
    (stop : (∃ result, outcomes w.inbox.length = .ok result) ∨
      DeliveryProcessorService.MAX_ATTEMPTS ≤ m.attempt + 1) :
    (∃ outcome, (delivered uuid provider outcomes clock m w).inbox =
      w.inbox ++ [sending provider m outcome]) ∧
    (delivered uuid provider outcomes clock m w).redis.zsets = w.redis.zsets := by
  cases houtcome : outcomes w.inbox.length with
  | ok result =>
      obtain ⟨w', hrun, hinbox, hzsets⟩ := DeliveryProcessorService.run_of_success uuid provider
        (clock w) h houtcome
      exact ⟨⟨_, by rw [delivered, hrun, hinbox]⟩, by rw [delivered, hrun, hzsets]⟩
  | error e =>
      have exhausted := stop.resolve_left (by simp [houtcome])
      obtain ⟨w', hrun, hinbox, hzsets⟩ := DeliveryProcessorService.run_of_exhausted uuid
        provider (clock w) h houtcome exhausted
      exact ⟨⟨_, by rw [delivered, hrun, hinbox]⟩, by rw [delivered, hrun, hzsets]⟩

/-- Every delivery makes one provider call, numbered with the attempt plus one. -/
theorem attemptNumbers_roundOf (h : Deliverable w m) :
    (roundOf clock m w (delivered uuid provider outcomes clock m w)).attemptNumbers =
      [m.attempt + 1] := by
  have hinbox : ∃ outcome, (delivered uuid provider outcomes clock m w).inbox =
      w.inbox ++ [sending provider m outcome] := by
    by_cases stop : (∃ result, outcomes w.inbox.length = .ok result) ∨
        DeliveryProcessorService.MAX_ATTEMPTS ≤ m.attempt + 1
    · exact (delivered_of_stop uuid provider outcomes clock h stop).1
    · obtain ⟨hfailed, hleft⟩ := not_or.mp stop
      cases houtcome : outcomes w.inbox.length with
      | ok result => exact absurd ⟨result, houtcome⟩ hfailed
      | error e =>
          obtain ⟨w', hrun, hinbox, -⟩ := DeliveryProcessorService.run_of_retry uuid provider
            (clock w) h houtcome (Int.not_le.mp hleft)
          exact ⟨_, by rw [delivered, hrun, hinbox]⟩
  obtain ⟨outcome, hinbox⟩ := hinbox
  simp [roundOf, hinbox, sending, DeliveryProcessorService.sendOptions]

/-- The poll hands back what is due, and leaves the rows as they are. -/
theorem polled_eq (w : World) : ∃ w', polled uuid outcomes late w =
      (.ok ((RetrySchedulerService.due w (late w).time).map RetrySchedulerService.parseItem), w') ∧
    w'.db = w.db := by
  obtain ⟨redis, hrun⟩ := RetrySchedulerService.run_getPendingRetries uuid
    (rfl : ((steady outcomes (late w) w).now.time : Int) = _)
  exact ⟨_, hrun, rfl⟩

/-- No retry of `m` is scheduled. -/
def NoRetry (w : World) (m : MessageToDeliver) : Prop :=
  ∀ x ∈ w.redis.zsets "retries", (RetrySchedulerService.parseItem x.1).messageId ≠ m.messageId

/-- After a delivery that schedules no retry the chain stops. -/
theorem chain_of_stop (h : Deliverable w m) (none : NoRetry w m)
    (stop : (∃ result, outcomes w.inbox.length = .ok result) ∨
      DeliveryProcessorService.MAX_ATTEMPTS ≤ m.attempt + 1) (n : ℕ) :
    chain uuid provider outcomes clock late (n + 1) m w =
      [roundOf clock m w (delivered uuid provider outcomes clock m w)] := by
  obtain ⟨-, hzsets⟩ := delivered_of_stop uuid provider outcomes clock h stop
  obtain ⟨w', hpolled, -⟩ := polled_eq uuid outcomes late
    (delivered uuid provider outcomes clock m w)
  have hfind : ((RetrySchedulerService.due (delivered uuid provider outcomes clock m w)
      (late (delivered uuid provider outcomes clock m w)).time).map
      RetrySchedulerService.parseItem).find? (fun r => r.messageId == m.messageId) =
        Option.none := by
    refine List.find?_eq_none.mpr fun retry hretry => ?_
    obtain ⟨item, hitem, rfl⟩ := List.mem_map.mp hretry
    obtain ⟨x, hx, rfl⟩ := List.mem_map.mp hitem
    rw [hzsets] at hx
    simpa using none x (List.mem_filter.mp hx).1
  simp only [chain, hpolled, hfind]

/-- With attempts left the next but one attempt is an exact integer. -/
theorem add_of_left {a : Int} (start : 0 ≤ a)
    (left : a + 1 < DeliveryProcessorService.MAX_ATTEMPTS) : Number.add (a + 1) 1 = a + 2 := by
  rw [DeliveryProcessorService.MAX_ATTEMPTS] at left
  rw [Number.add_of_le (by rw [Number.exactLimit]; omega)]
  omega

theorem parseItem_retryMember (start : 0 ≤ m.attempt)
    (left : m.attempt + 1 < DeliveryProcessorService.MAX_ATTEMPTS) (hid : NoColon m.messageId)
    (hchannel : NoColon m.channel) : RetrySchedulerService.parseItem (retryMember m) =
      { messageId := m.messageId, channel := some m.channel, attempt := some (m.attempt + 2) } := by
  obtain ⟨a, ha⟩ := Int.eq_ofNat_of_zero_le (show 0 ≤ m.attempt + 2 by omega)
  rw [DeliveryProcessorService.MAX_ATTEMPTS] at left
  rw [retryMember, add_of_left start left, ha, RetrySchedulerService.parseItem_payload hid hchannel]
  rw [Number.exactLimit]
  omega

/-- A scheduled retry is found by a poll that comes late enough. -/
theorem mem_due_of_scheduled {w w₁ : World} {t : Clock} {k now : Int}
    (scheduled : w₁.redis.zsets = (w.redis.zAdd "retries"
      (t.time + DeliveryProcessorService.backoffDelay k) (retryMember m)).zsets)
    (late : w₁.allDue ≤ now) : retryMember m ∈ RetrySchedulerService.due w₁ now := by
  have hmem : (retryMember m, t.time + DeliveryProcessorService.backoffDelay k) ∈
      w₁.redis.zsets "retries" := by
    rw [scheduled]
    exact Redis.mem_zAdd.mpr (.inl rfl)
  refine List.mem_map.mpr ⟨_, List.mem_filter.mpr ⟨hmem, ?_⟩, rfl⟩
  have hle := World.le_allDue hmem
  have hdelay := DeliveryProcessorService.backoffDelay_nonneg k
  simp only [Redis.inRange, Bool.and_eq_true, decide_eq_true_eq]
  omega

/-- After a failed delivery with attempts left the chain goes on, with the attempt
increased by two. -/
theorem chain_of_retry (h : Deliverable w m) (none : NoRetry w m) {e : JsError}
    (failed : outcomes w.inbox.length = .error e)
    (left : m.attempt + 1 < DeliveryProcessorService.MAX_ATTEMPTS) (start : 0 ≤ m.attempt)
    (hid : NoColon m.messageId) (hchannel : NoColon m.channel)
    (due : (delivered uuid provider outcomes clock m w).allDue ≤
      (late (delivered uuid provider outcomes clock m w)).time) :
    ∃ w', Deliverable w' { m with attempt := m.attempt + 2 } ∧
      ∀ n, chain uuid provider outcomes clock late (n + 1) m w =
        roundOf clock m w (delivered uuid provider outcomes clock m w) ::
          chain uuid provider outcomes clock late n { m with attempt := m.attempt + 2 } w' := by
  obtain ⟨w₁, hrun, -, hzsets, hdeliverable⟩ := DeliveryProcessorService.run_of_retry uuid
    provider (clock w) h failed left
  have hdelivered : delivered uuid provider outcomes clock m w = w₁ := by rw [delivered, hrun]
  obtain ⟨w', hpolled, hdb⟩ := polled_eq uuid outcomes late w₁
  refine ⟨w', hdeliverable.mono (by rw [hdb]) (by rw [hdb]) rfl, fun n => ?_⟩
  have hparse := parseItem_retryMember start left hid hchannel
  rw [hdelivered] at due
  have hdue := mem_due_of_scheduled hzsets due
  have hfind : ((RetrySchedulerService.due w₁ (late w₁).time).map
      RetrySchedulerService.parseItem).find? (fun r => r.messageId == m.messageId) =
        some (RetrySchedulerService.parseItem (retryMember m)) := by
    cases hfound : ((RetrySchedulerService.due w₁ (late w₁).time).map
        RetrySchedulerService.parseItem).find? (fun r => r.messageId == m.messageId) with
    | none =>
        have := List.find?_eq_none.mp hfound _ (List.mem_map_of_mem hdue)
        simp [hparse] at this
    | some retry =>
        obtain ⟨item, hitem, rfl⟩ := List.mem_map.mp (List.mem_of_find?_eq_some hfound)
        obtain ⟨x, hx, rfl⟩ := List.mem_map.mp hitem
        have hsame := List.find?_some hfound
        have hx' := (List.mem_filter.mp hx).1
        rw [hzsets] at hx'
        obtain rfl | ⟨hold, -⟩ := Redis.mem_zAdd.mp hx'
        · rfl
        · exact absurd (by simpa using hsame) (none x hold)
  simp only [chain, hdelivered, hpolled, hfind, hparse, republishedAttempt_some]

theorem chain_one (m : MessageToDeliver) (w : World) :
    chain uuid provider outcomes clock late 1 m w =
      [roundOf clock m w (delivered uuid provider outcomes clock m w)] := by
  simp only [chain]
  split
  · split <;> rfl
  · rfl

theorem wait_roundOf_of_stop (h : Deliverable w m) (none : NoRetry w m)
    (stop : (∃ result, outcomes w.inbox.length = .ok result) ∨
      DeliveryProcessorService.MAX_ATTEMPTS ≤ m.attempt + 1) :
    (roundOf clock m w (delivered uuid provider outcomes clock m w)).wait = Option.none := by
  have hretries : (delivered uuid provider outcomes clock m w).retriesOf m.messageId = [] := by
    rw [World.retriesOf, (delivered_of_stop uuid provider outcomes clock h stop).2]
    exact List.filter_eq_nil_iff.mpr fun x hx => by simpa using none x hx
  rw [roundOf, hretries]
  rfl

end Chain

/-- A provider that always fails. -/
def alwaysDown : ℕ → Except JsError ProviderResult :=
  fun _ => .error { message := "SMS delivery failed" }

def minuteLater : Clock := .ofTime 60000

end Notification
