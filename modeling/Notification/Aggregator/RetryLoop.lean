import Notification.Aggregator.RetryBudget

/-!
# The retry loop, from a failed delivery to the next one

What the retry loop publishes for a due retry has a message id, a channel, an attempt
and a made-up trace id, and nothing else. The consumer asks the database about the
pair of tenant and idempotency key of every event; of a retry event both are
undefined, mysql2 refuses to bind them, and the whole batch ends there.
-/

namespace Notification

open Interaction

section Publishing

variable (uuid : ℕ → String) (choose : World → Choice)

/-- The record of a due retry. -/
def retryRecord (retry : PendingRetry) (partition : ℕ) : Record where
  topic := "messages." ++ retry.channel.getD "undefined"
  partition := partition
  key := none
  value := (Worker.retryMessage retry).toJson
  headers := [("traceId", "retry-" ++ retry.messageId), ("attempt", match retry.attempt with
    | some n => Number.toText n
    | none => "NaN")]

theorem run_publishRetryMessage (retry : PendingRetry) (w : World) :
    (EventPublisherService.publishRetryMessage (Worker.retryMessage retry)).run
        (World.handler uuid choose) w =
      (.ok (), { w with log := w.log ++ [retryRecord retry (choose w).partition] }) := rfl

/-- The events are the records of the retries. -/
structure RecordsOf (retries : List PendingRetry) (events : List Record) : Prop where
  every : ∀ retry ∈ retries, ∃ partition, retryRecord retry partition ∈ events
  only : ∀ event ∈ events, ∃ retry partition, event = retryRecord retry partition

theorem run_publishRetries (retries : List PendingRetry) (w : World) :
    ∃ events, (Program.forEach retries fun retry =>
        EventPublisherService.publishRetryMessage (Worker.retryMessage retry)).run
          (World.handler uuid choose) w =
        (.ok (retries.map fun _ => ()), { w with log := w.log ++ events }) ∧
      RecordsOf retries events := by
  induction retries generalizing w with
  | nil => exact ⟨[], by simp [Program.forEach], by simp, by simp⟩
  | cons retry rest ih =>
      obtain ⟨events, hrun, hevents⟩ :=
        ih { w with log := w.log ++ [retryRecord retry (choose w).partition] }
      refine ⟨retryRecord retry (choose w).partition :: events, ?_, ?_, ?_⟩
      · rw [Program.forEach, Program.run_bind, run_publishRetryMessage, Program.andThen_ok,
          Program.run_bind, hrun]
        simp
      · intro other hother
        obtain rfl | hother := List.mem_cons.mp hother
        · exact ⟨_, List.mem_cons_self⟩
        · exact (hevents.every other hother).imp fun _ => List.mem_cons_of_mem _
      · intro event hevent
        obtain rfl | hevent := List.mem_cons.mp hevent
        · exact ⟨_, _, rfl⟩
        · exact hevents.only event hevent

/-- One call of the retry loop publishes what is due, and nothing else. -/
theorem run_pollRetries {choose : World → Choice} {w : World} {now : Int}
    (hnow : (choose w).now.time = now) :
    ∃ events redis, Worker.pollRetries.run (World.handler uuid choose) w =
        (.ok (), { w with redis := redis, log := w.log ++ events }) ∧
      RecordsOf ((RetrySchedulerService.due w now).map RetrySchedulerService.parseItem) events := by
  obtain ⟨redis, hpending⟩ := RetrySchedulerService.run_getPendingRetries uuid hnow
  obtain ⟨events, hrun, hevents⟩ := run_publishRetries uuid choose
    ((RetrySchedulerService.due w now).map RetrySchedulerService.parseItem)
    { w with redis := redis }
  refine ⟨events, redis, ?_, hevents⟩
  rw [Worker.pollRetries, Program.run_tryCatch, Program.run_bind, hpending, Program.andThen_ok,
    Program.run_bind, hrun]
  rfl

end Publishing

/-! ## Consuming a retry event -/

/-- The event as the consumer is given it. -/
def Record.consumed (event : Record) (offset : ℕ) : KafkaMessage :=
  { offset, value := some (some event.value) }

/-- A batch of one retry event changes nothing, whatever the database holds: the bulk
query cannot be bound. -/
theorem run_eachBatch_retryRecord (uuid : ℕ → String) (choose : World → Choice)
    (deliveryRepository : IDeliveryRepository) (retry : PendingRetry) (partition offset : ℕ)
    (w : World) :
    (Worker.eachBatch deliveryRepository
        ⟨(retryRecord retry partition).topic, partition,
          [(retryRecord retry partition).consumed offset]⟩).run (World.handler uuid choose) w =
      (.ok (), w) := by
  obtain ⟨messageId, channel, attempt⟩ := retry
  cases channel <;> cases attempt <;> rfl

/-! ## The loop as a whole -/

/-- The event carries what the message was first consumed with. -/
structure Carries (m : MessageToDeliver) (event : Record) : Prop where
  key : event.key = some (.string m.userId)
  userId : event.value.stringField "userId" = some m.userId
  tenantId : event.value.stringField "tenantId" = some m.tenantId
  dedupKey : event.value.stringField "dedupKey" = some m.dedupKey
  idempotencyKey : event.value.stringField "idempotencyKey" = m.idempotencyKey
  traceId : event.value.stringField "traceId" = m.traceId

/-- Any batch with the event, consumed in world `w`, leads to a provider call like the
first one, and the message's row takes down the number of that call. -/
def Resends (m : MessageToDeliver) (event : Record) (w : World) : Prop :=
  ∀ (uuid : ℕ → String) (choose : World → Choice) (batch : Batch), batch.topic = event.topic →
    (∃ offset, event.consumed offset ∈ batch.messages) →
      ∃ x ∈ ((Worker.eachBatch interfaceRepository batch).run
          (World.handler uuid choose) w).2.inbox.drop w.inbox.length,
        x.recipient = m.recipient ∧ x.body = m.body ∧
        x.options.idempotencyToken = m.messageId ∧
        ((((Worker.eachBatch interfaceRepository batch).run
          (World.handler uuid choose) w).2.row? m.messageId).map MessageRow.attemptCount) =
            some x.options.attemptNumber

theorem not_carries_retryRecord (m : MessageToDeliver) (retry : PendingRetry) (partition : ℕ) :
    ¬ Carries m (retryRecord retry partition) := by
  intro h
  cases h.key

theorem not_resends_retryRecord (m : MessageToDeliver) (retry : PendingRetry) (partition : ℕ)
    (w : World) : ¬ Resends m (retryRecord retry partition) w := by
  intro h
  obtain ⟨x, hx, -⟩ := h toString (fun _ => { outcome := .ok ⟨true, none⟩ })
    ⟨(retryRecord retry partition).topic, partition, [(retryRecord retry partition).consumed 0]⟩
    rfl ⟨0, List.mem_singleton.mpr rfl⟩
  rw [run_eachBatch_retryRecord, List.drop_length] at hx
  exact absurd hx List.not_mem_nil

/-- After a failed delivery with attempts left, a poll that comes late enough publishes
an event for the message; no event it publishes carries the message's fields or is sent
again when it is consumed. -/
theorem retry_loop_never_closes {uuid : ℕ → String} {provider : IProvider}
    {outcomes : ℕ → Except JsError ProviderResult} {clock : World → Clock} {m : MessageToDeliver}
    {w : World} (h : Deliverable w m) (start : 0 ≤ m.attempt) (hid : NoColon m.messageId)
    (hchannel : NoColon m.channel) {e : JsError} (failed : outcomes w.inbox.length = .error e)
    (left : m.attempt + 1 < DeliveryProcessorService.MAX_ATTEMPTS) {choose : World → Choice}
    (late : (delivered uuid provider outcomes clock m w).allDue ≤
      (choose (delivered uuid provider outcomes clock m w)).now.time) :
    ∃ events, (Worker.pollRetries.run (World.handler uuid choose)
        (delivered uuid provider outcomes clock m w)).2.log =
          (delivered uuid provider outcomes clock m w).log ++ events ∧
      (∃ event ∈ events, event.value.stringField "messageId" = some m.messageId) ∧
      ∀ event ∈ events, ¬ Carries m event ∧ ∀ later, ¬ Resends m event later := by
  obtain ⟨w₁, hrun, -, hzsets, -⟩ := DeliveryProcessorService.run_of_retry uuid
    provider (clock w) h failed left
  have hdelivered : delivered uuid provider outcomes clock m w = w₁ := by rw [delivered, hrun]
  rw [hdelivered] at late ⊢
  obtain ⟨events, redis, hpoll, hevents⟩ := run_pollRetries uuid
    (rfl : ((choose w₁).now.time : Int) = _)
  refine ⟨events, by rw [hpoll], ?_, fun event hevent => ?_⟩
  · have hdue := mem_due_of_scheduled hzsets late
    obtain ⟨partition, hevent⟩ := hevents.every _ (List.mem_map_of_mem hdue)
    refine ⟨_, hevent, ?_⟩
    rw [parseItem_retryMember start left hid hchannel]
    rfl
  · obtain ⟨retry, partition, rfl⟩ := hevents.only event hevent
    exact ⟨not_carries_retryRecord m retry partition, not_resends_retryRecord m retry partition⟩

/-- The world after the provider has failed for the message, and after the poll that
finds its retry due. -/
def failedWorld : World :=
  delivered toString ⟨"SMSProvider"⟩ alwaysDown (fun _ => .epoch) sampleMessage sampleWorld

def polledWorld : World :=
  (Worker.pollRetries.run (World.handler toString (steady alwaysDown minuteLater)) failedWorld).2

/-- The event that is published for the message. -/
def publishedEvent : Record :=
  retryRecord { messageId := "m-1", channel := some "sms", attempt := some 2 } 0

/-- The event lacks the message's fields, and a worker that consumes it right away calls
no provider, whether the provider is up again or not. -/
theorem retry_loop_fails :
    failedWorld.inbox.length = 1 ∧ polledWorld.log = failedWorld.log ++ [publishedEvent] ∧
    ¬ Carries sampleMessage publishedEvent ∧ ¬ Resends sampleMessage publishedEvent polledWorld :=
  ⟨rfl, rfl, not_carries_retryRecord _ _ _, not_resends_retryRecord _ _ _ _⟩

theorem sampleDue : failedWorld.allDue ≤ (steady alwaysDown minuteLater failedWorld).now.time := by
  decide

theorem retry_loop_never_closes_sample :
    ∃ events, polledWorld.log = failedWorld.log ++ events ∧
      (∃ event ∈ events, event.value.stringField "messageId" = some "m-1") ∧
      ∀ event ∈ events, ¬ Carries sampleMessage event ∧ ∀ later,
        ¬ Resends sampleMessage event later :=
  retry_loop_never_closes (m := sampleMessage) (w := sampleWorld) ⟨by decide, by decide⟩ (by decide)
    (by decide) (by decide) rfl (by decide) sampleDue

end Notification
