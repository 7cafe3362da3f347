import Notification.Aggregator.BatchRun

/-!
# Batches of recorded messages

If the pair of every message of a batch has a row, the check finds all of them, whichever
pairs were asked for: the representative of a joined key is a message of the batch too. So
nothing is inserted, the delivery loop skips every message, and the offset is resolved.
-/

namespace Notification

open Interaction Program

namespace Worker

variable (broken : Call → Bool) (uuid : ℕ → String) (choose : World → Choice) (w : World)
  {deliveryRepository : IDeliveryRepository} {b : Batch}

theorem makes_checkBatchIdempotency (messages : List MessageToCheckIdempotency) :
    (BatchIdempotencyService.checkBatchIdempotency messages).Makes fun ev =>
      ∃ c, ev.call = .sql c := by
  rw [BatchIdempotencyService.checkBatchIdempotency]
  split
  · trivial
  · refine Makes.bind (fun _ => ⟨⟨_, rfl⟩, trivial⟩) fun _ => Makes.andFinally ?_
      fun _ => ⟨⟨_, rfl⟩, trivial⟩
    exact Makes.bind (Makes.ite trivial fun _ => ⟨⟨_, rfl⟩, trivial⟩) fun _ => trivial

/-- The check only needs MySQL. -/
theorem run_check_of_sql (sql : ∀ c, broken (.sql c) = false)
    {messages : List MessageToCheckIdempotency} (keyed : ∀ m ∈ messages, m.Keyed) :
    (BatchIdempotencyService.checkBatchIdempotency messages).run
        (World.brokenHandler broken uuid choose) w =
      (.ok (BatchIdempotencyService.partitionBatch
        (BatchIdempotencyService.rowsFor w.db messages) messages), w) := by
  rw [(makes_checkBatchIdempotency messages).run_congr (fun c r s => ?_) w]
  · exact BatchIdempotencyService.run_checkBatchIdempotency uuid choose w keyed
  · rintro ⟨c, rfl⟩
    exact World.brokenHandler_of_sound (sql c)

/-- Resolving changes the resolved offsets only, also if the heartbeat fails. -/
theorem run_resolveBatch {messages : List KafkaMessage} {results : List ProcessResult}
    {last : KafkaMessage} (done : ∀ r ∈ results, (r.success || r.isDuplicate) = true)
    (hlast : messages.getLast? = some last) :
    ∃ o, (resolveBatch messages results).run (World.brokenHandler broken uuid choose) w =
      (o, { w with resolved := w.resolved ++ [last.offset] }) := by
  have hall : (results.all fun r => r.success || r.isDuplicate) = true := List.all_eq_true.mpr done
  have hresolve : World.brokenHandler broken uuid choose (.resolveOffset last.offset) w =
      (.ok (), { w with resolved := w.resolved ++ [last.offset] }) := rfl
  have hheartbeat (w : World) :
      ∃ o, World.brokenHandler broken uuid choose .heartbeat w = (o, w) := by
    unfold World.brokenHandler World.brokenAnswer
    split <;> exact ⟨_, rfl⟩
  obtain ⟨o, ho⟩ := hheartbeat { w with resolved := w.resolved ++ [last.offset] }
  refine ⟨o, ?_⟩
  simp [resolveBatch, hall, hlast, hresolve, ho]

/-- A recorded message: its event has both parts of the pair, and a row has the pair. -/
def Recorded (db : Database) (msg : KafkaMessage) : Prop :=
  ∃ e, msg.parse = .ok e ∧ ∃ r ∈ db.messages, r.name = e.toCheck.name

theorem keyed_of_name {r : MessageRow} {m : MessageToCheckIdempotency} (h : r.name = m.name) :
    m.Keyed := by
  simp only [MessageRow.name, MessageToCheckIdempotency.name, Prod.mk.injEq] at h
  exact ⟨by rw [← h.1]; rfl, by rw [← h.2]; rfl⟩

/-- All messages of the batch are found. -/
theorem found_of_recorded {es : List ParsedKafkaMessage}
    (rows : ∀ e ∈ es, ∃ r ∈ w.db.messages, r.name = e.toCheck.name) {e : ParsedKafkaMessage}
    (member : e ∈ es) :
    (BatchIdempotencyService.existingFor (BatchIdempotencyService.rowsFor w.db
      (es.map ParsedKafkaMessage.toCheck)) e.toCheck.key).isSome = true := by
  rw [BatchIdempotencyService.existingFor_rowsFor]
  refine Lookup.found_of_all (fun n hn => ?_)
    (List.mem_map_of_mem (List.mem_map_of_mem member))
  obtain ⟨m, hm, rfl⟩ := List.mem_map.mp hn
  obtain ⟨e', he', rfl⟩ := List.mem_map.mp hm
  exact rows e' he'

section Sample

/-- The event of a message with this pair. -/
def eventOf (messageId tenantId idempotencyKey : String) : KafkaMessage where
  offset := 7
  value := some (some (.object
    [("messageId", .string messageId), ("tenantId", .string tenantId),
      ("idempotencyKey", .string idempotencyKey)]))

/-- Rows of two pairs with one joined key. -/
def recordedPairs : World :=
  { db := { messages :=
      [ { messageId := "m-1", idempotencyKey := "eu:42", tenantId := "acme", dedupKey := "d-1",
          userId := "user-1", channel := "sms", recipient := "+15550100", body := "hello" },
        { messageId := "m-2", idempotencyKey := "42", tenantId := "acme:eu", dedupKey := "d-2",
          userId := "user-1", channel := "sms", recipient := "+15550100", body := "hello" } ] } }

def recordedBatch : Batch :=
  ⟨"messages.sms", 0, [eventOf "m-2" "acme:eu" "42", eventOf "m-1" "acme" "eu:42"]⟩

end Sample

end Worker

end Notification
