import Notification.Aggregator.Insertion

/-!
# The run of a batch

A batch either comes to nothing or gets to its deliveries, with the rows of its new messages
in the table.
-/

namespace Notification

open Interaction Program BatchIdempotencyService

namespace Worker

/-- The events of a batch that the check does not find in the table. -/
def newEvents (db : Database) (es : List ParsedKafkaMessage) : List ParsedKafkaMessage :=
  Consuming.fresh (rowsFor db (es.map ParsedKafkaMessage.toCheck)) es

/-- The new events whose rows get past the unique keys. -/
def storedEvents (db : Database) (es : List ParsedKafkaMessage) : List ParsedKafkaMessage :=
  insertable db.messages (newEvents db es)

def duplicatesOf (db : Database) (es : List ParsedKafkaMessage) : List DuplicateMessage :=
  (partitionBatch (rowsFor db (es.map ParsedKafkaMessage.toCheck))
    (es.map ParsedKafkaMessage.toCheck)).duplicateMessages

/-- Nothing in front of the deliveries fails: all messages are parsed, the query is not
refused, and neither is the row of a new event. -/
structure Prepared (db : Database) (b : Batch) (es : List ParsedKafkaMessage) : Prop where
  parsed : b.messages.mapM KafkaMessage.parse = .ok es
  queried : es ≠ [] →
    (selectExisting (extractUniqueIdempotencyKeys (es.map ParsedKafkaMessage.toCheck))).check = none
  stored : ∀ e ∈ newEvents db es, e.WellFormed

/-- The deliveries of a batch, and the end of it. -/
def deliverAll (R : IDeliveryRepository) (b : Batch) (es : List ParsedKafkaMessage)
    (duplicates : List DuplicateMessage) : Prog Unit := do
  let processedResults ← forEach es (processMessage R (channelOf b.topic) duplicates)
  resolveBatch b.messages processedResults

theorem run_eachBatch {R : IDeliveryRepository} {b : Batch} {es : List ParsedKafkaMessage}
    {handler : (c : Call) → World → Except JsError (Reply c) × World}
    (hes : b.messages.mapM KafkaMessage.parse = .ok es) (w : World) :
    (eachBatch R b).run handler w =
      orElse (fun _ w' => (.ok (), w')) ((processBatch R b es).run handler w) := by
  simp only [eachBatch, hes, run_tryCatch, run_bind, run_done, andThen_ok]
  rfl

section Run

variable (uuid : ℕ → String) (choose : World → Choice) {w : World} {R : IDeliveryRepository}
  {b : Batch} {es : List ParsedKafkaMessage}

theorem newMessages_of (db : Database) (es : List ParsedKafkaMessage) :
    (partitionBatch (rowsFor db (es.map ParsedKafkaMessage.toCheck))
      (es.map ParsedKafkaMessage.toCheck)).newMessages =
      (newEvents db es).map ParsedKafkaMessage.toCheck := Consuming.newMessages_eq

/-- The last offset is resolved if nothing has failed. -/
theorem run_resolveBatch_up (messages : List KafkaMessage) (results : List ProcessResult)
    (s : World) :
    ((resolveBatch messages results).run (World.handler uuid choose) s).2 =
      { s with resolved := s.resolved ++ if results.all (fun r => r.success || r.isDuplicate)
        then (messages.getLast?.map KafkaMessage.offset).toList else [] } := by
  rw [resolveBatch]
  split
  · cases messages.getLast? with
    | none => simp
    | some last => rfl
  · simp

/-- A batch that gets to its deliveries. -/
theorem run_eachBatch_of_prepared (quiescent : w.db.Quiescent) (h : Prepared w.db b es) :
    (eachBatch R b).run (World.handler uuid choose) w =
      (.ok (), ((deliverAll R b es (duplicatesOf w.db es)).run (World.handler uuid choose)
        (w.withRows ((storedEvents w.db es).map ParsedKafkaMessage.newRow))).2) := by
  have hcheck := run_check_of_accepted uuid choose w
    (es.map ParsedKafkaMessage.toCheck) fun hne => h.queried (by simpa using hne)
  have hinsert := run_insertNewMessagesInProgress uuid choose quiescent h.stored
  have hprocess : (processBatch R b es).run (World.handler uuid choose) w =
      (deliverAll R b es (duplicatesOf w.db es)).run (World.handler uuid choose)
        (w.withRows ((storedEvents w.db es).map ParsedKafkaMessage.newRow)) := by
    rw [processBatch, run_bind, hcheck, andThen_ok, newMessages_of]
    split
    · rw [run_bind, hinsert]
      rfl
    · next hempty =>
        have hnil : newEvents w.db es = [] := by simpa [List.length_eq_zero_iff] using hempty
        rw [storedEvents, hnil]
        simp only [insertable, List.map_nil, World.withRows, List.append_nil]
        rfl
  rw [run_eachBatch h.parsed, hprocess]
  rcases (deliverAll R b es (duplicatesOf w.db es)).run _ _ with ⟨_ | _, w'⟩ <;> rfl

/-- What fails in front of the deliveries: a message is not parsed, the query is refused,
or the transaction is rolled back. -/
theorem unprepared_cases (quiescent : w.db.Quiescent) (h : ∀ es, ¬ Prepared w.db b es) :
    (∃ error, b.messages.mapM KafkaMessage.parse = .error error) ∨
    ∃ es, b.messages.mapM KafkaMessage.parse = .ok es ∧
      ((∃ error, (checkBatchIdempotency (es.map ParsedKafkaMessage.toCheck)).run
          (World.handler uuid choose) w = (.error error, w)) ∨
        ((checkBatchIdempotency (es.map ParsedKafkaMessage.toCheck)).run
            (World.handler uuid choose) w =
          (.ok (partitionBatch (rowsFor w.db (es.map ParsedKafkaMessage.toCheck))
            (es.map ParsedKafkaMessage.toCheck)), w) ∧
          newEvents w.db es ≠ [] ∧
          ∃ error, (insertNewMessagesInProgress
            ((newEvents w.db es).map ParsedKafkaMessage.toCheck)).run
              (World.handler uuid choose) w = (.error error, w))) := by
  cases hes : b.messages.mapM KafkaMessage.parse with
  | error error => exact .inl ⟨error, rfl⟩
  | ok es =>
      refine .inr ⟨es, rfl, ?_⟩
      by_cases hqueried : es ≠ [] → (selectExisting (extractUniqueIdempotencyKeys
          (es.map ParsedKafkaMessage.toCheck))).check = none
      · have refused : ¬ ∀ e ∈ newEvents w.db es, e.WellFormed :=
          fun stored => h es ⟨hes, hqueried, stored⟩
        have hne : newEvents w.db es ≠ [] := fun hnil => refused (by simp [hnil])
        exact .inr ⟨run_check_of_accepted uuid choose w _ fun hne => hqueried (by simpa using hne),
          hne, run_insertNewMessagesInProgress_refused uuid choose quiescent refused⟩
      · rw [Classical.not_imp] at hqueried
        obtain ⟨error, hrefused⟩ := Option.ne_none_iff_exists'.mp hqueried.2
        exact .inl ⟨error, run_check_of_refused uuid choose w (by simpa using hqueried.1) hrefused⟩

/-- A batch that does not get there comes to nothing. -/
theorem run_eachBatch_of_unprepared (quiescent : w.db.Quiescent)
    (h : ∀ es, ¬ Prepared w.db b es) :
    (eachBatch R b).run (World.handler uuid choose) w = (.ok (), w) := by
  obtain ⟨error, hes⟩ | ⟨es, hes, hfails⟩ := unprepared_cases uuid choose quiescent h
  · simp only [eachBatch, hes, run_tryCatch, run_bind, run_done]
    rfl
  · rw [run_eachBatch hes, processBatch, run_bind]
    obtain ⟨error, hcheck⟩ | ⟨hcheck, hne, error, hinsert⟩ := hfails
    · rw [hcheck]
      rfl
    · rw [hcheck, andThen_ok, newMessages_of, if_pos (by simpa [List.length_pos_iff] using hne),
        run_bind, hinsert]
      rfl

end Run

end Worker

end Notification
