import Notification.Aggregator.Agreement
import Notification.Aggregator.Writers
import Notification.Pipeline.Handover

/-!
# What the first attempt sends

Between a request and its provider call lie the JSON of the router, the topic name, the
normalisation of the attempt, the mapping for the duplicate check and the cast to a
message. None of them changes a field.
-/

namespace Notification

open Interaction Program

namespace Pipeline

variable {sha256 : String → String} {uuid : ℕ → String} {choose : World → Choice}
  {r : TextRequest} {reply : MessageResponse} {w w' : World}

/-- A provider call for the event hands the recipient and the body to the provider of the
channel, as the first attempt and under the id of the reply. -/
def Faithful (r : TextRequest) (reply : MessageResponse) (e : ParsedKafkaMessage) :
    CallEvent → Prop
  | ⟨.send provider recipient body options m, _⟩ =>
    m = e.asMessage →
      ProviderFactory.getProvider r.channel = .ok ⟨provider⟩ ∧ recipient = r.recipient ∧
        body = r.body ∧ options.attemptNumber = 1 ∧ options.idempotencyToken = reply.messageId
  | _ => True

theorem faithful_of_bookkeeping {e : ParsedKafkaMessage} {ev : CallEvent} (h : Bookkeeping ev) :
    Faithful r reply e ev := by
  unfold Faithful
  split
  · exact h.elim
  · trivial

/-- The consumer reads the channel off the topic that the router has made of it. -/
theorem channelOf_topic (h : r.channel ∈ channels) :
    Worker.channelOf ("messages." ++ r.channel) = r.channel := by
  simp only [channels, List.mem_cons, List.not_mem_nil, or_false] at h
  rcases h with h | h | h <;> rw [h] <;> rfl

theorem makes_faithful (h : Validated r) {R : IDeliveryRepository} (keeps : R.Keeps) {b : Batch}
    (topic : b.topic = "messages." ++ r.channel) :
    (Worker.eachBatch R b).Makes (Faithful r reply (r.routed reply)) := by
  refine Worker.makes_eachBatch keeps (fun _ => faithful_of_bookkeeping)
    (fun _ _ _ => trivial) ?_
  intro e _ provider hprovider answer heq
  rw [topic, channelOf_topic h.channel] at hprovider
  refine ⟨hprovider, ?_, ?_, ?_, ?_⟩ <;> rw [heq] <;> rfl

/-! ## The row -/

/-- `r` is the row `row`, whatever a delivery has marked it with. -/
def Bears (row r : MessageRow) : Prop :=
  r = { row with
    status := r.status, finalDelivered := r.finalDelivered, attemptCount := r.attemptCount }

theorem Bears.updated {row r₀ : MessageRow} (h : Bears row r₀) (messageId : String)
    (status : Status) (finalDelivered : Bool) (attempts : Int) :
    Bears row (r₀.updated messageId status finalDelivered attempts) := by
  unfold MessageRow.updated
  split
  · rw [h]
    rfl
  · exact h

/-- The calls that leave all rows in place, but for the marks of a delivery. -/
def LeavesRows (ev : CallEvent) : Prop := KeepsRows (fun _ => True) ev.call

/-- A program that only makes such calls leaves a row where it is. -/
theorem bears_of_run {α : Type} {p : Prog α} (makes : p.Makes LeavesRows) {row : MessageRow}
    (h : ∃ r ∈ w.db.messages, Bears row r) :
    ∃ r ∈ (p.run (World.handler uuid choose) w).2.db.messages, Bears row r := by
  have keep : ∀ s ev s', handled (World.handler uuid choose) s ev s' → LeavesRows ev →
      (∃ r ∈ s.db.messages, Bears row r) → ∃ r ∈ s'.db.messages, Bears row r := by
    rintro s ⟨c, answer⟩ s' answered keeps ⟨r, hr, bears⟩
    have faulty := World.faulty_handler uuid choose c s
    rw [answered] at faulty
    obtain up | ⟨-, rfl, -⟩ := faulty
    · obtain hsame | step := rowStep_of_up_of_keeps up keeps
      · exact ⟨r, hsame ▸ hr, bears⟩
      · obtain ⟨hr, -⟩ | ⟨_, _, _, -, hr⟩ := step.messages hr
        · exact ⟨r, hr, bears⟩
        · exact ⟨_, hr, bears.updated _ _ _ _⟩
    · exact ⟨r, hr, bears⟩
  exact (makes.keeps keep h).run

theorem makes_deliverAll (kind : RepositoryKind) (b : Batch) (es : List ParsedKafkaMessage)
    (duplicates : List DuplicateMessage) :
    (Worker.deliverAll kind.repository b es duplicates).Makes LeavesRows := by
  refine Makes.bind (Makes.forEach fun e _ => Makes.ite trivial ?_) fun results => ?_
  · refine Makes.tryCatch ?_ fun _ => trivial
    cases ProviderFactory.getProvider (Worker.channelOf b.topic) with
    | error e => trivial
    | ok provider =>
        exact DeliveryProcessorService.makes_processDelivery
          (kind.within fun _ _ _ _ _ _ _ _ => trivial) e.asMessage fun _ => trivial
  · refine Makes.ite ?_ trivial
    cases b.messages.getLast? with
    | none => trivial
    | some last =>
        exact Makes.bind (makes_perform.mpr fun _ => trivial) fun _ =>
          makes_perform.mpr fun _ => trivial

/-- An event that is reported as inserted has its row in the table when the batch is done. -/
theorem stored_of_reported (kind : RepositoryKind) {b : Batch} (quiescent : w.db.Quiescent)
    {e : ParsedKafkaMessage} (reported : e ∈ Worker.reportedInProgress uuid choose b w) :
    ∃ x ∈ ((Worker.eachBatch kind.repository b).run (World.handler uuid choose) w).2.db.messages,
      Bears e.newRow x := by
  by_cases prepared : ∃ es, Worker.Prepared w.db b es
  · obtain ⟨es, prepared⟩ := prepared
    rw [Worker.reportedInProgress_of_prepared quiescent prepared] at reported
    rw [Worker.run_eachBatch_of_prepared uuid choose quiescent prepared]
    apply bears_of_run (makes_deliverAll kind b es _)
    exact ⟨e.newRow, List.mem_append_right _ (List.mem_map_of_mem reported), rfl⟩
  · rw [Worker.reportedInProgress_of_unprepared quiescent fun es h => prepared ⟨es, h⟩] at reported
    cases reported

/-- What the transaction reports as inserted is there when it has ended. -/
theorem newRow_of_reported (quiescent : w.db.Quiescent) {es : List ParsedKafkaMessage}
    {results : List InsertResult} {w₂ : World}
    (hrun : (BatchIdempotencyService.insertNewMessagesInProgress
      (es.map ParsedKafkaMessage.toCheck)).run (World.handler uuid choose) w = (.ok results, w₂))
    {p : ParsedKafkaMessage × InsertResult} (member : p ∈ es.zip results)
    (reported : p.2.status = .inProgress) : p.1.newRow ∈ w₂.db.messages := by
  by_cases wellFormed : ∀ e ∈ es, e.WellFormed
  · rw [BatchIdempotencyService.run_insertNewMessagesInProgress uuid choose quiescent wellFormed]
      at hrun
    cases hrun
    refine List.mem_append_right _ (List.mem_map_of_mem ?_)
    rw [← BatchIdempotencyService.inProgress_insertResults]
    exact List.mem_map_of_mem (List.mem_filter.mpr ⟨member, beq_iff_eq.mpr reported⟩)
  · obtain ⟨error, hrefused⟩ := BatchIdempotencyService.run_insertNewMessagesInProgress_refused
      uuid choose quiescent wellFormed
    cases hrefused.symm.trans hrun

theorem newRow_routed (h : Validated r) (reply : MessageResponse) :
    (r.routed reply).newRow = r.stored reply := by
  obtain ⟨columns, values, hinsert, hrow⟩ := insertMessage_routed h reply
  obtain ⟨columns', values', hinsert', hrow'⟩ :=
    BatchIdempotencyService.insertMessage_newRow (r.routed reply)
  obtain ⟨-, rfl, rfl⟩ := Statement.insert.inj (hinsert.symm.trans hinsert')
  rw [← hrow', hrow]

/-- The batch of the first record of a log. -/
def firstBatch (log : List Record) : Batch where
  topic := "messages." ++ orderShipped.channel
  partition := 0
  messages := (log.take 1).map fun record => { offset := 0, value := some (some record.value) }

/-- The sendings of a batch on the empty database. -/
def sentBy (b : Batch) : List Sending :=
  ((Worker.eachBatch interfaceRepository b).run
    (World.handler (fun _ => sampleUuid) fun _ => { outcome := .ok ⟨true, none⟩ }) {}).2.inbox

end Pipeline

end Notification
