import Notification.Interaction.Pool
import Notification.Logger.LogPersistence
import Notification.Lookup.Offsets

/-!
# What the loggers do about the records

The loggers are a group of their own. Each reads a partition from an offset on that the group
has come to, and records are appended all the time. Elasticsearch may fail before or after it
has stored a document, and its client may send a document again. What kafkajs is told may get
lost, and a logger may stop at any time.

A record that the group has passed is in Elasticsearch, unless it holds no log or
Elasticsearch has failed for it: the consumer does not try again.
-/

namespace Notification

open Interaction Program Lookup

/-- The topics, by partition, the documents with their index, and how far the group has come:
the offset after the last message that has been resolved. At most this is committed. -/
structure LogWorld where
  records : String → ℕ → List (Option (Option Json))
  documents : List (String × Json) := []
  resolved : String → ℕ → ℕ := fun _ _ => 0

namespace LogWorld

def fetch (w : LogWorld) (topic : String) (partition lo n : ℕ) : List KafkaMessage :=
  (((w.records topic partition).drop lo).take n).mapIdx fun i value => ⟨lo + i, value⟩

def resolve (w : LogWorld) (topic : String) (partition offset : ℕ) : LogWorld :=
  { w with
    resolved := fun topic' partition' =>
      if topic' = topic ∧ partition' = partition then
        max (w.resolved topic partition) (offset + 1)
      else w.resolved topic' partition' }

def append (w : LogWorld) (topic : String) (partition : ℕ) (value : Option (Option Json)) :
    LogWorld :=
  { w with
    records := fun topic' partition' =>
      if topic' = topic ∧ partition' = partition then w.records topic partition ++ [value]
      else w.records topic' partition' }

/-- How a call is answered. -/
inductive Answers (w : LogWorld) : LogEvent → LogWorld → Prop
  | now (iso : String) : Answers w ⟨.now, .ok iso⟩ w
  | index (index : String) (document : Json) (copies : ℕ) (r : Except JsError Unit) :
      (r = .ok () → 0 < copies) →
      Answers w ⟨.index index document, r⟩
        { w with documents := w.documents ++ List.replicate copies (index, document) }
  | resolved (topic : String) (partition offset : ℕ) (r : Except JsError Unit) :
      Answers w ⟨.resolveOffset topic partition offset, r⟩ (w.resolve topic partition offset)
  | unresolved (topic : String) (partition offset : ℕ) (e : JsError) :
      Answers w ⟨.resolveOffset topic partition offset, .error e⟩ w

/-- Kafka may hand out the batch. -/
def Fetches (w : LogWorld) (b : Batch) : Prop :=
  b.topic ∈ Logger.topics ∧ ∃ lo n, lo ≤ w.resolved b.topic b.partition ∧
    b.messages = w.fetch b.topic b.partition lo n

/-- Records are only appended, and the group does not go back. -/
structure Advances (w w' : LogWorld) : Prop where
  records : ∀ topic partition, w.records topic partition <+: w'.records topic partition
  resolved : ∀ topic partition, w.resolved topic partition ≤ w'.resolved topic partition
  documents : w.documents ⊆ w'.documents

theorem Advances.refl (w : LogWorld) : w.Advances w :=
  ⟨fun _ _ => List.prefix_refl _, fun _ _ => le_rfl, List.Subset.refl _⟩

theorem advances_append (w : LogWorld) (topic : String) (partition : ℕ)
    (value : Option (Option Json)) : w.Advances (w.append topic partition value) := by
  refine ⟨fun topic' partition' => ?_, fun _ _ => le_rfl, List.Subset.refl _⟩
  unfold append
  dsimp only
  split
  · next same =>
      obtain ⟨rfl, rfl⟩ := same
      exact List.prefix_append _ _
  · exact List.prefix_refl _

theorem advances_resolve (w : LogWorld) (topic : String) (partition offset : ℕ) :
    w.Advances (w.resolve topic partition offset) := by
  refine ⟨fun _ _ => List.prefix_refl _, fun topic' partition' => ?_, List.Subset.refl _⟩
  unfold resolve
  dsimp only
  split
  · next same =>
      obtain ⟨rfl, rfl⟩ := same
      exact le_max_left _ _
  · exact le_rfl

theorem Answers.advances {w w' : LogWorld} {ev : LogEvent} (h : w.Answers ev w') :
    w.Advances w' := by
  cases h with
  | now iso => exact .refl w
  | index index document copies r _ =>
      exact ⟨fun _ _ => List.prefix_refl _, fun _ _ => le_rfl, List.subset_append_left _ _⟩
  | resolved topic partition offset r => exact w.advances_resolve topic partition offset
  | unresolved topic partition offset e => exact .refl w

/-- A confirmed document is stored. -/
theorem Answers.confirmed {w w' : LogWorld} {x : String × Json}
    (h : w.Answers ⟨.index x.1 x.2, .ok ()⟩ w') : x ∈ w'.documents := by
  cases h with
  | index index document copies r confirmed =>
      exact List.mem_append_right _ (List.mem_replicate.mpr ⟨(confirmed rfl).ne', rfl⟩)

/-- A document is stored by the call for it. -/
theorem Answers.mem_documents {w w' : LogWorld} {ev : LogEvent} (h : w.Answers ev w')
    {x : String × Json} (member : x ∈ w'.documents) :
    x ∈ w.documents ∨ ev.call = .index x.1 x.2 := by
  cases h with
  | index index document copies r _ =>
      obtain member | member := List.mem_append.mp member
      · exact .inl member
      · obtain rfl := List.eq_of_mem_replicate member
        exact .inr rfl
  | _ => exact .inl member

/-- How far the group has come changes at most to what has been resolved. -/
theorem Answers.resolved_cases {w w' : LogWorld} {ev : LogEvent} (h : w.Answers ev w')
    (topic : String) (partition : ℕ) :
    w'.resolved topic partition = w.resolved topic partition ∨
      ∃ offset, ev.call = .resolveOffset topic partition offset ∧
        w'.resolved topic partition = max (w.resolved topic partition) (offset + 1) := by
  cases h with
  | resolved topic' partition' offset r =>
      unfold resolve
      dsimp only
      split
      · next same =>
          obtain ⟨rfl, rfl⟩ := same
          exact .inr ⟨offset, rfl, rfl⟩
      · exact .inl rfl
  | _ => exact .inl rfl

end LogWorld

/-- Any number of loggers of one group. -/
def loggers : Machine LogReply JsError Unit Batch LogWorld where
  code b := LogConsumerService.runBatch Logger.handler b
  starts := LogWorld.Fetches
  answers _ := LogWorld.Answers
  crashes _ w w' := w' = w
  settles _ _ _ _ := False
  drifts w w' := ∃ topic partition value, w' = w.append topic partition value

abbrev Loggers := Pool LogReply JsError Unit Batch LogWorld

/-! ## The calls for a batch -/

/-- A document of Elasticsearch that holds the log. -/
def Holds (x : String × Json) (log : Json) : Prop :=
  ∃ dataset today timestamp, ElasticsearchLogRepository.dataset log = .ok dataset ∧
    x = ("logs-" ++ dateOf today, ElasticsearchLogRepository.document log dataset timestamp)

namespace Logger

/-- The log of a record has been sent to Elasticsearch, if it holds one. -/
def Sent (value : Option (Option Json)) (t : Trace LogReply JsError) : Prop :=
  ∀ log, LogConsumerService.parse value = .ok log → log ≠ .null →
    ∃ x r, Holds x log ∧ ⟨.index x.1 x.2, r⟩ ∈ t

theorem Sent.mono {value : Option (Option Json)} {t t' : Trace LogReply JsError}
    (h : Sent value t) (longer : t <:+ t') : Sent value t' := by
  intro log hlog notNull
  obtain ⟨x, r, holds, member⟩ := h log hlog notNull
  exact ⟨x, r, holds, longer.subset member⟩

/-- What a logger calls for a batch, given what it has called before. -/
inductive BatchCall (b : Batch) (before : Trace LogReply JsError) : LogCall → Prop
  | now : BatchCall b before .now
  | index (i : ℕ) (message : KafkaMessage) (log : Json) (x : String × Json) :
      b.messages[i]? = some message → LogConsumerService.parse message.value = .ok log →
      Holds x log → BatchCall b before (.index x.1 x.2)
  | resolveOffset (i : ℕ) (message : KafkaMessage) : b.messages[i]? = some message →
      (∀ j message', j ≤ i → b.messages[j]? = some message' → Sent message'.value before) →
      BatchCall b before (.resolveOffset b.topic b.partition message.offset)

/-- The calls so far are those for the batch. -/
def Reading (b : Batch) : Trace LogReply JsError → Prop :=
  Always fun ev before => BatchCall b before ev.call

theorem dataset_of_ne_null {log : Json} (h : log ≠ .null) :
    ∃ dataset, ElasticsearchLogRepository.dataset log = .ok dataset := by
  cases log with
  | null => exact absurd rfl h
  | _ => exact ⟨_, rfl⟩

/-- The clock does not fail. -/
def Clocked (ev : LogEvent) : Prop := ∀ r, ev = ⟨.now, r⟩ → ∃ iso, r = .ok iso

theorem clocked_of_answers {w w' : LogWorld} {ev : LogEvent} (h : w.Answers ev w') :
    Clocked ev := by
  rintro r rfl
  cases h with
  | now iso => exact ⟨iso, rfl⟩

variable {b : Batch} {t : Trace LogReply JsError}

/-- The log is sent to Elasticsearch if it holds anything, whatever comes of it. -/
theorem sends_handleLog {i : ℕ} {message : KafkaMessage} {log : Json}
    (member : b.messages[i]? = some message)
    (hlog : LogConsumerService.parse message.value = .ok log) (start : Reading b t) :
    (LogController.handleLog log).wp (recording Clocked) (Reading b)
      (fun _ t' => Reading b t' ∧ Sent message.value t') t := by
  simp only [LogController.handleLog, LogPersistenceService.persistLog,
    ElasticsearchLogRepository.save, wp_bind, wp_perform_recording]
  intro r clocked
  obtain ⟨today, rfl⟩ := clocked r rfl
  have first : Reading b (⟨.now, .ok today⟩ :: t) := ⟨.now, start⟩
  refine ⟨first, ?_⟩
  rw [either_ok]
  cases hdataset : ElasticsearchLogRepository.dataset log with
  | error e =>
      refine ⟨first, fun log' hlog' notNull => ?_⟩
      obtain rfl := Except.ok.inj (hlog.symm.trans hlog')
      obtain ⟨dataset, h⟩ := dataset_of_ne_null notNull
      rw [h] at hdataset
      cases hdataset
  | ok dataset =>
      rw [wp_bind, wp_done, either_ok, wp_bind, wp_perform_recording]
      intro r clocked
      obtain ⟨timestamp, rfl⟩ := clocked r rfl
      have second : Reading b (⟨.now, .ok timestamp⟩ :: ⟨.now, .ok today⟩ :: t) := ⟨.now, first⟩
      refine ⟨second, ?_⟩
      refine wp_step_recording.mpr fun r _ => ?_
      have holds : Holds ("logs-" ++ dateOf today,
          ElasticsearchLogRepository.document log dataset timestamp) log :=
        ⟨dataset, today, timestamp, hdataset, rfl⟩
      have third : Reading b (⟨.index ("logs-" ++ dateOf today)
          (ElasticsearchLogRepository.document log dataset timestamp), r⟩ ::
            ⟨.now, .ok timestamp⟩ :: ⟨.now, .ok today⟩ :: t) :=
        ⟨.index i message log _ member hlog holds, second⟩
      refine ⟨third, third, fun log' hlog' _ => ?_⟩
      obtain rfl := Except.ok.inj (hlog.symm.trans hlog')
      exact ⟨_, r, holds, List.mem_cons_self⟩

/-- `eachMessage` does not throw, and it has sent what there is to be sent. -/
theorem sends_eachMessage {i : ℕ} {message : KafkaMessage}
    (member : b.messages[i]? = some message) (start : Reading b t) :
    (LogConsumerService.eachMessage handler message).wp (recording Clocked) (Reading b)
      (fun o t' => o = .ok () ∧ Reading b t' ∧ Sent message.value t') t := by
  rw [LogConsumerService.eachMessage, wp_tryCatch, wp_bind, wp_done]
  cases hlog : LogConsumerService.parse message.value with
  | error e =>
      refine ⟨rfl, start, fun log h => ?_⟩
      rw [hlog] at h
      cases h
  | ok log =>
      rw [either_ok, handler, wp_bind]
      apply mono_post (sends_handleLog member hlog start)
      intro o t' sent
      cases o with
      | error e => exact ⟨rfl, sent⟩
      | ok a =>
          rw [either_ok, wp_bind, wp_done]
          cases consoleLine log with
          | error e => exact ⟨rfl, sent⟩
          | ok line => exact ⟨rfl, sent⟩

/-- Only kafkajs stops a batch. -/
def Ended (o : Except JsError Unit) (t : Trace LogReply JsError) : Prop :=
  ∀ e, o = .error e → ∃ topic partition offset,
    (⟨.resolveOffset topic partition offset, .error e⟩ : LogEvent) ∈ t

/-- A message is only resolved when it and those before it have been sent. -/
theorem reads_runBatch (b : Batch) :
    (LogConsumerService.runBatch handler b).wp (recording Clocked) (Reading b) Ended [] := by
  rw [LogConsumerService.runBatch, wp_bind]
  apply wp_forEach fun rest _ t => Reading b t ∧ ∃ before, b.messages = before ++ rest ∧
    ∀ message ∈ before, Sent message.value t
  · rintro message rest done t ⟨reading, before, hmessages, sent⟩
    have member : b.messages[before.length]? = some message := by
      rw [hmessages, List.getElem?_append_right le_rfl, Nat.sub_self]
      rfl
    rw [wp_bind]
    apply mono_post (wp_suffix (sends_eachMessage member reading))
    rintro o t' ⟨⟨rfl, reading', sent'⟩, longer⟩
    have all : ∀ x ∈ before ++ [message], Sent x.value t' := by
      intro x hx
      obtain hx | hx := List.mem_append.mp hx
      · exact (sent x hx).mono longer
      · rw [List.mem_singleton.mp hx]
        exact sent'
    refine wp_step_recording.mpr fun r _ => ?_
    have made : BatchCall b t' (.resolveOffset b.topic b.partition message.offset) := by
      refine .resolveOffset before.length message member fun j message' hj hmessage' => ?_
      rw [hmessages, ← List.singleton_append, ← List.append_assoc,
        List.getElem?_append_left (by rw [List.length_append, List.length_singleton]; omega)]
        at hmessage'
      exact all _ (List.mem_of_getElem? hmessage')
    refine ⟨⟨made, reading'⟩, ?_⟩
    cases r with
    | error e =>
        intro e' he'
        cases he'
        exact ⟨_, _, _, List.mem_cons_self⟩
    | ok a =>
        refine ⟨⟨made, reading'⟩, before ++ [message], ?_, ?_⟩
        · rw [hmessages, List.append_assoc]
          rfl
        · intro x hx
          exact (all x hx).mono (List.suffix_cons _ _)
  · intro done t _ e he
    cases he
  · exact ⟨trivial, [], rfl, fun _ h => absurd h List.not_mem_nil⟩

end Logger

namespace Loggers

variable {init : LogWorld} {allowed : Loggers → Action LogReply JsError Batch → Prop}
  {s s' : Loggers} {a : Action LogReply JsError Batch}

/-- A step is a call for a batch, or at most it appends a record. -/
theorem step_cases (run : loggers.Run allowed init s) (step : loggers.Step s a s')
    (permitted : allowed s a) :
    (s'.history = s.history ∧ (s'.shared = s.shared ∨ ∃ topic partition value,
      s'.shared = s.shared.append topic partition value)) ∨
    ∃ pid ev proc, s.procs[pid]? = some proc ∧ s'.history = (pid, ev) :: s.history ∧
      s.shared.Answers ev s'.shared ∧ Logger.BatchCall proc.job proc.trace ev.call := by
  have whole := step
  cases step with
  | start _ => exact .inl ⟨rfl, .inl rfl⟩
  | @turn pid proc c next r shared hproc _ _ answer =>
      obtain ⟨proc', hproc', -, made⟩ := run.turn_makes
        (fun _ _ _ _ => Logger.clocked_of_answers)
        (fun b => mono_post (Logger.reads_runBatch b) fun _ _ _ => trivial) whole permitted
      obtain rfl := Option.some.inj (hproc.symm.trans hproc')
      exact .inr ⟨pid, ⟨c, r⟩, proc, hproc, rfl, answer, made⟩
  | crash _ hcrash => exact .inl ⟨rfl, .inl hcrash⟩
  | settle _ _ _ hsettle => exact hsettle.elim
  | drift hdrift => exact .inl ⟨rfl, .inr hdrift⟩

theorem advances_of_step (step : loggers.Step s a s') : s.shared.Advances s'.shared := by
  cases step with
  | start _ => exact .refl _
  | turn _ _ _ answer => exact answer.advances
  | crash _ hcrash =>
      obtain rfl := hcrash
      exact .refl _
  | settle _ _ _ hsettle => exact hsettle.elim
  | drift hdrift =>
      obtain ⟨topic, partition, value, rfl⟩ := hdrift
      exact LogWorld.advances_append _ topic partition value

/-- The messages are those of a partition from an offset on that the group had come to. -/
def Slice (w : LogWorld) (b : Batch) : Prop :=
  b.topic ∈ Logger.topics ∧ ∃ lo, lo ≤ w.resolved b.topic b.partition ∧
    ∀ i message, b.messages[i]? = some message → message.offset = lo + i ∧
      (w.records b.topic b.partition)[lo + i]? = some message.value

theorem slice_of_fetches {w : LogWorld} {b : Batch} (h : w.Fetches b) : Slice w b := by
  obtain ⟨htopic, lo, n, hlo, hmessages⟩ := h
  refine ⟨htopic, lo, hlo, fun i message hmessage => ?_⟩
  rw [hmessages, LogWorld.fetch, List.getElem?_mapIdx, Option.map_eq_some_iff] at hmessage
  obtain ⟨value, hvalue, rfl⟩ := hmessage
  rw [List.getElem?_take] at hvalue
  split at hvalue
  · rw [List.getElem?_drop] at hvalue
    exact ⟨rfl, hvalue⟩
  · cases hvalue

theorem Slice.mono {w w' : LogWorld} {b : Batch} (h : Slice w b) (advances : w.Advances w') :
    Slice w' b := by
  obtain ⟨htopic, lo, hlo, hmessages⟩ := h
  refine ⟨htopic, lo, hlo.trans (advances.resolved _ _), fun i message hmessage => ?_⟩
  obtain ⟨hoffset, hrecord⟩ := hmessages i message hmessage
  exact ⟨hoffset, getElem?_of_grows (advances.records _ _) hrecord⟩

theorem slices (run : loggers.Run allowed init s) :
    ∀ (pid : ℕ) (proc : Proc LogReply JsError Unit Batch), s.procs[pid]? = some proc →
      Slice s.shared proc.job := by
  apply run.invariant
  · intro pid proc h
    simp [Pool.initial] at h
  · intro s a s' _ h step _ pid proc' hproc'
    have advances := advances_of_step step
    obtain hold | ⟨job, -, -, -, starts, rfl⟩ | ⟨proc, c, next, r, -, hproc, -, -, -, rfl⟩ |
      ⟨proc, -, hproc, -, rfl⟩ := step.proc_cases hproc'
    · exact (h pid proc' hold).mono advances
    · exact (slice_of_fetches starts).mono advances
    · exact (h pid proc hproc).mono advances
    · exact (h pid proc hproc).mono advances

/-- What Elasticsearch has confirmed is there. -/
theorem stored_of_ok (run : loggers.Run allowed init s) {pid : ℕ} {x : String × Json}
    (member : (pid, ⟨.index x.1 x.2, .ok ()⟩) ∈ s.history) : x ∈ s.shared.documents := by
  revert pid x
  apply run.invariant
  · intro pid x member
    cases member
  · intro s a s' before h step permitted pid x member
    have kept := (advances_of_step step).documents
    obtain ⟨hhistory, -⟩ | ⟨pid', ev, proc, -, hhistory, answer, -⟩ :=
      step_cases before step permitted
    · rw [hhistory] at member
      exact kept (h member)
    · rw [hhistory] at member
      obtain heq | member := List.mem_cons.mp member
      · cases heq
        exact answer.confirmed
      · exact kept (h member)

/-- Some record of the topics holds the log of the document. -/
def Stems (w : LogWorld) (x : String × Json) : Prop :=
  ∃ topic ∈ Logger.topics, ∃ (partition offset : ℕ) (value : Option (Option Json)) (log : Json),
    (w.records topic partition)[offset]? = some value ∧
      LogConsumerService.parse value = .ok log ∧ Holds x log

theorem Stems.mono {w w' : LogWorld} {x : String × Json} (h : Stems w x)
    (advances : w.Advances w') : Stems w' x := by
  obtain ⟨topic, htopic, partition, offset, value, log, hrecord, rest⟩ := h
  exact ⟨topic, htopic, partition, offset, value, log,
    getElem?_of_grows (advances.records _ _) hrecord, rest⟩

/-- Nothing is in Elasticsearch that is not on the topics. -/
theorem stems (run : loggers.Run allowed init s) {x : String × Json}
    (member : x ∈ s.shared.documents) : x ∈ init.documents ∨ Stems s.shared x := by
  revert x
  apply run.invariant
  · intro x member
    exact .inl member
  · intro s a s' before h step permitted x member
    have advances := advances_of_step step
    have old (hx : x ∈ s.shared.documents) : x ∈ init.documents ∨ Stems s'.shared x :=
      (h hx).imp_right fun stems => stems.mono advances
    obtain ⟨-, hsame | ⟨topic, partition, value, hsame⟩⟩ |
      ⟨pid, ev, proc, hproc, -, answer, made⟩ := step_cases before step permitted
    · exact old (hsame ▸ member)
    · rw [hsame] at member
      exact old member
    · obtain hold | hcall := answer.mem_documents member
      · exact old hold
      · obtain ⟨htopic, lo, -, hmessages⟩ := slices before pid proc hproc
        rw [hcall] at made
        generalize hindex : LogCall.index x.1 x.2 = call at made
        cases made with
        | index i message log y hmessage hlog holds =>
            obtain ⟨hname, hdocument⟩ := LogCall.index.inj hindex
            obtain rfl : x = y := Prod.ext hname hdocument
            obtain ⟨-, hrecord⟩ := hmessages i message hmessage
            exact .inr ⟨_, htopic, _, _, _, log,
              getElem?_of_grows (advances.records _ _) hrecord, hlog, holds⟩
        | _ => cases hindex

/-- The log of a record is in Elasticsearch, or Elasticsearch has failed for it. -/
def Settled (s : Loggers) (value : Option (Option Json)) : Prop :=
  ∀ log, LogConsumerService.parse value = .ok log → log ≠ .null →
    ∃ x, Holds x log ∧ (x ∈ s.shared.documents ∨
      ∃ pid e, (pid, ⟨.index x.1 x.2, .error e⟩) ∈ s.history)

theorem settled_of_sent (run : loggers.Run allowed init s) {pid : ℕ}
    {proc : Proc LogReply JsError Unit Batch} (hproc : s.procs[pid]? = some proc)
    {value : Option (Option Json)} (sent : Logger.Sent value proc.trace) : Settled s value := by
  intro log hlog notNull
  obtain ⟨x, r, holds, member⟩ := sent log hlog notNull
  rw [← run.coherent.traces pid proc hproc] at member
  have made := mem_own.mp member
  refine ⟨x, holds, ?_⟩
  cases r with
  | ok a => exact .inl (stored_of_ok run made)
  | error e => exact .inr ⟨pid, e, made⟩

theorem Settled.step {value : Option (Option Json)} (h : Settled s value)
    (step : loggers.Step s a s') : Settled s' value := by
  intro log hlog notNull
  obtain ⟨x, holds, stored | ⟨pid, e, failed⟩⟩ := h log hlog notNull
  · exact ⟨x, holds, .inl ((advances_of_step step).documents stored)⟩
  · exact ⟨x, holds, .inr ⟨pid, e, step.history_suffix.subset failed⟩⟩

theorem covered (run : loggers.Run allowed init s)
    (bounded : ∀ topic partition,
      init.resolved topic partition ≤ (init.records topic partition).length)
    (topic : String) (partition : ℕ) :
    Covered (Settled s) (s.shared.records topic partition) (init.resolved topic partition)
      (s.shared.resolved topic partition) := by
  revert topic partition
  apply run.invariant
  · intro topic partition
    exact .nothing (bounded topic partition)
  · intro s a s' before h step permitted topic partition
    have advances := advances_of_step step
    have kept : Covered (Settled s') (s'.shared.records topic partition)
        (init.resolved topic partition) (s.shared.resolved topic partition) :=
      (h topic partition).mono (advances.records _ _) fun _ settled => settled.step step
    obtain ⟨-, hsame | ⟨topic', partition', value, hsame⟩⟩ |
      ⟨pid, ev, proc, hproc, hhistory, answer, made⟩ := step_cases before step permitted
    · rw [hsame] at kept ⊢
      exact kept
    · rw [hsame] at kept ⊢
      exact kept
    · obtain hold | ⟨offset, hcall, hresolved⟩ := answer.resolved_cases topic partition
      · rwa [hold]
      · obtain ⟨-, lo, hlo, hmessages⟩ := slices before pid proc hproc
        rw [hcall] at made
        generalize hend : LogCall.resolveOffset topic partition offset = call at made
        cases made with
        | resolveOffset i message hmessage sent =>
            obtain ⟨rfl, rfl, rfl⟩ := LogCall.resolveOffset.inj hend
            obtain ⟨hoffset, hrecord⟩ := hmessages i message hmessage
            have hlast := (List.getElem?_eq_some_iff.mp
              (getElem?_of_grows (advances.records _ _) hrecord)).1
            rw [hresolved, hoffset, Nat.add_assoc]
            apply kept.extend hlo (by omega)
            intro j value hj hvalue
            have hlen := (List.getElem?_eq_some_iff.mp hmessage).1
            have hmessage' := List.getElem?_eq_getElem (show j < proc.job.messages.length by omega)
            have hrecord' := getElem?_of_grows (advances.records _ _) (hmessages j _ hmessage').2
            obtain rfl := Option.some.inj (hrecord'.symm.trans hvalue)
            exact (settled_of_sent before hproc (sent j _ (by omega) hmessage')).step step
        | _ => cases hend

/-- Nothing is lost silently. A log that the group has passed is in Elasticsearch unless
Elasticsearch has failed for it, and what is there holds a log of the topics. No record stops
the loggers: a batch is only given up when kafkajs cannot be told of a message. -/
theorem settles_records (run : loggers.Run allowed init s) (empty : init.documents = [])
    (bounded : ∀ topic partition,
      init.resolved topic partition ≤ (init.records topic partition).length) :
    (∀ topic partition offset value log, init.resolved topic partition ≤ offset →
      offset < s.shared.resolved topic partition →
      (s.shared.records topic partition)[offset]? = some value →
      LogConsumerService.parse value = .ok log → log ≠ .null →
      ∃ x, Holds x log ∧ (x ∈ s.shared.documents ∨
        ∃ pid e, (pid, ⟨.index x.1 x.2, .error e⟩) ∈ s.history)) ∧
    (∀ x ∈ s.shared.documents, Stems s.shared x) ∧
    ∀ (pid : ℕ) (proc : Proc LogReply JsError Unit Batch) (e : JsError),
      s.procs[pid]? = some proc → proc.rest = .done (.error e) →
        ∃ topic partition offset,
          (pid, ⟨.resolveOffset topic partition offset, .error e⟩) ∈ s.history := by
  refine ⟨?_, ?_, ?_⟩
  · intro topic partition offset value log hlo hhi hrecord
    exact (covered run bounded topic partition).holds offset value hlo hhi hrecord log
  · intro x member
    obtain old | stems := stems run member
    · rw [empty] at old
      cases old
    · exact stems
  · intro pid proc e hproc hrest
    have ended := (run.local_invariant (fun _ _ _ _ => Logger.clocked_of_answers) hproc
      (Logger.reads_runBatch proc.job) trivial).2 _ hrest
    obtain ⟨topic, partition, offset, member⟩ := ended e rfl
    rw [← run.coherent.traces pid proc hproc] at member
    exact ⟨topic, partition, offset, mem_own.mp member⟩

end Loggers

/-! ## A batch with records that hold no log -/

/-- Two logs, and between them a text that is no JSON and a `null`. -/
def mixedRecords : LogWorld where
  records topic partition :=
    if topic = "logs" ∧ partition = 0 then
      [ some (some (.object [("service", .string "router"), ("status", .string "ACCEPTED")])),
        some none, some (some .null),
        some (some (.object [("service", .string "aggregator"), ("channel", .string "sms")])) ]
    else []

def mixedBatch : Batch := ⟨"logs", 0, mixedRecords.fetch "logs" 0 0 4⟩

/-- Elasticsearch has room for one document. -/
def roomForOne : (c : LogCall) → LogWorld → Option (Except JsError (LogReply c) × LogWorld)
  | .now, w => some (.ok "2024-05-01T10:00:00.000Z", w)
  | .index index document, w =>
    if w.documents = [] then some (.ok (), { w with documents := [(index, document)] })
    else some (.error { message := "disk full" }, w)
  | .resolveOffset topic partition offset, w => some (.ok (), w.resolve topic partition offset)

theorem answers_roomForOne (c : LogCall) (w : LogWorld) (r : Except JsError (LogReply c))
    (w' : LogWorld) (h : roomForOne c w = some (r, w')) : w.Answers ⟨c, r⟩ w' := by
  cases c with
  | now =>
      cases h
      exact .now _
  | index index document =>
      simp only [roomForOne] at h
      split at h
      · next hempty =>
          cases h
          have hadd : w.documents ++ List.replicate 1 (index, document) = [(index, document)] := by
            rw [hempty]
            rfl
          have answer :=
            LogWorld.Answers.index (w := w) index document 1 (.ok ()) fun _ => Nat.one_pos
          rwa [hadd] at answer
      · cases h
        have answer := LogWorld.Answers.index (w := w) index document 0
          (.error { message := "disk full" }) fun h => by cases h
        rwa [List.replicate_zero, List.append_nil] at answer
  | resolveOffset topic partition offset =>
      cases h
      exact .resolved topic partition offset _

def mixedRead : Loggers :=
  Machine.turns (fun _ _ => true) roomForOne 0 20
    ((Pool.initial mixedRecords).spawn mixedBatch (loggers.code mixedBatch))

theorem run_mixedTurns (n : ℕ) : loggers.Run (fun _ _ => True) mixedRecords
    (Machine.turns (fun _ _ => true) roomForOne 0 n
      ((Pool.initial mixedRecords).spawn mixedBatch (loggers.code mixedBatch))) := by
  apply Machine.Run.turns answers_roomForOne fun _ _ _ => trivial
  have fetches : mixedRecords.Fetches mixedBatch := ⟨by decide, 0, 4, le_rfl, rfl⟩
  exact .next .initial (.start fetches) trivial

theorem run_mixedRead : loggers.Run (fun _ _ => True) mixedRecords mixedRead := run_mixedTurns 20

/-- All four are passed and one is stored. -/
theorem settles_records_mixed :
    ((∀ topic partition offset value log, mixedRecords.resolved topic partition ≤ offset →
        offset < mixedRead.shared.resolved topic partition →
        (mixedRead.shared.records topic partition)[offset]? = some value →
        LogConsumerService.parse value = .ok log → log ≠ .null →
        ∃ x, Holds x log ∧ (x ∈ mixedRead.shared.documents ∨
          ∃ pid e, (pid, ⟨.index x.1 x.2, .error e⟩) ∈ mixedRead.history)) ∧
      (∀ x ∈ mixedRead.shared.documents, Loggers.Stems mixedRead.shared x) ∧
      ∀ (pid : ℕ) (proc : Proc LogReply JsError Unit Batch) (e : JsError),
        mixedRead.procs[pid]? = some proc → proc.rest = .done (.error e) →
          ∃ topic partition offset,
            (pid, ⟨.resolveOffset topic partition offset, .error e⟩) ∈ mixedRead.history) ∧
    mixedRead.shared.resolved "logs" 0 = 4 ∧
      mixedRead.shared.documents.map Prod.fst = ["logs-2024-05-01"] :=
  ⟨Loggers.settles_records run_mixedRead rfl fun _ _ => Nat.zero_le _, by decide, by decide⟩

end Notification
