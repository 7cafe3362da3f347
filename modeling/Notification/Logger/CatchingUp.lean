import Notification.Interaction.Reaches
import Notification.Logger.Consumption

/-!
# Reading to the end

Whatever the loggers have come to, one more of them can be started on what is left of a
partition. While Elasticsearch and kafkajs do what they are asked for, it stores each log that
is left once and passes the last record. No record is in its way.
-/

namespace Notification

open Interaction Program

/-! ## A logger by itself -/

namespace LogWorld

variable (w : LogWorld) (topic : String) (partition : ℕ)

/-- The records that the group has not passed. -/
def unread : List (Option (Option Json)) :=
  (w.records topic partition).drop (w.resolved topic partition)

/-- What Kafka hands out when a logger asks for all of them. -/
def unreadBatch : Batch where
  topic := topic
  partition := partition
  messages := (w.unread topic partition).mapIdx fun i value =>
    ⟨w.resolved topic partition + i, value⟩

theorem fetches_unreadBatch (known : topic ∈ Logger.topics) :
    w.Fetches (w.unreadBatch topic partition) := by
  refine ⟨known, w.resolved topic partition, (w.unread topic partition).length, le_rfl, ?_⟩
  rw [fetch, unreadBatch, ← unread, List.take_length]

/-- The group has stored some documents and has come to an offset of a partition. -/
def pass (documents : List (String × Json)) (offset : ℕ) : LogWorld where
  records := w.records
  documents := w.documents ++ documents
  resolved topic' partition' :=
    if topic' = topic ∧ partition' = partition then max (w.resolved topic partition) offset
    else w.resolved topic' partition'

variable {w topic partition}

@[simp] theorem resolved_pass {documents : List (String × Json)} {offset : ℕ} :
    (w.pass topic partition documents offset).resolved topic partition =
      max (w.resolved topic partition) offset := if_pos ⟨rfl, rfl⟩

theorem resolved_pass_other {documents : List (String × Json)} {offset : ℕ} {topic' : String}
    {partition' : ℕ} (other : (topic', partition') ≠ (topic, partition)) :
    (w.pass topic partition documents offset).resolved topic' partition' =
      w.resolved topic' partition' :=
  if_neg fun same => other (Prod.ext same.1 same.2)

theorem pass_nothing {offset : ℕ} (h : offset ≤ w.resolved topic partition) :
    w.pass topic partition [] offset = w := by
  obtain ⟨records, documents, resolved⟩ := w
  simp only [pass, List.append_nil, max_eq_left h]
  congr
  funext topic' partition'
  split
  · next same =>
      obtain ⟨rfl, rfl⟩ := same
      rfl
  · rfl

theorem pass_pass {documents documents' : List (String × Json)} {offset offset' : ℕ} :
    (w.pass topic partition documents offset).pass topic partition documents' offset' =
      w.pass topic partition (documents ++ documents') (max offset offset') := by
  simp only [pass, and_self, if_true, List.append_assoc, max_assoc]
  congr
  funext topic' partition'
  split <;> rfl

/-- Elasticsearch and kafkajs do what they are asked for, while the clock stands still. -/
def healthy (iso : String) : (c : LogCall) → LogWorld → Except JsError (LogReply c) × LogWorld
  | .now, w => (.ok iso, w)
  | .index index document, w =>
    (.ok (), { w with documents := w.documents ++ [(index, document)] })
  | .resolveOffset topic partition offset, w => (.ok (), w.resolve topic partition offset)

theorem answers_healthy (iso : String) (c : LogCall) (w : LogWorld) :
    w.Answers ⟨c, (healthy iso c w).1⟩ (healthy iso c w).2 := by
  cases c with
  | now => exact .now iso
  | index index document => exact .index index document 1 (.ok ()) fun _ => Nat.one_pos
  | resolveOffset topic partition offset => exact .resolved topic partition offset (.ok ())

end LogWorld

namespace Logger

/-- The document that a record leads to, if it holds a log. -/
def documentsOf (iso : String) (value : Option (Option Json)) : List (String × Json) :=
  match LogConsumerService.parse value with
  | .error _ => []
  | .ok log =>
    match ElasticsearchLogRepository.dataset log with
    | .error _ => []
    | .ok dataset =>
      [("logs-" ++ dateOf iso, ElasticsearchLogRepository.document log dataset iso)]

theorem documentsOf_of_log (iso : String) {value : Option (Option Json)} {log : Json}
    (hlog : LogConsumerService.parse value = .ok log) (notNull : log ≠ .null) :
    ∃ x, documentsOf iso value = [x] ∧ Holds x log := by
  obtain ⟨dataset, hdataset⟩ := dataset_of_ne_null notNull
  refine ⟨_, ?_, dataset, iso, iso, hdataset, rfl⟩
  simp only [documentsOf, hlog, hdataset]

variable (iso : String)

/-- Whatever a record holds, the logger goes on after it. -/
theorem run_eachMessage (message : KafkaMessage) (w : LogWorld) :
    (LogConsumerService.eachMessage handler message).run (LogWorld.healthy iso) w =
      (.ok (), { w with documents := w.documents ++ documentsOf iso message.value }) := by
  rw [LogConsumerService.eachMessage, run_tryCatch, run_bind, run_done, documentsOf]
  cases LogConsumerService.parse message.value with
  | error e => simp
  | ok log =>
      rw [andThen_ok, handler, run_bind, LogController.handleLog, LogPersistenceService.persistLog,
        ElasticsearchLogRepository.save]
      cases hdataset : ElasticsearchLogRepository.dataset log with
      | error e => simp [LogWorld.healthy, hdataset]
      | ok dataset =>
          cases consoleLine log <;> simp [LogWorld.healthy, hdataset]

/-- The loop over the records of a partition from an offset on. -/
theorem run_records (topic : String) (partition : ℕ) (values : List (Option (Option Json)))
    {lo : ℕ} {w : LogWorld} (reached : lo ≤ w.resolved topic partition) :
    ∃ done, (forEach (values.mapIdx fun i value => (⟨lo + i, value⟩ : KafkaMessage))
        fun message => do
          LogConsumerService.eachMessage handler message
          perform (LogCall.resolveOffset topic partition message.offset)).run
        (LogWorld.healthy iso) w =
      (.ok done, w.pass topic partition (values.flatMap (documentsOf iso))
        (lo + values.length)) := by
  induction values generalizing lo w with
  | nil => exact ⟨[], congrArg (Prod.mk _) (LogWorld.pass_nothing reached).symm⟩
  | cons value rest ih =>
      let w' := w.pass topic partition (documentsOf iso value) (lo + 1)
      have reached' : lo + 1 ≤ w'.resolved topic partition := by
        rw [LogWorld.resolved_pass]
        exact le_max_right _ _
      obtain ⟨done, hrest⟩ := ih reached'
      have hmessages : (rest.mapIdx fun i value => (⟨lo + (i + 1), value⟩ : KafkaMessage)) =
          rest.mapIdx fun i value => ⟨lo + 1 + i, value⟩ := by
        simp only [Nat.add_assoc, Nat.add_comm 1]
      refine ⟨() :: done, ?_⟩
      rw [List.mapIdx_cons, hmessages, forEach, run_bind, run_bind, run_eachMessage, andThen_ok,
        run_perform]
      change andThen _ (Except.ok (), w') = _
      rw [andThen_ok, run_bind, hrest, andThen_ok, run_pure, LogWorld.pass_pass,
        List.flatMap_cons, List.length_cons]
      congr 2
      omega

/-- A logger that is handed the records of a partition from an offset on. -/
theorem run_runBatch (topic : String) (partition : ℕ) (values : List (Option (Option Json)))
    {lo : ℕ} {w : LogWorld} (reached : lo ≤ w.resolved topic partition) :
    (LogConsumerService.runBatch handler
      ⟨topic, partition, values.mapIdx fun i value => ⟨lo + i, value⟩⟩).run
        (LogWorld.healthy iso) w =
      (.ok (), w.pass topic partition (values.flatMap (documentsOf iso))
        (lo + values.length)) := by
  obtain ⟨done, hrun⟩ := run_records iso topic partition values reached
  rw [LogConsumerService.runBatch, run_bind, hrun]
  rfl

end Logger

/-! ## The group -/

/-- Some partitions are read to the end: each log that was left there is stored once, and
nothing else changes. -/
structure LogWorld.ReadToEnd (iso : String) (parts : List (String × ℕ)) (w w' : LogWorld) :
    Prop where
  records : w'.records = w.records
  resolved : ∀ topic partition, w'.resolved topic partition =
    if (topic, partition) ∈ parts then (w.records topic partition).length
    else w.resolved topic partition
  documents : w'.documents = w.documents ++
    parts.flatMap fun p => (w.unread p.1 p.2).flatMap (Logger.documentsOf iso)

namespace Loggers

variable {init : LogWorld} {allowed : Loggers → Action LogReply JsError Batch → Prop}
  {s : Loggers}

/-- What is left of a partition can be read by one logger, without the help of the others. -/
theorem reaches_end (s : Loggers) {topic : String} (known : topic ∈ Logger.topics)
    (partition : ℕ) (iso : String)
    (bounded : s.shared.resolved topic partition ≤ (s.shared.records topic partition).length) :
    ∃ s', loggers.Reaches (fun _ _ => True) s s' ∧
      s'.shared = s.shared.pass topic partition
        ((s.shared.unread topic partition).flatMap (Logger.documentsOf iso))
        (s.shared.records topic partition).length ∧
      Machine.Running s' s.procs.length (s.shared.unreadBatch topic partition)
        (.done (.ok ())) ∧
      s'.procs.length = s.procs.length + 1 ∧
      ∀ pid < s.procs.length, s'.procs[pid]? = s.procs[pid]? := by
  apply Machine.Reaches.job (s.shared.fetches_unreadBatch topic partition known) trivial
    fun _ _ _ => trivial
  have hrun : (loggers.code (s.shared.unreadBatch topic partition)).run
      (LogWorld.healthy iso) s.shared = _ :=
    Logger.run_runBatch iso topic partition (s.shared.unread topic partition) le_rfl
  have hend : s.shared.resolved topic partition + (s.shared.unread topic partition).length =
      (s.shared.records topic partition).length := by
    rw [LogWorld.unread, List.length_drop, Nat.add_sub_cancel' bounded]
  have leads : Leads (loggers.answers s.procs.length)
      (loggers.code (s.shared.unreadBatch topic partition)) s.shared _ _ :=
    leads_run (LogWorld.answers_healthy iso) _ _
  rwa [hrun, hend] at leads

/-- The same for any partitions, one after the other. -/
theorem reaches_ends (s : Loggers) (within : ∀ topic partition,
      s.shared.resolved topic partition ≤ (s.shared.records topic partition).length)
    {parts : List (String × ℕ)} (known : ∀ p ∈ parts, p.1 ∈ Logger.topics)
    (distinct : parts.Nodup) (iso : String) :
    ∃ s', loggers.Reaches (fun _ _ => True) s s' ∧
      s.shared.ReadToEnd iso parts s'.shared ∧
      ∀ pid < s.procs.length, s'.procs[pid]? = s.procs[pid]? := by
  induction parts generalizing s with
  | nil => exact ⟨s, .refl, ⟨rfl, fun _ _ => rfl, (List.append_nil _).symm⟩, fun _ _ => rfl⟩
  | cons p rest ih =>
      obtain ⟨topic, partition⟩ := p
      obtain ⟨fresh, distinct⟩ := List.nodup_cons.mp distinct
      -- the first partition is read, ...
      obtain ⟨s₁, reaches₁, shared₁, -, hlength₁, others₁⟩ :=
        reaches_end s (known (topic, partition) List.mem_cons_self) partition iso (within _ _)
      have hrecords₁ : s₁.shared.records = s.shared.records := by rw [shared₁, LogWorld.pass]
      have hresolved₁ (topic' : String) (partition' : ℕ) : s₁.shared.resolved topic' partition' =
          if (topic', partition') = (topic, partition) then
            (s.shared.records topic partition).length
          else s.shared.resolved topic' partition' := by
        rw [shared₁]
        split
        · next same =>
            obtain ⟨rfl, rfl⟩ := Prod.mk.inj same
            rw [LogWorld.resolved_pass, max_eq_right (within _ _)]
        · next other => exact LogWorld.resolved_pass_other other
      have within₁ (topic' : String) (partition' : ℕ) :
          s₁.shared.resolved topic' partition' ≤
            (s₁.shared.records topic' partition').length := by
        rw [hresolved₁, hrecords₁]
        split
        · next same =>
            obtain ⟨rfl, rfl⟩ := Prod.mk.inj same
            exact le_rfl
        · exact within _ _
      -- ... which leaves the others as they are
      have hunread (p : String × ℕ) (hp : p ∈ rest) :
          s₁.shared.unread p.1 p.2 = s.shared.unread p.1 p.2 := by
        have other : (p.1, p.2) ≠ (topic, partition) := fun same => fresh (same ▸ hp)
        rw [LogWorld.unread, LogWorld.unread, hrecords₁, hresolved₁, if_neg other]
      obtain ⟨s', reaches, read, others⟩ :=
        ih s₁ within₁ (fun p hp => known p (List.mem_cons_of_mem _ hp)) distinct
      refine ⟨s', reaches₁.trans reaches, ⟨read.records.trans hrecords₁, ?_, ?_⟩, ?_⟩
      · intro topic' partition'
        rw [read.resolved, hrecords₁, hresolved₁]
        by_cases same : (topic', partition') = (topic, partition)
        · obtain ⟨rfl, rfl⟩ := Prod.mk.inj same
          simp
        · simp [same]
      · have hrest : rest.flatMap (fun p =>
              (s₁.shared.unread p.1 p.2).flatMap (Logger.documentsOf iso)) =
            rest.flatMap fun p => (s.shared.unread p.1 p.2).flatMap (Logger.documentsOf iso) :=
          List.flatMap_congr fun p hp => by rw [hunread p hp]
        rw [read.documents, hrest, shared₁, List.flatMap_cons, ← List.append_assoc]
        rfl
      · intro pid hlt
        rw [others pid (hlength₁ ▸ Nat.lt_succ_of_lt hlt), others₁ pid hlt]

/-- In whatever state the loggers are: they can come to the end of any partitions, and store each
log once that they had not passed there. No logger that has been started is needed for it. -/
theorem can_catch_up (run : loggers.Run allowed init s)
    (bounded : ∀ topic partition,
      init.resolved topic partition ≤ (init.records topic partition).length)
    (parts : List (String × ℕ)) (known : ∀ p ∈ parts, p.1 ∈ Logger.topics)
    (distinct : parts.Nodup) (iso : String) :
    ∃ s', loggers.Reaches (fun _ _ => True) s s' ∧
      s.shared.ReadToEnd iso parts s'.shared ∧
      ∀ pid < s.procs.length, s'.procs[pid]? = s.procs[pid]? :=
  reaches_ends s (fun topic partition => (covered run bounded topic partition).bounded) known
    distinct iso

end Loggers

/-- A logger that has stopped before kafkajs was told of the first message. -/
def mixedStopped : Loggers :=
  Machine.turns (fun _ _ => true) roomForOne 0 3
    ((Pool.initial mixedRecords).spawn mixedBatch (loggers.code mixedBatch))

/-- On the next day all four are passed. The first log is stored once more. -/
theorem can_catch_up_mixed :
    mixedStopped.shared.documents.map Prod.fst = ["logs-2024-05-01"] ∧
      ∃ s', loggers.Reaches (fun _ _ => True) mixedStopped s' ∧
        s'.shared.resolved "logs" 0 = 4 ∧
        s'.shared.documents.map Prod.fst =
          ["logs-2024-05-01", "logs-2024-05-02", "logs-2024-05-02"] := by
  have known : ∀ p ∈ [("errors", 0), ("logs", 0)], p.1 ∈ Logger.topics := by decide
  obtain ⟨s', reaches, read, -⟩ :=
    Loggers.can_catch_up (run_mixedTurns 3) (fun _ _ => Nat.zero_le _) _ known (by decide)
      "2024-05-02T10:00:00.000Z"
  refine ⟨by decide, s', reaches, read.resolved "logs" 0, ?_⟩
  rw [read.documents]
  decide

end Notification
