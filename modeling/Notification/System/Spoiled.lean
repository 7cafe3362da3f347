import Notification.Aggregator.WorkerCalls
import Notification.System.Provenance

/-!
# What a retry does to its batch

The retry loop publishes on the topics of the first attempts. What it publishes names no tenant,
so that the bulk `SELECT` is refused for the whole batch, and the first attempts that are handed
out together with a retry are not made.
-/

namespace Notification

open Interaction Program Lookup BatchIdempotencyService

/-! ## A message without a name -/

/-- Only one pair is taken for the missing one. -/
theorem pair_of_joined {tenantId key : String}
    (h : joined (some tenantId, some key) = joined (none, none)) :
    tenantId = "undefined" ∧ key = "undefined" := by
  have same : tenantId ++ ":" ++ key = "undefined" ++ ":" ++ "undefined" := h
  have noColon : NoColon key := by
    have hcount : tenantId.toList.count ':' + (key.toList.count ':' + 1) = 1 := by
      simpa using congrArg (fun text => text.toList.count ':') same
    exact List.count_eq_zero.mp (by omega)
  exact append_colon_inj noColon (by decide) same

/-- What the retry loop publishes can be read, and it has no name. -/
theorem exists_nameless (retry : PendingRetry) :
    ∃ e, parseEvent (Worker.retryMessage retry).toJson = .ok e ∧
      e.toCheck.name = (none, none) := by
  obtain ⟨messageId, channel, attempt⟩ := retry
  cases channel <;> exact ⟨_, rfl, rfl⟩

/-- A nameless message makes the database refuse the check of its batch, unless another one is
asked for in its place. -/
theorem selectExisting_refused {messages : List MessageToCheckIdempotency}
    {m : MessageToCheckIdempotency} (member : m ∈ messages) (nameless : m.name = (none, none))
    (others : ∀ m' ∈ messages, joined m'.name = joined (none, none) → m'.name = (none, none)) :
    (selectExisting (extractUniqueIdempotencyKeys messages)).check ≠ none := by
  obtain ⟨n₀, -, hfirst⟩ := exists_representative joined
    (List.mem_map_of_mem (f := MessageToCheckIdempotency.name) member)
  have glue : joined n₀ = joined (none, none) := by
    rw [glue_of_representative hfirst, nameless]
  have asked : n₀ ∈ extractUniqueIdempotencyKeys messages := by
    rw [extractUnique_eq]
    refine mem_unseen.mpr ⟨List.not_mem_nil, ?_⟩
    rw [representative_congr (glue_of_representative hfirst), hfirst]
  obtain ⟨m', hm', rfl⟩ := mem_extractUnique asked
  rw [others m' hm' glue] at asked
  have undefined : (selectExisting (extractUniqueIdempotencyKeys messages)).params.any
      Expr.isUndefined = true :=
    List.any_eq_true.mpr ⟨.text none, List.mem_flatten.mpr
      ⟨_, List.mem_map_of_mem asked, List.mem_cons_self⟩, rfl⟩
  rw [Statement.check, if_pos undefined]
  exact Option.some_ne_none _

/-- The calls that come to nothing: a connection, and a statement that is refused. -/
inductive SpentCall : Call → Prop
  | connection : SpentCall (.sql .getConnection)
  | refused (statement : Statement) : statement.check ≠ none →
      SpentCall (.sql (.execute statement))
  | release : SpentCall (.sql .release)

theorem admits_spentCall : AdmitsRefused SpentCall := ⟨.connection, .refused, .release⟩

/-- If the check is refused, the batch comes to nothing. -/
theorem spent_eachBatch (R : IDeliveryRepository) {b : Batch} {es : List ParsedKafkaMessage}
    (hparse : b.messages.mapM KafkaMessage.parse = .ok es) (nonempty : es ≠ [])
    (refused : (selectExisting (extractUniqueIdempotencyKeys
      (es.map ParsedKafkaMessage.toCheck))).check ≠ none) :
    (Worker.eachBatch R b).wp (recording Refuses) (Always fun ev _ => SpentCall ev.call)
      (fun _ _ => True) [] := by
  have hmessages : es.map ParsedKafkaMessage.toCheck ≠ [] := mt List.map_eq_nil_iff.mp nonempty
  have hkeys : (extractUniqueIdempotencyKeys (es.map ParsedKafkaMessage.toCheck)).length ≠ 0 :=
    mt List.length_eq_zero_iff.mp (extractUnique_ne_nil hmessages)
  have hquery : queryExistingMessages (extractUniqueIdempotencyKeys
      (es.map ParsedKafkaMessage.toCheck)) = Connection.execute (selectExisting
        (extractUniqueIdempotencyKeys (es.map ParsedKafkaMessage.toCheck))) := if_neg hkeys
  rw [Worker.eachBatch, hparse, wp_tryCatch, wp_bind, wp_done, either_ok, Worker.processBatch,
    wp_bind, checkBatchIdempotency, if_neg (mt List.length_eq_zero_iff.mp hmessages), hquery]
  apply mono_post (thrown_withConnection refused admits_spentCall _ (always_nil _))
  intro o t thrown
  cases o with
  | error e => trivial
  | ok result => exact thrown.elim

/-! ## The batches of the services -/

namespace Services

variable {kind : RepositoryKind} {sha256 : String → String} {uuid : ℕ → String} {init : World}
  {allowed : Services → Action Reply JsError ServiceJob → Prop} {s : Services}

theorem fetched (run : (services kind sha256 uuid).Run allowed init s) :
    ∀ (pid : ℕ) (proc : ServiceProc) (b : Batch), s.procs[pid]? = some proc →
      proc.job = .batch b → Fetched s.shared b := by
  apply run.invariant
  · intro pid proc b h
    simp [Pool.initial] at h
  · intro s a s' _ h step _ pid proc' b hproc' hjob
    have log := log_of_step step
    obtain hold | ⟨job, -, -, -, starts, rfl⟩ | ⟨proc, c, next, r, -, hproc, -, -, -, rfl⟩ |
      ⟨proc, -, hproc, -, rfl⟩ := step.proc_cases hproc'
    · exact (h pid proc' b hold hjob).mono log
    · obtain rfl : job = .batch b := hjob
      exact (fetched_of_offers starts).mono log
    · exact (h pid proc b hproc hjob).mono log
    · exact (h pid proc b hproc hjob).mono log

/-- A message of a batch is the event of a request or a retry. -/
theorem event_of_fetched (h : Traceable sha256 s) {b : Batch} (fetched : Fetched s.shared b)
    {msg : KafkaMessage} (member : msg ∈ b.messages) :
    ∃ e, msg.parse = .ok e ∧ ((∃ o, Requested s o ∧ e = o.event sha256) ∨
      ∃ o, Requested s o ∧ parseEvent o.retryEvent = .ok e ∧ e.toCheck.name = (none, none)) := by
  obtain ⟨htopic, hmessages⟩ := fetched
  obtain ⟨x, hx, hxtopic, hvalue⟩ := hmessages msg member
  have hparse : msg.parse = parseEvent x.value := by rw [KafkaMessage.parse, hvalue]
  rw [hparse]
  obtain ⟨o, -, hrecord⟩ | ⟨o, published, hretry⟩ :=
    h.events x hx (hxtopic ▸ messageTopic_of_mem htopic)
  · refine ⟨o.event sha256, ?_, .inl ⟨o, h.requested o ⟨x.partition, hrecord ▸ hx⟩, rfl⟩⟩
    rw [hrecord, o.parseEvent_record]
  · obtain ⟨e, hevent, nameless⟩ := exists_nameless (RetrySchedulerService.parseItem o.member)
    rw [hretry]
    exact ⟨e, hevent, .inr ⟨o, h.requested o published, hevent, nameless⟩⟩

theorem mapM_parse_of_all {messages : List KafkaMessage}
    (all : ∀ msg ∈ messages, ∃ e, msg.parse = .ok e) :
    ∃ es, messages.mapM KafkaMessage.parse = .ok es := by
  induction messages with
  | nil => exact ⟨[], rfl⟩
  | cons msg rest ih =>
      obtain ⟨e, he⟩ := all msg List.mem_cons_self
      obtain ⟨es, hes⟩ := ih fun msg member => all msg (List.mem_cons_of_mem _ member)
      refine ⟨e :: es, ?_⟩
      rw [List.mapM_cons, he, hes]
      rfl

/-- The name of a request's event is its pair. -/
theorem name_of_requested {o : Origin} (requested : Requested s o) :
    (o.event sha256).toCheck.name =
      (some o.request.tenantId, some o.request.idempotencyKey) := by
  obtain ⟨_, _, _, _, _, valid⟩ := requested
  exact Prod.ext rfl (Pipeline.effectiveKey_routed (Pipeline.validated valid))

/-- Each batch can be parsed. Either it holds nothing but first attempts, or it holds a retry as
well, and then its worker does nothing for any of them, unless the database is asked for another
name in place of the missing one. -/
theorem retry_spoils_batch (run : (services kind sha256 uuid).Run allowed init s)
    (fresh : init.Fresh) {pid : ℕ} {proc : ServiceProc} {b : Batch}
    (hproc : s.procs[pid]? = some proc) (hjob : proc.job = .batch b)
    (named : ∀ e ∈ Consuming.entries b, e.toCheck.name ≠ (some "undefined", some "undefined")) :
    b.messages.mapM KafkaMessage.parse = .ok (Consuming.entries b) ∧
      ((∀ e ∈ Consuming.entries b, ∃ o, Requested s o ∧ e = o.event sha256) ∨
        (∃ e ∈ Consuming.entries b, ∃ o, Requested s o ∧ parseEvent o.retryEvent = .ok e) ∧
          ∀ ev ∈ proc.trace, SpentCall ev.call) := by
  have origins := traceable run fresh
  have fetched := fetched run pid proc b hproc hjob
  obtain ⟨es, hes⟩ := mapM_parse_of_all fun msg member =>
    (event_of_fetched origins fetched member).imp fun _ h => h.1
  obtain rfl : Consuming.entries b = es := by rw [Consuming.entries, hes]
  have hevents : ∀ e ∈ Consuming.entries b, (∃ o, Requested s o ∧ e = o.event sha256) ∨
      ∃ o, Requested s o ∧ parseEvent o.retryEvent = .ok e ∧
        e.toCheck.name = (none, none) := by
    intro e he
    obtain ⟨msg, member, hparse⟩ := (Consuming.mem_of_mapM_parse hes).mp he
    obtain ⟨e', hparse', h⟩ := event_of_fetched origins fetched member
    obtain rfl : e = e' := Except.ok.inj (hparse.symm.trans hparse')
    exact h
  refine ⟨hes, ?_⟩
  by_cases retried : ∃ e ∈ Consuming.entries b, e.toCheck.name = (none, none)
  · obtain ⟨e, he, nameless⟩ := retried
    have retry : ∃ o, Requested s o ∧ parseEvent o.retryEvent = .ok e := by
      obtain ⟨o, -, rfl⟩ | ⟨o, requested, hevent, -⟩ := hevents e he
      · cases congrArg Prod.fst nameless
      · exact ⟨o, requested, hevent⟩
    have refused : (selectExisting (extractUniqueIdempotencyKeys
        ((Consuming.entries b).map ParsedKafkaMessage.toCheck))).check ≠ none := by
      apply selectExisting_refused (List.mem_map_of_mem he) nameless
      intro m' hm' same
      obtain ⟨e', he', rfl⟩ := List.mem_map.mp hm'
      obtain ⟨o, requested, rfl⟩ | ⟨o, -, -, nameless'⟩ := hevents e' he'
      · have hname : (o.event sha256).toCheck.name =
            (some o.request.tenantId, some o.request.idempotencyKey) :=
          name_of_requested requested
        rw [hname] at same
        obtain ⟨htenant, hkey⟩ := pair_of_joined same
        rw [htenant, hkey] at hname
        exact absurd hname (named _ he')
      · exact nameless'
    have nonempty : Consuming.entries b ≠ [] := List.ne_nil_of_mem he
    have code : ((services kind sha256 uuid).code proc.job).wp (recording Refuses)
        (Always fun ev _ => SpentCall ev.call) (fun _ _ => True) [] := by
      rw [hjob]
      change (ServiceJob.code kind sha256 (.batch b)).wp _ _ _ _
      rw [ServiceJob.code, wp_bind]
      apply mono_post (spent_eachBatch kind.repository hes nonempty refused)
      intro o t _
      cases o <;> trivial
    have spent := (run.local_invariant (fun _ _ _ _ answer => answer.2) hproc code
      (always_nil _)).1
    refine .inr ⟨⟨e, he, retry⟩, fun ev hev => ?_⟩
    obtain ⟨_, -, made⟩ := spent.of_mem hev
    exact made
  · refine .inl fun e he => ?_
    obtain first | ⟨o, -, -, nameless⟩ := hevents e he
    · exact first
    · exact absurd ⟨e, he, nameless⟩ retried

end Services

/-! ## An order that is handed out with a retry -/

/-- The retry of the first order is published, ... -/
def orderPolled : Services :=
  Machine.turns everything
    (fun c w => w.answer toString 2 { outcome := unreachable, now := .ofTime 60000 } c) 2 5
    ((orderTried .interface unreachable).spawn .poll (ServiceJob.code .interface id .poll))

/-- ... the next order is served, ... -/
def orderFollowed : Services :=
  orderPolled.after .interface everything (.ok ⟨true, none⟩) (.request orderArrived) 20

/-- ... and all three events are handed out. -/
def spoiledBatch : Batch :=
  ⟨"messages.sms", 0, orderFollowed.shared.fetch "messages.sms" 0 0 3⟩

def orderSpoiled : Services :=
  orderFollowed.after .interface everything (.ok ⟨true, none⟩) (.batch spoiledBatch) 40

theorem run_orderSpoiled :
    (services .interface id toString).Run (fun _ _ => True) {} orderSpoiled := by
  have polled : (services .interface id toString).Run (fun _ _ => True) {} orderPolled := by
    apply Machine.Run.turns _ fun _ _ _ => trivial
    · exact .next (run_orderTried .interface unreachable) (.start trivial) trivial
    · exact fun _ _ _ _ answer => ⟨World.lossy_of_answer answer, refuses_of_answer answer⟩
  have followed : (services .interface id toString).Run (fun _ _ => True) {} orderFollowed := by
    apply Services.run_after (fun _ _ _ => trivial) polled
    · trivial
    · trivial
  have offers : orderFollowed.shared.Offers spoiledBatch :=
    ⟨by decide, List.ne_nil_of_length_pos (by decide), 0, 3, Nat.zero_le _, rfl⟩
  apply Services.run_after (fun _ _ _ => trivial) followed
  · exact offers
  · trivial

/-- The next order is neither stored nor handed to its provider. -/
theorem retry_spoils_batch_order :
    (∃ proc, orderSpoiled.procs[4]? = some proc ∧
      spoiledBatch.messages.mapM KafkaMessage.parse = .ok (Consuming.entries spoiledBatch) ∧
      ((∀ e ∈ Consuming.entries spoiledBatch, ∃ o, Requested orderSpoiled o ∧ e = o.event id) ∨
        (∃ e ∈ Consuming.entries spoiledBatch, ∃ o, Requested orderSpoiled o ∧
          parseEvent o.retryEvent = .ok e) ∧ ∀ ev ∈ proc.trace, SpentCall ev.call)) ∧
      (Consuming.entries spoiledBatch).map ParsedKafkaMessage.tenantId =
        [some "tenant-1", none, some "tenant-1"] ∧
      orderSpoiled.shared.db.messages.map MessageRow.body = ["Your order has shipped"] ∧
      orderSpoiled.shared.inbox.length = 1 := by
  refine ⟨?_, by decide, by decide, by decide⟩
  have hproc : ∃ proc, orderSpoiled.procs[4]? = some proc ∧ proc.job = .batch spoiledBatch :=
    ⟨_, rfl, rfl⟩
  obtain ⟨proc, hproc, hjob⟩ := hproc
  exact ⟨proc, hproc, Services.retry_spoils_batch run_orderSpoiled World.fresh_empty hproc hjob
    (by decide)⟩

end Notification
