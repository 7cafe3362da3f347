import Notification.Aggregator.Reach

/-!
# Three notions of a new message

Three definitions of a new message have to agree: the check looks for the joined pair, the
insert asks the unique keys, and the delivery loop goes by `messageId`. A message is
delivered exactly if the insert reports it as `IN_PROGRESS` as long as the three do agree.
-/

namespace Notification

open Interaction Program BatchIdempotencyService

/-- Behind a provider call there is a row of the message that is not finally delivered. -/
def Backed : Call → World → Prop
  | .send _ _ _ _ m, w => ∃ row, w.row? m.messageId = some row ∧ row.finalDelivered = false
  | _, _ => True

theorem backed_of_bookkeeping {c : Call} {r : Except JsError (Reply c)} (w : World)
    (h : Bookkeeping ⟨c, r⟩) : Backed c w := by
  unfold Backed
  split
  · exact h.elim
  · trivial

namespace Worker

/-- The entries of a batch for which the insert reports `IN_PROGRESS`. -/
def reportedInProgress (uuid : ℕ → String) (choose : World → Choice) (b : Batch) (w : World) :
    List ParsedKafkaMessage :=
  match b.messages.mapM KafkaMessage.parse with
  | .error _ => []
  | .ok es =>
    match (checkBatchIdempotency (es.map ParsedKafkaMessage.toCheck)).run
        (World.handler uuid choose) w with
    | (.error _, _) => []
    | (.ok result, w₁) =>
      match (insertNewMessagesInProgress result.newMessages).run (World.handler uuid choose) w₁ with
      | (.error _, _) => []
      | (.ok results, _) =>
        (((es.filter fun e => e.toCheck ∈ result.newMessages).zip results).filter fun p =>
          p.2.status == .inProgress).map Prod.fst

/-- The provider is called for exactly the reported entries, once each and in order, and
every call is backed by a row. -/
structure DatabaseFirst (R : IDeliveryRepository) (uuid : ℕ → String) (choose : World → Choice)
    (b : Batch) (w : World) : Prop where
  sends : ∃ new, ((eachBatch R b).run (World.handler uuid choose) w).2.inbox = w.inbox ++ new ∧
    new.map Sending.message =
      (reportedInProgress uuid choose b w).map ParsedKafkaMessage.asMessage
  backed : (eachBatch R b).Meets (World.handler uuid choose) Backed w

/-- A message is found delivered when the events `stored` have been sent. -/
def FoundAfter (reads : Bool) (w : World) (stored : List ParsedKafkaMessage)
    (m : MessageToDeliver) : Prop :=
  (reads = true → FinallyDelivered w m.messageId) ∧
    ((w.redis.live (DeliveryDeduplicationService.buildDeliveryKey m.dedupKey)).isSome = true ∨
      ∃ e ∈ stored, e.asMessage.dedupKey = m.dedupKey)

/-- The loop goes past an event when the events `stored` have been sent before it. -/
def PassesAfter (reads : Bool) (w : World) (b : Batch) (es stored : List ParsedKafkaMessage)
    (e : ParsedKafkaMessage) : Prop :=
  Skipped (duplicatesOf w.db es) e ∨
    (∀ provider, ProviderFactory.getProvider (channelOf b.topic) ≠ .ok provider) ∨
    FoundAfter reads w stored e.asMessage

/-- For a new event, when those `before` it are done: the unique keys refuse its row exactly
if the loop goes past it. -/
def AgreesAt (reads : Bool) (w : World) (b : Batch) (es before : List ParsedKafkaMessage)
    (e : ParsedKafkaMessage) : Prop :=
  (w.db.messages ++ (insertable w.db.messages before).map ParsedKafkaMessage.newRow).any
      e.newRow.clashes = true ↔
    PassesAfter reads w b es (insertable w.db.messages before) e

def Agrees (reads : Bool) (w : World) (b : Batch) (es : List ParsedKafkaMessage) : Prop :=
  ∀ before e after, newEvents w.db es = before ++ e :: after → AgreesAt reads w b es before e

/-! ## What is reported -/

section Reported

variable {uuid : ℕ → String} {choose : World → Choice} {w : World} {b : Batch}
  {es : List ParsedKafkaMessage}

theorem filter_newMessages (db : Database) (es : List ParsedKafkaMessage) :
    (es.filter fun e => e.toCheck ∈ (newEvents db es).map ParsedKafkaMessage.toCheck) =
      newEvents db es := by
  apply List.filter_congr
  intro e he
  rw [Bool.eq_iff_iff, decide_eq_true_eq]
  constructor
  · intro hcheck
    obtain ⟨e', he', hsame⟩ := List.mem_map.mp hcheck
    simpa [hsame] using (List.mem_filter.mp he').2
  · exact fun hnew => List.mem_map_of_mem (List.mem_filter.mpr ⟨he, hnew⟩)

theorem reportedInProgress_of_prepared (quiescent : w.db.Quiescent) (h : Prepared w.db b es) :
    reportedInProgress uuid choose b w = storedEvents w.db es := by
  have hcheck := run_check_of_accepted uuid choose w
    (es.map ParsedKafkaMessage.toCheck) fun hne => h.queried (by simpa using hne)
  have hinsert := run_insertNewMessagesInProgress uuid choose quiescent h.stored
  simp only [reportedInProgress, h.parsed, hcheck, newMessages_of, hinsert, filter_newMessages]
  exact inProgress_insertResults w.db.messages (newEvents w.db es)

theorem reportedInProgress_of_unprepared (quiescent : w.db.Quiescent)
    (h : ∀ es, ¬ Prepared w.db b es) : reportedInProgress uuid choose b w = [] := by
  obtain ⟨error, hes⟩ | ⟨es, hes, ⟨error, hcheck⟩ | ⟨hcheck, -, error, hinsert⟩⟩ :=
    unprepared_cases uuid choose quiescent h
  · simp only [reportedInProgress, hes]
  · simp only [reportedInProgress, hes, hcheck]
  · simp only [reportedInProgress, hes, hcheck, newMessages_of, hinsert]

end Reported

/-! ## The loop over the events -/

section Loop

/-- The check has not found the event. -/
def IsNew (w : World) (es : List ParsedKafkaMessage) (e : ParsedKafkaMessage) : Prop :=
  (existingFor (rowsFor w.db (es.map ParsedKafkaMessage.toCheck)) e.toCheck.key).isNone = true

instance (w : World) (es : List ParsedKafkaMessage) (e : ParsedKafkaMessage) :
    Decidable (IsNew w es e) := inferInstanceAs (Decidable (_ = true))

/-- The stored events among the first ones of a batch. -/
def storedUpTo (w : World) (es pre : List ParsedKafkaMessage) : List ParsedKafkaMessage :=
  insertable w.db.messages
    (Consuming.fresh (rowsFor w.db (es.map ParsedKafkaMessage.toCheck)) pre)

/-- The event is new, and its row gets past those of the events before it. -/
def Inserted (w : World) (es pre : List ParsedKafkaMessage) (e : ParsedKafkaMessage) : Prop :=
  IsNew w es e ∧ ∀ r ∈ w.db.messages ++ (storedUpTo w es pre).map ParsedKafkaMessage.newRow,
    e.newRow.clashes r = false

variable {reads : Bool} {choose : World → Choice} {w s s' : World} {b : Batch}
  {es pre rest : List ParsedKafkaMessage} {e : ParsedKafkaMessage}

theorem any_clashes_iff {rows : List MessageRow} {row : MessageRow} :
    ¬ rows.any row.clashes = true ↔ ∀ r ∈ rows, row.clashes r = false := by
  simp

theorem fresh_append (rows : List MessageRow) (es es' : List ParsedKafkaMessage) :
    Consuming.fresh rows (es ++ es') = Consuming.fresh rows es ++ Consuming.fresh rows es' :=
  List.filter_append ..

theorem fresh_cons_of_new (h : IsNew w es e) (rest : List ParsedKafkaMessage) :
    Consuming.fresh (rowsFor w.db (es.map ParsedKafkaMessage.toCheck)) (e :: rest) =
      e :: Consuming.fresh (rowsFor w.db (es.map ParsedKafkaMessage.toCheck)) rest :=
  List.filter_cons_of_pos h

theorem fresh_cons_of_old (h : ¬ IsNew w es e) (rest : List ParsedKafkaMessage) :
    Consuming.fresh (rowsFor w.db (es.map ParsedKafkaMessage.toCheck)) (e :: rest) =
      Consuming.fresh (rowsFor w.db (es.map ParsedKafkaMessage.toCheck)) rest :=
  List.filter_cons_of_neg h

/-- What is stored of the events from `e` on, when those before it are done. -/
theorem storedUpTo_append (pre rest : List ParsedKafkaMessage) :
    storedUpTo w es (pre ++ rest) = storedUpTo w es pre ++
      insertable (w.db.messages ++ (storedUpTo w es pre).map ParsedKafkaMessage.newRow)
        (Consuming.fresh (rowsFor w.db (es.map ParsedKafkaMessage.toCheck)) rest) := by
  rw [storedUpTo, fresh_append, insertable_append]
  rfl

theorem storedUpTo_of_inserted (h : Inserted w es pre e) (rest : List ParsedKafkaMessage) :
    storedUpTo w es (pre ++ e :: rest) = storedUpTo w es pre ++ e ::
      insertable (w.db.messages ++ (storedUpTo w es pre).map ParsedKafkaMessage.newRow ++
        [e.newRow]) (Consuming.fresh (rowsFor w.db (es.map ParsedKafkaMessage.toCheck)) rest) := by
  rw [storedUpTo_append, fresh_cons_of_new h.1, insertable, if_neg (any_clashes_iff.mpr h.2)]

theorem storedUpTo_of_not_inserted (h : ¬ Inserted w es pre e) :
    storedUpTo w es (pre ++ [e]) = storedUpTo w es pre := by
  rw [storedUpTo_append]
  by_cases hnew : IsNew w es e
  · have hclash := not_imp_comm.mp any_clashes_iff.mp fun free => h ⟨hnew, free⟩
    rw [fresh_cons_of_new hnew, insertable, if_pos hclash]
    simp [Consuming.fresh, insertable]
  · rw [fresh_cons_of_old hnew]
    simp [Consuming.fresh, insertable]

/-- A message that is found is skipped. -/
theorem skipped_of_not_new (member : e ∈ es) (h : ¬ IsNew w es e) :
    Skipped (duplicatesOf w.db es) e :=
  exists_duplicate_iff.mpr ⟨e.toCheck, List.mem_map_of_mem member, rfl, by
    rwa [IsNew, Option.isNone_iff_eq_none, ← ne_eq, ← Option.isSome_iff_ne_none] at h⟩

/-- The state of the loop after the events `pre`: the stored ones among them have been
sent, the rows of the other stored ones are waiting, and what was delivered still is. -/
structure Progress (choose : World → Choice) (w : World) (es pre : List ParsedKafkaMessage)
    (s : World) : Prop where
  idle : s.db.pending = []
  inbox : ∃ new, s.inbox = w.inbox ++ new ∧
    new.map Sending.message = (storedUpTo w es pre).map ParsedKafkaMessage.asMessage
  waiting : ∀ e ∈ storedEvents w.db es,
    (∀ e' ∈ storedUpTo w es pre, e'.asMessage.messageId ≠ e.asMessage.messageId) →
      ∃ row, s.row? e.asMessage.messageId = some row ∧ row.finalDelivered = false
  delivered : ∀ messageId, FinallyDelivered w messageId → FinallyDelivered s messageId
  undelivered : AllFail choose →
    ∀ messageId, FinallyDelivered s messageId → FinallyDelivered w messageId
  keys : ∀ key, (s.redis.live key).isSome = true ↔ (w.redis.live key).isSome = true ∨
    ∃ e ∈ storedUpTo w es pre,
      key = DeliveryDeduplicationService.buildDeliveryKey e.asMessage.dedupKey

theorem buildDeliveryKey_inj {dedupKey dedupKey' : String} :
    DeliveryDeduplicationService.buildDeliveryKey dedupKey =
      DeliveryDeduplicationService.buildDeliveryKey dedupKey' ↔ dedupKey = dedupKey' := by
  simp [DeliveryDeduplicationService.buildDeliveryKey]

theorem not_finallyDelivered {messageId : String} {row : MessageRow}
    (hrow : s.row? messageId = some row) (h : row.finalDelivered = false) :
    ¬ FinallyDelivered s messageId := by
  rintro ⟨row', hrow', hdelivered⟩
  rw [hrow] at hrow'
  cases hrow'
  rw [h] at hdelivered
  cases hdelivered

/-- The row of a stored event is waiting until the event has been sent. -/
theorem Progress.waiting_of_inserted (progress : Progress choose w es pre s)
    (stored : ∀ e ∈ newEvents w.db es, e.WellFormed) (split : es = pre ++ e :: rest)
    (h : Inserted w es pre e) :
    ∃ row, s.row? e.asMessage.messageId = some row ∧ row.finalDelivered = false := by
  have hstored : storedEvents w.db es = storedUpTo w es (pre ++ e :: rest) := by
    rw [← split]
    rfl
  have member : e ∈ storedEvents w.db es := by
    rw [hstored, storedUpTo_of_inserted h]
    simp
  apply progress.waiting e member
  intro e' he' hid
  have wellFormed : ∀ x ∈ storedEvents w.db es, x.WellFormed := fun x hx =>
    stored x (mem_of_insertable hx).1
  have member' : e' ∈ storedEvents w.db es := by
    rw [hstored, storedUpTo_of_inserted h]
    exact List.mem_append_left _ he'
  have hfree := h.2 e'.newRow (List.mem_append_right _ (List.mem_map_of_mem he'))
  rw [MessageRow.clashes, newRow_messageId (wellFormed e member),
    newRow_messageId (wellFormed e' member'), hid] at hfree
  simp at hfree

/-- A new event is refused by the unique keys exactly if it is not inserted. -/
theorem clashes_iff_not_inserted (new : IsNew w es e) :
    (w.db.messages ++ (storedUpTo w es pre).map ParsedKafkaMessage.newRow).any
      e.newRow.clashes = true ↔ ¬ Inserted w es pre e := by
  rw [Inserted, and_iff_right new, ← any_clashes_iff, not_not]

/-- What was delivered before the batch, with a key that Redis had or has got, is found. -/
theorem Progress.found (progress : Progress choose w es pre s) {m : MessageToDeliver}
    (h : FoundAfter reads w (storedUpTo w es pre) m) : Found reads s m := by
  refine ⟨fun reads => progress.delivered _ (h.1 reads), (progress.keys _).mpr ?_⟩
  apply h.2.imp_right
  intro hlater
  obtain ⟨e, he, hsame⟩ := hlater
  exact ⟨e, he, by rw [hsame]⟩

/-- Nothing else is found unless it has been delivered meanwhile. -/
theorem Progress.foundAfter (progress : Progress choose w es pre s) {m : MessageToDeliver}
    (delivered : FinallyDelivered s m.messageId → FinallyDelivered w m.messageId)
    (h : Found reads s m) : FoundAfter reads w (storedUpTo w es pre) m := by
  refine ⟨fun reads => delivered (h.1 reads), ((progress.keys _).mp h.2).imp_right fun hlater => ?_⟩
  obtain ⟨e, he, hsame⟩ := hlater
  exact ⟨e, he, (buildDeliveryKey_inj.mp hsame).symm⟩

/-- An event whose row is not inserted leaves everything as it is. -/
theorem Progress.of_not_inserted (progress : Progress choose w es pre s)
    (h : ¬ Inserted w es pre e) : Progress choose w es (pre ++ [e]) s := by
  have hsame := storedUpTo_of_not_inserted h
  exact ⟨progress.idle, hsame ▸ progress.inbox, hsame ▸ progress.waiting, progress.delivered,
    progress.undelivered, hsame ▸ progress.keys⟩

/-- An event whose row is inserted is sent. -/
theorem Progress.of_sends (progress : Progress choose w es pre s) (wellFormed : e.WellFormed)
    (h : Inserted w es pre e) (sends : Sends choose e.asMessage s s') :
    Progress choose w es (pre ++ [e]) s' := by
  have hstored : storedUpTo w es (pre ++ [e]) = storedUpTo w es pre ++ [e] :=
    storedUpTo_of_inserted h []
  refine ⟨sends.pending.trans progress.idle, ?_, fun e' he' hids => ?_,
    fun messageId hdelivered => ?_, fun fail messageId hdelivered => ?_, fun key => ?_⟩
  · obtain ⟨new, hinbox, hnew⟩ := progress.inbox
    obtain ⟨x, hsent, hx⟩ := sends.inbox
    refine ⟨new ++ [x], by rw [hsent, hinbox, List.append_assoc], ?_⟩
    rw [hstored, List.map_append, List.map_append, hnew, List.map_singleton, hx]
    rfl
  · rw [hstored] at hids
    rw [sends.row? _ (hids e (by simp)).symm]
    exact progress.waiting e' he' fun x hx => hids x (List.mem_append_left _ hx)
  · -- a row that was there before the batch has another id
    have hne : messageId ≠ e.asMessage.messageId := by
      rintro rfl
      obtain ⟨row, hrow, -⟩ := hdelivered
      have hfree := h.2 row (List.mem_append_left _ (List.mem_of_find?_eq_some hrow))
      have hid : row.messageId = e.asMessage.messageId := by simpa using List.find?_some hrow
      rw [MessageRow.clashes, newRow_messageId wellFormed, hid] at hfree
      simp at hfree
    rw [FinallyDelivered, sends.row? _ hne]
    exact progress.delivered messageId hdelivered
  · apply progress.undelivered fail messageId
    by_cases hid : messageId = e.asMessage.messageId
    · rw [hid] at hdelivered ⊢
      exact sends.undelivered fail hdelivered
    · rwa [FinallyDelivered, sends.row? _ hid] at hdelivered
  · rw [sends.live, Bool.or_eq_true, progress.keys, hstored, beq_iff_eq, or_assoc]
    simp only [List.mem_append, List.mem_singleton, or_and_right, exists_or, exists_eq_left]

/-- Where the notions agree, an event gets to the provider exactly if its row is inserted. -/
theorem Progress.passes_iff (progress : Progress choose w es pre s)
    (stored : ∀ e ∈ newEvents w.db es, e.WellFormed) (split : es = pre ++ e :: rest)
    (agrees : IsNew w es e → AgreesAt reads w b es
      (Consuming.fresh (rowsFor w.db (es.map ParsedKafkaMessage.toCheck)) pre) e) :
    Passes reads (channelOf b.topic) (duplicatesOf w.db es) e s ↔ ¬ Inserted w es pre e := by
  have member : e ∈ es := by simp [split]
  constructor
  · intro hpasses inserted
    obtain ⟨row, hrow, hwaiting⟩ := progress.waiting_of_inserted stored split inserted
    have hafter : PassesAfter reads w b es (storedUpTo w es pre) e :=
      hpasses.imp_right (Or.imp_right (progress.foundAfter fun hdelivered =>
        absurd hdelivered (not_finallyDelivered hrow hwaiting)))
    exact (clashes_iff_not_inserted inserted.1).mp ((agrees inserted.1).mpr hafter) inserted
  · intro not_inserted
    by_cases new : IsNew w es e
    · have hafter := (agrees new).mp ((clashes_iff_not_inserted new).mpr not_inserted)
      exact hafter.imp_right (Or.imp_right progress.found)
    · exact .inl (skipped_of_not_new member new)

/-- One step of the loop, as long as the notions agree. -/
theorem Progress.step (progress : Progress choose w es pre s)
    (stored : ∀ e ∈ newEvents w.db es, e.WellFormed) (split : es = pre ++ e :: rest)
    (agrees : IsNew w es e → AgreesAt reads w b es
      (Consuming.fresh (rowsFor w.db (es.map ParsedKafkaMessage.toCheck)) pre) e)
    (h : Reached reads choose (channelOf b.topic) (duplicatesOf w.db es) e s s') :
    Progress choose w es (pre ++ [e]) s' := by
  have hiff := progress.passes_iff stored split agrees
  cases h with
  | passed hpasses => exact progress.of_not_inserted (hiff.mp hpasses)
  | sent hpasses sends =>
      have inserted : Inserted w es pre e := not_not.mp (mt hiff.mpr hpasses)
      exact progress.of_sends (stored e (List.mem_filter.mpr ⟨by simp [split], inserted.1⟩))
        inserted sends

variable (choose) in
/-- The state in which the loop begins. -/
theorem progress_start (quiescent : w.db.Quiescent)
    (stored : ∀ e ∈ newEvents w.db es, e.WellFormed) : Progress choose w es []
      (w.withRows ((storedEvents w.db es).map ParsedKafkaMessage.newRow)) := by
  have hrow (messageId : String) :
      (w.withRows ((storedEvents w.db es).map ParsedKafkaMessage.newRow)).row? messageId =
        (w.row? messageId).or (((storedEvents w.db es).map ParsedKafkaMessage.newRow).find? fun r =>
          r.messageId == messageId) := List.find?_append ..
  refine ⟨quiescent.pending, ⟨[], by simp [World.withRows], rfl⟩, fun e he _ => ?_,
    fun messageId => (finallyDelivered_withRows w _ messageId).mpr,
    fun _ messageId => (finallyDelivered_withRows w _ messageId).mp, fun key => ?_⟩
  · obtain ⟨member, free⟩ := mem_of_insertable he
    have hid := newRow_messageId (stored e member)
    have hnone : w.row? e.asMessage.messageId = none := by
      refine List.find?_eq_none.mpr fun r hr hsame => ?_
      have hfree := free r hr
      rw [MessageRow.clashes, hid, beq_iff_eq.mp hsame] at hfree
      simp at hfree
    have hsome : (((storedEvents w.db es).map ParsedKafkaMessage.newRow).find? fun r =>
        r.messageId == e.asMessage.messageId).isSome = true :=
      List.find?_isSome.mpr ⟨e.newRow, List.mem_map_of_mem he, beq_iff_eq.mpr hid⟩
    obtain ⟨row, hfind⟩ := Option.isSome_iff_exists.mp hsome
    obtain ⟨e', -, rfl⟩ := List.mem_map.mp (List.mem_of_find?_eq_some hfind)
    exact ⟨_, by rw [hrow, hnone, Option.none_or, hfind], rfl⟩
  · simp [World.withRows, storedUpTo, Consuming.fresh, insertable]

theorem meets_of_bookkeeping {α : Type} {p : Prog α} (uuid : ℕ → String) (choose : World → Choice)
    (h : p.Makes Bookkeeping) (w : World) : p.Meets (World.handler uuid choose) Backed w :=
  h.meets (fun _ _ w keeps => backed_of_bookkeeping w keeps) w

/-- A delivery that gets to the provider call finds the row there as it was before. -/
theorem meets_processDelivery {R : IDeliveryRepository} (delivers : R.Delivers reads)
    (uuid : ℕ → String) (provider : IProvider) {m : MessageToDeliver}
    (backed : ¬ Found reads s m → ∃ row, s.row? m.messageId = some row ∧
      row.finalDelivered = false) :
    (DeliveryProcessorService.processDelivery R provider m).Meets
      (World.handler uuid choose) Backed s := by
  have keeps := delivers.keeps
  rw [DeliveryProcessorService.processDelivery, meets_tryCatch, DeliveryProcessorService.deliver,
    meets_bind]
  have checks := meets_of_bookkeeping uuid choose
    (DeliveryProcessorService.makes_alreadyDelivered keeps.within m) s
  refine ⟨⟨checks, fun delivered s' hrun => ?_⟩, fun e s' _ => meets_of_bookkeeping uuid choose
    (DeliveryProcessorService.makes_handleFailure keeps.within m _ e) s'⟩
  cases delivered with
  | true => trivial
  | false =>
      obtain ⟨hfound, hdb⟩ := delivers.checks uuid choose m s s' hrun
      rw [if_neg Bool.false_ne_true, meets_bind]
      refine ⟨⟨?_, trivial⟩, fun answer s' _ => meets_of_bookkeeping uuid choose ?_ s'⟩
      · rw [Backed, World.row?, hdb]
        exact backed hfound
      · exact Makes.bind (DeliveryProcessorService.makes_recordSuccess keeps.within m _ answer)
          fun _ => trivial

theorem meets_processMessage {R : IDeliveryRepository} (delivers : R.Delivers reads)
    (uuid : ℕ → String) (backed : ¬ Passes reads (channelOf b.topic) (duplicatesOf w.db es) e s →
      ∃ row, s.row? e.asMessage.messageId = some row ∧ row.finalDelivered = false) :
    (processMessage R (channelOf b.topic) (duplicatesOf w.db es) e).Meets
      (World.handler uuid choose) Backed s := by
  rw [processMessage]
  split
  · trivial
  · next hskip =>
    refine meets_tryCatch.mpr ⟨meets_bind.mpr ⟨trivial, fun provider s' hrun => ?_⟩,
      fun _ _ _ => trivial⟩
    obtain ⟨hprovider, rfl⟩ : ProviderFactory.getProvider (channelOf b.topic) = .ok provider ∧
        s = s' := by simpa using hrun
    refine meets_processDelivery delivers uuid provider fun hfound => backed ?_
    rintro (h | h | h)
    · exact hskip h
    · exact h provider hprovider
    · exact hfound h

/-- The loop sends what has been stored, as long as the notions agree. -/
theorem Progress.run {R : IDeliveryRepository} (delivers : R.Delivers reads) (uuid : ℕ → String)
    (stored : ∀ e ∈ newEvents w.db es, e.WellFormed) (agrees : Agrees reads w b es)
    (progress : Progress choose w es pre s) (split : es = pre ++ rest) :
    (forEach rest (processMessage R (channelOf b.topic) (duplicatesOf w.db es))).Meets
        (World.handler uuid choose) Backed s ∧
      ∃ results s', (forEach rest (processMessage R (channelOf b.topic)
        (duplicatesOf w.db es))).run (World.handler uuid choose) s = (.ok results, s') ∧
        Progress choose w es es s' := by
  induction rest generalizing pre s with
  | nil =>
      rw [List.append_nil] at split
      exact ⟨trivial, [], s, rfl, split ▸ progress⟩
  | cons e rest ih =>
      have agreesAt (new : IsNew w es e) : AgreesAt reads w b es
          (Consuming.fresh (rowsFor w.db (es.map ParsedKafkaMessage.toCheck)) pre) e := by
        refine agrees _ e (Consuming.fresh (rowsFor w.db (es.map ParsedKafkaMessage.toCheck)) rest)
          ?_
        rw [← fresh_cons_of_new new, ← fresh_append, ← split]
        rfl
      obtain ⟨result, s', hrun, reached⟩ := run_processMessage_reached delivers uuid choose
        (channelOf b.topic) (duplicatesOf w.db es) e progress.idle
      have next := progress.step stored split agreesAt reached
      obtain ⟨meets, results, s'', hrest, last⟩ := ih next (by rw [split]; simp)
      refine ⟨?_, result :: results, s'', by simp [forEach, hrun, hrest], last⟩
      refine meets_bind.mpr ⟨meets_processMessage delivers uuid fun hpasses => ?_,
        fun result' s₁ h => ?_⟩
      · refine progress.waiting_of_inserted stored split (not_not.mp fun not_inserted => ?_)
        exact hpasses ((progress.passes_iff stored split agreesAt).mpr not_inserted)
      · rw [hrun] at h
        cases h
        exact meets_bind.mpr ⟨meets, fun _ _ _ => trivial⟩

end Loop

/-! ## The whole batch -/

section Batches

variable {R : IDeliveryRepository} {reads : Bool} {uuid : ℕ → String} {choose : World → Choice}
    {w : World} {b : Batch}
  {es : List ParsedKafkaMessage}

theorem meets_insert (messages : List MessageToCheckIdempotency) (w : World) :
    (insertNewMessagesInProgress messages).Meets (World.handler uuid choose) Backed w := by
  refine Makes.meets (S := fun ev => ∀ w, Backed ev.call w) ?_ (fun _ _ w h => h w) w
  refine makes_insertNewMessagesInProgress (fun c r h w => ?_) fun _ _ _ _ => trivial
  exact backed_of_bookkeeping w (bookkeeping_control r h)

theorem meets_eachBatch_of_prepared (quiescent : w.db.Quiescent) (h : Prepared w.db b es)
    (deliveries : (deliverAll R b es (duplicatesOf w.db es)).Meets
      (World.handler uuid choose) Backed
      (w.withRows ((storedEvents w.db es).map ParsedKafkaMessage.newRow))) :
    (eachBatch R b).Meets (World.handler uuid choose) Backed w := by
  have hcheck := run_check_of_accepted uuid choose w
    (es.map ParsedKafkaMessage.toCheck) fun hne => h.queried (by simpa using hne)
  have hinsert := run_insertNewMessagesInProgress uuid choose quiescent h.stored
  rw [eachBatch, meets_tryCatch, meets_bind]
  refine ⟨⟨trivial, fun es' w' hrun => ?_⟩, fun _ _ _ => trivial⟩
  rw [h.parsed] at hrun
  cases hrun
  rw [processBatch, meets_bind]
  refine ⟨meets_of_bookkeeping uuid choose makes_checkBatchIdempotency w, fun result w' hrun => ?_⟩
  rw [hcheck] at hrun
  cases hrun
  rw [newMessages_of]
  split
  · refine meets_bind.mpr ⟨meets_insert _ w, fun results w' hrun => ?_⟩
    rw [hinsert] at hrun
    cases hrun
    exact deliveries
  · next hempty =>
    have hnil : newEvents w.db es = [] := by simpa [List.length_eq_zero_iff] using hempty
    simp only [storedEvents, hnil, insertable, List.map_nil, World.withRows, List.append_nil]
      at deliveries
    exact deliveries

theorem meets_eachBatch_of_unprepared (quiescent : w.db.Quiescent)
    (h : ∀ es, ¬ Prepared w.db b es) :
    (eachBatch R b).Meets (World.handler uuid choose) Backed w := by
  rw [eachBatch, meets_tryCatch, meets_bind]
  refine ⟨⟨trivial, fun es' w' hrun => ?_⟩, fun _ _ _ => trivial⟩
  obtain ⟨error, hes⟩ | ⟨es, hes, hfails⟩ := unprepared_cases uuid choose quiescent h
  · rw [hes] at hrun
    cases hrun
  · rw [hes] at hrun
    cases hrun
    rw [processBatch, meets_bind]
    refine ⟨meets_of_bookkeeping uuid choose makes_checkBatchIdempotency w,
      fun result w' hrun => ?_⟩
    obtain ⟨error, hcheck⟩ | ⟨hcheck, hne, error, hinsert⟩ := hfails
    · rw [hcheck] at hrun
      cases hrun
    · rw [hcheck] at hrun
      cases hrun
      rw [newMessages_of, if_pos (by simpa [List.length_pos_iff] using hne)]
      refine meets_bind.mpr ⟨meets_insert _ w, fun results w' hrun => ?_⟩
      rw [hinsert] at hrun
      cases hrun

/-- Where the notions agree, a batch is delivered as the insert reports. -/
theorem databaseFirst_of_agrees (delivers : R.Delivers reads) (quiescent : w.db.Quiescent)
    (agrees : ∀ es, Prepared w.db b es → Agrees reads w b es) :
    DatabaseFirst R uuid choose b w := by
  by_cases hprepared : ∃ es, Prepared w.db b es
  · obtain ⟨es, h⟩ := hprepared
    obtain ⟨meets, results, s, hrun, progress⟩ := Progress.run delivers uuid h.stored (agrees es h)
      (progress_start choose quiescent h.stored) (rfl : es = [] ++ es)
    refine ⟨?_, meets_eachBatch_of_prepared quiescent h (meets_bind.mpr ⟨meets, fun _ s _ => ?_⟩)⟩
    · obtain ⟨new, hinbox, hnew⟩ := progress.inbox
      refine ⟨new, ?_, by rw [reportedInProgress_of_prepared quiescent h, hnew]; rfl⟩
      have hresolve := (makes_resolveBatch b.messages results).run_keeps
        (f := World.inbox) (fun _ _ _ keeps => inbox_handler uuid choose keeps) s
      rw [run_eachBatch_of_prepared uuid choose quiescent h, deliverAll, run_bind, hrun,
        andThen_ok, hresolve, hinbox]
    · exact meets_of_bookkeeping uuid choose (makes_resolveBatch b.messages _) s
  · rw [not_exists] at hprepared
    refine ⟨⟨[], ?_, ?_⟩, meets_eachBatch_of_unprepared quiescent hprepared⟩
    · rw [run_eachBatch_of_unprepared uuid choose quiescent hprepared, List.append_nil]
    · rw [reportedInProgress_of_unprepared quiescent hprepared]
      rfl

end Batches

end Worker

end Notification
