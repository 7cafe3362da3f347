import Notification.Aggregator.Consumption
import Notification.Aggregator.Partition

/-!
# The duplicate check and the insert

`checkBatchIdempotency` and `insertNewMessagesInProgress` come before the deliveries of a
batch. When they are done, the rows of all new messages are there, unless an event of the
batch is not well-formed; then they may throw, and the batch ends.
-/

namespace Notification

open Interaction Program

namespace Consuming

/-- An event that neither ends the preparation nor changes what is known of old rows. -/
def isPlain (ev : CallEvent) : Bool :=
  !isSelect ev && !isCommit ev && !isRollback ev && !isDelivery ev

theorem answeredRows_of_not_isSelect {ev : CallEvent} (h : isSelect ev = false) :
    answeredRows ev = [] := by
  unfold isSelect at h
  unfold answeredRows
  split
  · cases h
  · rfl

/-- Before the `COMMIT` of a batch: `rows` is what the check has found, and the rows of
`ms` have been inserted so far. -/
structure Prepares (b : Batch) (rows : List MessageRow) (ms : List MessageToDeliver)
    (t : Trace Reply JsError) : Prop where
  always : Always (MayConsume b) t
  kept : t.any isRollback = false
  quiet : t.any isDelivery = false
  uncommitted : t.any isCommit = false
  selected : entries b ≠ [] → t.any isSelect = true
  answered : ∀ r, (∃ ev ∈ t, r ∈ answeredRows ev) ↔ r ∈ rows
  inserted : ∀ m ∈ ms, t.any (inserts m.ident) = true ∧
    ∃ e ∈ entries b, e.WellFormed ∧ e.asMessage = m ∧ ∀ r ∈ rows, r.key ≠ e.toCheck.key

section Preparation

variable {b : Batch} {rows : List MessageRow} {ms : List MessageToDeliver} {ev : CallEvent}
  {t : Trace Reply JsError}

theorem Prepares.cons (h : Prepares b rows ms t) (may : MayConsume b ev t)
    (plain : isPlain ev = true) : Prepares b rows ms (ev :: t) := by
  simp only [isPlain, Bool.and_eq_true, Bool.not_eq_true'] at plain
  obtain ⟨⟨⟨select, commit⟩, rollback⟩, delivery⟩ := plain
  refine ⟨⟨may, h.always⟩, ?_, ?_, ?_, fun hne => ?_, fun r => ?_, fun m member => ?_⟩
  · simp [rollback, h.kept]
  · simp [delivery, h.quiet]
  · simp [commit, h.uncommitted]
  · simp [h.selected hne]
  · rw [← h.answered r]
    simp [answeredRows_of_not_isSelect select]
  · exact ⟨by simp [(h.inserted m member).1], (h.inserted m member).2⟩

/-- One more event of the preparation. -/
theorem Prepares.and {Q : Prop} (h : Prepares b rows ms t) (next : Prepares b rows ms t → Q) :
    Always (MayConsume b) t ∧ Q := ⟨h.always, next h⟩

/-- After the `COMMIT` the deliveries can begin. -/
theorem Prepares.ready (h : Prepares b rows ms t) {m : MessageToDeliver} (member : m ∈ ms)
    {r : Except JsError Unit} : Ready b m (⟨.sql .commit, r⟩ :: t) := by
  obtain ⟨hinserts, e, entry, wellFormed, hm, unmatched⟩ := h.inserted m member
  refine ⟨⟨e, entry, wellFormed, hm, fun ev hev r hr => ?_⟩, by simp [hinserts], rfl, by
    simp [isRollback, h.kept]⟩
  obtain rfl | hev := List.mem_cons.mp hev
  · cases hr
  · exact unmatched r ((h.answered r).mp ⟨ev, hev, hr⟩)

theorem keyed_of_wellFormed {e : ParsedKafkaMessage} (h : e.WellFormed) : e.toCheck.Keyed := by
  obtain ⟨-, -, -, -, -, htenant, hidem⟩ := ident_of_wellFormed h
  exact ⟨by rw [show e.toCheck.tenantId = e.tenantId from rfl, htenant]; rfl,
    by rw [show e.toCheck.idempotencyKey = e.effectiveKey from rfl, hidem]; rfl⟩

/-- The `SELECT` of the check is not refused if no event lacks its pair. -/
theorem bulkSelect_check (wellFormed : ∀ e ∈ entries b, e.WellFormed) :
    (bulkSelect b).check = none := by
  apply BatchIdempotencyService.selectExisting_check
  intro m hm
  obtain ⟨e, he, rfl⟩ := List.mem_map.mp hm
  exact keyed_of_wellFormed (wellFormed e he)

/-! ## The check -/

/-- A part of the preparation on a connection of its own. -/
theorem wp_withConnection {α : Type} {body : Prog α} {post : α → Trace Reply JsError → Prop}
    {onError : JsError → Trace Reply JsError → Prop} (always : Always (MayConsume b) t)
    (hbody : body.wp (recording Tolerable) (Always (MayConsume b))
      (either (fun a t' => Always (MayConsume b) t' ∧ post a (⟨.sql .release, .ok ()⟩ :: t'))
        fun e t' => Always (MayConsume b) t' ∧ onError e (⟨.sql .release, .ok ()⟩ :: t'))
      (⟨.sql .getConnection, .ok ()⟩ :: t)) :
    (withConnection body).wp (recording Tolerable) (Always (MayConsume b)) (either post onError)
      t := by
  rw [withConnection, wp_bind, Connection.wp_getConnection]
  intro r hr
  obtain ⟨_, rfl⟩ := exists_of_isOk hr
  refine ⟨⟨trivial, always⟩, ?_⟩
  rw [either_ok, wp_andFinally]
  apply mono_post hbody
  intro o t' h'
  rw [Connection.wp_release]
  intro r hr
  obtain ⟨_, rfl⟩ := exists_of_isOk hr
  cases o with
  | ok a => exact ⟨⟨trivial, h'.1⟩, h'.2⟩
  | error e => exact ⟨⟨trivial, h'.1⟩, h'.2⟩

/-- What the check of a batch finds out. -/
theorem wp_checkBatchIdempotency :
    (BatchIdempotencyService.checkBatchIdempotency
        ((entries b).map ParsedKafkaMessage.toCheck)).wp (recording Tolerable)
      (Always (MayConsume b))
      (either (fun result t' => ∃ rows, Prepares b rows [] t' ∧ result =
          BatchIdempotencyService.partitionBatch rows ((entries b).map ParsedKafkaMessage.toCheck))
        fun _ _ => ¬ ∀ e ∈ entries b, e.WellFormed) [] := by
  rw [BatchIdempotencyService.checkBatchIdempotency, wp_ite]
  refine ⟨fun hempty => ⟨[], ?_, ?_⟩, fun hne => ?_⟩
  · have hnil : entries b = [] := by simpa using hempty
    exact ⟨trivial, rfl, rfl, rfl, fun hne => absurd hnil hne, fun r => by simp, fun m hm =>
      absurd hm List.not_mem_nil⟩
  · rw [List.length_eq_zero_iff.mp hempty]
    rfl
  · have hne : entries b ≠ [] := by simpa using hne
    refine wp_withConnection trivial ?_
    rw [wp_bind, BatchIdempotencyService.queryExistingMessages]
    have hkeys := BatchIdempotencyService.extractUnique_ne_nil
      (show (entries b).map ParsedKafkaMessage.toCheck ≠ [] by simpa using hne)
    refine wp_ite.mpr ⟨fun hzero => absurd (List.length_eq_zero_iff.mp hzero) hkeys, fun _ => ?_⟩
    apply Connection.wp_execute.mpr
    intro r hr
    have always : Always (MayConsume b)
        [⟨.sql (.execute (bulkSelect b)), r⟩, ⟨.sql .getConnection, .ok ()⟩] :=
      ⟨⟨rfl, rfl⟩, trivial, trivial⟩
    refine ⟨always, ?_⟩
    cases r with
    | error e =>
        refine ⟨always, fun wellFormed => ?_⟩
        have hcheck : ((bulkSelect b).check.isSome || false) = true := hr
        rw [bulkSelect_check wellFormed] at hcheck
        cases hcheck
    | ok rows =>
        refine ⟨always, rows, ⟨⟨trivial, always⟩, rfl, rfl, rfl, fun _ => rfl, fun r => ?_,
          fun m hm => absurd hm List.not_mem_nil⟩, rfl⟩
        simp [answeredRows, BatchIdempotencyService.selectExisting]

/-! ## The insert -/

/-- The new messages of a batch. -/
def fresh (rows : List MessageRow) (parsedMessages : List ParsedKafkaMessage) :
    List ParsedKafkaMessage :=
  parsedMessages.filter fun e => (BatchIdempotencyService.existingFor rows e.toCheck.key).isNone

theorem newMessages_eq {parsedMessages : List ParsedKafkaMessage} :
    (BatchIdempotencyService.partitionBatch rows
      (parsedMessages.map ParsedKafkaMessage.toCheck)).newMessages =
    (fresh rows parsedMessages).map ParsedKafkaMessage.toCheck := by
  rw [BatchIdempotencyService.partitionBatch_eq, List.filter_map]
  rfl

theorem mem_fresh {parsedMessages : List ParsedKafkaMessage} {e : ParsedKafkaMessage} :
    e ∈ fresh rows parsedMessages ↔ e ∈ parsedMessages ∧ ∀ r ∈ rows, r.key ≠ e.toCheck.key := by
  rw [fresh, List.mem_filter, Option.isNone_iff_eq_none,
    BatchIdempotencyService.existingFor_eq_none]

theorem inserts_of_wellFormed {e : ParsedKafkaMessage} (h : e.WellFormed) {r : Except JsError Unit}
    (hr : accepted r = true) : inserts e.asMessage.ident
      ⟨.sql (.execute (BatchIdempotencyService.insertMessage e.toCheck)), r⟩ = true := by
  obtain ⟨columns, values, heq, hident, -⟩ := ident_of_wellFormed h
  unfold BatchIdempotencyService.insertMessage at heq
  cases heq
  simpa [inserts, BatchIdempotencyService.insertMessage, hr] using hident

/-- One `INSERT`: afterwards the row is there, unless the event is not well-formed. -/
theorem wp_insertOne (h : Prepares b rows ms t) {e : ParsedKafkaMessage}
    (isFresh : e ∈ fresh rows (entries b)) :
    (BatchIdempotencyService.insertOne e.toCheck).wp (recording Tolerable) (Always (MayConsume b))
      (either (fun _ t' => Prepares b rows (ms ++ [e.asMessage]) t') fun _ t' =>
        Prepares b rows ms t' ∧ ¬ e.WellFormed) t := by
  obtain ⟨entry, unmatched⟩ := mem_fresh.mp isFresh
  rw [BatchIdempotencyService.insertOne, wp_tryCatch, wp_bind]
  apply Connection.wp_execute.mpr
  intro r hr
  have haccepted : accepted (α := Unit) r =
      (BatchIdempotencyService.insertMessage e.toCheck).check.isNone := beq_iff_eq.mp hr
  have may : MayConsume b
      ⟨.sql (.execute (BatchIdempotencyService.insertMessage e.toCheck)), r⟩ t :=
    ⟨⟨e, entry, fun ev hev r hr => unmatched r ((h.answered r).mp ⟨ev, hev, hr⟩), rfl⟩,
      h.selected (List.ne_nil_of_mem entry), h.uncommitted, h.quiet⟩
  have hcons := h.cons may rfl
  apply Prepares.and hcons
  intro _
  have inserted (hcheck : accepted (α := Unit) r = true) : Prepares b rows (ms ++ [e.asMessage])
      (⟨.sql (.execute (BatchIdempotencyService.insertMessage e.toCheck)), r⟩ :: t) := by
    have hwell : e.WellFormed := Option.isNone_iff_eq_none.mp (haccepted.symm.trans hcheck)
    refine { hcons with inserted := fun m member => ?_ }
    cases List.mem_append.mp member with
    | inl member => exact hcons.inserted m member
    | inr member =>
        rw [List.mem_singleton.mp member]
        refine ⟨?_, e, entry, hwell, rfl, unmatched⟩
        rw [List.any_cons, inserts_of_wellFormed hwell hcheck, Bool.true_or]
  cases r with
  | ok _ => exact inserted rfl
  | error error =>
      rw [either_error, either_error, wp_ite]
      refine ⟨fun hcode => inserted (by simp [accepted, hcode]), fun hcode =>
        ⟨hcons, fun hwell => ?_⟩⟩
      rw [show (BatchIdempotencyService.insertMessage e.toCheck).check = none from hwell]
        at haccepted
      exact hcode (by simpa [accepted] using haccepted)

/-- All rows of a batch, one after another. -/
theorem wp_insertRows (h : Prepares b rows [] t) {new : List ParsedKafkaMessage}
    (isFresh : ∀ e ∈ new, e ∈ fresh rows (entries b)) :
    (forEach (new.map ParsedKafkaMessage.toCheck) BatchIdempotencyService.insertOne).wp
      (recording Tolerable) (Always (MayConsume b))
      (either (fun _ => Prepares b rows (new.map ParsedKafkaMessage.asMessage)) fun _ t' =>
        (∃ ms, Prepares b rows ms t') ∧ ¬ ∀ e ∈ new, e.WellFormed) t := by
  refine wp_forEach (fun rest _ t => ∃ before after, new = before ++ after ∧
    rest = after.map ParsedKafkaMessage.toCheck ∧
    Prepares b rows (before.map ParsedKafkaMessage.asMessage) t) ?_ ?_ ⟨[], new, rfl, rfl, h⟩
  · rintro _ rest done t ⟨before, after, hnew, hrest, h⟩
    cases after with
    | nil => cases hrest
    | cons e after =>
        obtain ⟨rfl, rfl⟩ := List.cons.inj hrest
        have member : e ∈ new := by simp [hnew]
        apply mono_post (wp_insertOne h (isFresh e member))
        intro o t' h'
        cases o with
        | ok result => exact ⟨before ++ [e], after, by simp [hnew], rfl, by simpa using h'⟩
        | error error => exact ⟨⟨_, h'.1⟩, fun all => h'.2 (all e member)⟩
  · rintro done t ⟨before, after, hnew, hrest, h⟩
    obtain rfl := List.map_eq_nil_iff.mp hrest.symm
    rw [either_ok, hnew, List.append_nil]
    exact h

/-- The deliveries of a batch can go on: the check has found `rows`, and the rows of the
other events are there. -/
structure Delivers (b : Batch) (rows : List MessageRow) (t : Trace Reply JsError) : Prop where
  always : Always (MayConsume b) t
  found : ∀ r ∈ rows, ∃ ev ∈ t, r ∈ answeredRows ev
  ready : ∀ e ∈ fresh rows (entries b), Ready b e.asMessage t

/-- The whole transaction. -/
theorem wp_insertNewMessagesInProgress (h : Prepares b rows [] t) :
    (BatchIdempotencyService.insertNewMessagesInProgress
        ((fresh rows (entries b)).map ParsedKafkaMessage.toCheck)).wp
      (recording Tolerable) (Always (MayConsume b))
      (either (fun _ => Delivers b rows) fun _ _ => ¬ ∀ e ∈ entries b, e.WellFormed) t := by
  rw [BatchIdempotencyService.insertNewMessagesInProgress, wp_ite]
  refine ⟨fun hempty => ?_, fun _ => wp_withConnection h.always ?_⟩
  · have hnil : fresh rows (entries b) = [] := by simpa using hempty
    exact ⟨h.always, fun r hr => (h.answered r).mpr hr, by simp [hnil]⟩
  · have h : Prepares b rows [] (⟨.sql .getConnection, .ok ()⟩ :: t) := h.cons trivial rfl
    rw [wp_tryCatch, BatchIdempotencyService.insertAll, wp_bind, Connection.wp_beginTransaction]
    intro r hr
    obtain ⟨_, rfl⟩ := exists_of_isOk hr
    refine Prepares.and (h.cons trivial rfl) fun h => ?_
    rw [either_ok, wp_bind]
    apply mono_post (wp_insertRows h fun e he => he)
    intro o t h
    cases o with
    | ok results =>
        rw [either_ok, wp_bind, Connection.wp_commit]
        intro r hr
        obtain ⟨_, rfl⟩ := exists_of_isOk hr
        have always : Always (MayConsume b) (⟨.sql .commit, .ok ()⟩ :: t) := ⟨trivial, h.always⟩
        refine ⟨always, always, ⟨⟨trivial, always⟩, fun r hr => ?_, fun e he => ?_⟩⟩
        · obtain ⟨ev, hev, hr⟩ := (h.answered r).mpr hr
          exact ⟨ev, List.mem_cons_of_mem _ (List.mem_cons_of_mem _ hev), hr⟩
        · exact (h.ready (List.mem_map_of_mem he)).cons rfl rfl
    | error error =>
        obtain ⟨⟨ms, h⟩, hnot⟩ := h
        rw [either_error, either_error, wp_bind, Connection.wp_rollback]
        intro r hr
        obtain ⟨_, rfl⟩ := exists_of_isOk hr
        have always : Always (MayConsume b) (⟨.sql .rollback, .ok ()⟩ :: t) := ⟨h.quiet, h.always⟩
        exact ⟨always, always, fun wellFormed => hnot fun e he =>
          wellFormed e (mem_fresh.mp he).1⟩

end Preparation

end Consuming

end Notification
