import Notification.Aggregator.Preparation

/-!
# The transaction of a batch

With no other transaction open, the new messages of a batch are inserted one after another.
A message that clashes with a row, committed or inserted before it, is skipped; one that the
schema refuses undoes the whole transaction.
-/

namespace Notification

open Interaction Program

/-- No transaction is open. -/
structure Database.Quiescent (db : Database) : Prop where
  pending : db.pending = []
  inTransaction : db.inTransaction = []

theorem Given.text_of_lookup {g : Given} {column : String} {field : Option String}
    (h : g.lookup column = some (Expr.text field)) : g.text column = field.getD "" := by
  rw [Given.text, Given.text?, Given.get, h]
  cases field <;> rfl

/-- The row that a message is stored as. -/
def MessageToCheckIdempotency.newRow (m : MessageToCheckIdempotency) : MessageRow where
  messageId := m.messageId.getD ""
  idempotencyKey := m.idempotencyKey.getD ""
  tenantId := m.tenantId.getD ""
  dedupKey := m.dedupKey.getD ""
  userId := m.userId.getD ""
  channel := m.channel.getD ""
  recipient := m.recipient.getD ""
  body := m.body.getD ""
  status := .inProgress
  finalDelivered := false
  attemptCount := 0
  maxAttempts := 4

/-- The row that a new event is stored as. -/
def ParsedKafkaMessage.newRow (e : ParsedKafkaMessage) : MessageRow where
  messageId := e.messageId.getD ""
  idempotencyKey := e.effectiveKey.getD ""
  tenantId := e.tenantId.getD ""
  dedupKey := e.dedupKey.getD ""
  userId := e.userId.getD ""
  channel := e.channel.getD ""
  recipient := e.recipient.getD ""
  body := e.body.getD ""
  status := .inProgress
  finalDelivered := false
  attemptCount := 0
  maxAttempts := 4

/-- In the middle of the transaction, when these rows have been inserted. -/
def World.inserting (w : World) (rows : List MessageRow) : World :=
  { w with db := { w.db with pending := rows.map fun r => (0, r), inTransaction := [0] } }

/-- The committed rows and some more. -/
def World.withRows (w : World) (rows : List MessageRow) : World :=
  { w with db := { w.db with messages := w.db.messages ++ rows } }

/-- An `INSERT` into `messages` that the schema accepts. -/
theorem Database.execute_insert (db : Database) (conn : ℕ) {columns : List String}
    {values : List Expr} (accepted : (Statement.insert .messages columns values).check = none) :
    db.execute conn (.insert .messages columns values) =
      db.insertMessage conn (insertedRow columns values) := by
  simp only [Database.execute, accepted]
  rfl

namespace Connection

variable (uuid : ℕ → String) (choose : World → Choice) (w : World)

theorem run_execute_insert {columns : List String} {values : List Expr}
    (accepted : (Statement.insert .messages columns values).check = none) :
    (execute (.insert .messages columns values)).run (World.handler uuid choose) w =
      match w.db.insertMessage 0 (insertedRow columns values) with
      | some (r, db) => (r, { w with db := db })
      | none => (.error SqlError.lockWaitTimeout, w) := by
  simp only [execute, run_perform, World.handler, World.answer, Database.answer,
    Database.execute_insert _ _ accepted]
  cases w.db.insertMessage 0 (insertedRow columns values) <;> rfl

end Connection

namespace BatchIdempotencyService

theorem insertMessage_eq (m : MessageToCheckIdempotency) : ∃ columns values,
    insertMessage m = .insert .messages columns values ∧
    insertedRow columns values = m.newRow := by
  refine ⟨_, _, rfl, ?_⟩
  rw [insertedRow, MessageRow.ofGiven, MessageToCheckIdempotency.newRow, MessageRow.mk.injEq]
  refine ⟨?_, ?_, ?_, ?_, ?_, ?_, ?_, ?_, rfl, rfl, rfl, rfl⟩ <;> exact Given.text_of_lookup rfl

theorem insertMessage_newRow (e : ParsedKafkaMessage) : ∃ columns values,
    insertMessage e.toCheck = .insert .messages columns values ∧
    insertedRow columns values = e.newRow := insertMessage_eq e.toCheck

theorem newRow_ident {e : ParsedKafkaMessage} (h : e.WellFormed) :
    e.newRow.ident = e.asMessage.ident := by
  obtain ⟨columns, values, hinsert, hrow⟩ := insertMessage_newRow e
  obtain ⟨columns', values', hinsert', hident, -⟩ := Consuming.ident_of_wellFormed h
  obtain ⟨-, rfl, rfl⟩ := Statement.insert.inj (hinsert.symm.trans hinsert')
  rw [← hrow, hident]

theorem newRow_messageId {e : ParsedKafkaMessage} (h : e.WellFormed) :
    e.newRow.messageId = e.asMessage.messageId := congrArg Prod.fst (newRow_ident h)

/-- The events whose rows get past the unique keys, one after another. -/
def insertable (rows : List MessageRow) : List ParsedKafkaMessage → List ParsedKafkaMessage
  | [] => []
  | e :: rest =>
    if rows.any e.newRow.clashes then insertable rows rest
    else e :: insertable (rows ++ [e.newRow]) rest

/-- What is reported for the events, in order. -/
def insertResults (rows : List MessageRow) : List ParsedKafkaMessage → List InsertResult
  | [] => []
  | e :: rest =>
    if rows.any e.newRow.clashes then
      { messageId := e.messageId, status := .skippedDup } :: insertResults rows rest
    else
      { messageId := e.messageId, status := .inProgress } ::
        insertResults (rows ++ [e.newRow]) rest

theorem insertable_append (rows : List MessageRow) (es es' : List ParsedKafkaMessage) :
    insertable rows (es ++ es') = insertable rows es ++
      insertable (rows ++ (insertable rows es).map ParsedKafkaMessage.newRow) es' := by
  induction es generalizing rows with
  | nil => simp [insertable]
  | cons e rest ih =>
      rw [List.cons_append, insertable, insertable]
      split
      · exact ih rows
      · rw [ih]
        simp

/-- An event that is inserted clashes with no row that was there before. -/
theorem mem_of_insertable {rows : List MessageRow} {es : List ParsedKafkaMessage}
    {e : ParsedKafkaMessage} (h : e ∈ insertable rows es) :
    e ∈ es ∧ ∀ r ∈ rows, e.newRow.clashes r = false := by
  induction es generalizing rows with
  | nil => cases h
  | cons e' rest ih =>
      rw [insertable] at h
      split at h
      · obtain ⟨member, free⟩ := ih h
        exact ⟨List.mem_cons_of_mem _ member, free⟩
      · next hfree =>
        obtain rfl | h := List.mem_cons.mp h
        · exact ⟨List.mem_cons_self, by simpa using hfree⟩
        · obtain ⟨member, free⟩ := ih h
          exact ⟨List.mem_cons_of_mem _ member, fun r hr => free r (List.mem_append_left _ hr)⟩

/-- What is inserted is what is reported as `IN_PROGRESS`. -/
theorem inProgress_insertResults (rows : List MessageRow) (es : List ParsedKafkaMessage) :
    ((es.zip (insertResults rows es)).filter fun p => p.2.status == .inProgress).map Prod.fst =
      insertable rows es := by
  induction es generalizing rows with
  | nil => rfl
  | cons e rest ih =>
      rw [insertResults, insertable]
      split
      · simpa using ih rows
      · simpa using ih (rows ++ [e.newRow])

section Run

variable (uuid : ℕ → String) (choose : World → Choice) {w : World} {e : ParsedKafkaMessage}
  {es : List ParsedKafkaMessage} (rows : List MessageRow)

/-- One `INSERT` of the transaction. -/
theorem run_insertOne (wellFormed : e.WellFormed) :
    (insertOne e.toCheck).run (World.handler uuid choose) (w.inserting rows) =
      if (w.db.messages ++ rows).any e.newRow.clashes then
        (.ok { messageId := e.messageId, status := .skippedDup }, w.inserting rows)
      else (.ok { messageId := e.messageId, status := .inProgress },
        w.inserting (rows ++ [e.newRow])) := by
  obtain ⟨columns, values, hinsert, hrow⟩ := insertMessage_newRow e
  have accepted : (Statement.insert .messages columns values).check = none := hinsert ▸ wellFormed
  have hrun := Connection.run_execute_insert uuid choose (w.inserting rows) accepted
  have hvisible : (w.inserting rows).db.visible 0 = w.db.messages ++ rows := by
    simp [World.inserting, Database.visible, List.filter_map, Function.comp_def]
  rw [hrow, Database.insertMessage, hvisible] at hrun
  rw [insertOne, hinsert, run_tryCatch, run_bind]
  by_cases hclash : (w.db.messages ++ rows).any e.newRow.clashes = true
  · rw [if_pos hclash] at hrun ⊢
    rw [hrun]
    rfl
  · have hpending : ((w.inserting rows).db.pending.any fun p => e.newRow.clashes p.2) = false := by
      rw [List.any_append, Bool.or_eq_true, not_or, Bool.not_eq_true, Bool.not_eq_true] at hclash
      rw [World.inserting, List.any_map]
      exact hclash.2
    rw [if_neg hclash, hpending] at hrun
    rw [if_neg hclash, hrun]
    simp [World.inserting, ParsedKafkaMessage.toCheck]

theorem run_insertOne_refused (refused : ¬ e.WellFormed) (w : World) :
    ∃ error, (insertOne e.toCheck).run (World.handler uuid choose) w = (.error error, w) := by
  obtain ⟨error, hcheck⟩ := Option.ne_none_iff_exists'.mp refused
  have hcode : error.code ≠ some "ER_DUP_ENTRY" := Statement.check_code hcheck
  exact ⟨error, by
    simp [insertOne, Connection.run_execute_refused uuid choose w hcheck, hcode]⟩

/-- All rows of the transaction. -/
theorem run_insertRows (wellFormed : ∀ e ∈ es, e.WellFormed) :
    (forEach (es.map ParsedKafkaMessage.toCheck) insertOne).run (World.handler uuid choose)
        (w.inserting rows) =
      (.ok (insertResults (w.db.messages ++ rows) es),
        w.inserting (rows ++ (insertable (w.db.messages ++ rows) es).map
          ParsedKafkaMessage.newRow)) := by
  induction es generalizing rows with
  | nil => simp [forEach, insertResults, insertable]
  | cons e rest ih =>
      have hrest : ∀ e ∈ rest, e.WellFormed :=
        fun e' he' => wellFormed e' (List.mem_cons_of_mem _ he')
      have hone := run_insertOne uuid choose rows (w := w) (wellFormed e List.mem_cons_self)
      rw [List.map_cons, forEach, run_bind, hone, insertResults, insertable]
      split
      · rw [andThen_ok, run_bind, ih rows hrest]
        rfl
      · rw [andThen_ok, run_bind, ih (rows ++ [e.newRow]) hrest]
        simp

/-- If the schema refuses one of the rows, the loop ends there. -/
theorem run_insertRows_refused (refused : ¬ ∀ e ∈ es, e.WellFormed) :
    ∃ error rows', (forEach (es.map ParsedKafkaMessage.toCheck) insertOne).run
      (World.handler uuid choose) (w.inserting rows) = (.error error, w.inserting rows') := by
  induction es generalizing rows with
  | nil => exact absurd (fun e he => absurd he List.not_mem_nil) refused
  | cons e rest ih =>
      rw [List.map_cons, forEach, run_bind]
      by_cases hwell : e.WellFormed
      · have hrest : ¬ ∀ e ∈ rest, e.WellFormed := fun h => refused fun e' he' => by
          obtain rfl | he' := List.mem_cons.mp he'
          · exact hwell
          · exact h e' he'
        rw [run_insertOne uuid choose rows hwell]
        split
        · obtain ⟨error, rows', hrun⟩ := ih rows hrest
          exact ⟨error, rows', by rw [andThen_ok, run_bind, hrun]; rfl⟩
        · obtain ⟨error, rows', hrun⟩ := ih (rows ++ [e.newRow]) hrest
          exact ⟨error, rows', by rw [andThen_ok, run_bind, hrun]; rfl⟩
      · obtain ⟨error, hrun⟩ := run_insertOne_refused uuid choose hwell (w.inserting rows)
        exact ⟨error, rows, by rw [hrun]; rfl⟩

theorem begin_inserting (quiescent : w.db.Quiescent) :
    { w with db := { w.db with inTransaction := 0 :: w.db.inTransaction } } = w.inserting [] := by
  rw [World.inserting, quiescent.inTransaction, List.map_nil, ← quiescent.pending]

theorem commit_inserting (quiescent : w.db.Quiescent) :
    { w.inserting rows with db := (w.inserting rows).db.commit 0 } = w.withRows rows := by
  have hpending := quiescent.pending
  have hopen := quiescent.inTransaction
  simp [World.inserting, World.withRows, Database.commit, Database.rollback, List.filter_map,
    Function.comp_def, hpending, hopen]

theorem rollback_inserting (quiescent : w.db.Quiescent) :
    { w.inserting rows with db := (w.inserting rows).db.rollback 0 } = w := by
  obtain ⟨⟨messages, pending, inTransaction, attempts, dlq⟩, redis, log, inbox, uuids,
    resolved⟩ := w
  obtain ⟨rfl, rfl⟩ : pending = [] ∧ inTransaction = [] := ⟨quiescent.1, quiescent.2⟩
  simp [World.inserting, Database.rollback, List.filter_map, Function.comp_def]

/-- The whole transaction. -/
theorem run_insertNewMessagesInProgress (quiescent : w.db.Quiescent)
    (wellFormed : ∀ e ∈ es, e.WellFormed) :
    (insertNewMessagesInProgress (es.map ParsedKafkaMessage.toCheck)).run
        (World.handler uuid choose) w =
      (.ok (insertResults w.db.messages es),
        w.withRows ((insertable w.db.messages es).map ParsedKafkaMessage.newRow)) := by
  rw [insertNewMessagesInProgress]
  split
  · next hempty =>
      obtain rfl : es = [] := by simpa using hempty
      simp [World.withRows, insertable, insertResults]
  · have hrows := run_insertRows uuid choose [] (w := w) wellFormed
    simp only [List.append_nil, List.nil_append] at hrows
    simp only [withConnection, insertAll, run_bind, Connection.run_getConnection, andThen_ok,
      run_andFinally, run_tryCatch, Connection.run_beginTransaction, begin_inserting quiescent,
      hrows, Connection.run_commit, commit_inserting _ quiescent, run_pure, orElse_ok,
      Connection.run_release]

theorem run_insertNewMessagesInProgress_refused (quiescent : w.db.Quiescent)
    (refused : ¬ ∀ e ∈ es, e.WellFormed) :
    ∃ error, (insertNewMessagesInProgress (es.map ParsedKafkaMessage.toCheck)).run
      (World.handler uuid choose) w = (.error error, w) := by
  have hlen : ¬ (es.map ParsedKafkaMessage.toCheck).length = 0 := by
    rintro hempty
    obtain rfl : es = [] := by simpa using hempty
    exact refused fun e he => absurd he List.not_mem_nil
  obtain ⟨error, rows', hrows⟩ := run_insertRows_refused uuid choose [] (w := w) refused
  refine ⟨error, ?_⟩
  rw [insertNewMessagesInProgress, if_neg hlen]
  simp only [withConnection, insertAll, run_bind, Connection.run_getConnection, andThen_ok,
    run_andFinally, run_tryCatch, Connection.run_beginTransaction, begin_inserting quiescent,
    hrows, andThen_error, orElse_error, Connection.run_rollback, rollback_inserting _ quiescent,
    run_throw, Connection.run_release]

end Run

end BatchIdempotencyService

end Notification
