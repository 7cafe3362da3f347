import Notification.Aggregator.Insertion

/-!
# The bulk insert is atomic

`insertNewMessagesInProgress` on a connection of its own, while every other call to the
database may fail: it either stores the rows of all messages it reports as inserted, or
throws the failure and leaves the database as it was. A rollback is assumed to work.
-/

namespace Notification

open Interaction Program

/-- The three unique keys of `messages` hold. -/
def UniqueKeys (rows : List MessageRow) : Prop := rows.Pairwise fun r r' => r.clashes r' = false

theorem UniqueKeys.append {rows : List MessageRow} {row : MessageRow} (h : UniqueKeys rows)
    (free : rows.any row.clashes = false) : UniqueKeys (rows ++ [row]) := by
  refine List.pairwise_append.mpr ⟨h, List.pairwise_singleton _ _, fun r hr r' hr' => ?_⟩
  rw [List.mem_singleton.mp hr', MessageRow.clashes_comm]
  exact Bool.eq_false_iff.mpr fun hclash =>
    Bool.eq_false_iff.mp free (List.any_eq_true.mpr ⟨r, hr, hclash⟩)

/-- A database call may fail with another error than a duplicate key, and then has had no
effect. `rollback` does not fail. -/
def World.refusing (uuid : ℕ → String) (pid : ℕ) : Env Reply JsError World :=
  fun w ev w' => w.up uuid pid ev w' ∨
    (external ev.call = true ∧ ev.call ≠ .sql .rollback ∧ w' = w ∧
      ∃ e, ev.answer = .error e ∧ e.code ≠ some "ER_DUP_ENTRY")

/-- The call has thrown an error that is not skipped. -/
def Throws (e : JsError) (ev : CallEvent) : Prop :=
  ev.answer = .error e ∧ e.code ≠ some "ER_DUP_ENTRY"

theorem World.refusing_sql {uuid : ℕ → String} {pid : ℕ} {w w' : World} {c : SqlCall}
    {r : Except JsError c.Reply} (h : w.refusing uuid pid ⟨.sql c, r⟩ w') :
    (∃ db, w.db.answer pid c = some (r, db) ∧ w' = { w with db := db }) ∨
      (w' = w ∧ c ≠ .rollback ∧ c ≠ .release ∧ ∃ e, r = .error e ∧ Throws e ⟨.sql c, r⟩) := by
  obtain h | ⟨hexternal, hrollback, rfl, e, he, hcode⟩ := h
  · exact .inl (World.up_sql h)
  · refine .inr ⟨rfl, fun hc => hrollback (congrArg Call.sql hc), fun hc => ?_, e, he, he, hcode⟩
    subst hc
    cases hexternal

/-- Sequential runs are among those of this environment. -/
theorem World.refusing_handler (uuid : ℕ → String) (choose : World → Choice) (c : Call)
    (w : World) :
    w.refusing uuid 0 ⟨c, (handler uuid choose c w).1⟩ (handler uuid choose c w).2 := by
  unfold handler
  cases h : w.answer uuid 0 (choose w) c with
  | some out => exact .inl ⟨choose w, h⟩
  | none =>
      obtain ⟨hexternal, hrollback⟩ := external_of_waits h
      exact .inr ⟨hexternal, hrollback, rfl, _, rfl, by decide⟩

namespace Database

/-- Connection `conn` has no transaction open. -/
structure Idle (db : Database) (conn : ℕ) : Prop where
  pending : ∀ p ∈ db.pending, p.1 ≠ conn
  inTransaction : conn ∉ db.inTransaction

/-- In a transaction of `conn` that has inserted `rows`. -/
def during (db : Database) (conn : ℕ) (rows : List MessageRow) : Database :=
  { db with
    pending := db.pending ++ rows.map fun r => (conn, r)
    inTransaction := conn :: db.inTransaction }

section Transaction

variable {db db' : Database} {conn : ℕ} {rows : List MessageRow}

theorem during_visible (idle : db.Idle conn) :
    (db.during conn rows).visible conn = db.messages ++ rows := by
  have hothers : (db.pending.filter fun p => p.1 == conn) = [] :=
    List.filter_eq_nil_iff.mpr fun p hp => by simpa using idle.pending p hp
  simp [visible, during, List.filter_append, hothers, List.filter_map, Function.comp_def]

/-- What is filtered out when the transaction ends was not there before it. -/
theorem Idle.filter (idle : db.Idle conn) :
    (db.pending.filter fun p => p.1 != conn) = db.pending ∧
      db.inTransaction.filter (· != conn) = db.inTransaction := by
  refine ⟨List.filter_eq_self.mpr fun p hp => by simpa using idle.pending p hp,
    List.filter_eq_self.mpr fun p hp => ?_⟩
  simpa using fun heq : p = conn => idle.inTransaction (heq ▸ hp)

theorem Idle.rollback (idle : db.Idle conn) : db.rollback conn = db := by
  rw [Database.rollback, idle.filter.1, idle.filter.2]

theorem during_commit (idle : db.Idle conn) :
    (db.during conn rows).commit conn = { db with messages := db.messages ++ rows } := by
  obtain ⟨hothers, hopen⟩ := idle.filter
  have hnone : (db.pending.filter fun p => p.1 == conn) = [] :=
    List.filter_eq_nil_iff.mpr fun p hp => by simpa using idle.pending p hp
  simp [commit, rollback, during, List.filter_append, List.filter_map, Function.comp_def, hothers,
    hnone, hopen]

theorem during_rollback (idle : db.Idle conn) : (db.during conn rows).rollback conn = db := by
  obtain ⟨hothers, hopen⟩ := idle.filter
  simp [rollback, during, List.filter_append, List.filter_map, Function.comp_def, hothers, hopen]

/-- What an `INSERT` of the transaction can do. -/
theorem during_insert {row : MessageRow} {r : Except JsError Unit} (idle : db.Idle conn)
    (h : (db.during conn rows).insertMessage conn row = some (r, db')) :
    ((db.messages ++ rows).any row.clashes = true ∧ r = .error SqlError.dupEntry ∧
        db' = db.during conn rows) ∨
      ((db.messages ++ rows).any row.clashes = false ∧ r = .ok () ∧
        db' = db.during conn (rows ++ [row])) := by
  rw [insertMessage, during_visible idle] at h
  split at h
  · next hclash =>
      cases h
      exact .inl ⟨hclash, rfl, rfl⟩
  · next hfree =>
      split at h
      · cases h
      · have hopen : (db.during conn rows).inTransaction.contains conn = true := by simp [during]
        rw [if_pos hopen] at h
        cases h
        exact .inr ⟨Bool.not_eq_true _ ▸ hfree, rfl, by simp [during]⟩

end Transaction

end Database

namespace BatchIdempotencyService

/-- The rows of the messages that are reported as inserted. -/
def newRows (messages : List MessageToCheckIdempotency) (results : List InsertResult) :
    List MessageRow :=
  ((messages.zip results).filter fun p => p.2.status == .inProgress).map fun p => p.1.newRow

/-- A result for every message in order, `SKIPPED_DUP` where a unique key is taken by one of
the old rows or by an earlier message that was inserted. -/
structure Reported (rows : List MessageRow) (messages : List MessageToCheckIdempotency)
    (results : List InsertResult) : Prop where
  messageIds : results.map InsertResult.messageId = messages.map MessageToCheckIdempotency.messageId
  skipped : ∀ (i : ℕ) (m : MessageToCheckIdempotency) (result : InsertResult),
    messages[i]? = some m → results[i]? = some result →
    (result.status = .skippedDup ↔
      (∃ r ∈ rows, m.newRow.clashes r = true) ∨
      ∃ j < i, ∃ (m' : MessageToCheckIdempotency) (result' : InsertResult),
        messages[j]? = some m' ∧ results[j]? = some result' ∧ result'.status = .inProgress ∧
          m.newRow.clashes m'.newRow = true)

/-- What a call of `insertNewMessagesInProgress` has done to the database. -/
structure Atomic (messages : List MessageToCheckIdempotency) (db : Database)
    (outcome : Except JsError (List InsertResult)) (db' : Database)
    (t : Trace Reply JsError) : Prop where
  returned : ∀ results, outcome = .ok results → Reported db.messages messages results ∧
    db' = { db with messages := db.messages ++ newRows messages results } ∧
    UniqueKeys db'.messages
  failed : ∀ ev ∈ t, ∀ e, Throws e ev → outcome = .error e ∧ db' = db
  thrown : ∀ e, outcome = .error e → db' = db ∧ ∃ ev ∈ t, Throws e ev

section Reported

variable {rows : List MessageRow} {messages : List MessageToCheckIdempotency}
  {results : List InsertResult} {m : MessageToCheckIdempotency} {status : InsertStatus}

theorem Reported.length (h : Reported rows messages results) :
    messages.length = results.length := by
  simpa using congrArg List.length h.messageIds.symm

theorem mem_newRows {r : MessageRow} : r ∈ newRows messages results ↔
    ∃ (j : ℕ) (m : MessageToCheckIdempotency) (result : InsertResult), messages[j]? = some m ∧
      results[j]? = some result ∧ result.status = .inProgress ∧ m.newRow = r := by
  simp only [newRows, List.mem_map, List.mem_filter, beq_iff_eq]
  constructor
  · rintro ⟨⟨m, result⟩, ⟨member, hstatus⟩, rfl⟩
    obtain ⟨j, hj⟩ := List.mem_iff_getElem?.mp member
    obtain ⟨hm, hresult⟩ := List.getElem?_zip_eq_some.mp hj
    exact ⟨j, m, result, hm, hresult, hstatus, rfl⟩
  · rintro ⟨j, m, result, hm, hresult, hstatus, rfl⟩
    exact ⟨(m, result),
      ⟨List.mem_of_getElem? (List.getElem?_zip_eq_some.mpr ⟨hm, hresult⟩), hstatus⟩,
      rfl⟩

theorem newRows_snoc (h : messages.length = results.length) (result : InsertResult) :
    newRows (messages ++ [m]) (results ++ [result]) =
      newRows messages results ++ if result.status = .inProgress then [m.newRow] else [] := by
  rw [newRows, newRows, List.zip_append h, List.filter_append, List.map_append]
  by_cases hstatus : result.status = .inProgress <;> simp [hstatus]

/-- One more message: it is skipped exactly if its row clashes with one of those so far. -/
theorem Reported.snoc (h : Reported rows messages results)
    (hstatus : status = .skippedDup ↔
      (rows ++ newRows messages results).any m.newRow.clashes = true) :
    Reported rows (messages ++ [m]) (results ++ [⟨m.messageId, status⟩]) := by
  have hlength := h.length
  refine ⟨by simp [h.messageIds], fun i m' result hm' hresult => ?_⟩
  -- the entries before `i` are those of the lists without the last message
  have earlier {j : ℕ} (hj : j < messages.length) :
      (messages ++ [m])[j]? = messages[j]? ∧
        (results ++ [(⟨m.messageId, status⟩ : InsertResult)])[j]? = results[j]? :=
    ⟨List.getElem?_append_left hj, List.getElem?_append_left (hlength ▸ hj)⟩
  have hi : i ≤ messages.length := by
    have := (List.getElem?_eq_some_iff.mp hm').1
    simp only [List.length_append, List.length_singleton] at this
    omega
  obtain hi | rfl := hi.lt_or_eq
  · rw [(earlier hi).1] at hm'
    rw [(earlier hi).2] at hresult
    rw [h.skipped i m' result hm' hresult]
    refine or_congr Iff.rfl (exists_congr fun j => and_congr_right fun hj => ?_)
    rw [(earlier (hj.trans hi)).1, (earlier (hj.trans hi)).2]
  · obtain rfl : m = m' := by simpa using hm'
    obtain rfl : (⟨m.messageId, status⟩ : InsertResult) = result := by
      rw [List.getElem?_append_right hlength.ge, hlength, Nat.sub_self] at hresult
      simpa using hresult
    rw [hstatus, List.any_append, Bool.or_eq_true, List.any_eq_true, List.any_eq_true]
    refine or_congr Iff.rfl ⟨?_, ?_⟩
    · rintro ⟨r, hr, hclash⟩
      obtain ⟨j, m', result', hm', hresult', hprogress, rfl⟩ := mem_newRows.mp hr
      have hj := (List.getElem?_eq_some_iff.mp hm').1
      exact ⟨j, hj, m', result', by rwa [(earlier hj).1], by rwa [(earlier hj).2],
        hprogress, hclash⟩
    · rintro ⟨j, hj, m', result', hm', hresult', hprogress, hclash⟩
      rw [(earlier hj).1] at hm'
      rw [(earlier hj).2] at hresult'
      exact ⟨_, mem_newRows.mpr ⟨j, m', result', hm', hresult', hprogress, rfl⟩, hclash⟩

end Reported

/-! ## The transaction, call by call -/

section Transaction

variable {uuid : ℕ → String} {pid : ℕ} {db : Database} {messages : List MessageToCheckIdempotency}
  {results : List InsertResult} {e : JsError} {s : World × Trace Reply JsError} {w : World}
  {t : Trace Reply JsError}

/-- Nothing has failed so far. -/
def Quiet (t : Trace Reply JsError) : Prop := ∀ ev ∈ t, ∀ e, ¬ Throws e ev

/-- Before the next message. -/
structure Inserting (db : Database) (pid : ℕ) (messages : List MessageToCheckIdempotency)
    (results : List InsertResult) (s : World × Trace Reply JsError) : Prop where
  state : s.1.db = db.during pid (newRows messages results)
  reported : Reported db.messages messages results
  unique : UniqueKeys (db.messages ++ newRows messages results)
  quiet : Quiet s.2

/-- After the one call that has failed. -/
structure Aborted (db : Database) (pid : ℕ) (e : JsError) (s : World × Trace Reply JsError) :
    Prop where
  state : s.1.db = db ∨ ∃ rows, s.1.db = db.during pid rows
  failure : ∃ ev ∈ s.2, Throws e ev
  only : ∀ ev ∈ s.2, ∀ e', Throws e' ev → e' = e

theorem Quiet.cons {ev : CallEvent} (h : Quiet t) (ok : ∀ e, ¬ Throws e ev) : Quiet (ev :: t) :=
  List.forall_mem_cons.mpr ⟨ok, h⟩

theorem Quiet.cons_ok {c : Call} {a : Reply c} (h : Quiet t) : Quiet (⟨c, .ok a⟩ :: t) :=
  h.cons fun _ throws => by cases throws.1

/-- The first failure. -/
theorem Quiet.aborted {c : Call} {r : Except JsError (Reply c)} (h : Quiet t)
    (throws : Throws e ⟨c, r⟩) (hdb : w.db = db ∨ ∃ rows, w.db = db.during pid rows) :
    Aborted db pid e (w, ⟨c, r⟩ :: t) := by
  refine ⟨hdb, ⟨_, List.mem_cons_self, throws⟩, fun ev hev e' throws' => ?_⟩
  obtain rfl | hev := List.mem_cons.mp hev
  · exact Except.error.inj (throws'.1.symm.trans throws.1)
  · exact absurd throws' (h ev hev e')

/-- What follows the failure works. -/
theorem Aborted.cons_ok {w' : World} {c : Call} {a : Reply c} (h : Aborted db pid e (w, t))
    (hstate : w'.db = db ∨ ∃ rows, w'.db = db.during pid rows) :
    Aborted db pid e (w', ⟨c, .ok a⟩ :: t) := by
  obtain ⟨ev, hev, throws⟩ := h.failure
  refine ⟨hstate, ⟨ev, List.mem_cons_of_mem _ hev, throws⟩, fun ev hev e' throws => ?_⟩
  obtain rfl | hev := List.mem_cons.mp hev
  · cases throws.1
  · exact h.only ev hev e' throws

/-- What an `INSERT` does to a database in a transaction. -/
theorem execute_during {columns : List String} {values : List Expr} {rows : List MessageRow}
    {r : Except JsError Unit} {db' : Database} (idle : db.Idle pid)
    (h : (db.during pid rows).execute pid (.insert .messages columns values) = some (r, db')) :
    (∃ e, r = .error e ∧ e.code ≠ some "ER_DUP_ENTRY" ∧ db' = db.during pid rows) ∨
      ((db.messages ++ rows).any (insertedRow columns values).clashes = true ∧
        r = .error SqlError.dupEntry ∧ db' = db.during pid rows) ∨
      ((db.messages ++ rows).any (insertedRow columns values).clashes = false ∧
        r = .ok () ∧ db' = db.during pid (rows ++ [insertedRow columns values])) := by
  simp only [Database.execute] at h
  split at h
  · next e hcheck =>
      cases h
      exact .inl ⟨e, rfl, Statement.check_code hcheck, rfl⟩
  · exact .inr (Database.during_insert idle h)

/-- One message: it is inserted, skipped, or ends the transaction. -/
theorem wp_insertOne (idle : db.Idle pid) (m : MessageToCheckIdempotency)
    (h : Inserting db pid messages results s) :
    (insertOne m).wp (traced (World.refusing uuid pid) fun _ _ _ => True) (fun _ => True)
      (either (fun result => Inserting db pid (messages ++ [m]) (results ++ [result]))
        (Aborted db pid)) s := by
  obtain ⟨w, t⟩ := s
  obtain ⟨hstate, reported, unique, quiet⟩ := h
  obtain ⟨columns, values, hinsert, hrow⟩ := insertMessage_eq m
  rw [insertOne, hinsert, wp_tryCatch, wp_bind]
  refine wp_perform_traced.mpr fun r w' answer _ => ⟨trivial, ?_⟩
  obtain ⟨db', hanswer, rfl⟩ | ⟨rfl, -, -, e, rfl, throws⟩ := World.refusing_sql answer
  · change w.db.execute pid (.insert .messages columns values) = some (r, db') at hanswer
    rw [show w.db = _ from hstate] at hanswer
    rcases execute_during idle hanswer with ⟨e, rfl, hcode, rfl⟩ | ⟨hclash, rfl, rfl⟩ |
      ⟨hfree, rfl, rfl⟩
    · rw [either_error, either_error, if_neg hcode]
      exact quiet.aborted ⟨rfl, hcode⟩ (.inr ⟨_, rfl⟩)
    · -- a duplicate key undoes its statement only
      rw [hrow] at hclash
      have hrows := newRows_snoc (m := m) reported.length ⟨m.messageId, .skippedDup⟩
      rw [if_neg InsertStatus.noConfusion, List.append_nil] at hrows
      refine ⟨congrArg (db.during pid) hrows.symm,
        reported.snoc (iff_of_true rfl hclash), by rwa [hrows],
        quiet.cons fun e throws => ?_⟩
      cases throws.1
      exact throws.2 rfl
    · rw [hrow] at hfree ⊢
      have hrows := newRows_snoc (m := m) reported.length ⟨m.messageId, .inProgress⟩
      rw [if_pos rfl] at hrows
      refine ⟨congrArg (db.during pid) hrows.symm, reported.snoc (by simp [hfree]), ?_,
        quiet.cons_ok⟩
      rw [hrows, ← List.append_assoc]
      exact unique.append hfree
  · rw [either_error, either_error, if_neg throws.2]
    exact quiet.aborted throws (.inr ⟨_, hstate⟩)

/-- The transaction, from `BEGIN` to `COMMIT`. -/
theorem wp_insertAll (idle : db.Idle pid) (unique : UniqueKeys db.messages) (quiet : Quiet t)
    (hdb : w.db = db) :
    (insertAll messages).wp (traced (World.refusing uuid pid) fun _ _ _ => True) (fun _ => True)
      (either (fun results s => Reported db.messages messages results ∧
          s.1.db = { db with messages := db.messages ++ newRows messages results } ∧
          UniqueKeys s.1.db.messages ∧ Quiet s.2)
        (Aborted db pid)) (w, t) := by
  subst hdb
  rw [insertAll, wp_bind]
  refine wp_perform_traced.mpr fun r w' answer _ => ⟨trivial, ?_⟩
  obtain ⟨db', hanswer, rfl⟩ | ⟨rfl, -, -, e, rfl, throws⟩ := World.refusing_sql answer
  · cases hanswer
    rw [either_ok, wp_bind]
    refine wp_forEach (fun rest done s => ∃ before, messages = before ++ rest ∧
      Inserting w.db pid before done s) (fun m rest done s h => ?_) (fun results s h => ?_)
      ⟨[], rfl, by simp [Database.during, newRows], ⟨rfl, fun i m result hm => by cases hm⟩,
        by simpa [newRows] using unique, quiet.cons_ok⟩
    · obtain ⟨before, rfl, h⟩ := h
      apply mono_post (wp_insertOne idle m h)
      intro o s h
      cases o with
      | error e => exact h
      | ok result => exact ⟨before ++ [m], by simp, h⟩
    · obtain ⟨before, hbefore, hstate, reported, unique, quiet⟩ := h
      rw [List.append_nil] at hbefore
      subst hbefore
      obtain ⟨w', t'⟩ := s
      rw [either_ok, wp_bind]
      refine wp_perform_traced.mpr fun r w'' answer _ => ⟨trivial, ?_⟩
      obtain ⟨db', hanswer, rfl⟩ | ⟨rfl, -, -, e, rfl, throws⟩ := World.refusing_sql answer
      · cases hanswer
        have hcommit : w'.db.commit pid = _ :=
          (congrArg (Database.commit · pid) hstate).trans (Database.during_commit idle)
        refine ⟨reported, hcommit, ?_, quiet.cons_ok⟩
        rw [hcommit]
        exact unique
      · exact quiet.aborted throws (.inr ⟨_, hstate⟩)
  · exact quiet.aborted throws (.inl rfl)

/-- A connection is released whatever happens. -/
theorem wp_release {Q : Except JsError Unit → World × Trace Reply JsError → Prop}
    (h : Q (.ok ()) (w, ⟨.sql .release, .ok ()⟩ :: t)) :
    Connection.release.wp (traced (World.refusing uuid pid) fun _ _ _ => True) (fun _ => True) Q
      (w, t) := by
  refine wp_perform_traced.mpr fun r w' answer _ => ⟨trivial, ?_⟩
  obtain ⟨db', hanswer, rfl⟩ | ⟨-, -, hrelease, -⟩ := World.refusing_sql answer
  · cases hanswer
    exact h
  · exact absurd rfl hrelease

/-- A failed transaction is rolled back, and the failure is thrown on. -/
theorem wp_rollback (idle : db.Idle pid) (h : Aborted db pid e s) :
    (do
      Connection.rollback
      throw e : Prog (List InsertResult)).wp
      (traced (World.refusing uuid pid) fun _ _ _ => True) (fun _ => True)
      (either (fun _ _ => False) fun e' s => e' = e ∧ s.1.db = db ∧ Aborted db pid e s) s := by
  obtain ⟨w, t⟩ := s
  rw [wp_bind]
  refine wp_perform_traced.mpr fun r w' answer _ => ⟨trivial, ?_⟩
  obtain ⟨db', hanswer, rfl⟩ | ⟨-, hrollback, -⟩ := World.refusing_sql answer
  · cases hanswer
    have hdb : w.db.rollback pid = db := by
      obtain hstate | ⟨rows, hstate⟩ := h.state
      · rw [show w.db = _ from hstate, idle.rollback]
      · rw [show w.db = _ from hstate, Database.during_rollback idle]
    exact ⟨rfl, hdb, h.cons_ok (.inl hdb)⟩
  · exact absurd rfl hrollback

theorem Aborted.atomic (h : Aborted db pid e s) (hdb : s.1.db = db) :
    Atomic messages db (.error e) s.1.db s.2 := by
  refine ⟨fun _ hresults => (by cases hresults), fun ev hev e' throws => ?_, fun e' he' => ?_⟩
  · exact ⟨congrArg Except.error (h.only ev hev e' throws).symm, hdb⟩
  · cases he'
    exact ⟨hdb, h.failure⟩

/-- The rows of a call are stored together or not at all. -/
theorem wp_insertNewMessagesInProgress (idle : w.db.Idle pid) (unique : UniqueKeys w.db.messages) :
    (insertNewMessagesInProgress messages).wp (traced (World.refusing uuid pid) fun _ _ _ => True)
      (fun _ => True) (fun o s => Atomic messages w.db o s.1.db s.2) (w, []) := by
  have quiet : Quiet [] := fun ev hev => absurd hev List.not_mem_nil
  rw [insertNewMessagesInProgress, wp_ite]
  constructor
  · intro hempty
    obtain rfl : messages = [] := List.length_eq_zero_iff.mp hempty
    refine ⟨fun results hresults => ?_, fun ev hev => absurd hev List.not_mem_nil,
      fun e he => by cases he⟩
    cases hresults
    exact ⟨⟨rfl, fun i m result hm => by cases hm⟩, by simp [newRows], unique⟩
  · intro _
    rw [withConnection, wp_bind]
    refine wp_perform_traced.mpr fun r w' answer _ => ⟨trivial, ?_⟩
    obtain ⟨db', hanswer, rfl⟩ | ⟨rfl, -, -, e, rfl, throws⟩ := World.refusing_sql answer
    · cases hanswer
      rw [either_ok, wp_andFinally, wp_tryCatch]
      apply mono_post (wp_insertAll idle unique quiet.cons_ok rfl)
      intro o s h
      cases o with
      | ok results =>
          obtain ⟨w', t'⟩ := s
          obtain ⟨reported, hstate, unique, quiet⟩ := h
          refine wp_release ⟨fun _ hresults => ?_, fun ev hev e throws => ?_,
            fun e he => (by cases he)⟩
          · cases hresults
            exact ⟨reported, hstate, unique⟩
          · exact absurd throws ((Quiet.cons_ok quiet) ev hev e)
      | error e =>
          apply mono_post (wp_rollback idle h)
          intro o s h
          cases o with
          | ok results => exact absurd h id
          | error e' =>
              obtain ⟨w', t'⟩ := s
              obtain ⟨rfl, hdb, aborted⟩ := h
              exact wp_release ((aborted.cons_ok (.inl hdb)).atomic hdb)
    · have aborted : Aborted w'.db pid e _ := quiet.aborted throws (.inl rfl)
      exact aborted.atomic rfl

/-- A call either stores one new row for every message it reports as inserted and keeps the
unique keys, or throws the failure and leaves the database as it was. -/
theorem insertNewMessagesInProgress_atomic {w' : World} {t : Trace Reply JsError}
    {outcome : Except JsError (List InsertResult)} (idle : w.db.Idle pid)
    (unique : UniqueKeys w.db.messages)
    (run : Leads (traced (World.refusing uuid pid) fun _ _ _ => True)
      (insertNewMessagesInProgress messages) (w, []) (.done outcome) (w', t)) :
    Atomic messages w.db outcome w'.db t :=
  (wp_insertNewMessagesInProgress idle unique).outcome run

/-- One message whose pair has a row, one that is new and one that clashes with it. -/
theorem insertNewMessagesInProgress_atomic_recorded :
    ∃ (w' : World) (t : Trace Reply JsError), Atomic
    [entryOf "m-1" "acme" "eu:42", entryOf "m-2" "acme" "43", entryOf "m-3" "acme" "43"]
    recordedWorld.db
    (.ok [⟨some "m-1", .skippedDup⟩, ⟨some "m-2", .inProgress⟩, ⟨some "m-3", .skippedDup⟩])
    w'.db t := by
  refine ⟨_, _, insertNewMessagesInProgress_atomic (w := recordedWorld) ⟨?_, ?_⟩ ?_
    (leads_recorded (World.refusing_handler toString fun _ => { outcome := .ok ⟨true, none⟩ })
      (fun _ _ => trivial) _ _)⟩
  · exact fun p hp => absurd hp List.not_mem_nil
  · exact List.not_mem_nil
  · exact List.pairwise_singleton _ _

end Transaction

end BatchIdempotencyService

end Notification
