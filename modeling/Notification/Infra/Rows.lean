import Notification.Infra.World

/-!
# How calls change the rows of `messages`

Rows come by an `INSERT`, become visible to everybody by a `COMMIT`, go by a `ROLLBACK`
of their own transaction, and change by `updateStatus`, which leaves their identity
alone. The unique keys hold across committed and pending rows, since an `INSERT` that
clashes with a pending row waits.
-/

namespace Notification

open Interaction

/-- What the unique keys of `messages` see of a row. -/
def MessageRow.ident (r : MessageRow) : String × (String × String) × String :=
  (r.messageId, r.pair, r.dedupKey)

/-- The row that an `INSERT` of these columns and values makes. -/
def insertedRow (columns : List String) (values : List Expr) : MessageRow :=
  MessageRow.ofGiven (columns.zip values)

/-- The row is there after the `INSERT`: by the `INSERT`, or because it was skipped. -/
def accepted {α : Type} : Except JsError α → Bool
  | .ok _ => true
  | .error e => e.code == some "ER_DUP_ENTRY"

theorem MessageRow.clashes_iff {r r' : MessageRow} : r.clashes r' = true ↔
    r.messageId = r'.messageId ∨ r.pair = r'.pair ∨ r.dedupKey = r'.dedupKey := by
  simp [clashes, or_assoc]

theorem MessageRow.clashes_comm (r r' : MessageRow) : r.clashes r' = r'.clashes r := by
  rw [Bool.eq_iff_iff, clashes_iff, clashes_iff, eq_comm, eq_comm (a := r.pair),
    eq_comm (a := r.dedupKey)]

theorem MessageRow.clashes_of_ident {r r' s s' : MessageRow} (h : r.ident = s.ident)
    (h' : r'.ident = s'.ident) : r.clashes r' = s.clashes s' := by
  simp only [ident, Prod.mk.injEq] at h h'
  simp only [clashes, h, h']

namespace Database

/-- All rows, those of open transactions included. -/
def rows (db : Database) : List MessageRow := db.messages ++ db.pending.map Prod.snd

/-- The unique keys hold. -/
def Distinct (db : Database) : Prop :=
  ∀ r ∈ db.rows, ∀ r' ∈ db.rows, r.clashes r' = true → r = r'

theorem mem_rows {db : Database} {r : MessageRow} :
    r ∈ db.rows ↔ r ∈ db.messages ∨ ∃ conn, (conn, r) ∈ db.pending := by
  simp [rows]

theorem mem_visible {db : Database} {conn : ℕ} {r : MessageRow} :
    r ∈ db.visible conn ↔ r ∈ db.messages ∨ (conn, r) ∈ db.pending := by
  simp [visible]

theorem rows_of_visible {db : Database} {conn : ℕ} {r : MessageRow} (h : r ∈ db.visible conn) :
    r ∈ db.rows :=
  mem_rows.mpr ((mem_visible.mp h).imp id fun h => ⟨conn, h⟩)

end Database

/-- The row changes of one call on connection `conn`. -/
inductive RowStep (conn : ℕ) : CallEvent → Database → Database → Prop
  | keep {ev db db'} : db'.messages = db.messages → db'.pending = db.pending →
      (∀ columns values r, ev = ⟨.sql (.execute (.insert .messages columns values)), r⟩ →
        r ≠ .ok () ∧
          (accepted r = true → ∃ x ∈ db.visible conn, (insertedRow columns values).clashes x)) →
      (∀ messageId status finalDelivered attempts, ev ≠
        ⟨.repository (.updateStatus messageId status finalDelivered attempts), .ok ()⟩) →
      RowStep conn ev db db'
  | update {db db'} {messageId status finalDelivered attempts} :
      (∀ p ∈ db.pending, p.2.messageId ≠ messageId) →
      db'.messages = (db.updateStatus messageId status finalDelivered attempts).messages →
      db'.pending = db.pending →
      RowStep conn
        ⟨.repository (.updateStatus messageId status finalDelivered attempts), .ok ()⟩ db db'
  | insert {db db'} {columns values} :
      (∀ r ∈ db.rows, (insertedRow columns values).clashes r = false) →
      ((db'.messages = db.messages ∧
          db'.pending = db.pending ++ [(conn, insertedRow columns values)]) ∨
        (db'.messages = db.messages ++ [insertedRow columns values] ∧ db'.pending = db.pending)) →
      RowStep conn ⟨.sql (.execute (.insert .messages columns values)), .ok ()⟩ db db'
  | commit {db db'} {r} :
      db'.messages = db.messages ++ (db.pending.filter fun p => p.1 == conn).map Prod.snd →
      db'.pending = (db.pending.filter fun p => p.1 != conn) →
      RowStep conn ⟨.sql .commit, r⟩ db db'
  | rollback {db db'} {r} : db'.messages = db.messages →
      db'.pending = (db.pending.filter fun p => p.1 != conn) →
      RowStep conn ⟨.sql .rollback, r⟩ db db'

theorem insertMessage_cases {db db' : Database} {conn : ℕ} {columns : List String}
    {values : List Expr} {r : Except JsError Unit}
    (h : db.insertMessage conn (insertedRow columns values) = some (r, db')) :
    RowStep conn ⟨.sql (.execute (.insert .messages columns values)), r⟩ db db' := by
  unfold Database.insertMessage at h
  split at h
  · next clash =>
      cases h
      refine .keep rfl rfl (fun _ _ r heq => ?_) fun _ _ _ _ heq => by cases heq
      cases heq
      exact ⟨fun h => (by cases h), fun _ => List.any_eq_true.mp clash⟩
  · next unclashed =>
      split at h
      · cases h
      · next free =>
          have hfree : ∀ r ∈ db.rows, (insertedRow columns values).clashes r = false := by
            intro r hr
            by_contra hclash
            rw [Bool.not_eq_false] at hclash
            obtain hr | ⟨conn', hr⟩ := Database.mem_rows.mp hr
            · exact unclashed (List.any_eq_true.mpr ⟨r, Database.mem_visible.mpr (.inl hr), hclash⟩)
            · exact free (List.any_eq_true.mpr ⟨(conn', r), hr, hclash⟩)
          split at h
          · cases h
            exact .insert hfree (.inl ⟨rfl, rfl⟩)
          · cases h
            exact .insert hfree (.inr ⟨rfl, rfl⟩)

theorem rowStep_of_execute {db db' : Database} {conn : ℕ} {statement : Statement}
    {r : Except JsError statement.Result} (h : db.execute conn statement = some (r, db'))
    (noUpdate : ∀ assignments keyColumn key, statement ≠ .update assignments keyColumn key) :
    RowStep conn ⟨.sql (.execute statement), r⟩ db db' := by
  cases statement with
  | update assignments keyColumn key => exact absurd rfl (noUpdate _ _ _)
  | select columns keyColumns keys =>
      rw [Database.execute] at h
      split at h <;> cases h <;>
        exact .keep rfl rfl (fun _ _ _ heq => by cases heq) fun _ _ _ _ heq => by cases heq
  | insert table columns values =>
      have other {db'' : Database} (hmessages : db''.messages = db.messages)
          (hpending : db''.pending = db.pending) (htable : table ≠ .messages)
          (r : Except JsError Unit) :
          RowStep conn ⟨.sql (.execute (.insert table columns values)), r⟩ db db'' := by
        refine .keep hmessages hpending (fun _ _ _ heq => ?_) fun _ _ _ _ heq => by cases heq
        cases heq
        exact absurd rfl htable
      cases table with
      | messages =>
          simp only [Database.execute] at h
          split at h
          · next error hcheck =>
              cases h
              refine .keep rfl rfl (fun columns values r heq => ?_) fun _ _ _ _ heq => by cases heq
              cases heq
              refine ⟨fun h => (by cases h), fun hdup => ?_⟩
              exact absurd (by simpa [accepted] using hdup) (Statement.check_code hcheck)
          · exact insertMessage_cases h
      | deliveryAttempts =>
          simp only [Database.execute, Database.insertAttempt] at h
          split at h
          · cases h
            exact other rfl rfl (by decide) _
          · split at h <;> cases h <;> refine other ?_ ?_ (by decide) _ <;> rfl
      | dlqEntries =>
          simp only [Database.execute, Database.insertDlq] at h
          split at h
          · cases h
            exact other rfl rfl (by decide) _
          · split at h <;> cases h <;> refine other ?_ ?_ (by decide) _ <;> rfl

/-- What a call does to the rows, unless it is an SQL `UPDATE`. -/
theorem rowStep_of_up {uuid : ℕ → String} {pid : ℕ} {w w' : World} {ev : CallEvent}
    (h : w.up uuid pid ev w')
    (noUpdate : ∀ assignments keyColumn key,
      ev.call ≠ .sql (.execute (.update assignments keyColumn key))) :
    RowStep pid ev w.db w'.db := by
  by_cases hsql : ∃ c, ev.call = .sql c
  · obtain ⟨call, r⟩ := ev
    obtain ⟨c, hc⟩ := hsql
    obtain rfl : call = .sql c := hc
    obtain ⟨choice, h⟩ := h
    cases c with
    | execute statement =>
        cases hexecute : w.db.execute pid statement with
        | none =>
            simp only [World.answer, Database.answer, hexecute] at h
            cases h
        | some out =>
            simp only [World.answer, Database.answer, hexecute] at h
            cases h
            exact rowStep_of_execute hexecute fun _ _ _ heq =>
              noUpdate _ _ _ (congrArg (fun s => Call.sql (.execute s)) heq)
    | commit =>
        cases h
        exact .commit rfl rfl
    | rollback =>
        cases h
        exact .rollback rfl rfl
    | _ =>
        cases h
        exact .keep rfl rfl (fun _ _ _ heq => by cases heq) fun _ _ _ _ heq => by cases heq
  · obtain ⟨hpending, -, ⟨hmessages, hcall⟩ | ⟨messageId, status, finalDelivered, attempts, rfl,
      idle, hmessages⟩⟩ := World.rows_of_up h fun c hc => hsql ⟨c, hc⟩
    · refine .keep hmessages hpending (fun columns values r heq => ?_) fun _ _ _ _ heq => ?_
      · exact absurd ⟨_, by rw [heq]⟩ hsql
      · exact hcall _ _ _ _ (by rw [heq])
    · exact .update idle hmessages hpending

/-- Neither does a call that throws, unless it throws a duplicate key that is not there. -/
theorem rowStep_of_faulty {uuid : ℕ → String} {pid : ℕ} {w w' : World} {ev : CallEvent}
    (h : w.faulty uuid pid ev w')
    (noUpdate : ∀ assignments keyColumn key,
      ev.call ≠ .sql (.execute (.update assignments keyColumn key)))
    (duplicate : ∀ columns values e,
      ev = ⟨.sql (.execute (.insert .messages columns values)), .error e⟩ →
      e.code = some "ER_DUP_ENTRY" → ∃ x ∈ w.db.visible pid,
        (insertedRow columns values).clashes x) :
    RowStep pid ev w.db w'.db := by
  obtain h | ⟨-, rfl, e, he⟩ := h
  · exact rowStep_of_up h noUpdate
  · refine .keep rfl rfl (fun columns values r hev => ?_) fun _ _ _ _ hev => ?_
    · subst hev
      obtain rfl : r = .error e := he
      exact ⟨fun h => (by cases h), fun haccepted =>
        duplicate _ _ e rfl (by simpa [accepted] using haccepted)⟩
    · subst hev
      cases he

/-! ## The DLQ -/

theorem dlq_of_execute {db db' : Database} {conn : ℕ} {statement : Statement}
    {r : Except JsError statement.Result} (h : db.execute conn statement = some (r, db')) :
    db.dlqEntries <+: db'.dlqEntries := by
  cases statement with
  | select columns keyColumns keys =>
      rw [Database.execute] at h
      split at h <;> cases h <;> exact List.prefix_refl _
  | update assignments keyColumn key =>
      rw [Database.execute] at h
      split at h
      · cases h
        exact List.prefix_refl _
      · split at h <;> cases h
        exact List.prefix_refl _
  | insert table columns values =>
      simp only [Database.execute] at h
      split at h
      · cases h
        exact List.prefix_refl _
      · cases table with
        | messages =>
            simp only [Database.insertMessage] at h
            split at h
            · cases h
              exact List.prefix_refl _
            · split at h
              · cases h
              · split at h <;> cases h <;> exact List.prefix_refl _
        | deliveryAttempts =>
            simp only [Database.insertAttempt] at h
            split at h <;> cases h <;> exact List.prefix_refl _
        | dlqEntries =>
            simp only [Database.insertDlq] at h
            split at h <;> cases h
            · exact List.prefix_append _ _
            · exact List.prefix_refl _

/-- Nothing leaves the DLQ. -/
theorem World.dlq_of_faulty {uuid : ℕ → String} {pid : ℕ} {w w' : World} {ev : CallEvent}
    (h : w.faulty uuid pid ev w') : w.db.dlqEntries <+: w'.db.dlqEntries := by
  obtain ⟨choice, h⟩ | ⟨-, rfl, -⟩ := h
  · obtain ⟨call, r⟩ := ev
    cases call with
    | sql c =>
        obtain ⟨⟨r', db⟩, hanswer, heq⟩ := Option.map_eq_some_iff.mp h
        cases heq
        cases c with
        | execute statement => exact dlq_of_execute hanswer
        | _ =>
            cases hanswer
            exact List.prefix_refl _
    | repository c =>
        obtain ⟨⟨r', db⟩, hanswer, heq⟩ := Option.map_eq_some_iff.mp h
        cases heq
        cases c with
        | updateStatus messageId status finalDelivered attempts =>
            simp only [Database.repository] at hanswer
            split at hanswer <;> cases hanswer
            exact List.prefix_refl _
        | saveDLQEntry entity =>
            cases hanswer
            exact List.prefix_append _ _
        | _ =>
            cases hanswer
            exact List.prefix_refl _
    | _ =>
        cases h
        exact List.prefix_refl _
  · exact List.prefix_refl _

theorem World.dlq_of_lossy {uuid : ℕ → String} {pid : ℕ} {w w' : World} {ev : CallEvent}
    (h : w.lossy uuid pid ev w') : w.db.dlqEntries <+: w'.db.dlqEntries := by
  obtain ⟨r', h, -⟩ := World.effect_of_lossy h
  exact World.dlq_of_faulty h

/-! ## What stays -/

/-- What `updateStatus` does to a row. -/
def MessageRow.updated (messageId : String) (status : Status) (finalDelivered : Bool)
    (attempts : Int) (r : MessageRow) : MessageRow :=
  if r.messageId = messageId then
    { r with status := status, finalDelivered := finalDelivered, attemptCount := attempts }
  else r

@[simp] theorem MessageRow.ident_updated (messageId : String) (status : Status)
    (finalDelivered : Bool) (attempts : Int) (r : MessageRow) :
    (r.updated messageId status finalDelivered attempts).ident = r.ident := by
  unfold updated
  split <;> rfl

theorem MessageRow.updated_of_ne {messageId : String} {status : Status} {finalDelivered : Bool}
    {attempts : Int} {r : MessageRow} (h : r.messageId ≠ messageId) :
    r.updated messageId status finalDelivered attempts = r := if_neg h

namespace RowStep

variable {conn c : ℕ} {ev : CallEvent} {db db' : Database} {r : MessageRow}

/-- Where the rows after a call come from. -/
theorem rows_cases (step : RowStep conn ev db db') :
    (∀ r ∈ db'.rows, r ∈ db.rows) ∨
    (∃ messageId status finalDelivered attempts, ev =
        ⟨.repository (.updateStatus messageId status finalDelivered attempts), .ok ()⟩ ∧
      ∀ r ∈ db'.rows, ∃ r₀ ∈ db.rows, r = r₀.updated messageId status finalDelivered attempts) ∨
    (∃ columns values, ev = ⟨.sql (.execute (.insert .messages columns values)), .ok ()⟩ ∧
      (∀ r ∈ db'.rows, r ∈ db.rows ∨ r = insertedRow columns values) ∧
      ∀ r ∈ db.rows, (insertedRow columns values).clashes r = false) := by
  cases step with
  | keep hmessages hpending _ _ =>
      exact .inl fun r h => by rwa [Database.rows, hmessages, hpending] at h
  | @update _ _ messageId status finalDelivered attempts idle hmessages hpending =>
      refine .inr (.inl ⟨messageId, status, finalDelivered, attempts, rfl, fun r h => ?_⟩)
      obtain h | ⟨conn', h⟩ := Database.mem_rows.mp h
      · rw [hmessages] at h
        obtain ⟨r₀, hr₀, rfl⟩ := List.mem_map.mp h
        exact ⟨r₀, Database.mem_rows.mpr (.inl hr₀), rfl⟩
      · rw [hpending] at h
        exact ⟨r, Database.mem_rows.mpr (.inr ⟨conn', h⟩),
          (MessageRow.updated_of_ne (idle _ h)).symm⟩
  | @insert _ _ columns values free hcase =>
      refine .inr (.inr ⟨columns, values, rfl, fun r h => ?_, free⟩)
      obtain ⟨hmessages, hpending⟩ | ⟨hmessages, hpending⟩ := hcase
      · obtain h | ⟨conn', h⟩ := Database.mem_rows.mp h
        · exact .inl (Database.mem_rows.mpr (.inl (hmessages ▸ h)))
        · rw [hpending] at h
          cases List.mem_append.mp h with
          | inl h => exact .inl (Database.mem_rows.mpr (.inr ⟨conn', h⟩))
          | inr h =>
              cases List.mem_singleton.mp h
              exact .inr rfl
      · obtain h | ⟨conn', h⟩ := Database.mem_rows.mp h
        · rw [hmessages] at h
          cases List.mem_append.mp h with
          | inl h => exact .inl (Database.mem_rows.mpr (.inl h))
          | inr h => exact .inr (List.mem_singleton.mp h)
        · exact .inl (Database.mem_rows.mpr (.inr ⟨conn', hpending ▸ h⟩))
  | commit hmessages hpending =>
      refine .inl fun r h => ?_
      obtain h | ⟨conn', h⟩ := Database.mem_rows.mp h
      · rw [hmessages] at h
        cases List.mem_append.mp h with
        | inl h => exact Database.mem_rows.mpr (.inl h)
        | inr h =>
            obtain ⟨p, hp, rfl⟩ := List.mem_map.mp h
            exact Database.mem_rows.mpr (.inr ⟨p.1, (List.mem_filter.mp hp).1⟩)
      · rw [hpending] at h
        exact Database.mem_rows.mpr (.inr ⟨conn', (List.mem_filter.mp h).1⟩)
  | rollback hmessages hpending =>
      refine .inl fun r h => ?_
      obtain h | ⟨conn', h⟩ := Database.mem_rows.mp h
      · exact Database.mem_rows.mpr (.inl (hmessages ▸ h))
      · rw [hpending] at h
        exact Database.mem_rows.mpr (.inr ⟨conn', (List.mem_filter.mp h).1⟩)

/-- Where rows that are committed or pending come from. -/
theorem origin (step : RowStep conn ev db db') :
    (∀ r ∈ db'.messages, ∃ r₀, r.ident = r₀.ident ∧ (r₀ ∈ db.messages ∨ (conn, r₀) ∈ db.pending ∨
      ∃ columns values, ev = ⟨.sql (.execute (.insert .messages columns values)), .ok ()⟩ ∧
        r₀ = insertedRow columns values)) ∧
    ∀ c r, (c, r) ∈ db'.pending → (c, r) ∈ db.pending ∨ (c = conn ∧
      ∃ columns values, ev = ⟨.sql (.execute (.insert .messages columns values)), .ok ()⟩ ∧
        r = insertedRow columns values) := by
  cases step with
  | keep hmessages hpending _ _ =>
      exact ⟨fun r hr => ⟨r, rfl, .inl (hmessages ▸ hr)⟩, fun c r hr => .inl (hpending ▸ hr)⟩
  | update _ hmessages hpending =>
      refine ⟨fun r hr => ?_, fun c r hr => .inl (hpending ▸ hr)⟩
      rw [hmessages] at hr
      obtain ⟨r₀, hr₀, rfl⟩ := List.mem_map.mp hr
      exact ⟨r₀, MessageRow.ident_updated .., .inl hr₀⟩
  | @insert _ _ columns values _ hcase =>
      obtain ⟨hmessages, hpending⟩ | ⟨hmessages, hpending⟩ := hcase
      · refine ⟨fun r hr => ⟨r, rfl, .inl (hmessages ▸ hr)⟩, fun c r hr => ?_⟩
        rw [hpending] at hr
        cases List.mem_append.mp hr with
        | inl hr => exact .inl hr
        | inr hr =>
            cases List.mem_singleton.mp hr
            exact .inr ⟨rfl, columns, values, rfl, rfl⟩
      · refine ⟨fun r hr => ?_, fun c r hr => .inl (hpending ▸ hr)⟩
        rw [hmessages] at hr
        cases List.mem_append.mp hr with
        | inl hr => exact ⟨r, rfl, .inl hr⟩
        | inr hr => exact ⟨r, rfl, .inr (.inr ⟨columns, values, rfl, List.mem_singleton.mp hr⟩)⟩
  | commit hmessages hpending =>
      refine ⟨fun r hr => ?_, fun c r hr => .inl (List.mem_filter.mp (hpending ▸ hr)).1⟩
      rw [hmessages] at hr
      cases List.mem_append.mp hr with
      | inl hr => exact ⟨r, rfl, .inl hr⟩
      | inr hr =>
          obtain ⟨⟨c, r'⟩, hp, rfl⟩ := List.mem_map.mp hr
          obtain ⟨hpending, hc⟩ := List.mem_filter.mp hp
          have hc : c = conn := by simpa using hc
          exact ⟨r', rfl, .inr (.inl (hc ▸ hpending))⟩
  | rollback hmessages hpending =>
      exact ⟨fun r hr => ⟨r, rfl, .inl (hmessages ▸ hr)⟩,
        fun c r hr => .inl (List.mem_filter.mp (hpending ▸ hr)).1⟩

/-- The unique keys hold after every call. -/
theorem distinct (step : RowStep conn ev db db') (h : db.Distinct) : db'.Distinct := by
  intro r hr r' hr' clash
  obtain hold | ⟨messageId, status, finalDelivered, attempts, -, hupdated⟩ |
    ⟨columns, values, -, hnew, free⟩ := step.rows_cases
  · exact h r (hold r hr) r' (hold r' hr') clash
  · obtain ⟨r₀, hr₀, rfl⟩ := hupdated r hr
    obtain ⟨r₀', hr₀', rfl⟩ := hupdated r' hr'
    rw [MessageRow.clashes_of_ident (MessageRow.ident_updated ..) (MessageRow.ident_updated ..)]
      at clash
    rw [h r₀ hr₀ r₀' hr₀' clash]
  · obtain hr | rfl := hnew r hr
    · obtain hr' | rfl := hnew r' hr'
      · exact h r hr r' hr' clash
      · rw [MessageRow.clashes_comm, free r hr] at clash
        cases clash
    · obtain hr' | rfl := hnew r' hr'
      · rw [free r' hr'] at clash
        cases clash
      · rfl

/-- A committed row stays, and only `updateStatus` with its id changes it. -/
theorem messages (step : RowStep conn ev db db') (h : r ∈ db.messages) :
    (r ∈ db'.messages ∧ ∀ status finalDelivered attempts, ev ≠
      ⟨.repository (.updateStatus r.messageId status finalDelivered attempts), .ok ()⟩) ∨
    ∃ status finalDelivered attempts, ev =
        ⟨.repository (.updateStatus r.messageId status finalDelivered attempts), .ok ()⟩ ∧
      r.updated r.messageId status finalDelivered attempts ∈ db'.messages := by
  cases step with
  | keep hmessages _ _ noUpdate => exact .inl ⟨hmessages ▸ h, fun _ _ _ => noUpdate _ _ _ _⟩
  | @update _ _ messageId status finalDelivered attempts idle hmessages hpending =>
      have hmem : r.updated messageId status finalDelivered attempts ∈ db'.messages :=
        hmessages ▸ List.mem_map_of_mem h
      by_cases hid : messageId = r.messageId
      · subst hid
        exact .inr ⟨_, _, _, rfl, hmem⟩
      · rw [MessageRow.updated_of_ne (Ne.symm hid)] at hmem
        refine .inl ⟨hmem, fun _ _ _ heq => hid ?_⟩
        cases heq
        rfl
  | insert free hcase =>
      refine .inl ⟨?_, fun _ _ _ heq => by cases heq⟩
      obtain ⟨hmessages, -⟩ | ⟨hmessages, -⟩ := hcase
      · exact hmessages ▸ h
      · exact hmessages ▸ List.mem_append_left _ h
  | commit hmessages _ =>
      exact .inl ⟨hmessages ▸ List.mem_append_left _ h, fun _ _ _ heq => by cases heq⟩
  | rollback hmessages _ => exact .inl ⟨hmessages ▸ h, fun _ _ _ heq => by cases heq⟩

/-- A row that a connection sees stays as it is, unless it is updated or the connection
rolls back. -/
theorem visible_same (step : RowStep conn ev db db') (h : r ∈ db.visible c)
    (notUpdated : ∀ status finalDelivered attempts, ev ≠
      ⟨.repository (.updateStatus r.messageId status finalDelivered attempts), .ok ()⟩)
    (kept : c = conn → ∀ x, ev ≠ ⟨.sql .rollback, x⟩) : r ∈ db'.visible c := by
  cases Database.mem_visible.mp h with
  | inl h =>
      obtain ⟨h, -⟩ | ⟨status, finalDelivered, attempts, hev, -⟩ := step.messages h
      · exact Database.mem_visible.mpr (.inl h)
      · exact absurd hev (notUpdated _ _ _)
  | inr h =>
      cases step with
      | keep _ hpending _ _ => exact Database.mem_visible.mpr (.inr (hpending ▸ h))
      | update _ _ hpending => exact Database.mem_visible.mpr (.inr (hpending ▸ h))
      | insert free hcase =>
          obtain ⟨-, hpending⟩ | ⟨-, hpending⟩ := hcase
          · exact Database.mem_visible.mpr (.inr (hpending ▸ List.mem_append_left _ h))
          · exact Database.mem_visible.mpr (.inr (hpending ▸ h))
      | commit hmessages hpending =>
          by_cases hc : c = conn
          · refine Database.mem_visible.mpr (.inl (hmessages ▸ List.mem_append_right _ ?_))
            exact List.mem_map.mpr ⟨(c, r), List.mem_filter.mpr ⟨h, by simp [hc]⟩, rfl⟩
          · exact Database.mem_visible.mpr (.inr (hpending ▸ List.mem_filter.mpr ⟨h, by simp [hc]⟩))
      | rollback hmessages hpending =>
          have hc : c ≠ conn := fun hc => kept hc _ rfl
          exact Database.mem_visible.mpr (.inr (hpending ▸ List.mem_filter.mpr ⟨h, by simp [hc]⟩))

/-- A row is only updated once it is committed. -/
theorem visible_updated {status : Status} {finalDelivered : Bool} {attempts : Int}
    (step : RowStep conn
      ⟨.repository (.updateStatus r.messageId status finalDelivered attempts), .ok ()⟩ db db')
    (h : r ∈ db.visible c) :
    r ∈ db.messages ∧ r.updated r.messageId status finalDelivered attempts ∈ db'.messages := by
  cases step with
  | keep _ _ _ noUpdate => exact absurd rfl (noUpdate _ _ _ _)
  | update idle hmessages _ =>
      have committed := (Database.mem_visible.mp h).resolve_right fun h => idle _ h rfl
      exact ⟨committed, hmessages ▸ List.mem_map_of_mem committed⟩

/-- A row that a connection sees keeps its identity, unless the connection rolls back. -/
theorem visible (step : RowStep conn ev db db') (h : r ∈ db.visible c)
    (kept : c = conn → ∀ x, ev ≠ ⟨.sql .rollback, x⟩) :
    ∃ r' ∈ db'.visible c, r'.ident = r.ident := by
  by_cases hupdated : ∃ status finalDelivered attempts, ev =
      ⟨.repository (.updateStatus r.messageId status finalDelivered attempts), .ok ()⟩
  · obtain ⟨status, finalDelivered, attempts, rfl⟩ := hupdated
    exact ⟨_, Database.mem_visible.mpr (.inl (step.visible_updated h).2),
      MessageRow.ident_updated ..⟩
  · exact ⟨r, step.visible_same h (fun _ _ _ hev => hupdated ⟨_, _, _, hev⟩) kept, rfl⟩

/-- A committed row keeps its identity. -/
theorem ident (step : RowStep conn ev db db') (h : r ∈ db.messages) :
    ∃ r' ∈ db'.messages, r'.ident = r.ident := by
  obtain ⟨h, -⟩ | ⟨status, finalDelivered, attempts, -, h⟩ := step.messages h
  · exact ⟨r, h, rfl⟩
  · exact ⟨_, h, MessageRow.ident_updated ..⟩

end RowStep

end Notification
