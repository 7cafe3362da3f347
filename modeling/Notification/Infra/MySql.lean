import Mathlib.Algebra.Group.Int.Defs
import Mathlib.Algebra.Group.Nat.Defs
import Mathlib.Data.Option.Basic
import Notification.Aggregator.Delivery

/-!
# MySQL: the schema of `scripts/init.sql` and the statements the services run

A statement is checked against the schema (unknown columns, missing values,
values that do not fit) before it has any effect. Rows that an open transaction
has inserted are `pending`: nobody else reads them, and an insert by another
connection that clashes with one of them waits.

Text is compared exactly. Time stamps and the columns that no statement of the
services names are not kept in the rows.
-/

namespace Notification

inductive SqlValue where
  | null
  | string (s : String)
  | number (n : Int)
  | boolean (b : Bool)
  deriving DecidableEq, Repr

namespace SqlError

/-- Raised by mysql2 itself, before the statement is sent. -/
def undefinedBind : JsError :=
  .typeError "Bind parameters must not contain undefined. To pass SQL NULL specify JS null"

def badField (column : String) : JsError :=
  { message := "Unknown column '" ++ column ++ "' in 'field list'", code := "ER_BAD_FIELD_ERROR" }

def noDefault (column : String) : JsError :=
  { message := "Field '" ++ column ++ "' doesn't have a default value",
    code := "ER_NO_DEFAULT_FOR_FIELD" }

def badNull (column : String) : JsError :=
  { message := "Column '" ++ column ++ "' cannot be null", code := "ER_BAD_NULL_ERROR" }

def dataTooLong (column : String) : JsError :=
  { message := "Data too long for column '" ++ column ++ "' at row 1", code := "ER_DATA_TOO_LONG" }

def dataTruncated (column : String) : JsError :=
  { message := "Data truncated for column '" ++ column ++ "' at row 1",
    code := "WARN_DATA_TRUNCATED" }

def dupEntry : JsError := { message := "Duplicate entry", code := "ER_DUP_ENTRY" }

def noReferencedRow : JsError :=
  { message := "Cannot add or update a child row", code := "ER_NO_REFERENCED_ROW_2" }

def lockWaitTimeout : JsError :=
  { message := "Lock wait timeout exceeded", code := "ER_LOCK_WAIT_TIMEOUT" }

end SqlError

/-! ## Schema -/

inductive ColumnType where
  | varchar (limit : ℕ)
  | enum (values : List String)
  | longtext
  | int
  | boolean
  | timestamp
  deriving DecidableEq

structure Column where
  name : String
  type : ColumnType
  notNull : Bool := false
  hasDefault : Bool := false

inductive Table where
  | messages
  | deliveryAttempts
  | dlqEntries
  deriving DecidableEq

def channels : List String := ["email", "sms", "whatsapp"]

/-- The columns as `init.sql` creates them; generated ids count as defaults. -/
def Table.columns : Table → List Column
  | messages =>
    [ { name := "messageId", type := .varchar 36, notNull := true },
      { name := "idempotencyKey", type := .varchar 255, notNull := true },
      { name := "tenantId", type := .varchar 128, notNull := true },
      { name := "dedupKey", type := .varchar 128, notNull := true },
      { name := "userId", type := .varchar 128, notNull := true },
      { name := "channel", type := .enum channels, notNull := true },
      { name := "recipient", type := .varchar 255, notNull := true },
      { name := "body", type := .longtext, notNull := true },
      { name := "status", hasDefault := true,
        type := .enum ["PENDING", "IN_PROGRESS", "SENT", "FAILED", "RETRY_SCHEDULED"] },
      { name := "finalDelivered", type := .boolean, hasDefault := true },
      { name := "attemptCount", type := .int, hasDefault := true },
      { name := "maxAttempts", type := .int, hasDefault := true },
      { name := "lastProviderResponse", type := .longtext },
      { name := "lastProviderError", type := .varchar 500 },
      { name := "lastAttemptAt", type := .timestamp },
      { name := "createdAt", type := .timestamp, hasDefault := true },
      { name := "updatedAt", type := .timestamp, hasDefault := true } ]
  | deliveryAttempts =>
    [ { name := "id", type := .int, notNull := true, hasDefault := true },
      { name := "messageId", type := .varchar 36, notNull := true },
      { name := "attemptNumber", type := .int, notNull := true },
      { name := "status", type := .enum ["SUCCESS", "FAILED"], notNull := true },
      { name := "providerResponse", type := .longtext },
      { name := "providerError", type := .varchar 500 },
      { name := "providerCode", type := .varchar 50 },
      { name := "attemptAt", type := .timestamp, hasDefault := true } ]
  | dlqEntries =>
    [ { name := "id", type := .int, notNull := true, hasDefault := true },
      { name := "messageId", type := .varchar 36, notNull := true },
      { name := "tenantId", type := .varchar 128, notNull := true },
      { name := "channel", type := .enum channels, notNull := true },
      { name := "failureReason", type := .longtext },
      { name := "finalAttemptNumber", type := .int },
      { name := "maxAttemptsReached", type := .boolean, hasDefault := true },
      { name := "manualReviewRequired", type := .boolean, hasDefault := true },
      { name := "createdAt", type := .timestamp, hasDefault := true } ]

/-- Why strict mode refuses a value for a column, if it does. -/
def Column.refuses (c : Column) : SqlValue → Option JsError
  | .null => if c.notNull then some (SqlError.badNull c.name) else none
  | .string s =>
    match c.type with
    | .varchar limit => if s.length ≤ limit then none else some (SqlError.dataTooLong c.name)
    | .enum values => if s ∈ values then none else some (SqlError.dataTruncated c.name)
    | .longtext => if s.utf8ByteSize < 2 ^ 32 then none else some (SqlError.dataTooLong c.name)
    | _ => some (SqlError.dataTruncated c.name)
  | .number n =>
    match c.type with
    | .int => if -2 ^ 31 ≤ n ∧ n < 2 ^ 31 then none else some (SqlError.dataTooLong c.name)
    | _ => some (SqlError.dataTruncated c.name)
  | .boolean _ =>
    match c.type with
    | .boolean => none
    | _ => some (SqlError.dataTruncated c.name)

/-! ## Statements -/

/-- A value position: a bound `?` (possibly `undefined`), a literal, or `NOW()`. -/
inductive Expr where
  | param (value : Option SqlValue)
  | literal (value : SqlValue)
  | now
  deriving DecidableEq

/-- `undefined` is distinct from `NULL`. -/
def Expr.isUndefined : Expr → Bool
  | .param none => true
  | _ => false

def Expr.value? : Expr → Option SqlValue
  | .param value => value
  | .literal value => some value
  | .now => none

/-- A text parameter that is `undefined` when the field is missing. -/
def Expr.text (field : Option String) : Expr := .param (field.map SqlValue.string)

/-- The statements of the services. `UPDATE` and `SELECT` only concern `messages`. -/
inductive Statement where
  | insert (table : Table) (columns : List String) (values : List Expr)
  | update (assignments : List (String × Expr)) (keyColumn : String) (key : Expr)
  | select (columns : List String) (keyColumns : List String) (keys : List (List Expr))

namespace Statement

def params : Statement → List Expr
  | insert _ _ values => values
  | update assignments _ key => assignments.map Prod.snd ++ [key]
  | select _ _ keys => keys.flatten

def table : Statement → Table
  | insert table _ _ => table
  | update .. => .messages
  | select .. => .messages

/-- The columns a statement names, in the order of its text. -/
def named : Statement → List String
  | insert _ columns _ => columns
  | update assignments keyColumn _ => assignments.map Prod.fst ++ [keyColumn]
  | select columns keyColumns _ => columns ++ keyColumns

/-- The values a statement writes, by column. -/
def writes : Statement → List (String × Expr)
  | insert _ columns values => columns.zip values
  | update assignments _ _ => assignments
  | select .. => []

/-- A column without default must be written by an `INSERT`. -/
def omits : Statement → Option JsError
  | insert table columns _ =>
    (table.columns.find? fun c => c.notNull && !c.hasDefault && !columns.contains c.name).map
      fun c => SqlError.noDefault c.name
  | _ => none

def unknownColumn (s : Statement) : Option JsError :=
  (s.named.find? fun name => !(s.table.columns.any fun c => c.name == name)).map SqlError.badField

def badValue (s : Statement) : Option JsError :=
  s.writes.findSome? fun w =>
    match s.table.columns.find? (fun c => c.name == w.1), w.2.value? with
    | some c, some v => c.refuses v
    | _, _ => none

/-- The error a statement raises whatever the rows are, if it raises one. -/
def check (s : Statement) : Option JsError :=
  if s.params.any Expr.isUndefined then some SqlError.undefinedBind
  else s.unknownColumn <|> s.omits <|> s.badValue

end Statement

/-- A statement that the schema accepts. -/
theorem Statement.check_eq_none {s : Statement} : s.check = none ↔
    s.params.any Expr.isUndefined = false ∧ s.unknownColumn = none ∧ s.omits = none ∧
      ∀ w ∈ s.writes, ∀ c, s.table.columns.find? (fun c => c.name == w.1) = some c →
        ∀ v, w.2.value? = some v → c.refuses v = none := by
  rw [Statement.check]
  split
  · next h => simp [h]
  · next h =>
      rw [Bool.not_eq_true] at h
      rw [Option.orElse_eq_none, Option.orElse_eq_none, Statement.badValue,
        List.findSome?_eq_none_iff]
      simp only [h, true_and]
      refine and_congr_right fun _ => and_congr_right fun _ => forall_congr' fun w =>
        imp_congr_right fun _ => ?_
      split
      · next c v hc hv => simp [hc, hv]
      · next hnone => exact iff_of_true rfl fun c hc v hv => absurd hv (hnone c v hc)

theorem Column.refuses_code {c : Column} {v : SqlValue} {e : JsError}
    (h : c.refuses v = some e) : e.code ≠ some "ER_DUP_ENTRY" := by
  unfold Column.refuses at h
  repeat' split at h
  all_goals cases h
  all_goals simp [SqlError.badNull, SqlError.dataTooLong, SqlError.dataTruncated]

/-- What the schema refuses is not taken for a duplicate key. -/
theorem Statement.check_code {s : Statement} {e : JsError} (h : s.check = some e) :
    e.code ≠ some "ER_DUP_ENTRY" := by
  rw [Statement.check] at h
  split at h
  · cases h
    decide
  · rw [Option.orElse_eq_some, Option.orElse_eq_some] at h
    obtain h | ⟨-, h | ⟨-, h⟩⟩ := h
    · obtain ⟨name, -, rfl⟩ := Option.map_eq_some_iff.mp h
      simp [SqlError.badField]
    · cases s with
      | insert table columns values =>
          obtain ⟨column, -, rfl⟩ := Option.map_eq_some_iff.mp h
          simp [SqlError.noDefault]
      | _ => cases h
    · obtain ⟨write, -, h⟩ := List.exists_of_findSome?_eq_some h
      split at h
      · exact Column.refuses_code h
      · cases h

/-! ## Rows -/

structure MessageRow where
  messageId : String
  idempotencyKey : String
  tenantId : String
  dedupKey : String
  userId : String
  channel : String
  recipient : String
  body : String
  status : Status := .pending
  finalDelivered : Bool := false
  attemptCount : Int := 0
  maxAttempts : Int := 4
  deriving DecidableEq, Repr

/-- The columns of an `INSERT` with the values given for them. -/
abbrev Given := List (String × Expr)

namespace Given

def get (g : Given) (column : String) : Option SqlValue := (g.lookup column).bind Expr.value?

def text? (g : Given) (column : String) : Option String :=
  match g.get column with
  | some (.string s) => some s
  | _ => none

def text (g : Given) (column : String) : String := (g.text? column).getD ""

def number (g : Given) (column : String) (default : Int) : Int :=
  match g.get column with
  | some (.number n) => n
  | _ => default

def flag (g : Given) (column : String) (default : Bool) : Bool :=
  match g.get column with
  | some (.boolean b) => b
  | _ => default

end Given

namespace MessageRow

def ofGiven (g : Given) : MessageRow where
  messageId := g.text "messageId"
  idempotencyKey := g.text "idempotencyKey"
  tenantId := g.text "tenantId"
  dedupKey := g.text "dedupKey"
  userId := g.text "userId"
  channel := g.text "channel"
  recipient := g.text "recipient"
  body := g.text "body"
  status := ((g.text? "status").bind Status.ofText?).getD .pending
  finalDelivered := g.flag "finalDelivered" false
  attemptCount := g.number "attemptCount" 0
  maxAttempts := g.number "maxAttempts" 4

/-- A column that a `WHERE` clause may compare. -/
def column (r : MessageRow) : String → SqlValue
  | "messageId" => .string r.messageId
  | "idempotencyKey" => .string r.idempotencyKey
  | "tenantId" => .string r.tenantId
  | "dedupKey" => .string r.dedupKey
  | _ => .null

/-- One assignment of an `UPDATE`. -/
def assign (r : MessageRow) (name : String) (value : SqlValue) : MessageRow :=
  match name, value with
  | "status", .string s => { r with status := (Status.ofText? s).getD r.status }
  | "finalDelivered", .boolean b => { r with finalDelivered := b }
  | "attemptCount", .number n => { r with attemptCount := n }
  | _, _ => r

/-- The idempotency pair of a row. -/
def pair (r : MessageRow) : String × String := (r.tenantId, r.idempotencyKey)

/-- Two rows that a unique key of `messages` keeps apart: the primary key,
`uk_tenant_idempotency` or `uk_dedup`. -/
def clashes (r r' : MessageRow) : Bool :=
  r.messageId == r'.messageId || r.pair == r'.pair || r.dedupKey == r'.dedupKey

end MessageRow

/-! ## The database and what the calls do to it -/

/-- Committed rows, and the rows of open transactions with their connection. -/
structure Database where
  messages : List MessageRow := []
  pending : List (ℕ × MessageRow) := []
  inTransaction : List ℕ := []
  deliveryAttempts : List DeliveryAttempt := []
  dlqEntries : List DLQEntry := []

namespace Database

/-- The rows connection `conn` may clash with: committed ones and its own. -/
def visible (db : Database) (conn : ℕ) : List MessageRow :=
  db.messages ++ (db.pending.filter fun p => p.1 == conn).map Prod.snd

/-- An insert into `messages`; `none` means that it waits for another transaction. -/
def insertMessage (db : Database) (conn : ℕ) (row : MessageRow) :
    Option (Except JsError Unit × Database) :=
  if (db.visible conn).any row.clashes then some (.error SqlError.dupEntry, db)
  else if db.pending.any (fun p => row.clashes p.2) then none
  else if db.inTransaction.contains conn then
    some (.ok (), { db with pending := db.pending ++ [(conn, row)] })
  else some (.ok (), { db with messages := db.messages ++ [row] })

/-- Foreign keys refer to `messages(messageId)`. -/
def references (db : Database) (messageId : String) : Bool :=
  db.messages.any fun r => r.messageId == messageId

def insertAttempt (db : Database) (g : Given) : Except JsError Unit × Database :=
  if db.references (g.text "messageId") then
    (.ok (), { db with deliveryAttempts := db.deliveryAttempts ++
      [{ messageId := g.text "messageId", attemptNumber := g.number "attemptNumber" 0,
         status := if g.text "status" == "SUCCESS" then .success else .failed,
         error := g.text? "providerError", providerResponse := g.text? "providerResponse" }] })
  else (.error SqlError.noReferencedRow, db)

def insertDlq (db : Database) (g : Given) : Except JsError Unit × Database :=
  if db.references (g.text "messageId") then
    (.ok (), { db with dlqEntries := db.dlqEntries ++
      [{ messageId := g.text "messageId", channel := g.text "channel",
         failureReason := g.text "failureReason",
         maxAttemptsReached := g.flag "maxAttemptsReached" true }] })
  else (.error SqlError.noReferencedRow, db)

/-- Change the rows whose key column has the given value. -/
def updateMessages (db : Database) (assignments : List (String × Expr)) (keyColumn : String)
    (key : Option SqlValue) : Database :=
  { db with messages := db.messages.map fun r =>
      if some (r.column keyColumn) = key then
        assignments.foldl (fun r a => match a.2.value? with
          | some v => r.assign a.1 v
          | none => r) r
      else r }

def selectMessages (db : Database) (keyColumns : List String) (keys : List (List Expr)) :
    List MessageRow :=
  db.messages.filter fun r =>
    keys.any fun key => key.map Expr.value? == keyColumns.map fun c => some (r.column c)

end Database

/-- What `execute` hands back: the rows of a `SELECT`. -/
abbrev Statement.Result : Statement → Type
  | .select .. => List MessageRow
  | _ => Unit

/-- The calls on a mysql2 connection. -/
inductive SqlCall where
  | getConnection
  | beginTransaction
  | execute (statement : Statement)
  | commit
  | rollback
  | release

abbrev SqlCall.Reply : SqlCall → Type
  | execute statement => statement.Result
  | _ => Unit

namespace Database

/-- Execute a statement on connection `conn`; `none` means that it has to wait. -/
def execute (db : Database) (conn : ℕ) :
    (statement : Statement) → Option (Except JsError statement.Result × Database)
  | .insert table columns values =>
    match (Statement.insert table columns values).check with
    | some e => some (.error e, db)
    | none =>
      match table with
      | .messages => db.insertMessage conn (MessageRow.ofGiven (columns.zip values))
      | .deliveryAttempts => some (db.insertAttempt (columns.zip values))
      | .dlqEntries => some (db.insertDlq (columns.zip values))
  | .update assignments keyColumn key =>
    match (Statement.update assignments keyColumn key).check with
    | some e => some (.error e, db)
    | none =>
      if db.pending.any (fun p => some (p.2.column keyColumn) == key.value?) then none
      else some (.ok (), db.updateMessages assignments keyColumn key.value?)
  | .select columns keyColumns keys =>
    match (Statement.select columns keyColumns keys).check with
    | some e => some (.error e, db)
    | none => some (.ok (db.selectMessages keyColumns keys), db)

/-- What the server does when connection `conn` is lost or rolls back. -/
def rollback (db : Database) (conn : ℕ) : Database :=
  { db with
    pending := db.pending.filter fun p => p.1 != conn
    inTransaction := db.inTransaction.filter (· != conn) }

def commit (db : Database) (conn : ℕ) : Database :=
  { db.rollback conn with
    messages := db.messages ++ (db.pending.filter fun p => p.1 == conn).map Prod.snd }

/-- The answer to a call on connection `conn`; `none` means that it has to wait. -/
def answer (db : Database) (conn : ℕ) :
    (c : SqlCall) → Option (Except JsError c.Reply × Database)
  | .getConnection => some (.ok (), db)
  | .beginTransaction => some (.ok (), { db with inTransaction := conn :: db.inTransaction })
  | .execute statement => db.execute conn statement
  | .commit => some (.ok (), db.commit conn)
  | .rollback => some (.ok (), db.rollback conn)
  | .release => some (.ok (), db)

end Database

/-! ## The repository at its interface meaning -/

/-- The methods of `IDeliveryRepository` that the processor calls. -/
inductive RepositoryCall where
  | updateStatus (messageId : String) (status : Status) (finalDelivered : Bool) (attempts : Int)
  | getStatus (messageId : String)
  | saveAttempt (entity : DeliveryAttempt)
  | saveDLQEntry (entity : DLQEntry)

abbrev RepositoryCall.Reply : RepositoryCall → Type
  | getStatus _ => Option MessageStatus
  | _ => Unit

namespace Database

/-- `updateStatus` at its interface meaning: it changes the row with that id, if any. -/
def updateStatus (db : Database) (messageId : String) (status : Status) (finalDelivered : Bool)
    (attempts : Int) : Database :=
  { db with messages := db.messages.map fun r =>
      if r.messageId = messageId then
        { r with status := status, finalDelivered := finalDelivered, attemptCount := attempts }
      else r }

def getStatus (db : Database) (messageId : String) : Option MessageStatus :=
  (db.messages.find? fun r => r.messageId == messageId).map fun r =>
    { finalDelivered := r.finalDelivered, status := r.status, attempts := r.attemptCount }

/-- The answer to a repository call; an update waits for a row that is being inserted. -/
def repository (db : Database) :
    (c : RepositoryCall) → Option (Except JsError c.Reply × Database)
  | .updateStatus messageId status finalDelivered attempts =>
    if db.pending.any (fun p => p.2.messageId == messageId) then none
    else some (.ok (), db.updateStatus messageId status finalDelivered attempts)
  | .getStatus messageId => some (.ok (db.getStatus messageId), db)
  | .saveAttempt entity =>
    some (.ok (), { db with deliveryAttempts := db.deliveryAttempts ++ [entity] })
  | .saveDLQEntry entity => some (.ok (), { db with dlqEntries := db.dlqEntries ++ [entity] })

end Database

end Notification
