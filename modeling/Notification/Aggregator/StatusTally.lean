import Mathlib.Algebra.GroupWithZero.Nat
import Notification.Aggregator.Writers

/-!
# The statuses that the rows get to, and their tally

Rows are inserted as `IN_PROGRESS` and marked by deliveries. The four places that write a
status write the flag `finalDelivered` along with it, and none of them writes
`RETRY_SCHEDULED`. So the query of `getIdempotencyMetrics`, which asks for the other four
statuses only, counts every row of a tenant once.
-/

namespace Notification

open Interaction Program

/-! ## The query -/

/-- The calls of `getIdempotencyMetrics`: the `SELECT` asks for sums over the rows with the
given key, each of `CASE WHEN status IN (..) THEN 1 ELSE 0 END`, under a name. -/
inductive TallyCall where
  | getConnection
  | execute (sums : List (String × List Status)) (keyColumn : String) (key : SqlValue)
  | release

/-- A `SUM` is `NULL` over no rows. What is a number here the driver hands over as text. -/
abbrev TallyCall.Reply : TallyCall → Type
  | execute .. => List (List (String × Option ℕ))
  | _ => Unit

/-- `CASE WHEN status IN (..) THEN 1 ELSE 0 END` -/
def caseStatus (statuses : List Status) (r : MessageRow) : ℕ := if r.status ∈ statuses then 1 else 0

/-- `SUM(CASE ..)` -/
def sumStatus (statuses : List Status) (rows : List MessageRow) : Option ℕ :=
  if rows.isEmpty then none else some (rows.map (caseStatus statuses)).sum

namespace Database

/-- A query without `GROUP BY` has one row. -/
def tally (db : Database) (sums : List (String × List Status)) (keyColumn : String)
    (key : SqlValue) : List (List (String × Option ℕ)) :=
  let rows := db.messages.filter fun r => r.column keyColumn == key
  [sums.map fun s => (s.1, sumStatus s.2 rows)]

def answerTally : (c : TallyCall) → Database → Except JsError c.Reply × Database
  | .execute sums keyColumn key, db => (.ok (db.tally sums keyColumn key), db)
  | .getConnection, db => (.ok (), db)
  | .release, db => (.ok (), db)

/-- The rows of a tenant. -/
def ofTenant (db : Database) (tenantId : String) : List MessageRow :=
  db.messages.filter fun r => r.tenantId == tenantId

end Database

structure TenantMetrics where
  newCount : ℕ
  duplicateCount : ℕ
  failedCount : ℕ
  deriving DecidableEq, Repr

namespace BatchIdempotencyService

/-- `result?.[name] || 0` -/
def countOf (result : Option (List (String × Option ℕ))) (name : String) : ℕ :=
  ((result.bind fun columns => columns.lookup name).bind id).getD 0

def getIdempotencyMetrics (tenantId : String) :
    Program TallyCall.Reply JsError TenantMetrics := do
  perform TallyCall.getConnection
  andFinally
    (do
      let rows ← perform (TallyCall.execute
        [ ("newCount", [.pending, .inProgress]), ("duplicateCount", [.sent]),
          ("failedCount", [.failed]) ] "tenantId" (.string tenantId))
      let result := rows.head?
      return { newCount := countOf result "newCount",
               duplicateCount := countOf result "duplicateCount",
               failedCount := countOf result "failedCount" })
    (perform TallyCall.release)

theorem sumStatus_getD (statuses : List Status) (rows : List MessageRow) :
    (sumStatus statuses rows).getD 0 = (rows.map (caseStatus statuses)).sum := by
  cases rows <;> rfl

/-- What `getIdempotencyMetrics` returns. -/
theorem run_getIdempotencyMetrics (tenantId : String) (db : Database) :
    (getIdempotencyMetrics tenantId).run Database.answerTally db =
      (.ok { newCount := ((db.ofTenant tenantId).map (caseStatus [.pending, .inProgress])).sum,
             duplicateCount := ((db.ofTenant tenantId).map (caseStatus [.sent])).sum,
             failedCount := ((db.ofTenant tenantId).map (caseStatus [.failed])).sum }, db) := by
  have hkey : (db.messages.filter fun r => r.column "tenantId" == SqlValue.string tenantId) =
      db.ofTenant tenantId := by
    apply List.filter_congr
    intro r _
    exact beq_eq_beq.mpr (by simp [MessageRow.column])
  rw [← sumStatus_getD, ← sumStatus_getD, ← sumStatus_getD, ← hkey]
  rfl

end BatchIdempotencyService

/-- The three kinds of rows that the query counts are disjoint, and only `RETRY_SCHEDULED` is in
none of them. -/
theorem sum_caseStatus {rows : List MessageRow} (h : ∀ r ∈ rows, r.status ≠ .retryScheduled) :
    (rows.map (caseStatus [.pending, .inProgress])).sum + (rows.map (caseStatus [.sent])).sum +
      (rows.map (caseStatus [.failed])).sum = rows.length := by
  induction rows with
  | nil => rfl
  | cons r rest ih =>
      rw [List.forall_mem_cons] at h
      have hone : caseStatus [.pending, .inProgress] r + caseStatus [.sent] r +
          caseStatus [.failed] r = 1 := by
        cases hstatus : r.status with
        | retryScheduled => exact absurd hstatus h.1
        | _ => simp [caseStatus, hstatus]
      have hrest := ih h.2
      simp only [List.map_cons, List.sum_cons, List.length_cons]
      omega

/-! ## The rows of all runs -/

/-- Flag and status agree, and no retry is scheduled. -/
def MessageRow.Marked (r : MessageRow) : Prop :=
  (r.finalDelivered = true ↔ r.status = .sent) ∧ r.status ≠ .retryScheduled

theorem survives_marked : Survives MessageRow.Marked := by
  intro r messageId status finalDelivered attempts agree unscheduled h
  unfold MessageRow.updated
  split
  · exact ⟨agree, unscheduled⟩
  · exact h

/-- A new row is `IN_PROGRESS` and not delivered. -/
theorem marked_newRow (m : MessageToCheckIdempotency) : m.newRow.Marked := by
  constructor
  · exact iff_of_false Bool.false_ne_true (by simp [MessageToCheckIdempotency.newRow])
  · simp [MessageToCheckIdempotency.newRow]

/-- From empty tables, whatever is inserted and delivered by whom and whatever fails, flag and
status of every row agree, no row has a retry scheduled, and the metrics of a tenant count each
of its rows once. -/
theorem tally_complete {uuid : ℕ → String} {init : World} {s : Writers}
    (run : (writers uuid).Run (fun _ _ => True) init s) (empty : init.db.rows = []) :
    (∀ r ∈ s.shared.db.rows, (r.finalDelivered = true ↔ r.status = .sent) ∧
      r.status ≠ .retryScheduled) ∧
    ∀ tenantId, ∃ metrics, (BatchIdempotencyService.getIdempotencyMetrics tenantId).run
        Database.answerTally s.shared.db = (.ok metrics, s.shared.db) ∧
      metrics.newCount + metrics.duplicateCount + metrics.failedCount =
        (s.shared.db.ofTenant tenantId).length := by
  have inserts : ∀ (_ : Writers) (job : Writer), True → job.Inserts MessageRow.Marked := by
    intro _ job _
    cases job with
    | insert messages => exact fun m _ => marked_newRow m
    | deliver kind provider message => exact trivial
  have marked := (Writers.holds run survives_marked inserts empty).rows
  constructor
  · exact marked
  · intro tenantId
    refine ⟨_, BatchIdempotencyService.run_getIdempotencyMetrics tenantId s.shared.db, ?_⟩
    apply sum_caseStatus
    intro r hr
    have committed : r ∈ s.shared.db.messages := List.mem_of_mem_filter hr
    exact (marked r (Database.mem_rows.mpr (.inl committed))).2

/-! ## A message that is delivered twice -/

section Overlap

/-- Writers that start with empty tables; the provider accepts everything. -/
def write (jobs : List Writer) (order : List (ℕ × ℕ)) : Writers :=
  (writers toString).staged (fun _ _ => true)
    (fun pid c w => w.answer toString pid { outcome := .ok ⟨true, none⟩ } c) {} jobs order

theorem run_write (jobs : List Writer) (order : List (ℕ × ℕ)) :
    (writers toString).Run (fun _ _ => True) {} (write jobs order) := by
  have run : (writers toString).Run (fun _ _ => true = true) {} (write jobs order) :=
    .staged (fun _ _ _ _ _ => World.lossy_of_answer) (fun _ _ => trivial) (fun _ _ => rfl) _ _
  exact run.mono fun _ _ _ => trivial

/-- A row is inserted. Of the three deliveries of its message the first one runs the statements
of the source, and the other two overlap. -/
def overlap : Writers :=
  write
    [ .insert [sampleEntry], .deliver .statements ⟨"SMSProvider"⟩ sampleMessage,
      .deliver .interface ⟨"SMSProvider"⟩ { sampleMessage with dedupKey := "d-2" },
      .deliver .interface ⟨"SMSProvider"⟩ { sampleMessage with dedupKey := "d-2" } ]
    [(0, 5), (1, 20), (2, 1), (3, 2), (2, 10), (3, 10)]

theorem tally_complete_overlap :
    overlap.shared.db.rows.map (fun r => (r.status, r.finalDelivered)) = [(.sent, true)] ∧
    (∀ r ∈ overlap.shared.db.rows, (r.finalDelivered = true ↔ r.status = .sent) ∧
      r.status ≠ .retryScheduled) ∧
    ∀ tenantId, ∃ metrics, (BatchIdempotencyService.getIdempotencyMetrics tenantId).run
        Database.answerTally overlap.shared.db = (.ok metrics, overlap.shared.db) ∧
      metrics.newCount + metrics.duplicateCount + metrics.failedCount =
        (overlap.shared.db.ofTenant tenantId).length :=
  ⟨by decide, tally_complete (run_write _ _) rfl⟩

end Overlap

end Notification
