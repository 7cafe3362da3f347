import Notification.Infra.World

/-!
# The numbers of the connections do not matter

Whoever makes a call, the same is answered and the same happens, up to the number of the
connection. So what a process does alone is what it would do under any other number.
-/

namespace Notification

open Interaction

namespace Database

/-- Every connection gets another number. -/
def renumber (f : ℕ → ℕ) (db : Database) : Database :=
  { db with pending := db.pending.map (Prod.map f id), inTransaction := db.inTransaction.map f }

variable {f : ℕ → ℕ} (injective : Function.Injective f) (db : Database) (conn : ℕ)

theorem insertAttempt_renumber (f : ℕ → ℕ) (g : Given) :
    (db.renumber f).insertAttempt g = Prod.map id (renumber f) (db.insertAttempt g) := by
  rw [insertAttempt, insertAttempt, apply_ite (Prod.map id (renumber f))]
  rfl

theorem insertDlq_renumber (f : ℕ → ℕ) (g : Given) :
    (db.renumber f).insertDlq g = Prod.map id (renumber f) (db.insertDlq g) := by
  rw [insertDlq, insertDlq, apply_ite (Prod.map id (renumber f))]
  rfl

section Renumbered

include injective

theorem filter_own_renumber :
    ((db.renumber f).pending.filter fun p => p.1 == f conn) =
      (db.pending.filter fun p => p.1 == conn).map (Prod.map f id) := by
  rw [renumber, List.filter_map]
  congr 1
  exact List.filter_congr fun p _ => by simp [Function.comp, injective.eq_iff, beq_eq_decide]

theorem visible_renumber : (db.renumber f).visible (f conn) = db.visible conn := by
  rw [visible, filter_own_renumber injective, List.map_map]
  rfl

theorem rollback_renumber :
    (db.renumber f).rollback (f conn) = (db.rollback conn).renumber f := by
  have hpending : ((db.renumber f).pending.filter fun p => p.1 != f conn) =
      (db.pending.filter fun p => p.1 != conn).map (Prod.map f id) := by
    rw [renumber, List.filter_map]
    congr 1
    exact List.filter_congr fun p _ => by simp [Function.comp, injective.eq_iff, bne, beq_eq_decide]
  have hopen : ((db.renumber f).inTransaction.filter (· != f conn)) =
      (db.inTransaction.filter (· != conn)).map f := by
    rw [renumber, List.filter_map]
    congr 1
    exact List.filter_congr fun c _ => by simp [Function.comp, injective.eq_iff, bne, beq_eq_decide]
  rw [rollback, hpending, hopen]
  rfl

theorem commit_renumber : (db.renumber f).commit (f conn) = (db.commit conn).renumber f := by
  rw [commit, filter_own_renumber injective, rollback_renumber injective, List.map_map]
  rfl

theorem insertMessage_renumber (row : MessageRow) : (db.renumber f).insertMessage (f conn) row =
    (db.insertMessage conn row).map (Prod.map id (renumber f)) := by
  have hpending : ((db.renumber f).pending.any fun p => row.clashes p.2) =
      db.pending.any fun p => row.clashes p.2 := by
    rw [renumber, List.any_map]
    rfl
  have hopen : (db.renumber f).inTransaction.contains (f conn) =
      db.inTransaction.contains conn := by
    rw [Bool.eq_iff_iff, List.contains_iff_mem, List.contains_iff_mem, renumber]
    exact List.mem_map_of_injective injective
  rw [insertMessage, insertMessage, visible_renumber injective, hpending, hopen]
  split
  · rfl
  · split
    · rfl
    · split
      · simp [renumber]
      · rfl

theorem execute_renumber (statement : Statement) : (db.renumber f).execute (f conn) statement =
    (db.execute conn statement).map (Prod.map id (renumber f)) := by
  cases statement with
  | insert table columns values =>
      simp only [execute]
      split
      · rfl
      · cases table with
        | messages => exact insertMessage_renumber injective db conn _
        | deliveryAttempts => exact congrArg some (insertAttempt_renumber db f _)
        | dlqEntries => exact congrArg some (insertDlq_renumber db f _)
  | update assignments keyColumn key =>
      have hpending : ((db.renumber f).pending.any fun p =>
          some (p.2.column keyColumn) == key.value?) =
          db.pending.any fun p => some (p.2.column keyColumn) == key.value? := by
        rw [renumber, List.any_map]
        rfl
      simp only [execute, hpending]
      split
      · rfl
      · split <;> rfl
  | select columns keyColumns keys =>
      simp only [execute]
      split <;> rfl

theorem answer_renumber (c : SqlCall) : (db.renumber f).answer (f conn) c =
    (db.answer conn c).map (Prod.map id (renumber f)) := by
  cases c with
  | execute statement => exact execute_renumber injective db conn statement
  | commit => simp [answer, commit_renumber injective]
  | rollback => simp [answer, rollback_renumber injective]
  | _ => rfl

end Renumbered

theorem repository_renumber (f : ℕ → ℕ) (c : RepositoryCall) : (db.renumber f).repository c =
    (db.repository c).map (Prod.map id (renumber f)) := by
  cases c with
  | updateStatus messageId status finalDelivered attempts =>
      have hpending : ((db.renumber f).pending.any fun p => p.2.messageId == messageId) =
          db.pending.any fun p => p.2.messageId == messageId := by
        rw [renumber, List.any_map]
        rfl
      simp only [repository, hpending]
      split <;> rfl
  | _ => rfl

end Database

namespace World

def renumber (f : ℕ → ℕ) (w : World) : World := { w with db := w.db.renumber f }

theorem answer_renumber {f : ℕ → ℕ} (injective : Function.Injective f) (uuid : ℕ → String)
    (pid : ℕ) (choice : Choice) (w : World) (c : Call) :
    (w.renumber f).answer uuid (f pid) choice c =
      (w.answer uuid pid choice c).map (Prod.map id (renumber f)) := by
  cases c with
  | sql c =>
      simp only [answer, renumber, Database.answer_renumber injective, Option.map_map]
      rfl
  | repository c =>
      simp only [answer, renumber, Database.repository_renumber, Option.map_map]
      rfl
  | _ => rfl

end World

end Notification
