import Mathlib.Data.List.Dedup
import Mathlib.Logic.Function.Basic

/-!
# Groups of rows, and maps that are read off them

Rows are grouped by a key, and a map is filled from the groups. The order of the groups does
not matter, and a key without rows keeps what the map held before.
-/

namespace Lookup

variable {α β κ : Type} [DecidableEq κ]

/-- Each key with its rows. -/
def grouped (key : α → κ) (rows : List α) : List (κ × List α) :=
  (rows.map key).dedup.map fun k => (k, rows.filter fun r => key r == k)

/-- A map that is filled entry by entry. -/
def collect (initial : κ → β) (entries : List (κ × β)) : κ → β :=
  entries.foldl (fun m e => Function.update m e.1 e.2) initial

variable {initial : κ → β} {entries : List (κ × β)} {k : κ}

theorem collect_of_notMem (h : k ∉ entries.map Prod.fst) :
    collect initial entries k = initial k := by
  induction entries generalizing initial with
  | nil => rfl
  | cons e rest ih =>
      rw [List.map_cons, List.mem_cons, not_or] at h
      exact (ih h.2).trans (Function.update_of_ne h.1 _ _)

theorem collect_of_mem (nodup : (entries.map Prod.fst).Nodup) {b : β}
    (member : (k, b) ∈ entries) : collect initial entries k = b := by
  induction entries generalizing initial with
  | nil => cases member
  | cons e rest ih =>
      rw [List.map_cons, List.nodup_cons] at nodup
      obtain rfl | member := List.mem_cons.mp member
      · exact (collect_of_notMem nodup.1).trans (Function.update_self _ _ _)
      · exact ih nodup.2 member

/-- In whatever order the groups come, each key gets what is computed from its rows. -/
theorem collect_grouped {key : α → κ} {rows : List α} {groups : List (κ × List α)}
    (order : groups.Perm (grouped key rows)) (f : List α → β) (empty : initial k = f []) :
    collect initial (groups.map fun g => (g.1, f g.2)) k = f (rows.filter fun r => key r == k) := by
  have hkeys : ((groups.map fun g => (g.1, f g.2)).map Prod.fst).Perm (rows.map key).dedup := by
    rw [List.map_map]
    apply (order.map _).trans
    rw [grouped, List.map_map]
    exact .of_eq (List.map_id _)
  by_cases hk : k ∈ (rows.map key).dedup
  · apply collect_of_mem (hkeys.nodup_iff.mpr (List.nodup_dedup _))
    have hgroup : (k, rows.filter fun r => key r == k) ∈ groups :=
      order.mem_iff.mpr (List.mem_map_of_mem hk)
    exact List.mem_map_of_mem (f := fun g => (g.1, f g.2)) hgroup
  · have hnone : (rows.filter fun r => key r == k) = [] := by
      rw [List.filter_eq_nil_iff]
      intro r hr heq
      exact hk (List.mem_dedup.mpr (eq_of_beq heq ▸ List.mem_map_of_mem hr))
    rw [hnone, ← empty]
    exact collect_of_notMem fun member => hk (hkeys.mem_iff.mp member)

end Lookup
