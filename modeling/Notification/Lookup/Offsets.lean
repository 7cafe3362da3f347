import Mathlib.Data.List.Infix

/-!
# Logs that are read by offset

A log is read in sections that may start anywhere below the offset reached so far. What has
been established for the entries up to there is extended by each section, and it is kept when
the log grows.
-/

namespace Lookup

variable {β : Type}

/-- The entries from one offset of a log up to another satisfy `φ`. -/
structure Covered (φ : β → Prop) (log : List β) (lo hi : ℕ) : Prop where
  bounded : hi ≤ log.length
  holds : ∀ offset b, lo ≤ offset → offset < hi → log[offset]? = some b → φ b

variable {φ ψ : β → Prop} {log log' : List β} {lo hi : ℕ}

/-- An entry of a log stays where it is. -/
theorem getElem?_of_grows (grows : log <+: log') {offset : ℕ} {b : β}
    (h : log[offset]? = some b) : log'[offset]? = some b := by
  obtain ⟨hlt, rfl⟩ := List.getElem?_eq_some_iff.mp h
  exact List.prefix_iff_getElem?.mp grows offset hlt

theorem Covered.nothing (h : lo ≤ log.length) : Covered φ log lo lo :=
  ⟨h, fun _ _ hlo hhi => absurd hlo (by omega)⟩

theorem Covered.mono (h : Covered φ log lo hi) (grows : log <+: log') (weaker : ∀ b, φ b → ψ b) :
    Covered ψ log' lo hi := by
  refine ⟨h.bounded.trans grows.length_le, fun offset b hlo hhi hb => ?_⟩
  obtain ⟨rest, rfl⟩ := grows
  rw [List.getElem?_append_left (by have := h.bounded; omega)] at hb
  exact weaker b (h.holds offset b hlo hhi hb)

/-- A section of `n` entries from `start` on extends what is covered. -/
theorem Covered.extend (h : Covered φ log lo hi) {start n : ℕ} (connected : start ≤ hi)
    (bounded : start + n ≤ log.length)
    (holds : ∀ i b, i < n → log[start + i]? = some b → φ b) :
    Covered φ log lo (max hi (start + n)) := by
  refine ⟨Nat.max_le.mpr ⟨h.bounded, bounded⟩, fun offset b hlo hhi hb => ?_⟩
  by_cases hold : offset < hi
  · exact h.holds offset b hlo hold hb
  · refine holds (offset - start) b (by omega) ?_
    rwa [show start + (offset - start) = offset by omega]

end Lookup
