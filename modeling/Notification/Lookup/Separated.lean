import Mathlib.Data.List.Basic

/-!
# Fields that are joined with a separator

If the separator may occur in the fields, the joined text only keeps the pieces between any two
separators. Where one field ends and the next one begins is lost.
-/

namespace Lookup

variable {α : Type} [DecidableEq α] (sep : α)

/-- What is between two separators, whether they are in a field or join two fields. -/
def pieces (fields : List (List α)) : List (List α) := fields.flatMap fun f => f.splitOn sep

/-- How many pieces each of the fields has. -/
def cuts (fields : List (List α)) : List ℕ := fields.map fun f => (f.splitOn sep).length

/-- The fields have the same pieces and are cut at different separators. -/
def Recut (fields fields' : List (List α)) : Prop :=
  pieces sep fields = pieces sep fields' ∧ cuts sep fields ≠ cuts sep fields'

instance (fields fields' : List (List α)) : Decidable (Recut sep fields fields') :=
  inferInstanceAs (Decidable (_ ∧ _))

variable {sep} {fields fields' : List (List α)}

theorem splitOn_inj {f f' : List α} (h : f.splitOn sep = f'.splitOn sep) : f = f' := by
  have joined : [sep].intercalate (f.splitOn sep) = [sep].intercalate (f'.splitOn sep) := by rw [h]
  rwa [List.intercalate_splitOn, List.intercalate_splitOn] at joined

/-- A joined text is split into the pieces. -/
theorem splitOn_intercalate_eq (nonempty : fields ≠ []) :
    ([sep].intercalate fields).splitOn sep = pieces sep fields := by
  induction fields with
  | nil => exact absurd rfl nonempty
  | cons f rest ih =>
      cases rest with
      | nil => simp [pieces]
      | cons g rest =>
          have hjoin : [sep].intercalate (f :: g :: rest) =
              f ++ sep :: [sep].intercalate (g :: rest) := by
            rw [List.intercalate_cons_of_ne_nil (List.cons_ne_nil g rest), List.append_assoc]
            rfl
          rw [hjoin, List.splitOn_append_cons_self, ih (List.cons_ne_nil g rest)]
          rfl

/-- Two joined texts are the same exactly if they have the same pieces. -/
theorem intercalate_eq_iff (nonempty : fields ≠ []) (nonempty' : fields' ≠ []) :
    [sep].intercalate fields = [sep].intercalate fields' ↔
      pieces sep fields = pieces sep fields' := by
  rw [← splitOn_intercalate_eq nonempty, ← splitOn_intercalate_eq nonempty']
  constructor
  · intro h
    rw [h]
  · exact splitOn_inj

/-- Pieces and cuts together determine the fields. -/
theorem eq_of_pieces_of_cuts (same : pieces sep fields = pieces sep fields')
    (cut : cuts sep fields = cuts sep fields') : fields = fields' := by
  induction fields generalizing fields' with
  | nil => exact (List.map_eq_nil_iff.mp cut.symm).symm
  | cons f rest ih =>
      cases fields' with
      | nil => cases cut
      | cons f' rest' =>
          obtain ⟨hlength, hcut⟩ := List.cons.inj cut
          obtain ⟨hsplit, hsame⟩ := List.append_inj same hlength
          rw [splitOn_inj hsplit, ih hsame hcut]

/-- Fields are told apart by the joined text exactly if they are no recut of each other. -/
theorem intercalate_identifies_iff (nonempty : fields ≠ []) (nonempty' : fields' ≠ []) :
    ([sep].intercalate fields = [sep].intercalate fields' → fields = fields') ↔
      ¬ Recut sep fields fields' := by
  rw [intercalate_eq_iff nonempty nonempty', Recut, not_and_not_right]
  constructor
  · intro h same
    rw [h same]
  · exact fun h same => eq_of_pieces_of_cuts same (h same)

end Lookup
