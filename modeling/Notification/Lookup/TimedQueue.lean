import Mathlib.Data.List.Nodup
import Mathlib.Data.Set.List
import Mathlib.Logic.Function.Basic
import Mathlib.Tactic.Common

/-!
# Timed queues

A timed queue holds items that become due at some time; an item that is put in again only
gets another time. `Represents` relates it to a list of keys with their times, sorted by
time, as a sorted set keeps them.
-/

namespace Lookup

variable {ι κ : Type}

/-- The items that are waiting, with the time they are due at. -/
abbrev TimedQueue (ι : Type) := ι → Option Int

namespace TimedQueue

def empty : TimedQueue ι := fun _ => none

def put [DecidableEq ι] (q : TimedQueue ι) (i : ι) (due : Int) : TimedQueue ι :=
  Function.update q i (some due)

/-- What is left when everything that is due has been taken. -/
def later (q : TimedQueue ι) (now : Int) : TimedQueue ι :=
  fun i => (q i).filter fun due => now < due

/-- The items that are due, each once, the earliest first. -/
structure Due (q : TimedQueue ι) (now : Int) (items : List ι) : Prop where
  nodup : items.Nodup
  mem : ∀ i, i ∈ items ↔ ∃ due, q i = some due ∧ due ≤ now
  sorted : items.Pairwise fun i j => ∀ due due', q i = some due → q j = some due' → due ≤ due'

theorem later_eq_some {q : TimedQueue ι} {now due : Int} {i : ι} :
    q.later now i = some due ↔ q i = some due ∧ now < due := by
  simp [later, Option.filter_eq_some_iff]

theorem put_eq_some [DecidableEq ι] {q : TimedQueue ι} {i j : ι} {due due' : Int} :
    q.put i due j = some due' ↔ (j = i ∧ due = due') ∨ (j ≠ i ∧ q j = some due') := by
  by_cases h : j = i
  · subst h
    simp [put]
  · simp [put, h]

/-- A list of keys, each once and the earliest first, that holds just the items of a queue. -/
structure Represents (encode : ι → κ) (q : TimedQueue ι) (l : List (κ × Int)) : Prop where
  nodup : (l.map Prod.fst).Nodup
  sorted : l.Pairwise fun x y => x.2 ≤ y.2
  mem : ∀ x, x ∈ l ↔ ∃ i, q i = some x.2 ∧ encode i = x.1

namespace Represents

variable {encode : ι → κ} {q : TimedQueue ι} {l l' : List (κ × Int)}

theorem nil (encode : ι → κ) : Represents encode empty [] :=
  ⟨List.nodup_nil, List.Pairwise.nil, fun x => by simp [empty]⟩

/-- The key of the item is taken out and put in again with the new time. -/
theorem put [DecidableEq ι] [DecidableEq κ] (h : Represents encode q l)
    (injective : Function.Injective encode) (i : ι) (due : Int)
    (perm : l'.Perm ((encode i, due) :: l.filter fun x => x.1 != encode i))
    (sorted : l'.Pairwise fun x y => x.2 ≤ y.2) : Represents encode (q.put i due) l' := by
  refine ⟨?_, sorted, fun x => ?_⟩
  · rw [(perm.map Prod.fst).nodup_iff, List.map_cons, List.nodup_cons]
    refine ⟨fun hmem => ?_, h.nodup.sublist (List.filter_sublist.map Prod.fst)⟩
    obtain ⟨x, hx, heq⟩ := List.mem_map.mp hmem
    simpa [heq] using (List.mem_filter.mp hx).2
  · rw [perm.mem_iff, List.mem_cons, List.mem_filter, h.mem x]
    constructor
    · rintro (rfl | ⟨⟨j, hj, hkey⟩, hother⟩)
      · exact ⟨i, put_eq_some.mpr (.inl ⟨rfl, rfl⟩), rfl⟩
      · refine ⟨j, put_eq_some.mpr (.inr ⟨fun hsame => ?_, hj⟩), hkey⟩
        simp [← hkey, hsame] at hother
    · rintro ⟨j, hj, hkey⟩
      obtain ⟨rfl, hdue⟩ | ⟨hother, hj⟩ := put_eq_some.mp hj
      · exact .inl (Prod.ext hkey.symm hdue.symm)
      · refine .inr ⟨⟨j, hj, hkey⟩, ?_⟩
        simpa [← hkey] using fun hsame => hother (injective hsame)

theorem later (h : Represents encode q l) (now : Int) :
    Represents encode (q.later now) (l.filter fun x => now < x.2) := by
  refine ⟨h.nodup.sublist (List.filter_sublist.map Prod.fst),
    h.sorted.sublist List.filter_sublist, fun x => ?_⟩
  rw [List.mem_filter, h.mem x, decide_eq_true_iff]
  constructor
  · rintro ⟨⟨i, hi, hkey⟩, hlate⟩
    exact ⟨i, later_eq_some.mpr ⟨hi, hlate⟩, hkey⟩
  · rintro ⟨i, hi, hkey⟩
    obtain ⟨hi, hlate⟩ := later_eq_some.mp hi
    exact ⟨⟨i, hi, hkey⟩, hlate⟩

theorem time_eq (h : Represents encode q l) (injective : Function.Injective encode)
    {x : κ × Int} (member : x ∈ l) {i : ι} (key : encode i = x.1) : q i = some x.2 := by
  obtain ⟨j, hj, hkey⟩ := (h.mem x).mp member
  rwa [injective (key.trans hkey.symm)]

/-- The keys up to some time are those of the items that are due. -/
theorem due (h : Represents encode q l) (injective : Function.Injective encode) (now : Int) :
    ∃ items, Due q now items ∧
      items.map encode = (l.filter fun x => x.2 ≤ now).map Prod.fst := by
  have hrange : (l.filter fun x => x.2 ≤ now).map Prod.fst ∈ Set.range (List.map encode) := by
    rw [Set.range_list_map]
    intro key hkey
    obtain ⟨x, hx, rfl⟩ := List.mem_map.mp hkey
    obtain ⟨i, -, hi⟩ := (h.mem x).mp (List.mem_of_mem_filter hx)
    exact ⟨i, hi⟩
  obtain ⟨items, hitems⟩ := hrange
  refine ⟨items, ⟨?_, fun i => ?_, ?_⟩, hitems⟩
  · apply List.Nodup.of_map encode
    rw [hitems]
    exact h.nodup.sublist (List.filter_sublist.map Prod.fst)
  · rw [← List.mem_map_of_injective injective, hitems, List.mem_map]
    constructor
    · rintro ⟨x, hx, hkey⟩
      obtain ⟨hmem, hdue⟩ := List.mem_filter.mp hx
      exact ⟨x.2, h.time_eq injective hmem hkey.symm, by simpa using hdue⟩
    · rintro ⟨due, hi, hdue⟩
      have hmem : (encode i, due) ∈ l := (h.mem _).mpr ⟨i, hi, rfl⟩
      exact ⟨_, List.mem_filter.mpr ⟨hmem, by simpa using hdue⟩, rfl⟩
  · have hsorted : ((l.filter fun x => x.2 ≤ now).map Prod.fst).Pairwise fun k k' =>
        ∀ i j, encode i = k → encode j = k' →
          ∀ due due', q i = some due → q j = some due' → due ≤ due' := by
      rw [List.pairwise_map]
      refine (h.sorted.filter _).imp_of_mem fun {x y} hx hy hle i j hi hj due due' hdue hdue' => ?_
      rw [h.time_eq injective (List.mem_of_mem_filter hx) hi] at hdue
      rw [h.time_eq injective (List.mem_of_mem_filter hy) hj] at hdue'
      cases hdue
      cases hdue'
      exact hle
    rw [← hitems, List.pairwise_map] at hsorted
    exact hsorted.imp fun hle => hle _ _ rfl rfl

end Represents

end TimedQueue

end Lookup
