import Mathlib.Logic.Function.Basic
import Notification.Js.Json

/-!
# Redis: expiring keys and sorted sets

Every text the services store is a JSON text and is represented by the value it
denotes: the `"1"` of the caches is the number 1. Every command is atomic. `setNX`
of the node-redis client sends `SETNX` with the key and the value only, so the key
it sets has no expiry; `setEx` sets one.
-/

namespace Notification

structure RedisEntry where
  value : Json
  expiresAt : Option Int

/-- String keys and sorted sets; `time` is the server's clock in seconds. A sorted
set lists its members by ascending score and, for equal scores, by member. -/
structure Redis where
  time : Int := 0
  strings : String → Option RedisEntry := fun _ => none
  zsets : String → List (String × Int) := fun _ => []

inductive RedisCall where
  | exists (key : String)
  | setNX (key : String) (value : Json)
  | setEx (key : String) (seconds : Int) (value : Json)
  | get (key : String)
  | zAdd (key : String) (score : Int) (member : String)
  | zRangeByScore (key : String) (min max : Int)
  | zRemRangeByScore (key : String) (min max : Int)

abbrev RedisCall.Reply : RedisCall → Type
  | .exists _ => ℕ
  | .setNX _ _ => Bool
  | .setEx _ _ _ => Unit
  | .get _ => Option Json
  | .zAdd _ _ _ => Unit
  | .zRangeByScore _ _ _ => List String
  | .zRemRangeByScore _ _ _ => ℕ

namespace Redis

/-- The entry of a key that has not expired. -/
def live (r : Redis) (key : String) : Option RedisEntry :=
  (r.strings key).filter fun e => e.expiresAt.all (r.time < ·)

def set (r : Redis) (key : String) (value : Json) (expiresAt : Option Int) : Redis :=
  { r with strings := Function.update r.strings key (some ⟨value, expiresAt⟩) }

/-- Put a member at its place in a sorted set. -/
def insertSorted (m : String × Int) : List (String × Int) → List (String × Int)
  | [] => [m]
  | x :: rest =>
    if m.2 < x.2 ∨ (m.2 = x.2 ∧ m.1 < x.1) then m :: x :: rest else x :: insertSorted m rest

/-- A member that is present already only gets the new score. -/
def zAdd (r : Redis) (key : String) (score : Int) (member : String) : Redis :=
  let others := (r.zsets key).filter fun m => m.1 != member
  { r with zsets := Function.update r.zsets key (insertSorted (member, score) others) }

def inRange (min max : Int) (m : String × Int) : Bool := min ≤ m.2 && m.2 ≤ max

def zRemRangeByScore (r : Redis) (key : String) (min max : Int) : Redis :=
  let kept := (r.zsets key).filter fun m => !inRange min max m
  { r with zsets := Function.update r.zsets key kept }

/-- The reply to a command and the state after it. -/
def answer (r : Redis) : (c : RedisCall) → Except JsError c.Reply × Redis
  | .exists key => (.ok (if (r.live key).isSome then 1 else 0 : ℕ), r)
  | .setNX key value =>
    if (r.live key).isSome then (.ok false, r) else (.ok true, r.set key value none)
  | .setEx key seconds value => (.ok (), r.set key value (some (r.time + seconds)))
  | .get key => (.ok ((r.live key).map RedisEntry.value), r)
  | .zAdd key score member => (.ok (), r.zAdd key score member)
  | .zRangeByScore key min max =>
    (.ok (((r.zsets key).filter (inRange min max)).map Prod.fst), r)
  | .zRemRangeByScore key min max =>
    (.ok ((r.zsets key).filter (inRange min max)).length, r.zRemRangeByScore key min max)

theorem answer_ok (r : Redis) (c : RedisCall) : ∃ a, (r.answer c).1 = .ok a := by
  cases c with
  | setNX key value =>
      rw [answer]
      split <;> exact ⟨_, rfl⟩
  | _ => exact ⟨_, rfl⟩

@[simp] theorem live_set_self (r : Redis) (key : String) (value : Json) :
    (r.set key value none).live key = some ⟨value, none⟩ := by
  simp [live, set]

theorem live_set_ne (r : Redis) {key key' : String} (h : key' ≠ key) (value : Json)
    (expiresAt : Option Int) : (r.set key value expiresAt).live key' = r.live key' := by
  simp only [live, set, Function.update_of_ne h]
  rfl

/-- A key that has not expired later has not expired now. -/
theorem live_of_later (r : Redis) {key : String} {time : Int} {e : RedisEntry} (h : r.time ≤ time)
    (later : ({ r with time := time } : Redis).live key = some e) : r.live key = some e := by
  obtain ⟨hentry, hexpires⟩ := Option.filter_eq_some_iff.mp later
  refine Option.filter_eq_some_iff.mpr ⟨hentry, ?_⟩
  rw [Option.all_eq_true] at hexpires ⊢
  intro expiresAt hexpiresAt
  have := hexpires expiresAt hexpiresAt
  simp only [decide_eq_true_eq] at this ⊢
  omega

theorem insertSorted_perm (m : String × Int) (l : List (String × Int)) :
    (insertSorted m l).Perm (m :: l) := by
  induction l with
  | nil => exact .refl _
  | cons y rest ih =>
      rw [insertSorted]
      split
      · exact .refl _
      · exact (ih.cons y).trans (.swap m y rest)

theorem mem_insertSorted {x m : String × Int} {l : List (String × Int)} :
    x ∈ insertSorted m l ↔ x = m ∨ x ∈ l :=
  (insertSorted_perm m l).mem_iff.trans List.mem_cons

theorem sorted_insertSorted {m : String × Int} {l : List (String × Int)}
    (h : l.Pairwise fun x y => x.2 ≤ y.2) : (insertSorted m l).Pairwise fun x y => x.2 ≤ y.2 := by
  induction l with
  | nil => exact List.pairwise_singleton _ _
  | cons y rest ih =>
      obtain ⟨hy, hrest⟩ := List.pairwise_cons.mp h
      rw [insertSorted]
      split
      · next before =>
          have hm : m.2 ≤ y.2 := by omega
          refine List.pairwise_cons.mpr ⟨fun x hx => ?_, h⟩
          obtain rfl | hx := List.mem_cons.mp hx
          · exact hm
          · exact Int.le_trans hm (hy x hx)
      · next after =>
          have hm : y.2 ≤ m.2 := by omega
          refine List.pairwise_cons.mpr ⟨fun x hx => ?_, ih hrest⟩
          obtain rfl | hx := mem_insertSorted.mp hx
          · exact hm
          · exact hy x hx

@[simp] theorem zAdd_zsets (r : Redis) (key : String) (score : Int) (member : String) :
    (r.zAdd key score member).zsets key =
      insertSorted (member, score) ((r.zsets key).filter fun m => m.1 != member) := by
  simp [zAdd]

@[simp] theorem zRemRangeByScore_zsets (r : Redis) (key : String) (min max : Int) :
    (r.zRemRangeByScore key min max).zsets key =
      (r.zsets key).filter fun m => !inRange min max m := by
  simp [zRemRangeByScore]

theorem mem_zAdd {x : String × Int} {r : Redis} {key : String} {score : Int} {member : String} :
    x ∈ (r.zAdd key score member).zsets key ↔
      x = (member, score) ∨ (x ∈ r.zsets key ∧ x.1 ≠ member) := by
  simp [zAdd, mem_insertSorted]

/-- Each member of a sorted set is listed once, whatever the command is. -/
theorem nodup_answer {r : Redis} {key : String} (h : ((r.zsets key).map Prod.fst).Nodup)
    (c : RedisCall) : (((r.answer c).2.zsets key).map Prod.fst).Nodup := by
  cases c with
  | setNX key' value =>
      rw [answer]
      split <;> exact h
  | zAdd key' score member =>
      by_cases hkey : key = key'
      · subst hkey
        have members := (insertSorted_perm (member, score)
          ((r.zsets key).filter fun m => m.1 != member)).map Prod.fst
        rw [answer, zAdd_zsets, members.nodup_iff, List.map_cons, List.nodup_cons]
        constructor
        · intro hmem
          obtain ⟨x, hx, heq⟩ := List.mem_map.mp hmem
          simpa [heq] using (List.mem_filter.mp hx).2
        · exact h.sublist (List.filter_sublist.map Prod.fst)
      · simpa [answer, zAdd, hkey] using h
  | zRemRangeByScore key' min max =>
      by_cases hkey : key = key'
      · subst hkey
        rw [answer, zRemRangeByScore_zsets]
        exact h.sublist (List.filter_sublist.map Prod.fst)
      · simpa [answer, zRemRangeByScore, hkey] using h
  | _ => exact h

end Redis

end Notification
