import Mathlib.Data.List.Infix
import Notification.Infra.Redis

/-!
# The names of the top-level keys

`KEYS` lists the keys whose names match a glob pattern. For it Redis is taken together with
the list of these names. The members of a sorted set are no keys, and a sorted set without
members is none either.
-/

namespace Notification

/-! ## Glob patterns -/

/-- `*`, or one character inside or outside of some ranges, whose ends may be in either order. -/
inductive GlobPart where
  | any
  | oneOf (negated : Bool) (ranges : List (Char × Char))
  deriving DecidableEq

mutual

def globParts : List Char → List GlobPart
  | [] => []
  | '*' :: rest => .any :: globParts rest
  | '?' :: rest => .oneOf true [] :: globParts rest
  | '[' :: '^' :: rest => globClass true [] rest
  | '[' :: rest => globClass false [] rest
  | '\\' :: c :: rest => .oneOf false [(c, c)] :: globParts rest
  | c :: rest => .oneOf false [(c, c)] :: globParts rest

/-- What is left of a class, which ends with `]` or with the pattern. -/
def globClass (negated : Bool) (ranges : List (Char × Char)) : List Char → List GlobPart
  | [] => [.oneOf negated ranges]
  | '\\' :: c :: rest => globClass negated ((c, c) :: ranges) rest
  | ']' :: rest => .oneOf negated ranges :: globParts rest
  | first :: '-' :: last :: rest => globClass negated ((first, last) :: ranges) rest
  | c :: rest => globClass negated ((c, c) :: ranges) rest

end

def inClass (ranges : List (Char × Char)) (c : Char) : Bool :=
  ranges.any fun r => (r.1 ≤ c && c ≤ r.2) || (r.2 ≤ c && c ≤ r.1)

def globMatches : List GlobPart → List Char → Bool
  | [], text => text.isEmpty
  | .any :: parts, text => text.tails.any (globMatches parts)
  | .oneOf _ _ :: _, [] => false
  | .oneOf negated ranges :: parts, c :: rest =>
    (negated != inClass ranges c) && globMatches parts rest

def glob (pattern text : String) : Bool := globMatches (globParts pattern.toList) text.toList

/-- A text without the characters that mean something in a pattern. -/
def Plain (text : String) : Prop := ∀ c ∈ text.toList, c ∉ ['*', '?', '[', '\\']

instance (text : String) : Decidable (Plain text) := inferInstanceAs (Decidable (∀ c ∈ _, _))

example : glob "h[a-c]llo*" "hbllo, world" = true := by decide

theorem globMatches_any (text : List Char) : globMatches [.any] text = true := by
  simp only [globMatches, List.any_eq_true]
  exact ⟨[], (List.mem_tails _ _).mpr List.nil_suffix, rfl⟩

theorem globParts_plain {c : Char} (plain : c ∉ ['*', '?', '[', '\\']) (rest : List Char) :
    globParts (c :: rest) = .oneOf false [(c, c)] :: globParts rest := by
  simp only [List.mem_cons, List.not_mem_nil, or_false, not_or] at plain
  obtain ⟨star, mark, bracket, backslash⟩ := plain
  rw [globParts]
  all_goals grind

theorem inClass_singleton {c d : Char} : inClass [(c, c)] d = true ↔ c = d := by
  simp only [inClass, List.any_cons, List.any_nil, Bool.or_false, Bool.or_eq_true,
    Bool.and_eq_true, decide_eq_true_eq]
  constructor
  · rintro (⟨h, h'⟩ | ⟨h, h'⟩)
    · exact Char.le_antisymm h h'
    · exact Char.le_antisymm h h'
  · rintro rfl
    exact .inl ⟨Char.le_refl c, Char.le_refl c⟩

/-- A plain text and a star match what begins with the text. -/
theorem globMatches_plain {chars : List Char} (plain : ∀ c ∈ chars, c ∉ ['*', '?', '[', '\\'])
    (text : List Char) : globMatches (globParts (chars ++ ['*'])) text = true ↔ chars <+: text := by
  induction chars generalizing text with
  | nil => exact iff_of_true (globMatches_any text) List.nil_prefix
  | cons c rest ih =>
      rw [List.cons_append, globParts_plain (plain c List.mem_cons_self)]
      cases text with
      | nil => exact iff_of_false (by simp [globMatches]) (by simp)
      | cons d text =>
          rw [globMatches, Bool.false_bne, Bool.and_eq_true, inClass_singleton,
            ih (fun c hc => plain c (List.mem_cons_of_mem _ hc)), List.cons_prefix_cons]

theorem glob_plain {text : String} (plain : Plain text) (key : String) :
    glob (text ++ "*") key = true ↔ text.toList <+: key.toList := by
  rw [glob, String.toList_append]
  exact globMatches_plain plain key.toList

/-! ## Redis with its names -/

/-- There is a key of this name. -/
def Redis.Stored (r : Redis) (key : String) : Prop :=
  (r.live key).isSome = true ∨ r.zsets key ≠ []

instance (r : Redis) (key : String) : Decidable (r.Stored key) :=
  inferInstanceAs (Decidable (_ ∨ _))

structure Keyspace extends Redis where
  names : List String
  complete : ∀ key, key ∈ names ↔ toRedis.Stored key

def Redis.zRem (r : Redis) (key member : String) : Redis :=
  { r with zsets := Function.update r.zsets key ((r.zsets key).filter fun m => m.1 != member) }

namespace Keyspace

theorem stored_of_zRem {r : Redis} {key member name : String}
    (h : (r.zRem key member).Stored name) :
    r.Stored name := by
  refine h.imp_right fun some none => some ?_
  by_cases heq : name = key
  · subst heq
    simp [Redis.zRem, none]
  · simp [Redis.zRem, heq, none]

/-- The key of a sorted set goes with its last member. -/
def zRem (k : Keyspace) (key member : String) : Keyspace where
  toRedis := k.toRedis.zRem key member
  names := k.names.filter fun name => (k.toRedis.zRem key member).Stored name
  complete name := by
    rw [List.mem_filter, k.complete, decide_eq_true_iff]
    exact ⟨fun h => h.2, fun h => ⟨stored_of_zRem h, h⟩⟩

end Keyspace

inductive KeyCall where
  | keys (pattern : String)
  | zRem (key member : String)

abbrev KeyCall.Reply : KeyCall → Type
  | .keys _ => List String
  | .zRem _ _ => ℕ

/-- The reply of a Redis that is up, and the state after it. -/
def Keyspace.answer : (c : KeyCall) → Keyspace → Except JsError c.Reply × Keyspace
  | .keys pattern, k => (.ok (k.names.filter fun name => glob pattern name), k)
  | .zRem key member, k =>
    (.ok ((k.zsets key).filter fun m => m.1 == member).length, k.zRem key member)

end Notification
