import Mathlib.Data.List.TakeWhile
import Notification.Js.Number

/-!
# Text operations of the JavaScript standard library
-/

namespace Notification

/-- White space and line terminators, the characters of `\s` and of `trim`. -/
def isJsSpace (c : Char) : Bool :=
  c.toNat ∈ [9, 10, 11, 12, 13, 32, 0xA0, 0x1680, 0x2028, 0x2029, 0x202F, 0x205F, 0x3000, 0xFEFF]
    || (0x2000 ≤ c.toNat && c.toNat ≤ 0x200A)

/-- `text[0]`, `text[1]` and so on, one for each unit of UTF-16. Half of a surrogate pair is no
text by itself; the replacement character stands for it. -/
def codeUnits (text : String) : List String :=
  text.toList.flatMap fun c =>
    if c.toNat < 0x10000 then [String.singleton c] else ["\uFFFD", "\uFFFD"]

/-- `text.trim()` -/
def trim (text : String) : String :=
  String.ofList ((text.toList.dropWhile isJsSpace).reverse.dropWhile isJsSpace).reverse

/-- `text.split(":")` -/
def splitColon (text : String) : List String :=
  (text.toList.splitOn ':').map String.ofList

/-- `text.replace(pattern, "")`, which removes the first occurrence only. -/
def removeFirst (pattern : List Char) : List Char → List Char
  | [] => []
  | c :: rest =>
    if pattern.isPrefixOf (c :: rest) then (c :: rest).drop pattern.length
    else c :: removeFirst pattern rest

/-- The number a run of decimal digits stands for, unless the run is empty. -/
def leadingNumber (chars : List Char) : Option ℕ :=
  match chars.takeWhile Char.isDigit with
  | [] => none
  | digits => some (Nat.ofDigitChars 10 digits 0)

/-- `parseInt(text, 10)`: leading white space, an optional sign, then as many
digits as there are. `none` is `NaN`. -/
def parseInt10 (text : String) : Option Int :=
  match text.toList.dropWhile isJsSpace with
  | '-' :: rest => (leadingNumber rest).map fun n => Number.round (-(n : Int))
  | '+' :: rest => (leadingNumber rest).map fun n => Number.round n
  | rest => (leadingNumber rest).map fun n => Number.round n

def hexDigit? (c : Char) : Option ℕ :=
  if c.isDigit then some (c.toNat - '0'.toNat)
  else if 'a' ≤ c && c ≤ 'f' then some (c.toNat - 'a'.toNat + 10)
  else if 'A' ≤ c && c ≤ 'F' then some (c.toNat - 'A'.toNat + 10)
  else none

/-- The number a run of hexadecimal digits stands for, unless the run is empty. -/
def leadingHex (chars : List Char) : Option ℕ :=
  match (chars.map hexDigit?).takeWhile Option.isSome with
  | [] => none
  | digits => some (digits.foldl (fun n digit => 16 * n + digit.getD 0) 0)

/-- `parseInt(text)`: as with radix 10, but after `0x` the digits are hexadecimal. -/
def parseInt (text : String) : Option Int :=
  let unsigned : List Char → Option ℕ
    | '0' :: 'x' :: rest => leadingHex rest
    | '0' :: 'X' :: rest => leadingHex rest
    | chars => leadingNumber chars
  match text.toList.dropWhile isJsSpace with
  | '-' :: rest => (unsigned rest).map fun n => Number.round (-(n : Int))
  | '+' :: rest => (unsigned rest).map fun n => Number.round n
  | rest => (unsigned rest).map fun n => Number.round n

/-- A text in which no colon occurs, as in uuids, channels and decimal numbers. -/
def NoColon (text : String) : Prop := ':' ∉ text.toList

instance (text : String) : Decidable (NoColon text) := inferInstanceAs (Decidable (_ ∉ _))

theorem splitColon_of_noColon {text : String} (h : NoColon text) : splitColon text = [text] := by
  rw [splitColon, List.splitOn_eq_singleton h]
  simp

theorem splitColon_append {first : String} (h : NoColon first) (rest : String) :
    splitColon (first ++ ":" ++ rest) = first :: splitColon rest := by
  have htext : (first ++ ":" ++ rest).toList = first.toList ++ ':' :: rest.toList := by simp
  rw [splitColon, htext, List.splitOn_append_cons_self_of_not_mem h]
  simp [splitColon]

/-- The last colon of a text tells where its parts end. -/
theorem append_colon_inj {first first' last last' : String} (h : NoColon last)
    (h' : NoColon last') (same : first ++ ":" ++ last = first' ++ ":" ++ last') :
    first = first' ∧ last = last' := by
  have hreverse : last.toList.reverse ++ ':' :: first.toList.reverse =
      last'.toList.reverse ++ ':' :: first'.toList.reverse := by
    have := congrArg (fun text => text.toList.reverse) same
    simpa using this
  have hsplit := congrArg (List.splitOn ':') hreverse
  rw [List.splitOn_append_cons_self_of_not_mem (mt List.mem_reverse.mp h),
    List.splitOn_append_cons_self_of_not_mem (mt List.mem_reverse.mp h')] at hsplit
  have hlast := (List.cons.inj hsplit).1
  rw [hlast, List.append_cancel_left_eq] at hreverse
  exact ⟨String.toList_inj.mp (List.reverse_inj.mp (List.cons.inj hreverse).2),
    String.toList_inj.mp (List.reverse_inj.mp hlast)⟩

theorem isDigit_of_mem_repr {n : ℕ} {c : Char} (h : c ∈ n.repr.toList) : c.isDigit = true := by
  rw [Nat.toList_repr] at h
  exact Nat.isDigit_of_mem_toDigits (by decide) (by decide) h

theorem leadingNumber_repr (n : ℕ) : leadingNumber n.repr.toList = some n := by
  have htake : n.repr.toList.takeWhile Char.isDigit = n.repr.toList :=
    List.takeWhile_eq_self_iff.mpr fun _ => isDigit_of_mem_repr
  have hne : n.repr.toList ≠ [] := by simp
  unfold leadingNumber
  rw [htake]
  split
  · next h => exact absurd h hne
  · rw [Nat.toList_repr, Nat.ofDigitChars_ten_toDigits]

theorem digit_not_space {c : Char} (h : c.isDigit = true) : isJsSpace c = false := by
  simp only [Char.isDigit, Bool.and_eq_true, decide_eq_true_eq] at h
  have h48 : 48 ≤ c.toNat := h.1
  have h57 : c.toNat ≤ 57 := h.2
  simp only [isJsSpace, List.mem_cons, List.not_mem_nil, or_false, Bool.or_eq_false_iff,
    decide_eq_false_iff_not, Bool.and_eq_false_iff]
  omega

/-- `parseInt` reads decimal digits back, as the nearest number. -/
theorem parseInt10_repr (n : ℕ) : parseInt10 n.repr = some (Number.round n) := by
  have hne : n.repr.toList ≠ [] := by simp
  obtain ⟨c, rest, hcons⟩ := List.exists_cons_of_ne_nil hne
  have hdigit : c.isDigit = true := isDigit_of_mem_repr (n := n) (by simp [hcons])
  have hdrop : n.repr.toList.dropWhile isJsSpace = n.repr.toList := by
    rw [hcons, List.dropWhile_cons_of_neg (by simp [digit_not_space hdigit])]
  unfold parseInt10
  rw [hdrop]
  split
  · next h =>
      rw [hcons] at h
      cases h
      exact absurd hdigit (by decide)
  · next h =>
      rw [hcons] at h
      cases h
      exact absurd hdigit (by decide)
  · rw [leadingNumber_repr]
    rfl

/-- A number that is an exact integer is read back as it was printed. -/
theorem parseInt10_toText {n : ℕ} (h : n ≤ Number.exactLimit) :
    parseInt10 (Number.toText n) = some (n : Int) := by
  have exact : Number.round n = n := Number.round_of_le (n := n) h
  rw [Number.toText_of_le h, parseInt10_repr, exact]

theorem repr_injective : Function.Injective Nat.repr := fun m n h => by
  have := congrArg (fun text => leadingNumber text.toList) h
  simp only [leadingNumber_repr] at this
  exact Option.some.inj this

theorem noColon_repr (n : ℕ) : NoColon n.repr :=
  fun h => absurd (isDigit_of_mem_repr h) (by decide)

theorem noColon_append {first last : String} (h : NoColon first) (h' : NoColon last) :
    NoColon (first ++ last) := by
  rw [NoColon, String.toList_append, List.mem_append, not_or]
  exact ⟨h, h'⟩

/-- Digits, a point, signs and the `e` of an exponent are all that a number is printed with. -/
theorem noColon_natText (n : ℕ) : NoColon (Number.natText n) := by
  rw [Number.natText]
  split
  · exact noColon_repr n
  · generalize Number.shortest n n.repr.length = result
    obtain ⟨digits, zeros⟩ := result
    dsimp only
    split
    · refine noColon_append (noColon_repr digits) fun h => ?_
      rw [String.toList_ofList] at h
      exact absurd (List.eq_of_mem_replicate h) (by decide)
    · have hdigits := noColon_repr digits
      split
      · next first h =>
        rw [NoColon, h] at hdigits
        refine noColon_append (noColon_append ?_ (by decide)) (noColon_repr _)
        rwa [NoColon, String.toList_ofList]
      · next first others _ h =>
        rw [NoColon, h, List.mem_cons, not_or] at hdigits
        refine noColon_append (noColon_append ?_ (by decide)) (noColon_repr _)
        rw [NoColon, String.toList_ofList, List.mem_cons, List.mem_cons]
        rintro (h | h | h)
        · exact hdigits.1 h
        · exact absurd h (by decide)
        · exact hdigits.2 h
      · decide

theorem noColon_toText (n : Int) : NoColon (Number.toText n) := by
  cases n with
  | ofNat n => exact noColon_natText n
  | negSucc n => exact noColon_append (by decide) (noColon_natText (n + 1))

end Notification
