import Mathlib.Algebra.Group.Int.Defs
import Mathlib.Algebra.Group.Nat.Defs
import Notification.Js.Json

/-!
# Integers as JavaScript numbers, and dates

A number has 53 binary digits, so an integer beyond `2 ^ 53` is rounded to one that needs no
more. What is printed are the fewest digits that are read back as the same number, from
`10 ^ 21` on with an exponent. A date is at most `10 ^ 8` days away from the epoch.
-/

namespace Notification

namespace Number

/-- Up to here every integer is a number. -/
def exactLimit : ℕ := 2 ^ 53

/-- The nearest number, and of two the one whose last digit is even. -/
def roundNat (n : ℕ) : ℕ :=
  let unit := 2 ^ (n.log2 - 52)
  let rest := n % unit
  if unit < 2 * rest ∨ (2 * rest = unit ∧ n / unit % 2 = 1) then (n / unit + 1) * unit
  else n / unit * unit

def round : Int → Int
  | .ofNat n => roundNat n
  | .negSucc n => -(roundNat (n + 1) : Int)

/-- `a + b` -/
def add (a b : Int) : Int := round (a + b)

/-- The multiple of `10 ^ e` that stands for the number `n`, if one does, without its zeros. -/
def shorter? (n e : ℕ) : Option ℕ :=
  let below := n / 10 ^ e
  let rest := n % 10 ^ e
  let nearest := if 2 * rest < 10 ^ e ∨ (2 * rest = 10 ^ e ∧ below % 2 = 0) then [below, below + 1]
    else [below + 1, below]
  nearest.find? fun digits => roundNat (digits * 10 ^ e) == n

/-- The fewest digits that stand for the number, and how many zeros follow them. -/
def shortest (n : ℕ) : ℕ → ℕ × ℕ
  | 0 => (n, 0)
  | e + 1 =>
    match shorter? n (e + 1) with
    | some digits => (digits, e + 1)
    | none => shortest n e

def natText (n : ℕ) : String :=
  if n ≤ exactLimit then n.repr
  else
    let (digits, zeros) := shortest n n.repr.length
    let exponent := digits.repr.length + zeros - 1
    if exponent < 21 then digits.repr ++ String.ofList (List.replicate zeros '0')
    else
      match digits.repr.toList with
      | first :: [] => String.ofList [first] ++ "e+" ++ exponent.repr
      | first :: others => String.ofList (first :: '.' :: others) ++ "e+" ++ exponent.repr
      | [] => ""

/-- `String(n)` -/
def toText : Int → String
  | .ofNat n => natText n
  | .negSucc n => "-" ++ natText (n + 1)

theorem roundNat_of_le {n : ℕ} (h : n ≤ exactLimit) : roundNat n = n := by
  have even (unit : ℕ) (divides : n % unit = 0) (hunit : unit = 2 ^ (n.log2 - 52)) :
      roundNat n = n := by
    have positive : 0 < unit := hunit ▸ Nat.two_pow_pos _
    simp only [roundNat, ← hunit, divides]
    rw [if_neg (by omega), Nat.div_mul_cancel (Nat.dvd_of_mod_eq_zero divides)]
  obtain h | rfl := Nat.lt_or_eq_of_le h
  · have hlog : n.log2 < 53 := by
      by_cases hzero : n = 0
      · simp [hzero]
      · exact (Nat.log2_lt hzero).mpr h
    exact even 1 (Nat.mod_one n) (by rw [show n.log2 - 52 = 0 by omega, Nat.pow_zero])
  · have hlog : exactLimit.log2 = 53 := Nat.log2_two_pow
    exact even 2 (by decide) (by simp [hlog])

theorem round_of_le {n : Int} (h : n.natAbs ≤ exactLimit) : round n = n := by
  cases n with
  | ofNat n => exact congrArg Int.ofNat (roundNat_of_le h)
  | negSucc n => exact congrArg (fun k : ℕ => -(k : Int)) (roundNat_of_le h)

/-- Rounding keeps the first binary digit. -/
theorem two_pow_log2_le_roundNat {n : ℕ} (h : 52 ≤ n.log2) : 2 ^ n.log2 ≤ roundNat n := by
  have nonzero : n ≠ 0 := by
    rintro rfl
    simp at h
  have below : n / 2 ^ (n.log2 - 52) * 2 ^ (n.log2 - 52) ≤ roundNat n := by
    rw [roundNat]
    split
    · exact Nat.mul_le_mul_right _ (Nat.le_succ _)
    · exact Nat.le_refl _
  have digits : 2 ^ 52 ≤ n / 2 ^ (n.log2 - 52) := by
    rw [Nat.le_div_iff_mul_le (Nat.two_pow_pos _), ← Nat.pow_add,
      show 52 + (n.log2 - 52) = n.log2 by omega]
    exact Nat.log2_self_le nonzero
  calc 2 ^ n.log2 = 2 ^ 52 * 2 ^ (n.log2 - 52) := by
        rw [← Nat.pow_add, show 52 + (n.log2 - 52) = n.log2 by omega]
    _ ≤ n / 2 ^ (n.log2 - 52) * 2 ^ (n.log2 - 52) := Nat.mul_le_mul_right _ digits
    _ ≤ roundNat n := below

/-- Rounding does not take a number below a power of 2. -/
theorem two_pow_le_roundNat {n k : ℕ} (hk : 52 ≤ k) (h : 2 ^ k ≤ n) : 2 ^ k ≤ roundNat n := by
  have nonzero : n ≠ 0 := by
    have := Nat.two_pow_pos k
    omega
  have hlog : k ≤ n.log2 := (Nat.le_log2 nonzero).mpr h
  calc 2 ^ k ≤ 2 ^ n.log2 := Nat.pow_le_pow_right (by decide) hlog
    _ ≤ roundNat n := two_pow_log2_le_roundNat (Nat.le_trans hk hlog)

theorem add_of_le {a b : Int} (h : (a + b).natAbs ≤ exactLimit) : add a b = a + b := round_of_le h

theorem natText_of_le {n : ℕ} (h : n ≤ exactLimit) : natText n = n.repr := if_pos h

theorem toText_of_le {n : ℕ} (h : n ≤ exactLimit) : toText n = n.repr := natText_of_le h

/-- From `2 ^ 53` on the next integer is not reached, and `10 ^ 21` has an exponent. -/
example : add (2 ^ 53) 1 = 2 ^ 53 ∧ toText (10 ^ 21) = "1e+21" ∧
    toText (2 ^ 60) = "1152921504606847000" := by decide

end Number

/-- The last millisecond that is a date. -/
def maxTimeValue : ℕ := 8640000000000000

/-- `new Date(time).toISOString()` throws if there is no such date; the text is not modelled. -/
def toISOString (time : Int) : Except JsError Unit :=
  if time.natAbs ≤ maxTimeValue then .ok ()
  else .error { name := "RangeError", message := "Invalid time value" }

theorem toISOString_of_le {time : Int} (h : time.natAbs ≤ maxTimeValue) :
    toISOString time = .ok () := if_pos h

/-- A sum beyond the last date is still beyond it when it is rounded. -/
theorem toISOString_add_of_lt {a b : Int} (h : maxTimeValue < a + b) :
    toISOString (Number.add a b) =
      .error { name := "RangeError", message := "Invalid time value" } := by
  obtain ⟨sum, hsum⟩ := Int.eq_ofNat_of_zero_le (show 0 ≤ a + b by omega)
  refine if_neg (Nat.not_le.mpr ?_)
  rw [Number.add, hsum]
  change maxTimeValue < Number.roundNat sum
  by_cases exact : sum ≤ Number.exactLimit
  · rw [Number.roundNat_of_le exact]
    omega
  · exact Nat.lt_of_lt_of_le (by decide)
      (Number.two_pow_le_roundNat (k := 53) (by decide) (Nat.le_of_not_le exact))

end Notification
