import IpUtils.CLib.Strings
import Mathlib.Data.Nat.Digits.Defs
import Mathlib.Tactic.IntervalCases

/-! # Numerals

`strtol` and `strtoul` with their saturation, the narrowing conversions of the
integers they return, and the decimal output of `printf`.
-/

namespace IpUtils

namespace CLib

/-- The value of a digit or letter in the bases `strtol` is used with. -/
def digitValue (c : UInt8) : Nat :=
  if 48 ≤ c && c ≤ 57 then c.toNat - 48
  else if 97 ≤ c && c ≤ 122 then c.toNat - 87
  else if 65 ≤ c && c ≤ 90 then c.toNat - 55
  else 36

/-- The number denoted by a run of digits. -/
def digitsValue (base : Nat) (digits : Bytes) : Nat :=
  digits.foldl (fun value c => value * base + digitValue c) 0

/-- Skip the `0x` that base 16 allows in front of a hexadecimal digit. -/
def skipHexPrefix (base : Nat) (text : Bytes) : Bytes :=
  match text with
  | 48 :: x :: c :: rest =>
      if base = 16 && tolower x = 120 && digitValue c < 16 then c :: rest else text
  | _ => text

/-- The sign and the magnitude that `strtol` reads from a string: white space is
skipped, then an optional sign, then the longest run of digits. -/
def parseNumeral (base : Nat) (text : Bytes) : Bool × Nat :=
  let body := (cstr text).dropWhile isspace
  let negative := body.head? == some 45
  let digits := if body.head? == some 45 || body.head? == some 43 then body.tail else body
  (negative, digitsValue base ((skipHexPrefix base digits).takeWhile (digitValue · < base)))

def longMax : Int := 2 ^ 63 - 1

def longMin : Int := -2 ^ 63

/-- `strtol(text, NULL, base)`. -/
def strtol (base : Nat) (text : Bytes) : Int :=
  match parseNumeral base text with
  | (false, magnitude) => min magnitude longMax
  | (true, magnitude) => max (-magnitude) longMin

/-- `strtoul(text, NULL, base)`: out of range it is `ULONG_MAX`, and a sign negates
modulo 2^64. -/
def strtoul (base : Nat) (text : Bytes) : Nat :=
  match parseNumeral base text with
  | (negative, magnitude) =>
      if 2 ^ 64 ≤ magnitude then 2 ^ 64 - 1
      else if negative then (2 ^ 64 - magnitude) % 2 ^ 64
      else magnitude

/-- The conversion of a `long` to an `int`. -/
def toInt (value : Int) : Int :=
  Int.bmod value (2 ^ 32)

/-- The conversion of a `ssize_t` to a `size_t`. -/
def toSize (value : Int) : Nat :=
  (value % (2 ^ 64 : Nat)).toNat

/-- The conversion of a `size_t` to a `ssize_t`. -/
def toSsize (value : Nat) : Int :=
  Int.bmod value (2 ^ 64)

/-- The decimal digits of a number, as `%lu` prints them. -/
def decimal (value : Nat) : Bytes :=
  match value with
  | 0 => [48]
  | value => ((Nat.digits 10 value).map fun digit => (48 + digit).toUInt8).reverse

/-- `%d`. -/
def printInt (value : Int) : Bytes :=
  if value < 0 then 45 :: decimal value.natAbs else decimal value.toNat

/-! ## Reading back what was printed -/

theorem digitValue_digit {digit : Nat} (small : digit < 10) :
    digitValue (48 + digit).toUInt8 = digit := by
  interval_cases digit <;> rfl

theorem isdigit_digit {digit : Nat} (small : digit < 10) :
    isdigit (48 + digit).toUInt8 = true := by
  interval_cases digit <;> rfl

theorem decimal_of_pos {value : Nat} (positive : 0 < value) :
    decimal value = ((Nat.digits 10 value).map fun digit => (48 + digit).toUInt8).reverse := by
  cases value with
  | zero => cases positive
  | succ value => rfl

theorem isdigit_of_mem_decimal {value : Nat} {c : UInt8} (member : c ∈ decimal value) :
    isdigit c = true := by
  rcases Nat.eq_zero_or_pos value with rfl | positive
  · have : c = 48 := by simpa [decimal] using member
    subst this
    rfl
  · rw [decimal_of_pos positive, List.mem_reverse, List.mem_map] at member
    obtain ⟨digit, present, rfl⟩ := member
    exact isdigit_digit (Nat.digits_lt_base (by decide) present)

theorem digitsValue_map_digits (digits : List Nat) (small : ∀ digit ∈ digits, digit < 10) :
    digitsValue 10 ((digits.map fun digit => (48 + digit).toUInt8).reverse) =
      Nat.ofDigits 10 digits := by
  unfold digitsValue
  rw [List.foldl_reverse]
  induction digits with
  | nil => rfl
  | cons digit digits ih =>
      rw [List.map_cons, List.foldr_cons, ih fun other member => small other (by simp [member]),
        digitValue_digit (small digit (by simp)), Nat.ofDigits_cons]
      exact (Nat.add_comm _ _).trans (congrArg (_ + ·) (Nat.mul_comm _ _))

theorem digitsValue_decimal (value : Nat) : digitsValue 10 (decimal value) = value := by
  rcases Nat.eq_zero_or_pos value with rfl | positive
  · rfl
  · rw [decimal_of_pos positive, digitsValue_map_digits _ fun digit member =>
      Nat.digits_lt_base (by decide) member, Nat.ofDigits_digits]

theorem exists_digit_of_isdigit {c : UInt8} (digit : isdigit c = true) :
    ∃ value < 10, c = (48 + value).toUInt8 := by
  simp only [isdigit, Bool.and_eq_true, decide_eq_true_eq, UInt8.le_iff_toNat_le] at digit
  have lower : 48 ≤ c.toNat := digit.1
  have upper : c.toNat ≤ 57 := digit.2
  refine ⟨c.toNat - 48, by omega, ?_⟩
  rw [Nat.add_sub_cancel' lower]
  exact (UInt8.ofNat_toNat).symm

/-- The facts about a decimal digit that the scanners rely on. -/
theorem isdigit_cases {c : UInt8} (digit : isdigit c = true) :
    c ≠ 0 ∧ c ≠ 45 ∧ c ≠ 43 ∧ isspace c = false ∧ digitValue c < 10 := by
  obtain ⟨value, small, rfl⟩ := exists_digit_of_isdigit digit
  interval_cases value <;> decide

theorem parseNumeral_digits {digits : Bytes} (all : ∀ c ∈ digits, isdigit c = true) :
    parseNumeral 10 digits = (false, digitsValue 10 digits) := by
  have noNul : cstr digits = digits :=
    cstr_eq_self fun member => (isdigit_cases (all 0 member)).1 rfl
  have noSpace : digits.dropWhile isspace = digits := by
    cases digits with
    | nil => rfl
    | cons c rest =>
        rw [List.dropWhile_cons_of_neg]
        simp [(isdigit_cases (all c (by simp))).2.2.2.1]
  have noSign : ∀ sign, (sign = 45 ∨ sign = 43) → (digits.head? == some sign) = false := by
    intro sign kind
    cases digits with
    | nil => rfl
    | cons c rest =>
        have facts := isdigit_cases (all c (by simp))
        rcases kind with rfl | rfl
        · simpa using facts.2.1
        · simpa using facts.2.2.1
  have noPrefix : skipHexPrefix 10 digits = digits := by
    unfold skipHexPrefix
    split <;> simp
  have whole : digits.takeWhile (digitValue · < 10) = digits :=
    List.takeWhile_eq_self_iff.mpr fun c member => by
      simpa using (isdigit_cases (all c member)).2.2.2.2
  simp only [parseNumeral, noNul, noSpace, noSign 45 (.inl rfl), noSign 43 (.inr rfl),
    Bool.or_self, Bool.false_eq_true, ↓reduceIte, noPrefix, whole]

theorem strtol_decimal {value : Nat} (small : (value : Int) ≤ longMax) :
    strtol 10 (decimal value) = value := by
  unfold strtol
  rw [parseNumeral_digits fun c member => isdigit_of_mem_decimal member, digitsValue_decimal]
  exact min_eq_left small

theorem strtoul_decimal {value : Nat} (small : value < 2 ^ 64) :
    strtoul 10 (decimal value) = value := by
  unfold strtoul
  rw [parseNumeral_digits fun c member => isdigit_of_mem_decimal member, digitsValue_decimal]
  simp only [Bool.false_eq_true, ↓reduceIte]
  exact if_neg (Nat.not_le.mpr small)

theorem toInt_of_small {value : Int} (lower : -2 ^ 31 ≤ value) (upper : value < 2 ^ 31) :
    toInt value = value := by
  apply Int.bmod_eq_of_le
  · norm_num
    omega
  · norm_num
    omega

/-- Reducing a number modulo `bound` does not change its balanced residue. -/
theorem bmod_toNat_emod (value : Int) {bound : Nat} (positive : bound ≠ 0) :
    Int.bmod (((value % bound).toNat : Nat) : Int) bound = Int.bmod value bound := by
  have nonneg : 0 ≤ value % (bound : Int) := Int.emod_nonneg _ (by omega)
  rw [Int.toNat_of_nonneg nonneg, Int.emod_bmod]

theorem toSsize_toSize_of_small {value : Int} (lower : -2 ^ 63 ≤ value) (upper : value < 2 ^ 63) :
    toSsize (toSize value) = value := by
  refine (bmod_toNat_emod value (by decide)).trans (Int.bmod_eq_of_le ?_ ?_)
  · norm_num
    omega
  · norm_num
    omega

theorem toSize_lt (value : Int) : toSize value < 2 ^ 64 := by
  have upper : value % ((2 ^ 64 : Nat) : Int) < ((2 ^ 64 : Nat) : Int) :=
    Int.emod_lt_of_pos _ (by norm_num)
  unfold toSize
  omega

end CLib

end IpUtils
