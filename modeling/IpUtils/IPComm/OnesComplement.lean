import Mathlib.Data.Nat.ModEq
import Mathlib.Algebra.BigOperators.Group.List.Basic

/-! # Ones' complement addition

Words between 0 and `limit` are added with an end-around carry. Zero is written in two
ways, as `0` and as `limit`; a sum is `0` only when all its words are.
-/

namespace IpUtils

namespace OnesComplement

/-- The carry out of a sum is added at its other end. -/
def carry (limit value : Nat) : Nat :=
  value % (limit + 1) + value / (limit + 1)

/-- Addition with an end-around carry. -/
def add (limit first second : Nat) : Nat :=
  carry limit (first + second)

/-- The sum of a list of words, one after the other. -/
def sum (limit : Nat) (words : List Nat) : Nat :=
  words.foldl (add limit) 0

/-- The word that a number is congruent to, which is `limit` for a multiple of `limit`
other than zero. -/
def residue (limit value : Nat) : Nat :=
  if value = 0 then 0 else (value - 1) % limit + 1

variable {limit : Nat}

@[simp] theorem residue_zero : residue limit 0 = 0 := rfl

theorem residue_eq_zero {value : Nat} : residue limit value = 0 ↔ value = 0 := by
  unfold residue
  split <;> simp_all

theorem residue_le (positive : 0 < limit) (value : Nat) : residue limit value ≤ limit := by
  unfold residue
  have bound := Nat.mod_lt (value - 1) positive
  split <;> omega

theorem residue_of_le {value : Nat} (within : value ≤ limit) : residue limit value = value := by
  unfold residue
  by_cases zero : value = 0
  · simp [zero]
  · rw [if_neg zero, Nat.mod_eq_of_lt (by omega)]
    omega

/-- Two numbers have one residue when they are congruent and both or none is zero. -/
theorem residue_eq_residue {first second : Nat} :
    residue limit first = residue limit second ↔
      (first = 0 ↔ second = 0) ∧ first ≡ second [MOD limit] := by
  by_cases left : first = 0
  · subst left
    rw [residue_zero, eq_comm, residue_eq_zero]
    constructor
    · rintro rfl
      exact ⟨Iff.rfl, rfl⟩
    · intro given
      exact given.1.mp rfl
  · by_cases right : second = 0
    · subst right
      rw [residue_zero, residue_eq_zero]
      exact ⟨fun zero => absurd zero left, fun given => absurd (given.1.mpr rfl) left⟩
    · have shift : first - 1 ≡ second - 1 [MOD limit] ↔ first ≡ second [MOD limit] := by
        rw [← Nat.ModEq.add_iff_right (Nat.ModEq.refl 1), Nat.sub_add_cancel (by omega),
          Nat.sub_add_cancel (by omega)]
      rw [← shift]
      simp only [residue, left, right, ↓reduceIte, Nat.add_right_cancel_iff, iff_self, true_and]
      rfl

theorem carry_modEq (value : Nat) : carry limit value ≡ value [MOD limit] := by
  have whole : value = value % (limit + 1) + value / (limit + 1) + limit * (value / (limit + 1)) := by
    have split := Nat.mod_add_div value (limit + 1)
    rw [Nat.add_mul, Nat.one_mul] at split
    omega
  calc carry limit value
      ≡ carry limit value + limit * (value / (limit + 1)) [MOD limit] := by
        simp [Nat.ModEq]
    _ = value := whole.symm

theorem carry_eq_zero {value : Nat} : carry limit value = 0 ↔ value = 0 := by
  have split := Nat.mod_add_div value (limit + 1)
  unfold carry
  constructor
  · intro zero
    obtain ⟨rest, quotient⟩ := Nat.add_eq_zero_iff.mp zero
    rw [rest, quotient] at split
    omega
  · rintro rfl
    simp

theorem residue_carry (value : Nat) : residue limit (carry limit value) = residue limit value :=
  residue_eq_residue.mpr ⟨carry_eq_zero, carry_modEq value⟩

theorem carry_le {value : Nat} (within : value ≤ limit + limit) : carry limit value ≤ limit := by
  unfold carry
  by_cases small : value < limit + 1
  · rw [Nat.mod_eq_of_lt small, Nat.div_eq_of_lt small]
    omega
  · have quotient : value / (limit + 1) = 1 := by
      rw [Nat.div_eq_iff (by omega)]
      omega
    have split := Nat.mod_add_div value (limit + 1)
    rw [quotient] at split ⊢
    omega

theorem add_eq_residue {first second : Nat} (left : first ≤ limit) (right : second ≤ limit) :
    add limit first second = residue limit (first + second) := by
  rw [← residue_carry]
  exact (residue_of_le (carry_le (by omega))).symm

theorem foldl_add {words : List Nat} (positive : 0 < limit) (bounded : ∀ word ∈ words, word ≤ limit)
    (value : Nat) :
    words.foldl (add limit) (residue limit value) = residue limit (value + words.sum) := by
  induction words generalizing value with
  | nil => simp
  | cons word words ih =>
      have first : add limit (residue limit value) word = residue limit (value + word) := by
        rw [add_eq_residue (residue_le positive value) (bounded word (by simp)),
          residue_eq_residue]
        have same : residue limit value ≡ value [MOD limit] :=
          (residue_eq_residue.mp (residue_of_le (residue_le positive value))).2
        constructor
        · have zero := @residue_eq_zero limit value
          omega
        · exact Nat.ModEq.add_right word same
      rw [List.foldl_cons, first, ih (fun word mem => bounded word (by simp [mem])),
        List.sum_cons, Nat.add_assoc]

/-- The carries may be left until the end. -/
theorem sum_eq_residue {words : List Nat} (positive : 0 < limit)
    (bounded : ∀ word ∈ words, word ≤ limit) : sum limit words = residue limit words.sum := by
  have whole := foldl_add positive bounded 0
  rwa [residue_zero, Nat.zero_add] at whole

end OnesComplement

end IpUtils
