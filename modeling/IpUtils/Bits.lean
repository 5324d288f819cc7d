import Mathlib.Data.List.Basic
import Mathlib.Algebra.Order.Group.Nat
import Mathlib.Tactic.Ring

/-! # Digits cut anew

A list of digits of one width written out as bits, the most significant first, and
the bits read as digits of another width. The bits that do not fill a last digit are
made up with zeros when a digit is wanted, and left over when one is read.
-/

namespace IpUtils

namespace Bits

/-- The lowest `width` bits of a number, the most significant first. -/
def bitsOf : Nat → Nat → List Bool
  | 0, _ => []
  | width + 1, number => number.testBit width :: bitsOf width number

/-- The number that bits stand for. -/
def value : List Bool → Nat
  | [] => 0
  | bit :: bits => bit.toNat * 2 ^ bits.length + value bits

/-- Digits written out one behind the other. -/
def write (width : Nat) (digits : List Nat) : List Bool :=
  digits.flatMap (bitsOf width)

/-- The whole digits that bits hold. -/
def read (width : Nat) (bits : List Bool) : List Nat :=
  (List.range (bits.length / width)).map fun place =>
    value ((bits.drop (width * place)).take width)

/-- Zeros behind the bits, as few as make whole digits. -/
def fill (width : Nat) (bits : List Bool) : List Bool :=
  bits ++ List.replicate ((width - bits.length % width) % width) false

/-! ## One digit -/

@[simp]
theorem length_bitsOf (width number : Nat) : (bitsOf width number).length = width := by
  induction width with
  | zero => rfl
  | succ width ih => rw [bitsOf, List.length_cons, ih]

theorem value_lt (bits : List Bool) : value bits < 2 ^ bits.length := by
  induction bits with
  | nil => simp [value]
  | cons bit bits ih =>
      have highest : bit.toNat * 2 ^ bits.length ≤ 2 ^ bits.length := by
        cases bit <;> simp
      rw [value, List.length_cons, pow_succ]
      omega

theorem value_bitsOf (width number : Nat) : value (bitsOf width number) = number % 2 ^ width := by
  induction width with
  | zero => simp [bitsOf, value, Nat.mod_one]
  | succ width ih =>
      rw [bitsOf, value, ih, length_bitsOf, Nat.mod_pow_succ, Nat.toNat_testBit, Nat.mul_comm,
        Nat.add_comm]

/-- Only the lowest bits matter. -/
theorem bitsOf_congr {width number number' : Nat}
    (same : number % 2 ^ width = number' % 2 ^ width) :
    bitsOf width number = bitsOf width number' := by
  induction width with
  | zero => rfl
  | succ width ih =>
      have lower : number % 2 ^ width = number' % 2 ^ width := by
        have divides : 2 ^ width ∣ 2 ^ (width + 1) := Nat.pow_dvd_pow 2 (Nat.le_succ width)
        rw [← Nat.mod_mod_of_dvd number divides, same, Nat.mod_mod_of_dvd number' divides]
      have highest : number.testBit width = number'.testBit width := by
        have bits := congrArg (Nat.testBit · width) same
        simpa [Nat.testBit_mod_two_pow] using bits
      rw [bitsOf, bitsOf, highest, ih lower]

theorem bitsOf_add (high low number : Nat) :
    bitsOf (high + low) number = bitsOf high (number / 2 ^ low) ++ bitsOf low number := by
  induction high with
  | zero => rw [Nat.zero_add, bitsOf, List.nil_append]
  | succ high ih =>
      rw [Nat.add_right_comm, bitsOf, bitsOf, ih, List.cons_append, Nat.testBit_div_two_pow]

theorem bitsOf_value (bits : List Bool) : bitsOf bits.length (value bits) = bits := by
  induction bits with
  | nil => rfl
  | cons bit bits ih =>
      have highest : (value (bit :: bits)).testBit bits.length = bit := by
        rw [value, Nat.mul_comm, Nat.testBit_two_pow_mul_add _ (value_lt bits)]
        cases bit <;> simp
      have lower : bitsOf bits.length (value (bit :: bits)) = bitsOf bits.length (value bits) := by
        apply bitsOf_congr
        rw [value, Nat.mul_comm, Nat.mul_add_mod]
      rw [List.length_cons, bitsOf, highest, lower, ih]

/-- Two groups of bits that stand side by side make one digit. -/
theorem bitsOf_append (high low first second : Nat) :
    bitsOf high first ++ bitsOf low second =
      bitsOf (high + low) (first * 2 ^ low + second % 2 ^ low) := by
  have below : second % 2 ^ low < 2 ^ low := Nat.mod_lt _ (Nat.two_pow_pos low)
  rw [bitsOf_add, Nat.mul_comm, Nat.mul_add_div (Nat.two_pow_pos low), Nat.div_eq_of_lt below,
    Nat.add_zero]
  congr 1
  apply bitsOf_congr
  rw [Nat.mul_add_mod, Nat.mod_mod]

theorem value_replicate_false (count : Nat) : value (List.replicate count false) = 0 := by
  induction count with
  | zero => rfl
  | succ count ih => simp [List.replicate_succ, value, ih]

/-- Bits that are all zero stand for nothing, and no others do. -/
theorem value_eq_zero {bits : List Bool} :
    value bits = 0 ↔ bits = List.replicate bits.length false := by
  constructor
  · intro zero
    have whole := bitsOf_value bits
    have zeros := bitsOf_value (List.replicate bits.length false)
    rw [value_replicate_false, List.length_replicate] at zeros
    rw [zero, zeros] at whole
    exact whole.symm
  · intro zeros
    rw [zeros, value_replicate_false]

/-! ## Whole digits -/

@[simp]
theorem length_write (width : Nat) (digits : List Nat) :
    (write width digits).length = width * digits.length := by
  induction digits with
  | nil => rfl
  | cons digit digits ih =>
      rw [write, List.flatMap_cons, List.length_append, length_bitsOf]
      change width + (write width digits).length = _
      rw [ih, List.length_cons]
      ring

@[simp]
theorem write_nil (width : Nat) : write width [] = [] :=
  rfl

theorem write_cons (width digit : Nat) (digits : List Nat) :
    write width (digit :: digits) = bitsOf width digit ++ write width digits :=
  rfl

theorem write_append (width : Nat) (front back : List Nat) :
    write width (front ++ back) = write width front ++ write width back :=
  List.flatMap_append

@[simp]
theorem length_read (width : Nat) (bits : List Bool) :
    (read width bits).length = bits.length / width := by
  rw [read, List.length_map, List.length_range]

theorem read_of_short {width : Nat} {bits : List Bool} (short : bits.length < width) :
    read width bits = [] := by
  rw [read, Nat.div_eq_of_lt short, List.range_zero, List.map_nil]

theorem read_append {width : Nat} (positive : 0 < width) {group : List Bool}
    (whole : group.length = width) (bits : List Bool) :
    read width (group ++ bits) = value group :: read width bits := by
  have count : (group ++ bits).length / width = bits.length / width + 1 := by
    rw [List.length_append, whole, Nat.add_comm, Nat.add_div_right _ positive]
  rw [read, count, List.range_succ_eq_map, List.map_cons, List.map_map]
  congr 1
  · rw [Nat.mul_zero, List.drop_zero, ← whole, List.take_left]
  · apply List.map_congr_left
    intro place _
    simp only [Function.comp_apply, Nat.succ_eq_add_one]
    rw [Nat.mul_add, Nat.mul_one, Nat.add_comm, ← List.drop_drop, ← whole, List.drop_left]

/-- What has been written is read, and whatever stands behind it is read after it. -/
theorem read_write_append {width : Nat} (positive : 0 < width) {digits : List Nat}
    (bounded : ∀ digit ∈ digits, digit < 2 ^ width) (bits : List Bool) :
    read width (write width digits ++ bits) = digits ++ read width bits := by
  induction digits with
  | nil => rfl
  | cons digit digits ih =>
      have below : digit < 2 ^ width := bounded digit List.mem_cons_self
      have others := ih fun other member => bounded other (List.mem_cons_of_mem _ member)
      rw [write_cons, List.append_assoc, read_append positive (length_bitsOf _ _), value_bitsOf,
        Nat.mod_eq_of_lt below, others, List.cons_append]

theorem read_write {width : Nat} (positive : 0 < width) {digits : List Nat}
    (bounded : ∀ digit ∈ digits, digit < 2 ^ width) : read width (write width digits) = digits := by
  have whole := read_write_append positive bounded []
  have nothing : read width [] = [] := read_of_short positive
  rwa [List.append_nil, nothing, List.append_nil] at whole

theorem read_lt {width : Nat} {bits : List Bool} {digit : Nat} (member : digit ∈ read width bits) :
    digit < 2 ^ width := by
  obtain ⟨place, -, rfl⟩ := List.mem_map.mp member
  refine (value_lt _).trans_le (Nat.pow_le_pow_right (by decide) ?_)
  exact List.length_take_le _ _

/-- The bits of the digits that have been read: all of them as far as digits are whole. -/
theorem write_read {width : Nat} (positive : 0 < width) (bits : List Bool) :
    write width (read width bits) = bits.take (bits.length / width * width) := by
  induction size : bits.length / width generalizing bits with
  | zero =>
      have short : bits.length < width :=
        (Nat.div_eq_zero_iff_lt positive).mp size
      rw [read_of_short short, Nat.zero_mul, List.take_zero]
      rfl
  | succ count ih =>
      have enough : width ≤ bits.length := by
        by_contra short
        rw [Nat.div_eq_of_lt (Nat.lt_of_not_le short)] at size
        exact absurd size (by omega)
      have group : (bits.take width).length = width := List.length_take_of_le enough
      have rest : (bits.drop width).length / width = count := by
        have pred := Nat.div_eq_sub_div positive enough
        rw [List.length_drop]
        omega
      have pieces : read width bits = value (bits.take width) :: read width (bits.drop width) := by
        conv_lhs => rw [← List.take_append_drop width bits]
        exact read_append positive group _
      have first : bitsOf width (value (bits.take width)) = bits.take width := by
        have back := bitsOf_value (bits.take width)
        rwa [group] at back
      rw [pieces, write_cons, first, ih _ rest, Nat.succ_mul, Nat.add_comm, List.take_add]

/-- Whole digits are read on their own. -/
theorem read_append_of_dvd {width : Nat} (positive : 0 < width) {front : List Bool}
    (whole : width ∣ front.length) (back : List Bool) :
    read width (front ++ back) = read width front ++ read width back := by
  have written : write width (read width front) = front := by
    rw [write_read positive, Nat.div_mul_cancel whole, List.take_length]
  conv_lhs => rw [← written]
  exact read_write_append positive (fun digit member => read_lt member) back

/-- Bits that are added at the end do not change the digits that were whole before. -/
theorem take_read_append {width : Nat} (positive : 0 < width) (front back : List Bool) :
    (read width (front ++ back)).take (front.length / width) = read width front := by
  have fewer : front.length / width ≤ (front ++ back).length / width :=
    Nat.div_le_div_right (by rw [List.length_append]; exact Nat.le_add_right _ _)
  rw [read, read, ← List.map_take, List.take_range, Nat.min_eq_left fewer]
  apply List.map_congr_left
  intro place member
  have inside : width * place + width ≤ front.length := by
    calc width * place + width = width * (place + 1) := by ring
      _ ≤ width * (front.length / width) := Nat.mul_le_mul_left _ (List.mem_range.mp member)
      _ ≤ front.length := Nat.mul_div_le _ _
  rw [List.drop_append_of_le_length (by omega), List.take_append_of_le_length]
  rw [List.length_drop]
  omega

theorem bitsOf_zero (width : Nat) : bitsOf width 0 = List.replicate width false := by
  induction width with
  | zero => rfl
  | succ width ih => rw [bitsOf, Nat.zero_testBit, ih, List.replicate_succ]

theorem write_replicate_zero (width count : Nat) :
    write width (List.replicate count 0) = List.replicate (width * count) false := by
  induction count with
  | zero => rfl
  | succ count ih =>
      rw [List.replicate_succ, write_cons, ih, bitsOf_zero, List.replicate_append_replicate,
        Nat.mul_succ, Nat.add_comm]

/-! ## There and back -/

theorem fill_of_dvd {width : Nat} {bits : List Bool} (whole : width ∣ bits.length) :
    fill width bits = bits := by
  rw [fill, Nat.mod_eq_zero_of_dvd whole, Nat.sub_zero, Nat.mod_self, List.replicate_zero,
    List.append_nil]

theorem fill_append {width : Nat} {front : List Bool} (whole : width ∣ front.length)
    (back : List Bool) : fill width (front ++ back) = front ++ fill width back := by
  have rest : (front ++ back).length % width = back.length % width := by
    rw [List.length_append, Nat.add_mod, Nat.mod_eq_zero_of_dvd whole, Nat.zero_add, Nat.mod_mod]
  rw [fill, fill, rest, List.append_assoc]

theorem dvd_length_fill {width : Nat} (positive : 0 < width) (bits : List Bool) :
    width ∣ (fill width bits).length := by
  rw [fill, List.length_append, List.length_replicate, Nat.dvd_iff_mod_eq_zero]
  have below : bits.length % width < width := Nat.mod_lt _ positive
  have split := Nat.mod_add_div bits.length width
  by_cases zero : bits.length % width = 0
  · rw [zero, Nat.sub_zero, Nat.mod_self, Nat.add_zero, zero]
  · rw [Nat.mod_eq_of_lt (by omega : width - bits.length % width < width), Nat.add_mod,
      Nat.mod_eq_of_lt (by omega : width - bits.length % width < width),
      Nat.add_sub_cancel' (Nat.le_of_lt below), Nat.mod_self]

/-- Filled bits are written back as they were. -/
theorem write_read_fill {width : Nat} (positive : 0 < width) (bits : List Bool) :
    write width (read width (fill width bits)) = fill width bits := by
  rw [write_read positive, Nat.div_mul_cancel (dvd_length_fill positive bits), List.take_length]

/-- Digits cut anew into digits that are no wider come back. -/
theorem read_fill_write {wide narrow : Nat} (positive : 0 < narrow) (narrower : narrow ≤ wide)
    {digits : List Nat} (bounded : ∀ digit ∈ digits, digit < 2 ^ wide) :
    read wide (write narrow (read narrow (fill narrow (write wide digits)))) = digits := by
  have wider : 0 < wide := Nat.lt_of_lt_of_le positive narrower
  rw [write_read_fill positive, fill, read_write_append wider bounded, read_of_short,
    List.append_nil]
  rw [List.length_replicate]
  exact (Nat.mod_lt _ positive).trans_le narrower

/-- Narrow digits read as wide ones come back exactly when what is left over is less
than one digit and holds no bit. -/
theorem fill_read_write {wide narrow : Nat} (positive : 0 < narrow) (narrower : narrow ≤ wide)
    {digits : List Nat} (bounded : ∀ digit ∈ digits, digit < 2 ^ narrow) :
    read narrow (fill narrow (write wide (read wide (write narrow digits)))) = digits ↔
      narrow * digits.length % wide < narrow ∧
        value ((write narrow digits).drop
          (narrow * digits.length / wide * wide)) = 0 := by
  have wider : 0 < wide := Nat.lt_of_lt_of_le positive narrower
  set bits : List Bool := write narrow digits with bitsDef
  have length : bits.length = narrow * digits.length := length_write _ _
  set whole : Nat := narrow * digits.length / wide * wide with wholeDef
  have split : whole + narrow * digits.length % wide = narrow * digits.length := by
    rw [wholeDef, Nat.mul_comm _ wide, Nat.div_add_mod]
  have kept : write wide (read wide bits) = bits.take whole := by
    rw [write_read wider, length]
  have keptLength : (bits.take whole).length = whole := List.length_take_of_le (by omega)
  have same : read narrow (fill narrow (write wide (read wide bits))) = digits ↔
      fill narrow (bits.take whole) = bits := by
    rw [kept]
    constructor
    · intro back
      rw [← write_read_fill positive, back]
    · intro filled
      rw [filled, bitsDef, read_write positive bounded]
  have restLength : (bits.drop whole).length = narrow * digits.length % wide := by
    rw [List.length_drop]
    omega
  have filling : ((narrow - whole % narrow) % narrow = narrow * digits.length % wide) ↔
      narrow * digits.length % wide < narrow := by
    constructor
    · intro equal
      rw [← equal]
      exact Nat.mod_lt _ positive
    · intro few
      have total : (whole + narrow * digits.length % wide) % narrow = 0 := by
        rw [split, Nat.mul_mod_right]
      have below : whole % narrow < narrow := Nat.mod_lt _ positive
      rw [Nat.add_mod, Nat.mod_eq_of_lt few] at total
      by_cases zero : whole % narrow = 0
      · rw [zero, Nat.zero_add, Nat.mod_eq_of_lt few] at total
        rw [zero, total, Nat.sub_zero, Nat.mod_self]
      · have sum : whole % narrow + narrow * digits.length % wide = narrow := by
          obtain ⟨times, product⟩ := Nat.dvd_of_mod_eq_zero total
          have one : times = 1 := by
            have upper : times < 2 := by
              by_contra more
              have twice : narrow * 2 ≤ narrow * times := Nat.mul_le_mul_left _ (by omega)
              omega
            have lower : times ≠ 0 := by
              rintro rfl
              omega
            omega
          rw [one, Nat.mul_one] at product
          exact product
        rw [Nat.mod_eq_of_lt (by omega)]
        omega
  rw [same, fill, keptLength]
  constructor
  · intro filled
    have rest : bits.drop whole =
        List.replicate ((narrow - whole % narrow) % narrow) false := by
      conv_lhs => rw [← filled]
      exact List.drop_left' keptLength
    have count := congrArg List.length rest
    rw [restLength, List.length_replicate] at count
    refine ⟨filling.mp count.symm, ?_⟩
    rw [rest, value_replicate_false]
  · rintro ⟨few, zero⟩
    have rest := value_eq_zero.mp zero
    rw [restLength, ← filling.mpr few] at rest
    rw [← rest, List.take_append_drop]

end Bits

end IpUtils
