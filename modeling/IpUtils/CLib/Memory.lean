import IpUtils.CLib.Numerals
import Mathlib.Data.Stream.Init

/-! # Arrays behind a pointer

Allocation, and stores and moves at signed offsets as `ssize_t` arithmetic produces
them. C gives no meaning to an access outside the array. Such an access changes
nothing here, and `inside` tells that it has been made.
-/

namespace IpUtils

namespace CLib

/-- The array that `malloc` and `realloc` return: the old bytes, and behind them bytes
that nothing is known about. Without such bytes the allocation has failed. -/
def reallocate (array : Bytes) (size : Nat) (fresh : Option Bytes) : Option Bytes :=
  fresh.map fun fresh => readMemory (array ++ fresh) size

/-- The array that `calloc` returns. -/
def callocate (size : Nat) (success : Bool) : Option Bytes :=
  if success then some (List.replicate size 0) else none

/-- An access of `count` bytes from `start` on stays in an array. -/
def inside (array : Bytes) (start count : Int) : Bool :=
  count = 0 || (0 ≤ start && 0 ≤ count && start + count ≤ array.length)

/-- `memcpy(array + dst, source, |source|)`. -/
def storeAt (array : Bytes) (dst : Int) (source : Bytes) : Bytes :=
  if inside array dst source.length then store array dst.toNat source else array

/-- `memmove(array + dst, array + src, count)`. -/
def moveAt (array : Bytes) (dst src count : Int) : Bytes :=
  if inside array dst count && inside array src count then
    memmove array dst.toNat src.toNat count.toNat
  else array

/-- `count` bytes from `start` on. -/
def sliceAt (array : Bytes) (start count : Int) : Bytes :=
  if inside array start count then (array.drop start.toNat).take count.toNat
  else List.replicate count.toNat 0

/-- The memory from a pointer on, of which some bytes are known; NULs behind them. -/
def memoryOf (bytes : Bytes) : Stream' UInt8 :=
  bytes ++ₛ Stream'.const 0

/-! ## Lemmas -/

theorem memoryOf_append (front behind : Bytes) :
    memoryOf (front ++ behind) = front ++ₛ memoryOf behind :=
  Stream'.append_append_stream front behind _

/-- A window that reaches behind the known bytes. -/
theorem take_append_add (front : Bytes) (memory : Stream' UInt8) (count : Nat) :
    (front ++ₛ memory).take (front.length + count) = front ++ memory.take count :=
  (Stream'.append_take count front memory).symm

theorem drop_append_add (front : Bytes) (memory : Stream' UInt8) (count : Nat) :
    (front ++ₛ memory).drop (front.length + count) = memory.drop count := by
  rw [← Stream'.drop_drop, Stream'.drop_append_stream]

theorem inside_of_le {array : Bytes} {start count : Int} (left : 0 ≤ start) (positive : 0 ≤ count)
    (right : start + count ≤ array.length) : inside array start count = true := by
  simp [inside, left, positive, right]

theorem length_reallocate {array array' : Bytes} {size : Nat} {fresh : Option Bytes}
    (success : reallocate array size fresh = some array') : array'.length = size := by
  obtain ⟨bytes, -, rfl⟩ := Option.map_eq_some_iff.mp success
  exact length_readMemory _ _

/-- Enlarging an array keeps what stands in it. -/
theorem prefix_reallocate {array array' front : Bytes} {size : Nat} {fresh : Option Bytes}
    (success : reallocate array size fresh = some array') (larger : array.length ≤ size)
    (within : front <+: array) : front <+: array' := by
  obtain ⟨bytes, -, rfl⟩ := Option.map_eq_some_iff.mp success
  refine within.trans ?_
  rw [readMemory, List.take_append, List.take_of_length_le larger, List.append_assoc]
  exact List.prefix_append _ _

theorem sliceAt_self (array : Bytes) : sliceAt array 0 array.length = array := by
  rw [sliceAt, if_pos (inside_of_le (le_refl _) (by omega) (by omega))]
  simp

/-- The bytes at the start of an array, from a place in them on. -/
theorem sliceAt_of_part {array front : Bytes} (within : front <+: array) {start : Int}
    (left : 0 ≤ start) (right : start ≤ front.length) :
    sliceAt array start (front.length - start) = front.drop start.toNat := by
  have length := within.length_le
  rw [sliceAt, if_pos (inside_of_le left (by omega) (by omega))]
  obtain ⟨rest, rfl⟩ := within
  have count : (front.length - start : Int).toNat = (front.drop start.toNat).length := by
    rw [List.length_drop]
    omega
  rw [count, List.drop_append_of_le_length (by omega), List.take_left]

/-- Bytes stored behind the ones that stand at the start of an array. -/
theorem prefix_storeAt {array front source : Bytes} (within : front <+: array)
    (room : front.length + source.length ≤ array.length) :
    front ++ source <+: storeAt array front.length source := by
  rw [storeAt, if_pos (inside_of_le (by omega) (by omega) (by omega)), Int.toNat_natCast,
    store_of_fits room, ← List.prefix_iff_eq_take.mp within]
  exact List.prefix_append _ _

theorem length_storeAt (array source : Bytes) (dst : Int) :
    (storeAt array dst source).length = array.length := by
  unfold storeAt
  split
  · rename_i within
    simp only [inside, Bool.or_eq_true, decide_eq_true_eq, Bool.and_eq_true] at within
    rcases within with none_ | ⟨⟨left, -⟩, right⟩
    · have empty : source = [] := List.length_eq_zero_iff.mp (by omega)
      subst empty
      simp only [store, List.append_nil, List.length_nil, Nat.add_zero, List.length_append,
        List.length_take, List.length_drop]
      omega
    · exact length_store (by omega)
  · rfl

theorem length_memmove {array : Bytes} {dst src count : Nat} (reads : src + count ≤ array.length)
    (writes : dst + count ≤ array.length) : (memmove array dst src count).length = array.length := by
  simp only [memmove, List.length_append, List.length_take, List.length_drop]
  omega

theorem length_moveAt (array : Bytes) (dst src count : Int) :
    (moveAt array dst src count).length = array.length := by
  unfold moveAt
  split
  · rename_i within
    simp only [inside, Bool.and_eq_true, Bool.or_eq_true, decide_eq_true_eq] at within
    by_cases none_ : count = 0
    · subst none_
      simp only [memmove, Int.toNat_zero, List.take_zero, List.append_nil, Nat.add_zero,
        List.length_append, List.length_take, List.length_drop]
      omega
    · exact length_memmove (by omega) (by omega)
  · rfl

/-- Bytes moved to the start of an array. -/
theorem prefix_moveAt {array front back : Bytes} (within : front ++ back <+: array) :
    back <+: moveAt array 0 front.length back.length := by
  obtain ⟨rest, rfl⟩ := within
  have fits : ((front.length : Int) + back.length) ≤ (front ++ back ++ rest).length := by simp
  rw [moveAt, inside_of_le (le_refl _) (by omega) (by omega), inside_of_le (by omega) (by omega) fits]
  simp [memmove]

end CLib

end IpUtils
