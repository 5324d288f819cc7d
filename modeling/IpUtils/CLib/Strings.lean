import Mathlib.Data.List.TakeWhile

/-! # C strings and character classes

Bytes as the C library sees them in its default locale: the character tests of
`ctype.h`, NUL-terminated strings read from memory, the comparisons and searches
of `string.h` and bounded printing with `snprintf`.
-/

namespace IpUtils

/-- The contents of a byte array or of a `std::string`. -/
abbrev Bytes : Type := List UInt8

/-- The bytes of a string literal, all of whose characters are ASCII. -/
def ascii (literal : String) : Bytes :=
  literal.toList.map fun character => character.toNat.toUInt8

namespace CLib

/-- Space, tab, newline, vertical tab, form feed and carriage return. -/
def isspace (c : UInt8) : Bool :=
  c == 32 || (9 ≤ c && c ≤ 13)

def isdigit (c : UInt8) : Bool :=
  48 ≤ c && c ≤ 57

def isalnum (c : UInt8) : Bool :=
  isdigit c || (65 ≤ c && c ≤ 90) || (97 ≤ c && c ≤ 122)

def tolower (c : UInt8) : UInt8 :=
  if 65 ≤ c && c ≤ 90 then c + 32 else c

/-- The string that starts a memory region: everything before its first NUL. -/
def cstr (memory : Bytes) : Bytes :=
  memory.takeWhile (· != 0)

/-- `strncasecmp(literal, buf, strlen(literal)) == 0`, for a literal without NUL. -/
def startsWithNoCase (literal memory : Bytes) : Bool :=
  (memory.take literal.length).map tolower == literal.map tolower

/-- The comparison of two whole names ignoring case: equal `strlen` and equal
`strncasecmp` over that length. -/
def equalsNoCase (first second : Bytes) : Bool :=
  (cstr first).map tolower == (cstr second).map tolower

/-- What lies from the first occurrence of `wanted` on, as `strchr` finds it: the
search gives up at the first NUL. -/
def strchr (memory : Bytes) (wanted : UInt8) : Option Bytes :=
  match memory.dropWhile fun c => c != wanted && c != 0 with
  | [] => none
  | c :: rest => if c = wanted then some (c :: rest) else none

/-- `snprintf(buf + strlen(buf), size - strlen(buf), "%s", text)` on a buffer of
`size` bytes that holds the string `buf`: the text is cut to leave room for NUL. -/
def snprintfAppend (size : Nat) (buf text : Bytes) : Bytes :=
  (buf ++ text).take (size - 1)

/-- The move of `count` bytes inside an array; the rest of the array stays. -/
def memmove (array : Bytes) (dst src count : Nat) : Bytes :=
  array.take dst ++ (array.drop src).take count ++ array.drop (dst + count)

/-- The first `count` bytes at an address. What lies past the listed memory is NUL. -/
def readMemory (memory : Bytes) (count : Nat) : Bytes :=
  memory.take count ++ List.replicate (count - memory.length) 0

/-- Store bytes into an array from `dst` on. What would lie past its end is lost. -/
def store (array : Bytes) (dst : Nat) (source : Bytes) : Bytes :=
  (array.take dst ++ source).take array.length ++ array.drop (dst + source.length)

/-! ## Lemmas -/

theorem cstr_eq_self {text : Bytes} (noNul : (0 : UInt8) ∉ text) : cstr text = text :=
  List.takeWhile_eq_self_iff.mpr fun c member => by
    simp only [bne_iff_ne, ne_eq]
    exact fun zero => noNul (zero ▸ member)

theorem cstr_append_zero {text : Bytes} (noNul : (0 : UInt8) ∉ text) (rest : Bytes) :
    cstr (text ++ 0 :: rest) = text := by
  unfold cstr
  rw [List.takeWhile_append_of_pos (by
    intro c member
    simp only [bne_iff_ne, ne_eq]
    exact fun zero => noNul (zero ▸ member))]
  simp

theorem readMemory_self (memory : Bytes) : readMemory memory memory.length = memory := by
  simp [readMemory]

theorem length_readMemory (memory : Bytes) (count : Nat) :
    (readMemory memory count).length = count := by
  rw [readMemory, List.length_append, List.length_take, List.length_replicate]
  omega

/-- A read that ends in front of other bytes. -/
theorem readMemory_append_of_le {front : Bytes} {count : Nat} (inside : count ≤ front.length)
    (behind : Bytes) : readMemory (front ++ behind) count = front.take count := by
  have none_ : count - (front ++ behind).length = 0 := by
    rw [List.length_append]
    omega
  rw [readMemory, List.take_append_of_le_length inside, none_, List.replicate_zero, List.append_nil]

theorem store_of_fits {array source : Bytes} {dst : Nat}
    (fits : dst + source.length ≤ array.length) :
    store array dst source = array.take dst ++ source ++ array.drop (dst + source.length) := by
  unfold store
  rw [List.take_of_length_le]
  rw [List.length_append, List.length_take]
  omega

theorem length_store {array source : Bytes} {dst : Nat}
    (fits : dst + source.length ≤ array.length) :
    (store array dst source).length = array.length := by
  rw [store_of_fits fits]
  simp only [List.length_append, List.length_take, List.length_drop]
  omega

/-- What has been stored can be told apart. -/
theorem store_injective {array source source' : Bytes} {dst : Nat}
    (fits : dst + source.length ≤ array.length) (length : source'.length = source.length)
    (same : store array dst source = store array dst source') : source = source' := by
  rw [store_of_fits fits, store_of_fits (by omega), length, List.append_cancel_right_eq,
    List.append_cancel_left_eq] at same
  exact same

end CLib

end IpUtils
