import IpUtils.Bits
import IpUtils.CLib.Strings

/-! # Base64

The loops that turn bytes into text of 64 characters and back. Both collect their
input in a small array until it is full, and treat what is left at the end on its
own. What the arrays hold before the first byte is a parameter.
-/

namespace IpUtils

namespace Base64

def base64Chars : Bytes :=
  ascii "ABCDEFGHIJKLMNOPQRSTUVWXYZabcdefghijklmnopqrstuvwxyz0123456789+/"

def isBase64 (c : UInt8) : Bool :=
  CLib.isalnum c || c == 43 || c == 47

/-- `base64_chars[sextet]`. -/
def character (sextet : UInt8) : UInt8 :=
  base64Chars.getD sextet.toNat 0

/-- `base64_chars.find(c)` as it fits into an `unsigned char`: `npos` becomes 255. -/
def find (c : UInt8) : UInt8 :=
  ((base64Chars.idxOf? c).map Nat.toUInt8).getD 255

/-- Zeros from an index on. -/
def clearFrom {size : Nat} (array : Vector UInt8 size) (start : Nat) : Vector UInt8 size :=
  Vector.ofFn fun place => if place < start then array[place] else 0

/-- What has been made so far, and the array with the `i` bytes that are not yet
converted. -/
structure Collector (size : Nat) where
  ret : Bytes
  i : Nat
  array : Vector UInt8 size

/-- One turn of a loop: a byte into the array, which is converted when it is full. The
conversion may work in the array itself. -/
def Collector.put {size : Nat} (convert : Vector UInt8 size → Vector UInt8 size × Bytes)
    (collector : Collector size) (byte : UInt8) : Collector size :=
  let array := collector.array.setIfInBounds collector.i byte
  if collector.i + 1 = size then
    { ret := collector.ret ++ (convert array).2, i := 0, array := (convert array).1 }
  else { collector with i := collector.i + 1, array := array }

/-! ## Encoding -/

/-- `char_array_4` as it is computed from `char_array_3`. -/
def sextets (charArray3 : Vector UInt8 3) : Vector UInt8 4 :=
  #v[(charArray3[0] &&& 0xfc) >>> 2,
    ((charArray3[0] &&& 0x03) <<< 4) + ((charArray3[1] &&& 0xf0) >>> 4),
    ((charArray3[1] &&& 0x0f) <<< 2) + ((charArray3[2] &&& 0xc0) >>> 6),
    charArray3[2] &&& 0x3f]

/-- The four characters of a full array. -/
def quadruple (charArray3 : Vector UInt8 3) : Vector UInt8 3 × Bytes :=
  (charArray3, (sextets charArray3).toList.map character)

/-- The text, with the last bytes and the padding. -/
def finishText (encoder : Collector 3) : Bytes :=
  if encoder.i = 0 then encoder.ret
  else
    encoder.ret ++
      ((sextets (clearFrom encoder.array encoder.i)).toList.take (encoder.i + 1)).map character ++
      List.replicate (3 - encoder.i) 61

/-- `Base64Encode(buf, buf_len)` on the `buf_len` bytes at `buf`. -/
def base64Encode (charArray3 : Vector UInt8 3) (buf : Bytes) : Bytes :=
  finishText (buf.foldl (Collector.put quadruple) ⟨[], 0, charArray3⟩)

/-! ## Decoding -/

/-- `char_array_3` as it is computed from the indices in `char_array_4`. -/
def octets (charArray4 : Vector UInt8 4) : Vector UInt8 3 :=
  #v[(charArray4[0] <<< 2) + ((charArray4[1] &&& 0x30) >>> 4),
    ((charArray4[1] &&& 0x0f) <<< 4) + ((charArray4[2] &&& 0x3c) >>> 2),
    ((charArray4[2] &&& 0x03) <<< 6) + charArray4[3]]

/-- The three bytes of a full array, whose characters give way to their indices. -/
def triple (charArray4 : Vector UInt8 4) : Vector UInt8 4 × Bytes :=
  (charArray4.map find, (octets (charArray4.map find)).toList)

/-- The bytes, with those of the last characters. -/
def finishBytes (decoder : Collector 4) : Bytes :=
  if decoder.i = 0 then decoder.ret
  else
    decoder.ret ++
      (octets ((clearFrom decoder.array decoder.i).map find)).toList.take (decoder.i - 1)

/-- The loop, from the character at `in_` on. Behind the text stands a NUL, which is
no character of the alphabet. -/
def decodeLoop : Int → Bytes → Collector 4 → Collector 4
  | _, [], decoder => decoder
  | inLen, c :: rest, decoder =>
      if inLen = 0 then decoder
      else if c != 61 && isBase64 c then decodeLoop (inLen - 1) rest (decoder.put triple c)
      else decoder

/-- `Base64Decode(encoded_string)`: the size of the text is kept in an `int`. -/
def base64Decode (charArray4 : Vector UInt8 4) (encodedString : Bytes) : Bytes :=
  finishBytes (decodeLoop (Int.bmod encodedString.length (2 ^ 32)) encodedString
    ⟨[], 0, charArray4⟩)

/-! ## Full arrays -/

namespace Collector

variable {size : Nat} {convert : Vector UInt8 size → Vector UInt8 size × Bytes}

/-- What the arrays that were full have been converted to is at hand, and what came after
the last of them stands in the array. -/
structure Holds (convert : Vector UInt8 size → Vector UInt8 size × Bytes)
    (collector : Collector size) (blocks : List (Vector UInt8 size)) (last : Bytes) : Prop where
  ret : collector.ret = blocks.flatMap fun block => (convert block).2
  i : collector.i = last.length
  short : last.length < size
  array : collector.array.toList.take last.length = last

theorem take_setIfInBounds (array : Vector UInt8 size) {place : Nat} (inside : place < size)
    (byte : UInt8) :
    (array.setIfInBounds place byte).toList.take (place + 1) =
      array.toList.take place ++ [byte] := by
  have length : (array.toList.take place).length = place := by
    rw [List.length_take, Vector.length_toList]
    omega
  rw [Vector.toList_setIfInBounds, List.set_eq_take_append_cons_drop,
    if_pos (by rwa [Vector.length_toList]), List.take_append, length, Nat.add_sub_cancel_left,
    List.take_of_length_le (by omega)]
  rfl

/-- One more byte either stands in the array or completes it. -/
theorem holds_put {collector : Collector size} {blocks : List (Vector UInt8 size)} {last : Bytes}
    (holds : Holds convert collector blocks last) (byte : UInt8) :
    (∃ block : Vector UInt8 size, block.toList = last ++ [byte] ∧
        Holds convert (collector.put convert byte) (blocks ++ [block]) []) ∨
      Holds convert (collector.put convert byte) blocks (last ++ [byte]) := by
  obtain ⟨ret, i, short, array⟩ := holds
  have filled : (collector.array.setIfInBounds collector.i byte).toList.take (last.length + 1) =
      last ++ [byte] := by
    rw [i, take_setIfInBounds _ short, array]
  by_cases full : collector.i + 1 = size
  · left
    refine ⟨collector.array.setIfInBounds collector.i byte, ?_, ?_⟩
    · rw [← filled, List.take_of_length_le]
      rw [Vector.length_toList]
      omega
    · rw [put, if_pos full]
      refine ⟨?_, rfl, by simp only [List.length_nil]; omega, rfl⟩
      rw [List.flatMap_append, ret]
      simp
  · right
    rw [put, if_neg full]
    refine ⟨ret, ?_, ?_, ?_⟩
    · rw [List.length_append, List.length_singleton, ← i]
    · rw [List.length_append, List.length_singleton]
      omega
    · rw [List.length_append, List.length_singleton, filled]

/-- The bytes of a whole loop, cut into full arrays and a rest. -/
theorem holds_foldl (bytes : Bytes) :
    ∀ {collector : Collector size} {blocks : List (Vector UInt8 size)} {last : Bytes},
      Holds convert collector blocks last →
        ∃ (blocks' : List (Vector UInt8 size)) (last' : Bytes),
          blocks.flatMap Vector.toList ++ last ++ bytes =
              blocks'.flatMap Vector.toList ++ last' ∧
            Holds convert (bytes.foldl (put convert) collector) blocks' last' := by
  induction bytes with
  | nil =>
      intro collector blocks last holds
      exact ⟨blocks, last, List.append_nil _, holds⟩
  | cons byte bytes ih =>
      intro collector blocks last holds
      rcases holds_put holds byte with ⟨block, bytesOf, next⟩ | next
      · obtain ⟨blocks', last', cut, result⟩ := ih next
        refine ⟨blocks', last', ?_, result⟩
        rw [← cut, List.flatMap_append]
        simp [bytesOf]
      · obtain ⟨blocks', last', cut, result⟩ := ih next
        refine ⟨blocks', last', ?_, result⟩
        rw [← cut]
        simp

theorem holds_start (array : Vector UInt8 size) (positive : 0 < size) :
    Holds convert ⟨[], 0, array⟩ [] [] :=
  ⟨rfl, rfl, positive, rfl⟩

end Collector

/-! ## The alphabet -/

/-- The index of a character in the alphabet. -/
def index (c : UInt8) : Nat :=
  (find c).toNat

theorem forall_byte {property : UInt8 → Prop}
    (every : ∀ number : Fin 256, property (UInt8.ofNat number)) (c : UInt8) : property c := by
  have result := every ⟨c.toNat, c.toNat_lt⟩
  rwa [UInt8.ofNat_toNat] at result

theorem character_find : ∀ c : UInt8, isBase64 c = true → character (find c) = c :=
  forall_byte (by decide +kernel)

theorem index_lt : ∀ c : UInt8, isBase64 c = true → index c < 2 ^ 6 :=
  forall_byte (by decide +kernel)

theorem isBase64_character {sextet : Nat} (small : sextet < 2 ^ 6) :
    isBase64 (character sextet.toUInt8) = true := by
  have every : ∀ number : Fin (2 ^ 6), isBase64 (character number.val.toUInt8) = true := by
    decide +kernel
  exact every ⟨sextet, small⟩

theorem index_character {sextet : Nat} (small : sextet < 2 ^ 6) :
    index (character sextet.toUInt8) = sextet := by
  have every : ∀ number : Fin (2 ^ 6), index (character number.val.toUInt8) = number.val := by
    decide +kernel
  exact every ⟨sextet, small⟩

theorem not_isBase64_padding : isBase64 61 = false := by
  decide +kernel

/-! ## One full array

Each character takes the bits of one or two bytes, and each byte those of two
characters. The terms of a sum are looked at one by one.
-/

/-- The terms that `sextets` adds up. -/
theorem sextet_terms :
    ∀ a : UInt8, ((a &&& 0xfc) >>> 2).toNat = a.toNat / 2 ^ 2 ∧
      ((a &&& 0x03) <<< 4).toNat = a.toNat % 2 ^ 2 * 2 ^ 4 ∧
      ((a &&& 0xf0) >>> 4).toNat = a.toNat / 2 ^ 4 ∧
      ((a &&& 0x0f) <<< 2).toNat = a.toNat % 2 ^ 4 * 2 ^ 2 ∧
      ((a &&& 0xc0) >>> 6).toNat = a.toNat / 2 ^ 6 ∧
      (a &&& 0x3f).toNat = a.toNat % 2 ^ 6 :=
  forall_byte (by decide +kernel)

/-- The terms that `octets` adds up. -/
theorem octet_terms :
    ∀ a : UInt8, a.toNat < 2 ^ 6 → (a <<< 2).toNat = a.toNat * 2 ^ 2 ∧
      ((a &&& 0x30) >>> 4).toNat = a.toNat / 2 ^ 4 ∧
      ((a &&& 0x0f) <<< 4).toNat = a.toNat % 2 ^ 4 * 2 ^ 4 ∧
      ((a &&& 0x3c) >>> 2).toNat = a.toNat / 2 ^ 2 ∧
      ((a &&& 0x03) <<< 6).toNat = a.toNat % 2 ^ 2 * 2 ^ 6 :=
  forall_byte (by decide +kernel)

/-- A sum of shifted bits is two groups of bits side by side. -/
theorem bitsOf_sum (high low : Nat) {first second sum : Nat}
    (shifted : sum = first % 2 ^ high * 2 ^ low + second % 2 ^ low) :
    Bits.bitsOf (high + low) sum = Bits.bitsOf high first ++ Bits.bitsOf low second := by
  rw [shifted, ← Bits.bitsOf_append, Bits.bitsOf_congr (Nat.mod_mod first (2 ^ high))]

theorem toList_three (array : Vector UInt8 3) :
    array.toList = [array[0], array[1], array[2]] := by
  obtain ⟨⟨list⟩, length⟩ := array
  obtain ⟨a, b, c, rfl⟩ := List.length_eq_three.mp length
  rfl

theorem toList_four (array : Vector UInt8 4) :
    array.toList = [array[0], array[1], array[2], array[3]] := by
  obtain ⟨⟨list⟩, length⟩ := array
  rcases list with - | ⟨a, rest⟩
  · simp at length
  · obtain ⟨b, c, d, rfl⟩ := List.length_eq_three.mp (Nat.succ.inj length)
    rfl

theorem write_sextets (array : Vector UInt8 3) :
    Bits.write 6 ((sextets array).toList.map UInt8.toNat) =
      Bits.write 8 (array.toList.map UInt8.toNat) := by
  rw [toList_three array, toList_four]
  set a : UInt8 := array[0]
  set b : UInt8 := array[1]
  set c : UInt8 := array[2]
  obtain ⟨a1, a2, -, -, -, -⟩ := sextet_terms a
  obtain ⟨-, -, b1, b2, -, -⟩ := sextet_terms b
  obtain ⟨-, -, -, -, c1, c2⟩ := sextet_terms c
  have aBound := a.toNat_lt
  have bBound := b.toNat_lt
  have cBound := c.toNat_lt
  have first : Bits.bitsOf 6 (sextets array)[0].toNat = Bits.bitsOf 6 (a.toNat / 2 ^ 2) :=
    congrArg (Bits.bitsOf 6) a1
  have second : Bits.bitsOf 6 (sextets array)[1].toNat =
      Bits.bitsOf 2 a.toNat ++ Bits.bitsOf 4 (b.toNat / 2 ^ 4) := by
    apply bitsOf_sum 2 4
    change (((a &&& 0x03) <<< 4) + ((b &&& 0xf0) >>> 4)).toNat = _
    rw [UInt8.toNat_add, a2, b1]
    omega
  have third : Bits.bitsOf 6 (sextets array)[2].toNat =
      Bits.bitsOf 4 b.toNat ++ Bits.bitsOf 2 (c.toNat / 2 ^ 6) := by
    apply bitsOf_sum 4 2
    change (((b &&& 0x0f) <<< 2) + ((c &&& 0xc0) >>> 6)).toNat = _
    rw [UInt8.toNat_add, b2, c1]
    omega
  have fourth : Bits.bitsOf 6 (sextets array)[3].toNat = Bits.bitsOf 6 c.toNat := by
    apply Bits.bitsOf_congr
    change (c &&& 0x3f).toNat % _ = _
    rw [c2, Nat.mod_mod]
  simp only [List.map_cons, List.map_nil, Bits.write_cons]
  rw [first, second, third, fourth, Bits.bitsOf_add 6 2 a.toNat, Bits.bitsOf_add 4 4 b.toNat,
    Bits.bitsOf_add 2 6 c.toNat]
  simp only [List.append_assoc, Bits.write_nil]

theorem write_octets (array : Vector UInt8 4) (bounded : ∀ c ∈ array.toList, c.toNat < 2 ^ 6) :
    Bits.write 8 ((octets array).toList.map UInt8.toNat) =
      Bits.write 6 (array.toList.map UInt8.toNat) := by
  rw [toList_four array] at bounded ⊢
  rw [toList_three]
  set a : UInt8 := array[0]
  set b : UInt8 := array[1]
  set c : UInt8 := array[2]
  set d : UInt8 := array[3]
  have aBound : a.toNat < 2 ^ 6 := bounded a (by simp)
  have bBound : b.toNat < 2 ^ 6 := bounded b (by simp)
  have cBound : c.toNat < 2 ^ 6 := bounded c (by simp)
  have dBound : d.toNat < 2 ^ 6 := bounded d (by simp)
  obtain ⟨a1, -, -, -, -⟩ := octet_terms a aBound
  obtain ⟨-, b1, b2, -, -⟩ := octet_terms b bBound
  obtain ⟨-, -, -, c1, c2⟩ := octet_terms c cBound
  have first : Bits.bitsOf 8 (octets array)[0].toNat =
      Bits.bitsOf 6 a.toNat ++ Bits.bitsOf 2 (b.toNat / 2 ^ 4) := by
    apply bitsOf_sum 6 2
    change ((a <<< 2) + ((b &&& 0x30) >>> 4)).toNat = _
    rw [UInt8.toNat_add, a1, b1]
    omega
  have second : Bits.bitsOf 8 (octets array)[1].toNat =
      Bits.bitsOf 4 b.toNat ++ Bits.bitsOf 4 (c.toNat / 2 ^ 2) := by
    apply bitsOf_sum 4 4
    change (((b &&& 0x0f) <<< 4) + ((c &&& 0x3c) >>> 2)).toNat = _
    rw [UInt8.toNat_add, b2, c1]
    omega
  have third : Bits.bitsOf 8 (octets array)[2].toNat =
      Bits.bitsOf 2 c.toNat ++ Bits.bitsOf 6 d.toNat := by
    apply bitsOf_sum 2 6
    change (((c &&& 0x03) <<< 6) + d).toNat = _
    rw [UInt8.toNat_add, c2]
    omega
  simp only [List.map_cons, List.map_nil, Bits.write_cons]
  rw [first, second, third, Bits.bitsOf_add 2 4 b.toNat, Bits.bitsOf_add 4 2 c.toNat]
  simp only [List.append_assoc, Bits.write_nil]

theorem toList_clearFrom {size : Nat} (array : Vector UInt8 size) {start : Nat}
    (inside : start ≤ size) :
    (clearFrom array start).toList =
      array.toList.take start ++ List.replicate (size - start) 0 := by
  apply List.ext_getElem
  · simp only [Vector.length_toList, List.length_append, List.length_take, List.length_replicate]
    omega
  · intro place left right
    rw [Vector.length_toList] at left
    simp only [clearFrom, Vector.getElem_toList, Vector.getElem_ofFn]
    split
    · rename_i before
      rw [List.getElem_append_left (by simp only [List.length_take, Vector.length_toList]; omega)]
      simp
    · rename_i behind
      rw [List.getElem_append_right (by simp only [List.length_take, Vector.length_toList]; omega)]
      simp

/-! ## The two functions on bits -/

/-- The digits of six bits that bytes are written in. -/
def digits (bytes : Bytes) : List Nat :=
  Bits.read 6 (Bits.fill 6 (Bits.write 8 (bytes.map UInt8.toNat)))

/-- The bytes that characters of the alphabet stand for. -/
def meaning (text : Bytes) : Bytes :=
  (Bits.read 8 (Bits.write 6 (text.map index))).map Nat.toUInt8

theorem write_blocks (blocks : List (Vector UInt8 3)) :
    Bits.write 6 ((blocks.flatMap fun block => (sextets block).toList).map UInt8.toNat) =
      Bits.write 8 ((blocks.flatMap Vector.toList).map UInt8.toNat) := by
  induction blocks with
  | nil => rfl
  | cons block blocks ih =>
      rw [List.flatMap_cons, List.flatMap_cons, List.map_append, List.map_append,
        Bits.write_append, Bits.write_append, ih, write_sextets]

theorem sextets_lt {array : Vector UInt8 3} {c : UInt8} (member : c ∈ (sextets array).toList) :
    c.toNat < 2 ^ 6 := by
  rw [toList_four] at member
  obtain ⟨a1, a2, -, -, -, -⟩ := sextet_terms array[0]
  obtain ⟨-, -, b1, b2, -, -⟩ := sextet_terms array[1]
  obtain ⟨-, -, -, -, c1, c2⟩ := sextet_terms array[2]
  have aBound := array[0].toNat_lt
  have bBound := array[1].toNat_lt
  have cBound := array[2].toNat_lt
  simp only [List.mem_cons, List.not_mem_nil, or_false] at member
  rcases member with rfl | rfl | rfl | rfl
  · change ((array[0] &&& 0xfc) >>> 2).toNat < _
    omega
  · change (((array[0] &&& 0x03) <<< 4) + ((array[1] &&& 0xf0) >>> 4)).toNat < _
    rw [UInt8.toNat_add, a2, b1]
    omega
  · change (((array[1] &&& 0x0f) <<< 2) + ((array[2] &&& 0xc0) >>> 6)).toNat < _
    rw [UInt8.toNat_add, b2, c1]
    omega
  · change (array[2] &&& 0x3f).toNat < _
    omega

/-- The characters of the digits of bytes that fill whole arrays, and of what follows. -/
theorem digits_append (blocks : List (Vector UInt8 3)) (last : Bytes) :
    digits (blocks.flatMap Vector.toList ++ last) =
      (blocks.flatMap fun block => (sextets block).toList).map UInt8.toNat ++ digits last := by
  have bounded : ∀ digit ∈ (blocks.flatMap fun block => (sextets block).toList).map UInt8.toNat,
      digit < 2 ^ 6 := by
    intro digit member
    obtain ⟨c, inside, rfl⟩ := List.mem_map.mp member
    obtain ⟨block, -, inside⟩ := List.mem_flatMap.mp inside
    exact sextets_lt inside
  have filled : Bits.fill 6 (Bits.write 8 ((blocks.flatMap Vector.toList ++ last).map
      UInt8.toNat)) =
      Bits.write 6 ((blocks.flatMap fun block => (sextets block).toList).map UInt8.toNat) ++
        Bits.fill 6 (Bits.write 8 (last.map UInt8.toNat)) := by
    rw [List.map_append, Bits.write_append, ← write_blocks, Bits.fill_append]
    rw [Bits.length_write]
    exact Nat.dvd_mul_right _ _
  rw [digits, filled, Bits.read_write_append (by decide) bounded]
  rfl

/-- The first characters of an array whose rest is zero. -/
theorem digits_last {last : Bytes} (some_ : last ≠ []) (short : last.length < 3)
    {array : Vector UInt8 3} (holds : array.toList.take last.length = last) :
    ((sextets (clearFrom array last.length)).toList.take (last.length + 1)).map UInt8.toNat =
      digits last := by
  have positive : 0 < last.length := List.length_pos_iff.mpr some_
  have sextetsBits : Bits.read 6 (Bits.write 8 ((clearFrom array last.length).toList.map
      UInt8.toNat)) = (sextets (clearFrom array last.length)).toList.map UInt8.toNat := by
    rw [← write_sextets]
    refine Bits.read_write (by decide) ?_
    intro digit member
    obtain ⟨c, inside, rfl⟩ := List.mem_map.mp member
    exact sextets_lt inside
  set bits : List Bool := Bits.write 8 (last.map UInt8.toNat) with bitsDef
  have length : bits.length = 8 * last.length := by
    rw [bitsDef, Bits.length_write, List.length_map]
  have padded : Bits.write 8 ((clearFrom array last.length).toList.map UInt8.toNat) =
      Bits.fill 6 bits ++ List.replicate (6 * (3 - last.length)) false := by
    rw [toList_clearFrom _ (Nat.le_of_lt short), holds, List.map_append, List.map_replicate,
      Bits.write_append, UInt8.toNat_zero, Bits.write_replicate_zero, ← bitsDef, Bits.fill,
      List.append_assoc, List.replicate_append_replicate, length]
    congr 2
    omega
  have count : (Bits.fill 6 bits).length / 6 = last.length + 1 := by
    rw [Bits.fill, List.length_append, List.length_replicate, length]
    omega
  rw [List.map_take, ← sextetsBits, padded, ← count, Bits.take_read_append (by decide)]
  rfl

/-- Bytes taken as numbers and put back. -/
theorem map_toUInt8 (bytes : Bytes) : (bytes.map UInt8.toNat).map Nat.toUInt8 = bytes := by
  rw [List.map_map]
  exact List.map_id'' (fun c => UInt8.ofNat_toNat) bytes

/-- The characters of digits that are bytes. -/
theorem map_character (sextets : List UInt8) :
    (sextets.map UInt8.toNat).map (fun digit => character digit.toUInt8) =
      sextets.map character := by
  rw [List.map_map]
  refine List.map_congr_left fun c _ => ?_
  exact congrArg character UInt8.ofNat_toNat

theorem length_flatMap_toList {size : Nat} (blocks : List (Vector UInt8 size)) :
    (blocks.flatMap Vector.toList).length = size * blocks.length := by
  induction blocks with
  | nil => rfl
  | cons block blocks ih =>
      rw [List.flatMap_cons, List.length_append, ih, Vector.length_toList, List.length_cons,
        Nat.mul_succ, Nat.add_comm]

/-- **Encoding.** The text is the bits of the bytes, cut into groups of six and followed
by the padding, whatever the array held before. -/
theorem base64Encode_eq (charArray3 : Vector UInt8 3) (buf : Bytes) :
    base64Encode charArray3 buf =
      (digits buf).map (fun digit => character digit.toUInt8) ++
        List.replicate ((3 - buf.length % 3) % 3) 61 := by
  obtain ⟨blocks, last, cut, ret, i, short, array⟩ :=
    Collector.holds_foldl buf (@Collector.holds_start 3 quadruple charArray3 (by decide))
  have bytes : buf = blocks.flatMap Vector.toList ++ last := cut
  have rest : buf.length % 3 = last.length := by
    rw [bytes, List.length_append, length_flatMap_toList, Nat.mul_add_mod, Nat.mod_eq_of_lt short]
  have whole : (blocks.flatMap fun block => (quadruple block).2) =
      (blocks.flatMap fun block => (sextets block).toList).map character := by
    rw [List.map_flatMap]
    rfl
  rw [rest]
  conv_rhs => rw [bytes, digits_append, List.map_append, map_character, ← whole, ← ret]
  by_cases none_ : last = []
  · rw [none_, base64Encode, finishText, if_pos (by rw [i, none_, List.length_nil])]
    simp only [List.length_nil, Nat.sub_zero, Nat.mod_self, List.replicate_zero, List.append_nil]
    exact (List.append_nil _).symm
  · have positive : 0 < last.length := List.length_pos_iff.mpr none_
    rw [base64Encode, finishText, if_neg (by omega), i, ← digits_last none_ short array,
      map_character, Nat.mod_eq_of_lt (by omega)]

/-! ## Decoding -/

theorem decodeLoop_eq (text : Bytes) (decoder : Collector 4) :
    decodeLoop text.length text decoder =
      (text.takeWhile isBase64).foldl (Collector.put triple) decoder := by
  induction text generalizing decoder with
  | nil => rfl
  | cons c rest ih =>
      have another : ((c :: rest).length : Int) ≠ 0 := by
        rw [List.length_cons]
        omega
      have fewer : ((c :: rest).length : Int) - 1 = rest.length := by simp
      rw [decodeLoop, if_neg another, fewer]
      by_cases inside : isBase64 c = true
      · have apart : (c != 61) = true := by
          rw [bne_iff_ne]
          rintro rfl
          rw [not_isBase64_padding] at inside
          exact absurd inside (by decide)
        rw [if_pos (by rw [apart, inside]; rfl), ih, List.takeWhile_cons_of_pos inside,
          List.foldl_cons]
      · rw [if_neg (by simp [inside]), List.takeWhile_cons_of_neg inside, List.foldl_nil]

theorem write_indices (blocks : List (Vector UInt8 4))
    (inside : ∀ c ∈ blocks.flatMap Vector.toList, isBase64 c = true) :
    Bits.write 8 ((blocks.flatMap fun block => (triple block).2).map UInt8.toNat) =
      Bits.write 6 ((blocks.flatMap Vector.toList).map index) := by
  induction blocks with
  | nil => rfl
  | cons block blocks ih =>
      have first : ∀ c ∈ (block.map find).toList, c.toNat < 2 ^ 6 := by
        intro c member
        rw [Vector.toList_map] at member
        obtain ⟨original, present, rfl⟩ := List.mem_map.mp member
        exact index_lt original (inside original (by simp [present]))
      have others := ih fun c member => inside c (List.mem_append_right _ member)
      have indices : (block.map find).toList.map UInt8.toNat = block.toList.map index := by
        rw [Vector.toList_map, List.map_map]
        rfl
      rw [List.flatMap_cons, List.flatMap_cons, List.map_append, List.map_append,
        Bits.write_append, Bits.write_append, others, ← indices]
      exact congrArg (· ++ _) (write_octets _ first)

theorem meaning_append (blocks : List (Vector UInt8 4)) (last : Bytes)
    (inside : ∀ c ∈ blocks.flatMap Vector.toList, isBase64 c = true) :
    meaning (blocks.flatMap Vector.toList ++ last) =
      (blocks.flatMap fun block => (triple block).2) ++ meaning last := by
  have bounded : ∀ digit ∈ (blocks.flatMap fun block => (triple block).2).map UInt8.toNat,
      digit < 2 ^ 8 := by
    intro digit member
    obtain ⟨c, -, rfl⟩ := List.mem_map.mp member
    exact c.toNat_lt
  rw [meaning, List.map_append, Bits.write_append, ← write_indices blocks inside,
    Bits.read_write_append (by decide) bounded, List.map_append, map_toUInt8]
  rfl

/-- A byte depends on the indices up to the one behind its own. -/
theorem take_octets {array array' : Vector UInt8 4} {count : Nat} (few : count < 4)
    (same : ∀ place (inside : place < 4), place < count →
      array[place] = array'[place]) :
    (octets array).toList.take (count - 1) = (octets array').toList.take (count - 1) := by
  rw [toList_three, toList_three]
  have first : 0 < count → array[0] = array'[0] := same 0 (by decide)
  have second : 1 < count → array[1] = array'[1] := same 1 (by decide)
  have third : 2 < count → array[2] = array'[2] := same 2 (by decide)
  obtain rfl | rfl | rfl | rfl : count = 0 ∨ count = 1 ∨ count = 2 ∨ count = 3 := by omega
  · rfl
  · rfl
  · simp only [Nat.reduceSub, List.take_succ_cons, List.take_zero]
    change [(array[0] <<< 2) + ((array[1] &&& 0x30) >>> 4)] = _
    rw [first (by decide), second (by decide)]
    rfl
  · simp only [Nat.reduceSub, List.take_succ_cons, List.take_zero]
    change [(array[0] <<< 2) + ((array[1] &&& 0x30) >>> 4),
      ((array[1] &&& 0x0f) <<< 4) + ((array[2] &&& 0x3c) >>> 2)] = _
    rw [first (by decide), second (by decide), third (by decide)]
    rfl

/-- The first bytes of an array whose last characters are missing. The index that stands
for a missing character is none of the alphabet; no byte that is returned depends on it. -/
theorem meaning_last {last : Bytes} (some_ : last ≠ []) (short : last.length < 4)
    (inside : ∀ c ∈ last, isBase64 c = true)
    {array : Vector UInt8 4} (holds : array.toList.take last.length = last) :
    (octets ((clearFrom array last.length).map find)).toList.take (last.length - 1) =
      meaning last := by
  have positive : 0 < last.length := List.length_pos_iff.mpr some_
  set zeros : Vector UInt8 4 := clearFrom (array.map find) last.length with zerosDef
  have indices : zeros.toList = last.map find ++ List.replicate (4 - last.length) 0 := by
    rw [zerosDef, toList_clearFrom _ (Nat.le_of_lt short), Vector.toList_map, ← List.map_take,
      holds]
  have same : (octets ((clearFrom array last.length).map find)).toList.take (last.length - 1) =
      (octets zeros).toList.take (last.length - 1) := by
    refine take_octets short fun place size before => ?_
    simp [zerosDef, clearFrom, before]
  have bounded : ∀ c ∈ zeros.toList, c.toNat < 2 ^ 6 := by
    intro c member
    rw [indices] at member
    rcases List.mem_append.mp member with member | member
    · obtain ⟨original, present, rfl⟩ := List.mem_map.mp member
      exact index_lt original (inside original present)
    · rw [List.eq_of_mem_replicate member]
      decide
  set bits : List Bool := Bits.write 6 (last.map index) with bitsDef
  have length : bits.length = 6 * last.length := by
    rw [bitsDef, Bits.length_write, List.length_map]
  have octetsBits : (octets zeros).toList.map UInt8.toNat =
      Bits.read 8 (bits ++ List.replicate (6 * (4 - last.length)) false) := by
    have written : Bits.write 8 ((octets zeros).toList.map UInt8.toNat) =
        bits ++ List.replicate (6 * (4 - last.length)) false := by
      rw [write_octets zeros bounded, indices, List.map_append, Bits.write_append,
        List.map_replicate, UInt8.toNat_zero, Bits.write_replicate_zero, List.map_map]
      rfl
    rw [← written, Bits.read_write (by decide)]
    intro digit member
    obtain ⟨c, -, rfl⟩ := List.mem_map.mp member
    exact c.toNat_lt
  have count : bits.length / 8 = last.length - 1 := by
    omega
  rw [same, meaning, ← bitsDef, ← Bits.take_read_append (by decide) bits, ← octetsBits, count,
    List.map_take, map_toUInt8]

/-- **Decoding.** The bytes are the bits of the characters in front of the first one that
is not of the alphabet, cut into groups of eight, whatever the array held before. -/
theorem base64Decode_eq (charArray4 : Vector UInt8 4) {text : Bytes}
    (size : text.length < 2 ^ 31) :
    base64Decode charArray4 text = meaning (text.takeWhile isBase64) := by
  obtain ⟨blocks, last, cut, ret, i, short, array⟩ :=
    Collector.holds_foldl (text.takeWhile isBase64)
      (@Collector.holds_start 4 triple charArray4 (by decide))
  have inLen : Int.bmod text.length (2 ^ 32) = text.length := by
    apply Int.bmod_eq_of_le <;> omega
  have front : text.takeWhile isBase64 = blocks.flatMap Vector.toList ++ last := cut
  have inside : ∀ c ∈ blocks.flatMap Vector.toList ++ last, isBase64 c = true := by
    rw [← front]
    exact fun c member => List.mem_takeWhile_imp member
  have first := meaning_append blocks last fun c member => inside c (List.mem_append_left _ member)
  rw [base64Decode, inLen, decodeLoop_eq, front, first, ← ret, ← front]
  by_cases none_ : last = []
  · rw [finishBytes, if_pos (by rw [i, none_, List.length_nil]), none_]
    exact (List.append_nil _).symm
  · have positive : 0 < last.length := List.length_pos_iff.mpr none_
    rw [finishBytes, if_neg (by omega), i, meaning_last none_ short
      (fun c member => inside c (List.mem_append_right _ member)) array]

end Base64

end IpUtils
