import IpUtils.Base64.Basic

/-! # Base64 there and back

What is encoded is decoded to the same bytes. Texts that are set one behind the other
decode to all their bytes only where no padding stands between them, and a text is the
encoding of what it decodes to exactly when it is canonical.
-/

namespace IpUtils

namespace Base64

/-! ## The shape of an encoding -/

/-- The characters of an encoding, without the padding. -/
def characters (buf : Bytes) : Bytes :=
  (digits buf).map fun digit => character digit.toUInt8

theorem digit_lt {buf : Bytes} {digit : Nat} (member : digit ∈ digits buf) : digit < 2 ^ 6 :=
  Bits.read_lt member

theorem isBase64_of_mem_characters {buf : Bytes} {c : UInt8} (member : c ∈ characters buf) :
    isBase64 c = true := by
  obtain ⟨digit, present, rfl⟩ := List.mem_map.mp member
  exact isBase64_character (digit_lt present)

/-- In front of the padding stand exactly the characters. -/
theorem takeWhile_characters (buf : Bytes) (count : Nat) (rest : Bytes) :
    (characters buf ++ (List.replicate (count + 1) 61 ++ rest)).takeWhile isBase64 =
      characters buf := by
  rw [List.takeWhile_append_of_pos fun c member => isBase64_of_mem_characters member,
    List.replicate_succ, List.cons_append,
    List.takeWhile_cons_of_neg (by simp [not_isBase64_padding]), List.append_nil]

theorem map_index_characters (buf : Bytes) : (characters buf).map index = digits buf := by
  rw [characters, List.map_map]
  conv_rhs => rw [← List.map_id (digits buf)]
  exact List.map_congr_left fun digit member => index_character (digit_lt member)

/-- The characters stand for the bytes they were made from, and so they do in front of
further characters when no bit has been added to them. -/
theorem meaning_characters (buf : Bytes) : meaning (characters buf) = buf := by
  have bounded : ∀ digit ∈ buf.map UInt8.toNat, digit < 2 ^ 8 := by
    intro digit member
    obtain ⟨c, -, rfl⟩ := List.mem_map.mp member
    exact c.toNat_lt
  rw [meaning, map_index_characters, digits, Bits.read_fill_write (by decide) (by decide) bounded,
    map_toUInt8]

theorem meaning_characters_append {buf : Bytes} (whole : 3 ∣ buf.length) (rest : Bytes) :
    meaning (characters buf ++ rest) = buf ++ meaning rest := by
  have bounded : ∀ digit ∈ buf.map UInt8.toNat, digit < 2 ^ 8 := by
    intro digit member
    obtain ⟨c, -, rfl⟩ := List.mem_map.mp member
    exact c.toNat_lt
  have bits : Bits.write 6 (digits buf) = Bits.write 8 (buf.map UInt8.toNat) := by
    rw [digits, Bits.write_read_fill (by decide), Bits.fill_of_dvd]
    rw [Bits.length_write, List.length_map]
    omega
  rw [meaning, List.map_append, map_index_characters, Bits.write_append, bits,
    Bits.read_write_append (by decide) bounded, List.map_append, map_toUInt8]
  rfl

theorem length_digits (buf : Bytes) : (digits buf).length = (8 * buf.length + 5) / 6 := by
  rw [digits, Bits.length_read, Bits.fill, List.length_append, List.length_replicate,
    Bits.length_write, List.length_map]
  omega

theorem length_base64Encode (charArray3 : Vector UInt8 3) (buf : Bytes) :
    (base64Encode charArray3 buf).length = 4 * ((buf.length + 2) / 3) := by
  rw [base64Encode_eq, List.length_append, List.length_map, List.length_replicate, length_digits]
  omega

/-! ## Round trips -/

/-- Behind an encoding the decoder goes on exactly when the encoding has no padding. -/
theorem base64Decode_encode_append (charArray3 : Vector UInt8 3) (charArray4 : Vector UInt8 4)
    {buf rest : Bytes} (size : (base64Encode charArray3 buf ++ rest).length < 2 ^ 31) :
    base64Decode charArray4 (base64Encode charArray3 buf ++ rest) =
      if 3 ∣ buf.length then buf ++ base64Decode charArray4 rest else buf := by
  have restSize : rest.length < 2 ^ 31 := by
    rw [List.length_append] at size
    omega
  rw [base64Decode_eq _ size, base64Decode_eq _ restSize, base64Encode_eq, List.append_assoc]
  change meaning ((characters buf ++ _).takeWhile isBase64) = _
  split
  · rename_i whole
    have none_ : (3 - buf.length % 3) % 3 = 0 := by omega
    rw [none_, List.replicate_zero, List.nil_append,
      List.takeWhile_append_of_pos fun c member => isBase64_of_mem_characters member,
      meaning_characters_append whole]
  · rename_i padded
    obtain ⟨count, padding⟩ : ∃ count, (3 - buf.length % 3) % 3 = count + 1 :=
      Nat.exists_eq_succ_of_ne_zero (by omega)
    rw [padding, takeWhile_characters, meaning_characters]

/-- Every byte string comes back from its encoding. -/
theorem base64Decode_base64Encode (charArray3 : Vector UInt8 3) (charArray4 : Vector UInt8 4)
    {buf : Bytes} (size : 4 * ((buf.length + 2) / 3) < 2 ^ 31) :
    base64Decode charArray4 (base64Encode charArray3 buf) = buf := by
  have length : (base64Encode charArray3 buf ++ []).length < 2 ^ 31 := by
    rwa [List.append_nil, length_base64Encode]
  have whole := base64Decode_encode_append charArray3 charArray4 length
  rw [List.append_nil] at whole
  rw [whole]
  split
  · rw [base64Decode_eq _ (by simp), List.takeWhile_nil]
    exact List.append_nil buf
  · rfl

theorem base64Decode_base64Encode_man :
    base64Decode #v[0, 0, 0, 0] (base64Encode #v[0, 0, 0] (ascii "Ma")) = ascii "Ma" :=
  base64Decode_base64Encode _ _ (by decide)

/-! ## Two encodings one behind the other -/

theorem takeWhile_base64Encode (charArray3 : Vector UInt8 3) (buf : Bytes) :
    (base64Encode charArray3 buf).takeWhile isBase64 = characters buf := by
  rw [base64Encode_eq]
  change (characters buf ++ _).takeWhile isBase64 = _
  rw [List.takeWhile_append_of_pos fun c member => isBase64_of_mem_characters member]
  cases (3 - buf.length % 3) % 3 with
  | zero => rw [List.replicate_zero, List.takeWhile_nil, List.append_nil]
  | succ count =>
      rw [List.replicate_succ, List.takeWhile_cons_of_neg (by simp [not_isBase64_padding]),
        List.append_nil]

/-- Behind padding nothing counts as a character any more. -/
theorem takeWhile_encode_append (charArray3 : Vector UInt8 3) {buf : Bytes}
    (padded : ¬ 3 ∣ buf.length) (rest : Bytes) :
    (base64Encode charArray3 buf ++ rest).takeWhile isBase64 = characters buf := by
  obtain ⟨count, padding⟩ : ∃ count, (3 - buf.length % 3) % 3 = count + 1 :=
    Nat.exists_eq_succ_of_ne_zero (by omega)
  rw [base64Encode_eq, List.append_assoc, padding]
  exact takeWhile_characters buf count rest

theorem characters_append {front : Bytes} (whole : 3 ∣ front.length) (back : Bytes) :
    characters (front ++ back) = characters front ++ characters back := by
  have bits : 6 ∣ (Bits.write 8 (front.map UInt8.toNat)).length := by
    rw [Bits.length_write, List.length_map]
    omega
  have cut : digits (front ++ back) = digits front ++ digits back := by
    rw [digits, List.map_append, Bits.write_append, Bits.fill_append bits,
      Bits.read_append_of_dvd (by decide) bits, digits, Bits.fill_of_dvd bits]
    rfl
  rw [characters, cut, List.map_append]
  rfl

/-- Encoding in pieces gives the encoding of the whole, and decoding the pieces in one
text gives the whole, exactly when the first piece is a multiple of three bytes or nothing
follows it. -/
theorem base64_append_iff (charArray3 : Vector UInt8 3) (charArray4 : Vector UInt8 4)
    (front back : Bytes) :
    (base64Encode charArray3 (front ++ back) =
        base64Encode charArray3 front ++ base64Encode charArray3 back ↔
      3 ∣ front.length ∨ back = []) ∧
    ((base64Encode charArray3 front ++ base64Encode charArray3 back).length < 2 ^ 31 →
      (base64Decode charArray4
          (base64Encode charArray3 front ++ base64Encode charArray3 back) = front ++ back ↔
        3 ∣ front.length ∨ back = [])) := by
  have nothing : base64Encode charArray3 [] = [] := by
    rw [base64Encode_eq]
    rfl
  refine ⟨⟨?_, ?_⟩, fun size => ⟨?_, ?_⟩⟩
  · intro same
    by_contra neither
    obtain ⟨padded, some_⟩ := not_or.mp neither
    have texts := congrArg (fun text => meaning (text.takeWhile isBase64)) same
    simp only [takeWhile_base64Encode, takeWhile_encode_append charArray3 padded,
      meaning_characters] at texts
    exact some_ (List.append_right_eq_self.mp texts)
  · rintro (whole | rfl)
    · have none_ : (3 - front.length % 3) % 3 = 0 := by omega
      have padding : (3 - (front ++ back).length % 3) % 3 = (3 - back.length % 3) % 3 := by
        rw [List.length_append]
        omega
      rw [base64Encode_eq, base64Encode_eq, base64Encode_eq, none_, padding,
        List.replicate_zero, List.append_nil, ← List.append_assoc]
      exact congrArg (· ++ _) (characters_append whole back)
    · rw [nothing, List.append_nil, List.append_nil]
  · intro same
    by_contra neither
    obtain ⟨padded, some_⟩ := not_or.mp neither
    rw [base64Decode_encode_append _ _ size, if_neg padded] at same
    exact some_ (List.append_right_eq_self.mp same.symm)
  · intro either
    have backSize : (base64Encode charArray3 back).length < 2 ^ 31 := by
      rw [List.length_append] at size
      omega
    rw [base64Decode_eq _ size]
    rcases either with whole | rfl
    · have none_ : (3 - front.length % 3) % 3 = 0 := by omega
      rw [base64Encode_eq charArray3 front, none_, List.replicate_zero, List.append_nil]
      change meaning ((characters front ++ _).takeWhile isBase64) = _
      rw [List.takeWhile_append_of_pos fun c member => isBase64_of_mem_characters member,
        takeWhile_base64Encode, meaning_characters_append whole, meaning_characters]
    · rw [nothing, List.append_nil, List.append_nil, takeWhile_base64Encode, meaning_characters]

theorem base64_append_iff_man :
    base64Decode #v[0, 0, 0, 0]
        (base64Encode #v[0, 0, 0] (ascii "Man") ++ base64Encode #v[0, 0, 0] (ascii "M")) =
      ascii "Man" ++ ascii "M" :=
  ((base64_append_iff #v[0, 0, 0] #v[0, 0, 0, 0] (ascii "Man") (ascii "M")).2
    (by rw [List.length_append, length_base64Encode, length_base64Encode]; decide)).mpr
    (Or.inl (by decide))

/-! ## Canonical texts -/

/-- Quadruples of characters, at most two of them padding at the end, and zeros in the
bits of the last character that no byte takes. -/
structure Canonical (text : Bytes) : Prop where
  quadruples : 4 ∣ text.length
  padding : text.dropWhile isBase64 =
    List.replicate (text.dropWhile isBase64).length 61
  few : (text.dropWhile isBase64).length ≤ 2
  unused : ∀ c ∈ (text.takeWhile isBase64).getLast?,
    index c % 4 ^ (text.dropWhile isBase64).length = 0

/-- The bits at the end of digits are those of the last one. -/
theorem value_drop_write {front : Bytes} {few : Nat} (inside : few ≤ 6)
    (within : few ≤ 6 * front.length) :
    Bits.value ((Bits.write 6 (front.map index)).drop (6 * front.length - few)) = 0 ↔
      ∀ c ∈ front.getLast?, index c % 2 ^ few = 0 := by
  rcases List.eq_nil_or_concat front with rfl | ⟨init, last, rfl⟩
  · simp [Bits.value]
  · have bits : Bits.write 6 ((init ++ [last]).map index) =
        (Bits.write 6 (init.map index) ++ Bits.bitsOf (6 - few) (index last / 2 ^ few)) ++
          Bits.bitsOf few (index last) := by
      rw [List.map_append, Bits.write_append, List.map_singleton, Bits.write_cons,
        Bits.write_nil, List.append_nil, List.append_assoc, ← Bits.bitsOf_add,
        Nat.sub_add_cancel inside]
    have place : 6 * (init ++ [last]).length - few =
        (Bits.write 6 (init.map index) ++
          Bits.bitsOf (6 - few) (index last / 2 ^ few)).length := by
      simp only [List.length_append, Bits.length_write, List.length_map, Bits.length_bitsOf,
        List.length_singleton]
      omega
    rw [List.concat_eq_append, bits, place, List.drop_left, Bits.value_bitsOf]
    simp

/-- The characters of what characters stand for. -/
theorem characters_meaning {front : Bytes} (inside : ∀ c ∈ front, isBase64 c = true) :
    characters (meaning front) = front ↔
      6 * front.length % 8 < 6 ∧
        ∀ c ∈ front.getLast?, index c % 2 ^ (6 * front.length % 8) = 0 := by
  have bounded : ∀ digit ∈ front.map index, digit < 2 ^ 6 := by
    intro digit member
    obtain ⟨c, present, rfl⟩ := List.mem_map.mp member
    exact index_lt c (inside c present)
  have indices : characters (meaning front) = front ↔ digits (meaning front) = front.map index := by
    constructor
    · intro same
      rw [← map_index_characters, same]
    · intro same
      rw [characters, same, List.map_map]
      conv_rhs => rw [← List.map_id front]
      refine List.map_congr_left fun c member => ?_
      simp only [Function.comp_apply, index, id_eq]
      rw [show (find c).toNat.toUInt8 = find c from UInt8.ofNat_toNat]
      exact character_find c (inside c member)
  have numbers : (meaning front).map UInt8.toNat =
      Bits.read 8 (Bits.write 6 (front.map index)) := by
    rw [meaning, List.map_map]
    conv_rhs => rw [← List.map_id (Bits.read 8 _)]
    refine List.map_congr_left fun number member => ?_
    exact UInt8.toNat_ofNat_of_lt (Bits.read_lt member)
  have length : (front.map index).length = front.length := List.length_map _
  rw [indices, digits, numbers, Bits.fill_read_write (by decide) (by decide) bounded, length]
  refine and_congr_right fun few => ?_
  have place : 6 * front.length / 8 * 8 = 6 * front.length - 6 * front.length % 8 := by omega
  rw [place, value_drop_write (Nat.le_of_lt few) (Nat.mod_le _ _)]

theorem length_meaning (front : Bytes) : (meaning front).length = 6 * front.length / 8 := by
  rw [meaning, List.length_map, Bits.length_read, Bits.length_write, List.length_map]

/-- **Canonical texts.** A text is the encoding of what it decodes to exactly when it is
canonical. -/
theorem base64Encode_base64Decode_iff (charArray3 : Vector UInt8 3)
    (charArray4 : Vector UInt8 4) {text : Bytes} (size : text.length < 2 ^ 31) :
    base64Encode charArray3 (base64Decode charArray4 text) = text ↔ Canonical text := by
  set front : Bytes := text.takeWhile isBase64 with frontDef
  set back : Bytes := text.dropWhile isBase64 with backDef
  have split : front ++ back = text := List.takeWhile_append_dropWhile
  have inside : ∀ c ∈ front, isBase64 c = true := fun c member => List.mem_takeWhile_imp member
  have lengths : front.length + back.length = text.length := by
    rw [← split, List.length_append]
  rw [base64Decode_eq _ size, ← frontDef]
  have parts : base64Encode charArray3 (meaning front) = text ↔
      characters (meaning front) = front ∧
        List.replicate ((3 - (meaning front).length % 3) % 3) 61 = back := by
    constructor
    · intro same
      have first : characters (meaning front) = front := by
        rw [← takeWhile_base64Encode charArray3, same]
      refine ⟨first, ?_⟩
      rw [base64Encode_eq, ← split] at same
      change characters (meaning front) ++ _ = _ at same
      rwa [first, List.append_cancel_left_eq] at same
    · rintro ⟨first, second⟩
      rw [base64Encode_eq, second, ← split]
      change characters (meaning front) ++ _ = _
      rw [first]
  rw [parts, characters_meaning inside, length_meaning]
  constructor
  · rintro ⟨⟨few, unused⟩, padding⟩
    have count := congrArg List.length padding
    rw [List.length_replicate] at count
    have rest : 6 * front.length % 8 = 2 * back.length := by omega
    refine ⟨by omega, ?_, ?_, ?_⟩
    · rw [← backDef, ← count, padding]
    · rw [← backDef]
      omega
    · intro c member
      rw [← backDef, show 4 = 2 ^ 2 from rfl, ← pow_mul, ← rest]
      exact unused c member
  · rintro ⟨quadruples, padding, few, unused⟩
    rw [← backDef] at padding few unused
    have rest : 6 * front.length % 8 = 2 * back.length := by omega
    refine ⟨⟨by omega, ?_⟩, ?_⟩
    · intro c member
      have zero := unused c member
      rwa [show 4 = 2 ^ 2 from rfl, ← pow_mul, ← rest] at zero
    · rw [padding]
      congr 1
      omega

theorem base64Encode_base64Decode_iff_man :
    base64Encode #v[0, 0, 0] (base64Decode #v[0, 0, 0, 0] (ascii "TWE=")) = ascii "TWE=" ↔
      Canonical (ascii "TWE=") :=
  base64Encode_base64Decode_iff _ _ (by decide)

end Base64

end IpUtils
