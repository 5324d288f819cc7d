import IpUtils.CLib.Memory
import IpUtils.HTTP.ChunkScan
import IpUtils.HTTP.Cut

/-! # Chunks that are encoded and decoded

The decoder reads an encoded body back when no chunk holds a carriage return: it looks for
the end of the data and not at the number of bytes that the chunk announces. Of a body that
is cut off it waits for the rest as long as there is one chunk at most: behind every chunk it
reads a byte more than there are.
-/

namespace IpUtils

open CLib Scanner

namespace CLib

/-- A hexadecimal digit. -/
def isxdigit (c : UInt8) : Bool :=
  decide (digitValue c < 16)

theorem isxdigit_cases {c : UInt8} (digit : isxdigit c = true) :
    c ≠ 0 ∧ c ≠ 13 ∧ c ≠ 45 ∧ c ≠ 43 ∧ isspace c = false ∧ tolower c ≠ 120 := by
  have facts : ∀ value : Fin 256, isxdigit (UInt8.ofFin value) = true →
      UInt8.ofFin value ≠ 0 ∧ UInt8.ofFin value ≠ 13 ∧ UInt8.ofFin value ≠ 45 ∧
        UInt8.ofFin value ≠ 43 ∧ isspace (UInt8.ofFin value) = false ∧
        tolower (UInt8.ofFin value) ≠ 120 := by
    decide +kernel
  exact facts c.toFin digit

/-- A number in hexadecimal digits is read as it is. -/
theorem strtol_hexadecimal {digits : Bytes} (all : ∀ c ∈ digits, isxdigit c = true)
    (small : (digitsValue 16 digits : Int) ≤ longMax) : strtol 16 digits = digitsValue 16 digits := by
  have noNul : cstr digits = digits :=
    cstr_eq_self fun member => (isxdigit_cases (all 0 member)).1 rfl
  have noSpace : digits.dropWhile isspace = digits := by
    cases digits with
    | nil => rfl
    | cons c rest =>
        rw [List.dropWhile_cons_of_neg]
        simp [(isxdigit_cases (all c (by simp))).2.2.2.2.1]
  have noSign : ∀ sign, (sign = 45 ∨ sign = 43) → (digits.head? == some sign) = false := by
    intro sign kind
    cases digits with
    | nil => rfl
    | cons c rest =>
        obtain ⟨-, -, minus, plus, -⟩ := isxdigit_cases (all c (by simp))
        rcases kind with rfl | rfl
        · simpa using minus
        · simpa using plus
  have noPrefix : skipHexPrefix 16 digits = digits := by
    unfold skipHexPrefix
    split
    · rename_i x c rest
      have plain := (isxdigit_cases (all x (by simp))).2.2.2.2.2
      rw [if_neg (by simp [plain])]
    · rfl
  have whole : digits.takeWhile (digitValue · < 16) = digits :=
    List.takeWhile_eq_self_iff.mpr all
  have numeral : parseNumeral 16 digits = (false, digitsValue 16 digits) := by
    simp only [parseNumeral, noNul, noSpace, noSign 45 (.inl rfl), noSign 43 (.inr rfl),
      Bool.or_self, Bool.false_eq_true, ↓reduceIte, noPrefix, whole]
  unfold strtol
  rw [numeral]
  exact min_eq_left small

end CLib

namespace HTTPFraming

/-! ## The encoding -/

/-- A chunk: the digits of its size, and its data. -/
structure Chunk where
  size : Bytes
  data : Bytes
  deriving DecidableEq, Repr

namespace Chunk

/-- The size is that of the data, which are there and hold no NUL. -/
structure Wf (chunk : Chunk) : Prop where
  digits : ∀ c ∈ chunk.size, isxdigit c = true
  size : digitsValue 16 chunk.size = chunk.data.length
  inhabited : chunk.data ≠ []
  noNul : (0 : UInt8) ∉ chunk.data
  small : (chunk.data.length : Int) ≤ longMax

/-- A chunk on the wire. -/
def text (chunk : Chunk) : Bytes :=
  chunk.size ++ 13 :: 10 :: (chunk.data ++ [13, 10])

end Chunk

/-- The last chunk up to the end of its line, and what follows it. -/
def lastChunk : Bytes :=
  [48]

/-- A body in chunks. -/
def chunkedText (chunks : List Chunk) : Bytes :=
  chunks.flatMap Chunk.text ++ lastChunk ++ [13, 10] ++ [13, 10]

/-- The body that chunks make up. -/
def chunksData (chunks : List Chunk) : Bytes :=
  chunks.flatMap Chunk.data

/-- `realloc` has memory: the array of the new size begins with the bytes of the old one. -/
def Reallocates (realloc : Realloc) : Prop :=
  ∀ array size, ∃ array', realloc array size = some array' ∧ array'.length = size ∧
    array.take size <+: array'

/-! ## Room -/

section Room

variable {realloc : Realloc} {count : Nat} {exec : Exec ChunkBuf} {chunkSize : Nat}

/-- The buffer holds some bytes and has room for one more. -/
structure Holds (exec : Exec ChunkBuf) (body : Bytes) : Prop where
  array : ∃ array, exec.obj.msgBody = some array ∧ array.length = exec.obj.size ∧ body <+: array
  room : body.length < exec.obj.size

/-- Room is made for a chunk. -/
theorem reserve_holds (success : Reallocates realloc) {body : Bytes} (holds : Holds exec body)
    (positive : 0 < chunkSize)
    (small : exec.obj.size + chunkSize + scratchBufSize < 2 ^ 63) :
    ∃ ready, (∀ window, reserve realloc body.length chunkSize window exec =
        (some ((), window), ready)) ∧
      Holds ready body ∧ body.length + chunkSize < ready.obj.size ∧ ready.error = exec.error ∧
      ready.obj.size ≤ exec.obj.size + chunkSize + scratchBufSize := by
  obtain ⟨array, held, length, within⟩ := holds.array
  have room := holds.room
  have after : sizeAfter chunkSize body.length = chunkSize + body.length := by
    rw [sizeAfter, toSize]
    omega
  unfold reserve
  rw [after]
  by_cases fits : chunkSize + body.length < exec.obj.size
  · exact ⟨exec, fun _ => if_pos fits, holds, by omega, rfl, by omega⟩
  · simp only [if_neg fits]
    have grown : exec.obj.size < grownSize exec.obj.size chunkSize ∧
        body.length + chunkSize < grownSize exec.obj.size chunkSize ∧
        grownSize exec.obj.size chunkSize ≤ exec.obj.size + chunkSize + scratchBufSize := by
      unfold grownSize toSize
      by_cases low : (chunkSize : Int) < scratchBufSize
      · simp only [if_pos low]
        simp only [scratchBufSize] at small low ⊢
        omega
      · simp only [if_neg low]
        simp only [scratchBufSize] at small low ⊢
        omega
    obtain ⟨larger, enough, most⟩ := grown
    obtain ⟨array', given, length', kept⟩ := success array (grownSize exec.obj.size chunkSize)
    simp only [held, Option.getD_some, given]
    generalize grownSize exec.obj.size chunkSize = newSize at larger enough most length' kept
    refine ⟨{ exec with obj := ⟨some array', newSize⟩ }, fun _ => rfl,
      ⟨⟨array', rfl, length', ?_⟩, ?_⟩, enough, rfl, most⟩
    · rw [List.take_of_length_le (by omega)] at kept
      exact within.trans kept
    · exact Nat.lt_of_le_of_lt (Nat.le_add_right _ _) enough

/-- The data of a chunk are put behind the body. -/
theorem storeBody_holds {body data : Bytes} (holds : Holds exec body)
    (room : body.length + data.length < exec.obj.size) :
    Holds (storeBody body.length data exec) (body ++ data) := by
  obtain ⟨array, held, length, within⟩ := holds.array
  have fits : body.length + data.length ≤ array.length := by omega
  refine ⟨⟨store array body.length data, ?_, ?_, ?_⟩, ?_⟩
  · simp [storeBody, held]
  · rw [length_store fits, length]
    rfl
  · rw [store_of_fits fits, ← List.prefix_iff_eq_take.mp within]
    exact List.prefix_append _ _
  · rw [List.length_append]
    exact room

/-- The NUL ends the body. -/
theorem storeBody_nul {body : Bytes} (holds : Holds exec body) (noNul : (0 : UInt8) ∉ body) :
    ∃ array, (storeBody body.length [0] exec).obj.msgBody = some array ∧ cstr array = body ∧
      body.length < array.length := by
  obtain ⟨array, held, length, within⟩ := holds.array
  have room := holds.room
  have fits : body.length + ([0] : Bytes).length ≤ array.length := by
    rw [List.length_singleton]
    omega
  refine ⟨store array body.length [0], by simp [storeBody, held], ?_, ?_⟩
  · rw [store_of_fits fits, ← List.prefix_iff_eq_take.mp within, List.append_assoc]
    exact cstr_append_zero noNul _
  · rw [length_store fits]
    omega

end Room

/-! ## Decoding -/

section Decode

variable {realloc : Realloc} {exec : Exec ChunkBuf} {chunk : Chunk} {chunks : List Chunk}

theorem isLineByte_of_ne {text : Bytes} (noCr : (13 : UInt8) ∉ text) :
    ∀ c ∈ text, isLineByte c = true := by
  intro c member
  simp only [isLineByte, bne_iff_ne, ne_eq]
  exact fun same => noCr (same ▸ member)

namespace Chunk

theorem Wf.passes (wf : chunk.Wf) : ∀ c ∈ chunk.size, isLineByte c = true :=
  isLineByte_of_ne fun member => (isxdigit_cases (wf.digits 13 member)).2.1 rfl

theorem Wf.strtol_size (wf : chunk.Wf) : strtol 16 (cstr chunk.size) = chunk.data.length := by
  have noNul : cstr chunk.size = chunk.size :=
    cstr_eq_self fun member => (isxdigit_cases (wf.digits 0 member)).1 rfl
  rw [noNul, strtol_hexadecimal wf.digits (by rw [wf.size]; exact wf.small), wf.size]

theorem Wf.positive (wf : chunk.Wf) : 0 < chunk.data.length :=
  List.length_pos_iff.mpr wf.inhabited

theorem Wf.strtol_ne_zero (wf : chunk.Wf) : strtol 16 (cstr chunk.size) ≠ 0 := by
  have positive := wf.positive
  rw [wf.strtol_size]
  omega

end Chunk

theorem holds_sized {line body : Bytes} (holds : Holds exec body) : Holds (sized line exec) body :=
  ⟨holds.array, holds.room⟩

/-- How much a buffer may grow while chunks are decoded. -/
def growth (chunks : List Chunk) : Nat :=
  (chunks.map fun chunk => chunk.data.length + scratchBufSize).sum

/-- The step: a chunk without a carriage return is stored, and its room has been made. -/
theorem iterate_text (success : Reallocates realloc) {body : Bytes} (holds : Holds exec body)
    (wf : chunk.Wf) (noCr : (13 : UInt8) ∉ chunk.data)
    (small : exec.obj.size + chunk.data.length + scratchBufSize < 2 ^ 63) :
    ∃ after, Holds after (body ++ chunk.data) ∧ after.error = exec.error ∧
      after.obj.size ≤ exec.obj.size + chunk.data.length + scratchBufSize ∧
      ∀ rest beyond,
        Scanner.iterate (parseChunk realloc) (body.length, beyond) (chunk.text ++ rest) exec =
          Scanner.iterate (parseChunk realloc) ((body ++ chunk.data).length, beyond.tail)
            (rest ++ [beyond.head]) after := by
  obtain ⟨ready, room, kept, enough, error, most⟩ :=
    reserve_holds success (@holds_sized _ chunk.size _ holds) wf.positive small
  refine ⟨_, storeBody_holds kept enough, error, most, fun rest beyond => ?_⟩
  rw [← wf.strtol_size] at room
  have step := iterate_chunk wf.passes wf.strtol_ne_zero (isLineByte_of_ne noCr) room rest beyond
  rw [List.length_append, ← step, Chunk.text]
  simp

/-- Chunks without carriage returns are decoded, whatever stands behind them. -/
theorem iterate_chunkedText (success : Reallocates realloc) {body : Bytes}
    (holds : Holds exec body) (wf : ∀ chunk ∈ chunks, chunk.Wf)
    (noCr : ∀ chunk ∈ chunks, (13 : UInt8) ∉ chunk.data)
    (small : exec.obj.size + growth chunks < 2 ^ 63) (more : Bytes) (beyond : Stream' UInt8) :
    ∃ left after, Holds after (body ++ chunksData chunks) ∧ after.error = exec.error ∧
      Scanner.iterate (parseChunk realloc) (body.length, beyond) (chunkedText chunks ++ more) exec =
        (some ((), left), storeBody (body ++ chunksData chunks).length [0] after) := by
  induction chunks generalizing exec body more beyond with
  | nil =>
      refine ⟨[13, 10] ++ more, sized lastChunk exec, by simpa [chunksData] using holds_sized holds,
        rfl, ?_⟩
      have passes : ∀ c ∈ lastChunk, isLineByte c = true := List.forall_mem_singleton.mpr rfl
      have zero : strtol 16 (cstr lastChunk) = 0 := by decide
      have last := @iterate_last realloc body.length beyond exec lastChunk ([13, 10] ++ more) passes
        zero (by simp)
      simpa [chunkedText, chunksData] using last
  | cons chunk chunks ih =>
      have grows : growth (chunk :: chunks) = chunk.data.length + scratchBufSize + growth chunks := by
        simp [growth]
      obtain ⟨between, kept, error, most, step⟩ := iterate_text success holds
        (wf chunk List.mem_cons_self) (noCr chunk List.mem_cons_self) (by omega)
      obtain ⟨left, after, done_, error', result⟩ := ih kept
        (fun other member => wf other (List.mem_cons_of_mem _ member))
        (fun other member => noCr other (List.mem_cons_of_mem _ member)) (by omega)
        (more ++ [beyond.head]) beyond.tail
      have data : body ++ chunk.data ++ chunksData chunks = body ++ chunksData (chunk :: chunks) := by
        simp [chunksData]
      rw [data] at done_ result
      refine ⟨left, after, done_, error'.trans error, ?_⟩
      have text : chunkedText (chunk :: chunks) ++ more = chunk.text ++ (chunkedText chunks ++ more) := by
        simp [chunkedText]
      rw [text, step, List.append_assoc, result]

/-- The decoder waits for more inside a chunk. -/
theorem iterate_cut (success : Reallocates realloc) {body : Bytes} (holds : Holds exec body)
    (wf : chunk.Wf) (noCr : (13 : UInt8) ∉ chunk.data)
    (small : exec.obj.size + chunk.data.length + scratchBufSize < 2 ^ 63) {count : Nat}
    (short : count < chunk.text.length) (beyond : Stream' UInt8) :
    ∃ exec', Scanner.iterate (parseChunk realloc) (body.length, beyond) (chunk.text.take count)
        exec = (none, exec') ∧ exec'.error = exec.error := by
  have length : chunk.text.length = chunk.size.length + chunk.data.length + 4 := by
    simp only [Chunk.text, List.length_append, List.length_cons, List.length_nil]
    omega
  obtain ⟨ready, room, kept, enough, error, most⟩ :=
    reserve_holds success (@holds_sized _ chunk.size _ holds) wf.positive small
  rw [← wf.strtol_size] at room
  have inside := isLineByte_of_ne noCr
  have data {rest front : Bytes} (inhabited : rest ≠ [])
      (stopped : parseChunkData beyond body.length rest ready =
        (none, storeBody body.length front ready)) :
      ∃ exec', Scanner.iterate (parseChunk realloc) (body.length, beyond)
          (chunk.size ++ 13 :: 10 :: rest) exec = (none, exec') ∧ exec'.error = exec.error :=
    ⟨_, iterate_dataStops wf.passes wf.strtol_ne_zero inhabited room stopped, error⟩
  by_cases early : count ≤ chunk.size.length
  · have shape : chunk.text.take count = chunk.size.take count := by
      rw [Chunk.text, List.take_append_of_le_length early]
    rw [shape]
    exact iterate_sizeLine fun c member => wf.passes c (List.mem_of_mem_take member)
  · obtain ⟨more, rfl⟩ : ∃ more, count = chunk.size.length + (more + 1) :=
      ⟨count - chunk.size.length - 1, by omega⟩
    have shape : chunk.text.take (chunk.size.length + (more + 1)) =
        chunk.size ++ 13 :: (10 :: (chunk.data ++ [13, 10])).take more := by
      rw [Chunk.text, List.take_length_add_append, List.take_succ_cons]
    rw [shape]
    match more, short with
    | 0, _ => exact ⟨_, iterate_sizeCr wf.passes, rfl⟩
    | 1, _ => exact ⟨_, iterate_sizeCrLf wf.passes, rfl⟩
    | place + 2, short =>
        rw [List.take_succ_cons]
        by_cases within : place + 1 ≤ chunk.data.length
        · rw [List.take_append_of_le_length within]
          have some_ : chunk.data.take (place + 1) ≠ [] := by
            have := wf.inhabited
            simpa using this
          exact data some_ (parseChunkData_line fun c member =>
            inside c (List.mem_of_mem_take member))
        · have last : place + 1 = chunk.data.length + 1 := by omega
          have tail : (chunk.data ++ [13, 10]).take (place + 1) = chunk.data ++ [13] := by
            rw [last, List.take_length_add_append]
            rfl
          rw [tail]
          exact data (by simp) (parseChunkData_line_cr inside)

/-- Of a body with one chunk at most, the decoder waits for more before the end of the line of
the last chunk: behind the chunk it reads one byte more than there are. -/
theorem iterate_part (success : Reallocates realloc) {body window : Bytes}
    (holds : Holds exec body) (wf : ∀ chunk ∈ chunks, chunk.Wf)
    (noCr : ∀ chunk ∈ chunks, (13 : UInt8) ∉ chunk.data) (single : chunks.length ≤ 1)
    (small : exec.obj.size + growth chunks < 2 ^ 63)
    (within : window <+: chunks.flatMap Chunk.text ++ lastChunk) (beyond : Stream' UInt8) :
    ∃ exec', Scanner.iterate (parseChunk realloc) (body.length, beyond) window exec =
        (none, exec') ∧ exec'.error = exec.error := by
  have passes : ∀ c ∈ lastChunk, isLineByte c = true := List.forall_mem_singleton.mpr rfl
  match chunks with
  | [] => exact iterate_sizeLine fun c member => passes c (within.subset member)
  | [chunk] =>
      have grows : growth [chunk] = chunk.data.length + scratchBufSize := by simp [growth]
      rw [List.flatMap_cons, List.append_assoc] at within
      rcases prefix_word_cases within with ⟨count, short, rfl⟩ | ⟨rest, rfl, behind⟩
      · exact iterate_cut success holds (wf chunk List.mem_cons_self)
          (noCr chunk List.mem_cons_self) (by omega) short beyond
      · obtain ⟨between, kept, error, most, step⟩ := iterate_text success holds
          (wf chunk List.mem_cons_self) (noCr chunk List.mem_cons_self) (by omega)
        refine ⟨_, (step rest beyond).trans (iterate_sizeLine_one ?_ _ _), error⟩
        exact fun c member => passes c (behind.subset member)

/-- Between the two bytes that end the size of the second chunk, the byte behind the window is
taken for the second of them. -/
theorem iterate_second (success : Reallocates realloc) {body : Bytes} (holds : Holds exec body)
    {first second : Chunk} (wf : first.Wf) (wf' : second.Wf) (noCr : (13 : UInt8) ∉ first.data)
    (small : exec.obj.size + first.data.length + scratchBufSize < 2 ^ 63) {c : UInt8} (other : c ≠ 10)
    (beyond : Stream' UInt8) :
    exec.error.msgs.length <
      (Scanner.iterate (parseChunk realloc) (body.length, Stream'.cons c beyond)
        (first.text ++ (second.size ++ [13])) exec).2.error.msgs.length := by
  obtain ⟨between, kept, error, most, step⟩ := iterate_text success holds wf noCr small
  rw [step, Stream'.head_cons, List.append_assoc, List.singleton_append,
    iterate_badSize wf'.passes other, ← error]
  exact (length_msgs_missing "'\n'" _ (sized second.size between)).1

end Decode

/-! ## Carriage returns -/

section CarriageReturns

variable {realloc : Realloc} {exec : Exec ChunkBuf}

/-- There is no carriage return in the buffer. -/
def NoCr (exec : Exec ChunkBuf) : Prop :=
  ∀ c ∈ exec.obj.msgBody.getD [], c ≠ 13

theorem robust_noCr : Robust NoCr :=
  Robust.of_obj fun obj : ChunkBuf => ∀ c ∈ obj.msgBody.getD [], c ≠ 13

theorem noCr_storeBody (holds : NoCr exec) (count : Nat) {data : Bytes}
    (passes : ∀ c ∈ data, c ≠ 13) : NoCr (storeBody count data exec) := by
  intro c member
  simp only [storeBody, Option.getD_some, store, List.mem_append] at member
  rcases member with front | back
  · rcases List.mem_append.mp (List.mem_of_mem_take front) with old | new
    · exact holds c (List.mem_of_mem_take old)
    · exact passes c new
  · exact holds c (List.mem_of_mem_drop back)

/-- No memory that is handed out holds a carriage return. -/
def Blank (realloc : Realloc) : Prop :=
  ∀ array size, (∀ c ∈ array, c ≠ 13) → ∀ array', realloc array size = some array' →
    ∀ c ∈ array', c ≠ 13

theorem keeps_noCr_reserve (blank : Blank realloc) (count : Nat) (chunkSize : Int) :
    Keeps NoCr (reserve realloc count chunkSize) := by
  intro window exec holds
  unfold reserve
  split
  · exact holds
  · dsimp only
    split
    · intro c member
      cases member
    · rename_i array given
      exact blank _ _ holds _ given

theorem keeps_noCr_parseChunkData (beyond : Stream' UInt8) (count : Nat) :
    Keeps NoCr (parseChunkData beyond count) := by
  intro window exec holds
  have stored : NoCr (storeBody count (window.takeWhile isLineByte) exec) :=
    noCr_storeBody holds count fun c member => by
      simpa [isLineByte] using List.mem_takeWhile_imp member
  have behind : Keeps NoCr (Scanner.need >>= fun _ =>
      Parse.expectStep 13 (chunkExpected "'\r'") >>= fun _ =>
        Parse.expect 10 (chunkExpected "'\n'") >>= fun _ => Scanner.slide beyond.head >>=
          fun _ => pure (count + (window.takeWhile isLineByte).length)) :=
    Keeps.need.bind fun _ => (Keeps.expectStep robust_noCr _ _).bind fun _ =>
      (Keeps.require robust_noCr _ _ _).bind fun _ => (Keeps.slide _).bind fun _ => Keeps.pure _
  exact behind (window.dropWhile isLineByte) _ stored

theorem keeps_noCr_parseChunk (blank : Blank realloc) (place : Nat × Stream' UInt8) :
    Keeps NoCr (parseChunk realloc place) := by
  obtain ⟨count, beyond⟩ := place
  have size : Keeps NoCr parseChunkSize :=
    (Keeps.token robust_noCr _ _).bind fun _ => (Keeps.expectStep robust_noCr _ _).bind fun _ =>
      (Keeps.expectStep robust_noCr _ _).bind fun _ => Keeps.pure _
  refine size.bind fun chunkSize => Keeps.ite ?_ ?_
  · have ended : Keeps NoCr (Scanner.update (storeBody count [0]) : Parse ChunkBuf Unit) :=
      Keeps.update fun exec holds => @noCr_storeBody exec holds count [0] (by simp)
    exact ended.bind fun _ => Keeps.pure _
  · exact (keeps_noCr_reserve blank count chunkSize).bind fun _ =>
      (keeps_noCr_parseChunkData beyond count).bind fun _ => Keeps.pure _

end CarriageReturns

/-! ## The whole decoder -/

theorem solid_of_part {chunks : List Chunk} (wf : ∀ chunk ∈ chunks, chunk.Wf) {window rest : Bytes}
    (within : window <+: chunks.flatMap Chunk.text ++ 48 :: rest) :
    window.dropWhile isspace = window := by
  cases window with
  | nil => rfl
  | cons first behind =>
      have digit : isxdigit first = true := by
        cases chunks with
        | nil =>
            obtain ⟨rfl, -⟩ := List.cons_prefix_cons.mp within
            decide
        | cons chunk chunks =>
            have whole := wf chunk List.mem_cons_self
            have positive := whole.positive
            cases size : chunk.size with
            | nil =>
                have value := whole.size
                rw [size] at value
                change 0 = _ at value
                omega
            | cons c digits =>
                rw [List.flatMap_cons, Chunk.text, size] at within
                obtain ⟨rfl, -⟩ := List.cons_prefix_cons.mp within
                exact whole.digits first (by rw [size]; exact List.mem_cons_self)
      exact List.dropWhile_cons_of_neg (by simp [(isxdigit_cases digit).2.2.2.2.1])

/-- Whatever the memory behind it holds, a body in chunks is decoded, and before the end of the
line of the last chunk the decoder waits for more. -/
structure Decodes (realloc : Realloc) (exec : Exec ChunkBuf) (chunks : List Chunk) : Prop where
  whole : ∀ beyond, ∃ rest exec' array,
    parseChunkedMsgBody realloc (chunkedText chunks ++ₛ beyond) (chunkedText chunks).length exec =
        (some ((), rest), exec') ∧
      exec'.error = exec.error ∧ exec'.obj.msgBody = some array ∧
      cstr array = chunksData chunks ∧ (chunksData chunks).length < array.length
  part : ∀ window beyond, window <+: chunks.flatMap Chunk.text ++ lastChunk →
    ∃ exec', parseChunkedMsgBody realloc (window ++ₛ beyond) window.length exec = (none, exec') ∧
      exec'.error = exec.error

/-- `realloc` that fills new memory with zeros. -/
def zeroed : Realloc :=
  fun array size => some (readMemory array size)

theorem reallocates_zeroed : Reallocates zeroed :=
  fun _ _ => ⟨_, rfl, length_readMemory _ _, List.prefix_append _ _⟩

theorem blank_zeroed : Blank zeroed := by
  intro array size old array' given c member
  obtain rfl := Option.some.inj given
  rcases List.mem_append.mp member with front | zeros
  · exact old c (List.mem_of_mem_take front)
  · rw [List.eq_of_mem_replicate zeros]
    decide

/-- The text of chunks does not begin with white space. -/
theorem solid_chunkedText {chunks : List Chunk} (wf : ∀ chunk ∈ chunks, chunk.Wf) :
    (chunkedText chunks).dropWhile isspace = chunkedText chunks :=
  @solid_of_part _ wf (chunkedText chunks) ([13, 10] ++ [13, 10])
    (by simp [chunkedText, lastChunk])

/-- Chunks that are decoded hold no carriage return: the decoder never stores one. -/
theorem noCr_of_decodes {chunks : List Chunk} (wf : ∀ chunk ∈ chunks, chunk.Wf)
    (zeros : Decodes zeroed { obj := ⟨some [0], 1⟩, error := {} } chunks) :
    ∀ chunk ∈ chunks, (13 : UInt8) ∉ chunk.data := by
  intro chunk member cr
  obtain ⟨rest, exec', array, ran, -, held, data, -⟩ := zeros.whole (Stream'.const 0)
  rw [parseChunkedMsgBody_append _ _ rfl, solid_chunkedText wf] at ran
  have clean := Keeps.iterate (keeps_noCr_parseChunk blank_zeroed) (0, Stream'.const 0)
    (chunkedText chunks) { obj := ⟨some [0], 1⟩, error := {} } (by simp [NoCr])
  rw [ran] at clean
  have there : (13 : UInt8) ∈ cstr array := by
    rw [data]
    exact List.mem_flatMap.mpr ⟨chunk, member, cr⟩
  refine clean 13 ?_ rfl
  rw [held]
  exact (List.takeWhile_prefix _).subset there

/-- Chunks of which every part is decoded are one at most: cut off between the two bytes that
end the size of the second, the decoder reads the byte behind. -/
theorem single_of_decodes {chunks : List Chunk} (wf : ∀ chunk ∈ chunks, chunk.Wf)
    (small : growth chunks + 1 < 2 ^ 63) (noCr : ∀ chunk ∈ chunks, (13 : UInt8) ∉ chunk.data)
    (zeros : Decodes zeroed { obj := ⟨some [0], 1⟩, error := {} } chunks) :
    chunks.length ≤ 1 := by
  rcases chunks with _ | ⟨first, _ | ⟨second, chunks⟩⟩
  · exact Nat.zero_le 1
  · exact le_refl 1
  have within : first.text ++ (second.size ++ [13]) <+:
      (first :: second :: chunks).flatMap Chunk.text ++ lastChunk :=
    ⟨10 :: (second.data ++ [13, 10]) ++ (chunks.flatMap Chunk.text ++ lastChunk), by
      simp [Chunk.text]⟩
  obtain ⟨exec', ran, same⟩ := zeros.part _ (Stream'.cons 120 (Stream'.const 120)) within
  have start : Holds { obj := ⟨some [0], 1⟩, error := {} } [] :=
    ⟨⟨[0], rfl, rfl, List.nil_prefix⟩, Nat.one_pos⟩
  have grows : growth (first :: second :: chunks) =
      first.data.length + scratchBufSize + growth (second :: chunks) := by
    simp [growth]
  have raised := @iterate_second zeroed _ reallocates_zeroed _ start first second
    (wf first (by simp)) (wf second (by simp)) (noCr first (by simp))
    (by dsimp only; omega) 120 (by decide) (Stream'.const 120)
  rw [parseChunkedMsgBody_append _ _ rfl, solid_of_part wf within] at ran
  have told := congrArg (fun outcome => outcome.2.error.msgs.length) ran
  rw [same] at told
  exact absurd told (Nat.ne_of_gt raised)

/-- One chunk without a carriage return is decoded, and a part of it is waited for. -/
theorem decodes_of_single {chunks : List Chunk} (wf : ∀ chunk ∈ chunks, chunk.Wf)
    (noCr : ∀ chunk ∈ chunks, (13 : UInt8) ∉ chunk.data) (single : chunks.length ≤ 1)
    {realloc : Realloc} {exec : Exec ChunkBuf} {array : Bytes} (success : Reallocates realloc)
    (obj : exec.obj = ⟨some array, array.length⟩) (inhabited : array ≠ [])
    (fits : array.length + growth chunks < 2 ^ 63) : Decodes realloc exec chunks := by
  have start : Holds exec [] := by
    rw [← List.length_pos_iff] at inhabited
    exact ⟨⟨array, by rw [obj], by rw [obj], List.nil_prefix⟩, by rw [obj]; exact inhabited⟩
  have held : exec.obj.msgBody = some array := by rw [obj]
  have size : exec.obj.size = array.length := by rw [obj]
  have room : exec.obj.size + growth chunks < 2 ^ 63 := by rw [size]; exact fits
  constructor
  · intro beyond
    obtain ⟨left, after, holds, error, ran⟩ :=
      iterate_chunkedText success start wf noCr room [] beyond
    have noNul : (0 : UInt8) ∉ chunksData chunks := by
      intro member
      obtain ⟨chunk, present, nul⟩ := List.mem_flatMap.mp member
      exact (wf chunk present).noNul nul
    rw [List.nil_append] at holds ran
    rw [List.append_nil, List.length_nil] at ran
    obtain ⟨array', stored, data, longer⟩ := storeBody_nul holds noNul
    refine ⟨left, storeBody (chunksData chunks).length [0] after, array', ?_, error, stored, data,
      longer⟩
    rw [parseChunkedMsgBody_append _ _ held, solid_chunkedText wf, ran]
  · intro window beyond within
    obtain ⟨exec', stopped, error⟩ :=
      iterate_part success start wf noCr single room within beyond
    refine ⟨exec', ?_, error⟩
    rw [parseChunkedMsgBody_append _ _ held, solid_of_part wf within]
    exact stopped

/-- Chunked encoding is undone, with any buffer to start with, exactly when no chunk holds a
carriage return and there is one chunk at most. -/
theorem chunkedText_decodes_iff {chunks : List Chunk} (wf : ∀ chunk ∈ chunks, chunk.Wf)
    (small : growth chunks + 1 < 2 ^ 63) :
    (∀ (realloc : Realloc) (exec : Exec ChunkBuf) (array : Bytes), Reallocates realloc →
        exec.obj = ⟨some array, array.length⟩ → array ≠ [] →
        array.length + growth chunks < 2 ^ 63 → Decodes realloc exec chunks) ↔
      (∀ chunk ∈ chunks, (13 : UInt8) ∉ chunk.data) ∧ chunks.length ≤ 1 := by
  constructor
  · intro decodes
    have zeros := decodes zeroed { obj := ⟨some [0], 1⟩, error := {} } [0] reallocates_zeroed rfl
      (by simp) (by rw [List.length_singleton]; omega)
    have noCr := noCr_of_decodes wf zeros
    exact ⟨noCr, single_of_decodes wf small noCr zeros⟩
  · rintro ⟨noCr, single⟩ realloc exec array success obj inhabited fits
    exact decodes_of_single wf noCr single success obj inhabited fits

theorem chunkedText_decodes_iff_sample :
    Decodes zeroed { obj := ⟨some [0], 1⟩, error := {} } [{ size := ascii "3", data := ascii "abc" }] :=
  (chunkedText_decodes_iff (List.forall_mem_singleton.mpr
    ⟨by decide +kernel, rfl, by decide, by decide, by decide⟩) (by decide)).mpr
    ⟨List.forall_mem_singleton.mpr (by decide), le_refl 1⟩ zeroed _ [0] reallocates_zeroed rfl
    (by simp) (by decide)

/-- A chunk of one byte. -/
def letterChunk (letter : UInt8) : Chunk :=
  { size := ascii "1", data := [letter] }

/-- A chunk of three bytes, the second of which is a carriage return; and the first 19 bytes of
three chunks, up to the digit of the last one, in front of the other bytes of the body. -/
theorem chunkedText_with_cr :
    let chunk : Chunk := { size := ascii "3", data := [97, 13, 98] }
    let decoded := parseChunkedMsgBody zeroed (memoryOf (chunkedText [chunk]))
      (chunkedText [chunk]).length { obj := ⟨some [0], 1⟩, error := {} }
    let letters := [letterChunk 97, letterChunk 98, letterChunk 99]
    let cut := parseChunkedMsgBody zeroed (memoryOf (chunkedText letters))
      (letters.flatMap Chunk.text ++ lastChunk).length { obj := ⟨some [0], 1⟩, error := {} }
    (decoded.1 = none ∧ decoded.2.error.event = true) ∧ cut.1.isSome = true := by
  decide +kernel

end HTTPFraming

end IpUtils
