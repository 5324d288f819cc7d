import IpUtils.HTTP.Chunked
import Mathlib.Data.List.DropRight

/-! # Chunks that are cut off

Where the bytes that are known leave the chunk decoder when it runs on into other bytes
behind them: how many chunks are complete, and whether it has ended then, stands inside
the line with a size, or stands where the next byte makes a difference. This is told by
the bytes alone; the buffer that the decoder fills does not matter.
-/

namespace IpUtils

open CLib Scanner

namespace HTTPFraming

/-- Where a text leaves the decoder. -/
inductive ChunkScan where
  /-- It has ended: with the last chunk or with an error. -/
  | ended
  /-- It reads the line with the size of a chunk. -/
  | sizeLine
  /-- The next byte makes a difference. -/
  | torn
  deriving DecidableEq, Repr

/-- How many chunks are complete in a text that starts with the size of a chunk, and where
what is behind them leaves the decoder. -/
def chunkScan (text : Bytes) : Nat × ChunkScan :=
  match _ : text.dropWhile isLineByte with
  | [] => (0, .sizeLine)
  | [_] => (0, .torn)
  | _ :: lf :: body =>
      if lf ≠ 10 then (0, .ended)
      else if strtol 16 (cstr (text.takeWhile isLineByte)) = 0 then (0, .ended)
      else
        match _ : body.dropWhile isLineByte with
        | [] => (0, .torn)
        | [_] => (0, .torn)
        | _ :: lf :: more =>
            if lf ≠ 10 then (0, .ended) else ((chunkScan more).1 + 1, (chunkScan more).2)
termination_by text.length
decreasing_by
  rename_i outer _ _ _ inner _
  have first := (List.dropWhile_suffix isLineByte (l := text)).length_le
  have second := (List.dropWhile_suffix isLineByte (l := body)).length_le
  rw [outer, List.length_cons, List.length_cons] at first
  rw [inner, List.length_cons, List.length_cons] at second
  omega

/-- The ways a text can start, up to the end of a chunk. -/
inductive ChunkText : Bytes → Prop
  /-- Inside the line with a size. -/
  | sizeLine {line : Bytes} (passes : ∀ c ∈ line, isLineByte c = true) : ChunkText line
  /-- Between the two bytes that end this line. -/
  | sizeCr {line : Bytes} (passes : ∀ c ∈ line, isLineByte c = true) : ChunkText (line ++ [13])
  /-- The line does not end as it should. -/
  | badSize {line : Bytes} (passes : ∀ c ∈ line, isLineByte c = true) {lf : UInt8}
      (other : lf ≠ 10) (rest : Bytes) : ChunkText (line ++ 13 :: lf :: rest)
  /-- The last chunk. -/
  | last {line : Bytes} (passes : ∀ c ∈ line, isLineByte c = true)
      (zero : strtol 16 (cstr line) = 0) (rest : Bytes) : ChunkText (line ++ 13 :: 10 :: rest)
  /-- Inside the data of a chunk. -/
  | data {line data : Bytes} (passes : ∀ c ∈ line, isLineByte c = true)
      (size : strtol 16 (cstr line) ≠ 0) (inside : ∀ c ∈ data, isLineByte c = true) :
      ChunkText (line ++ 13 :: 10 :: data)
  /-- Between the two bytes that end the data. -/
  | dataCr {line data : Bytes} (passes : ∀ c ∈ line, isLineByte c = true)
      (size : strtol 16 (cstr line) ≠ 0) (inside : ∀ c ∈ data, isLineByte c = true) :
      ChunkText (line ++ 13 :: 10 :: (data ++ [13]))
  /-- The data do not end as they should. -/
  | badData {line data : Bytes} (passes : ∀ c ∈ line, isLineByte c = true)
      (size : strtol 16 (cstr line) ≠ 0) (inside : ∀ c ∈ data, isLineByte c = true) {lf : UInt8}
      (other : lf ≠ 10) (rest : Bytes) : ChunkText (line ++ 13 :: 10 :: (data ++ 13 :: lf :: rest))
  /-- With a complete chunk. -/
  | chunk {line data : Bytes} (passes : ∀ c ∈ line, isLineByte c = true)
      (size : strtol 16 (cstr line) ≠ 0) (inside : ∀ c ∈ data, isLineByte c = true)
      (rest : Bytes) : ChunkText (line ++ 13 :: 10 :: (data ++ 13 :: 10 :: rest))

/-- A text is a line, a line with a carriage return or a line with both and more. -/
theorem exists_line (text : Bytes) :
    ∃ line, (∀ c ∈ line, isLineByte c = true) ∧
      (text = line ∨ text = line ++ [13] ∨ ∃ c rest, text = line ++ 13 :: c :: rest) := by
  refine ⟨text.takeWhile isLineByte, fun _ member => List.mem_takeWhile_imp member, ?_⟩
  have whole := List.takeWhile_append_dropWhile (p := isLineByte) (l := text)
  have stop := List.head?_dropWhile_not isLineByte text
  match shape : text.dropWhile isLineByte with
  | [] =>
      rw [shape, List.append_nil] at whole
      exact .inl whole.symm
  | [c] =>
      rw [shape] at stop whole
      have : c = 13 := by simpa [isLineByte] using stop
      subst this
      exact .inr (.inl whole.symm)
  | c :: d :: rest =>
      rw [shape] at stop whole
      have : c = 13 := by simpa [isLineByte] using stop
      subst this
      exact .inr (.inr ⟨d, rest, whole.symm⟩)

/-- Every text starts in one of these ways. -/
theorem chunkText (text : Bytes) : ChunkText text := by
  obtain ⟨line, passes, rfl | rfl | ⟨lf, body, rfl⟩⟩ := exists_line text
  · exact .sizeLine passes
  · exact .sizeCr passes
  by_cases feed : lf = 10
  · subst feed
    by_cases zero : strtol 16 (cstr line) = 0
    · exact .last passes zero body
    obtain ⟨data, inside, rfl | rfl | ⟨lf, rest, rfl⟩⟩ := exists_line body
    · exact .data passes zero inside
    · exact .dataCr passes zero inside
    by_cases feed : lf = 10
    · subst feed
      exact .chunk passes zero inside rest
    · exact .badData passes zero inside feed rest
  · exact .badSize passes feed body

section Scan

variable {line data rest body : Bytes} {lf : UInt8}

theorem chunkScan_sizeLine (passes : ∀ c ∈ line, isLineByte c = true) :
    chunkScan line = (0, .sizeLine) := by
  have dropped := (takeWhile_of_all passes).2
  rw [chunkScan]
  split <;> rename_i shape <;> rw [dropped] at shape
  · cases shape
  · cases shape

theorem chunkScan_sizeCr (passes : ∀ c ∈ line, isLineByte c = true) :
    chunkScan (line ++ [13]) = (0, .torn) := by
  have dropped := (takeWhile_of_delimited passes (show isLineByte 13 = false by decide) []).2
  rw [chunkScan]
  split <;> rename_i shape <;> rw [dropped] at shape
  · cases shape
  · cases shape

/-- Where a text with a complete line leaves the decoder. -/
theorem chunkScan_body (passes : ∀ c ∈ line, isLineByte c = true) (lf : UInt8) (body : Bytes) :
    chunkScan (line ++ 13 :: lf :: body) =
      if lf ≠ 10 then (0, .ended)
      else if strtol 16 (cstr line) = 0 then (0, .ended)
      else
        match body.dropWhile isLineByte with
        | [] => (0, .torn)
        | [_] => (0, .torn)
        | _ :: lf :: more =>
            if lf ≠ 10 then (0, .ended) else ((chunkScan more).1 + 1, (chunkScan more).2) := by
  obtain ⟨taken, dropped⟩ :=
    takeWhile_of_delimited passes (show isLineByte 13 = false by decide) (lf :: body)
  rw [chunkScan, taken]
  split <;> rename_i shape <;> rw [dropped] at shape
  · cases shape
  · cases shape
  · cases shape
    split
    · rfl
    · split
      · rfl
      · split <;> rename_i inner <;> rw [inner]

theorem chunkScan_badSize (passes : ∀ c ∈ line, isLineByte c = true) (other : lf ≠ 10)
    (rest : Bytes) : chunkScan (line ++ 13 :: lf :: rest) = (0, .ended) := by
  rw [chunkScan_body passes, if_pos other]

theorem chunkScan_last (passes : ∀ c ∈ line, isLineByte c = true)
    (zero : strtol 16 (cstr line) = 0) (rest : Bytes) :
    chunkScan (line ++ 13 :: 10 :: rest) = (0, .ended) := by
  rw [chunkScan_body passes, if_neg (by simp), if_pos zero]

/-- Where a text with a size that is not 0 leaves the decoder. -/
theorem chunkScan_size (passes : ∀ c ∈ line, isLineByte c = true)
    (size : strtol 16 (cstr line) ≠ 0) (body : Bytes) :
    chunkScan (line ++ 13 :: 10 :: body) =
      match body.dropWhile isLineByte with
      | [] => (0, .torn)
      | [_] => (0, .torn)
      | _ :: lf :: more =>
          if lf ≠ 10 then (0, .ended) else ((chunkScan more).1 + 1, (chunkScan more).2) := by
  rw [chunkScan_body passes, if_neg (by simp), if_neg size]

theorem dropWhile_line (inside : ∀ c ∈ data, isLineByte c = true) (rest : Bytes) :
    (data ++ 13 :: rest).dropWhile isLineByte = 13 :: rest :=
  (takeWhile_of_delimited inside (show isLineByte 13 = false by decide) rest).2

theorem chunkScan_data (passes : ∀ c ∈ line, isLineByte c = true)
    (size : strtol 16 (cstr line) ≠ 0) (inside : ∀ c ∈ data, isLineByte c = true) :
    chunkScan (line ++ 13 :: 10 :: data) = (0, .torn) := by
  rw [chunkScan_size passes size, (takeWhile_of_all inside).2]

theorem chunkScan_dataCr (passes : ∀ c ∈ line, isLineByte c = true)
    (size : strtol 16 (cstr line) ≠ 0) (inside : ∀ c ∈ data, isLineByte c = true) :
    chunkScan (line ++ 13 :: 10 :: (data ++ [13])) = (0, .torn) := by
  rw [chunkScan_size passes size, dropWhile_line inside]

theorem chunkScan_badData (passes : ∀ c ∈ line, isLineByte c = true)
    (size : strtol 16 (cstr line) ≠ 0) (inside : ∀ c ∈ data, isLineByte c = true)
    (other : lf ≠ 10) (rest : Bytes) :
    chunkScan (line ++ 13 :: 10 :: (data ++ 13 :: lf :: rest)) = (0, .ended) := by
  rw [chunkScan_size passes size, dropWhile_line inside]
  exact if_pos other

theorem chunkScan_chunk (passes : ∀ c ∈ line, isLineByte c = true)
    (size : strtol 16 (cstr line) ≠ 0) (inside : ∀ c ∈ data, isLineByte c = true)
    (rest : Bytes) :
    chunkScan (line ++ 13 :: 10 :: (data ++ 13 :: 10 :: rest)) =
      ((chunkScan rest).1 + 1, (chunkScan rest).2) := by
  rw [chunkScan_size passes size, dropWhile_line inside]
  exact if_neg (by simp)

/-- A chunk takes up bytes. -/
theorem chunkScan_le_length (text : Bytes) : (chunkScan text).1 ≤ text.length := by
  induction size : text.length using Nat.strongRecOn generalizing text with
  | ind size ih =>
      cases chunkText text with
      | sizeLine passes =>
          rw [chunkScan_sizeLine passes]
          exact Nat.zero_le _
      | sizeCr passes =>
          rw [chunkScan_sizeCr passes]
          exact Nat.zero_le _
      | badSize passes other rest =>
          rw [chunkScan_badSize passes other]
          exact Nat.zero_le _
      | last passes zero rest =>
          rw [chunkScan_last passes zero]
          exact Nat.zero_le _
      | data passes nonzero inside =>
          rw [chunkScan_data passes nonzero inside]
          exact Nat.zero_le _
      | dataCr passes nonzero inside =>
          rw [chunkScan_dataCr passes nonzero inside]
          exact Nat.zero_le _
      | badData passes nonzero inside other rest =>
          rw [chunkScan_badData passes nonzero inside other]
          exact Nat.zero_le _
      | chunk passes nonzero inside rest =>
          simp only [List.length_append, List.length_cons] at size
          have inner := ih rest.length (by omega) rest rfl
          rw [chunkScan_chunk passes nonzero inside]
          dsimp only
          omega

end Scan

/-! ## The steps of the decoder -/

section Steps

variable {realloc : Realloc} {count : Nat} {beyond : Stream' UInt8} {exec : Exec ChunkBuf}
  {line data rest : Bytes}

/-- What copying the digits of a size leaves behind. -/
def sized (line : Bytes) (exec : Exec ChunkBuf) : Exec ChunkBuf :=
  { exec with overrun := exec.overrun || decide (scratchBufSize ≤ line.length) }

/-- The error for a missing delimiter with `left` bytes left. -/
def missing (wanted : String) (left : Nat) (exec : Exec ChunkBuf) : Exec ChunkBuf :=
  { exec with
    error := exec.error.init ErrorHandler.EX_SOFTWARE (chunkExpected wanted)
      [.ptr left, .cnt left] }

theorem copied_twice (overrun : Bool) (size capacity : Nat) :
    (overrun || decide (capacity < size) || decide (capacity ≤ size)) =
      (overrun || decide (capacity ≤ size)) := by
  by_cases beyond : capacity ≤ size
  · simp [beyond]
  · simp [beyond, Nat.lt_asymm (Nat.not_le.mp beyond)]

theorem parseChunkSize_cr (passes : ∀ c ∈ line, isLineByte c = true) (behind : Bytes) :
    parseChunkSize (line ++ 13 :: behind) exec =
      (Parse.expectStep 13 (chunkExpected "'\r'") >>= fun _ =>
        Parse.expectStep 10 (chunkExpected "'\n'") >>= fun _ =>
          pure (strtol 16 (cstr line))) (13 :: behind) (sized line exec) := by
  obtain ⟨taken, dropped⟩ :=
    takeWhile_of_delimited passes (show isLineByte 13 = false by decide) behind
  have copied : Parse.token scratchBufSize isLineByte (line ++ 13 :: behind) exec =
      (some (cstr line, 13 :: behind), sized line exec) := by
    simp only [Parse.token, Parse.copyWhile, Parse.terminate, bind_apply, Scanner.takeWhile, taken,
      dropped, Scanner.update, pure_apply, Scanner.need, List.isEmpty_cons, Bool.false_eq_true,
      ↓reduceIte, sized, copied_twice]
  rw [parseChunkSize, bind_of_some copied]

/-- The line is not complete. -/
theorem parseChunkSize_line (passes : ∀ c ∈ line, isLineByte c = true) :
    parseChunkSize line exec =
      (none, { exec with overrun := exec.overrun || decide (scratchBufSize < line.length) }) := by
  obtain ⟨taken, dropped⟩ := takeWhile_of_all passes
  simp only [parseChunkSize, Parse.token, Parse.copyWhile, bind_apply, Scanner.takeWhile, taken,
    dropped, Scanner.update, pure_apply, Scanner.need, List.isEmpty_nil, ↓reduceIte]

theorem parseChunkSize_line_cr (passes : ∀ c ∈ line, isLineByte c = true) :
    parseChunkSize (line ++ [13]) exec = (none, sized line exec) :=
  parseChunkSize_cr passes []

theorem parseChunkSize_line_crlf (passes : ∀ c ∈ line, isLineByte c = true) :
    parseChunkSize (line ++ [13, 10]) exec = (none, sized line exec) := by
  rw [parseChunkSize_cr passes, bind_of_some (Parse.expectStep_cons 13 _ 10)]
  rfl

theorem parseChunkSize_malformed (passes : ∀ c ∈ line, isLineByte c = true) {lf : UInt8}
    (other : lf ≠ 10) (behind : Bytes) :
    parseChunkSize (line ++ 13 :: lf :: behind) exec =
      (none, missing "'\n'" (behind.length + 1) (sized line exec)) := by
  rw [parseChunkSize_cr passes, bind_of_some (Parse.expectStep_cons 13 _ lf)]
  exact bind_of_none (bind_of_none (Parse.expect_of_ne other _))

theorem parseChunkSize_crlf (passes : ∀ c ∈ line, isLineByte c = true) (c : UInt8)
    (behind : Bytes) :
    parseChunkSize (line ++ 13 :: 10 :: c :: behind) exec =
      (some (strtol 16 (cstr line), c :: behind), sized line exec) := by
  rw [parseChunkSize_cr passes, bind_of_some (Parse.expectStep_cons 13 _ 10),
    bind_of_some (Parse.expectStep_cons 10 _ c)]
  rfl

theorem parseChunkData_line (passes : ∀ c ∈ data, isLineByte c = true) :
    parseChunkData beyond count data exec = (none, storeBody count data exec) := by
  obtain ⟨taken, dropped⟩ := takeWhile_of_all passes
  simp only [parseChunkData, bind_apply, Scanner.takeWhile, taken, dropped, Scanner.update,
    Scanner.need, List.isEmpty_nil, ↓reduceIte]

theorem parseChunkData_cr (passes : ∀ c ∈ data, isLineByte c = true) (behind : Bytes) :
    parseChunkData beyond count (data ++ 13 :: behind) exec =
      (Parse.expectStep 13 (chunkExpected "'\r'") >>= fun _ =>
        Parse.expect 10 (chunkExpected "'\n'") >>= fun _ => Scanner.slide beyond.head >>=
          fun _ => pure (count + data.length)) (13 :: behind) (storeBody count data exec) := by
  obtain ⟨taken, dropped⟩ :=
    takeWhile_of_delimited passes (show isLineByte 13 = false by decide) behind
  simp only [parseChunkData, bind_apply, Scanner.takeWhile, taken, dropped, Scanner.update,
    Scanner.need, List.isEmpty_cons, Bool.false_eq_true, ↓reduceIte]

theorem parseChunkData_line_cr (passes : ∀ c ∈ data, isLineByte c = true) :
    parseChunkData beyond count (data ++ [13]) exec = (none, storeBody count data exec) :=
  parseChunkData_cr passes []

theorem parseChunkData_malformed (passes : ∀ c ∈ data, isLineByte c = true) {lf : UInt8}
    (other : lf ≠ 10) (behind : Bytes) :
    parseChunkData beyond count (data ++ 13 :: lf :: behind) exec =
      (none, missing "'\n'" (behind.length + 1) (storeBody count data exec)) := by
  rw [parseChunkData_cr passes, bind_of_some (Parse.expectStep_cons 13 _ lf)]
  exact bind_of_none (Parse.expect_of_ne other _)

theorem parseChunkData_crlf (passes : ∀ c ∈ data, isLineByte c = true) (behind : Bytes) :
    parseChunkData beyond count (data ++ 13 :: 10 :: behind) exec =
      (some (count + data.length, behind ++ [beyond.head]), storeBody count data exec) := by
  rw [parseChunkData_cr passes, bind_of_some (Parse.expectStep_cons 13 _ 10),
    bind_of_some (Parse.expect_cons 10 _)]
  rfl

/-- Making room depends on the buffer only. -/
theorem reserve_cases (realloc : Realloc) (count : Nat) (chunkSize : Int) (exec : Exec ChunkBuf) :
    (∃ exec', ∀ window, reserve realloc count chunkSize window exec = (none, exec')) ∨
      ∃ exec', ∀ window, reserve realloc count chunkSize window exec =
        (some ((), window), exec') := by
  unfold reserve
  split
  · exact .inr ⟨exec, fun _ => rfl⟩
  · dsimp only
    split
    · exact .inl ⟨_, fun _ => rfl⟩
    · exact .inr ⟨_, fun _ => rfl⟩

end Steps

/-! ## The rounds of the decoder -/

section Rounds

variable {realloc : Realloc} {count : Nat} {beyond : Stream' UInt8}
  {exec exec' ready : Exec ChunkBuf} {window line data rest : Bytes}

theorem iterate_of_none (inhabited : window ≠ [])
    (stopped : parseChunk realloc (count, beyond) window exec = (none, exec')) :
    Scanner.iterate (parseChunk realloc) (count, beyond) window exec = (none, exec') := by
  have some_ : window.isEmpty = false := by simpa using inhabited
  rw [iterate_apply, some_, stopped]
  rfl

theorem iterate_sizeLine (passes : ∀ c ∈ line, isLineByte c = true) :
    ∃ exec', Scanner.iterate (parseChunk realloc) (count, beyond) line exec = (none, exec') ∧
      exec'.error = exec.error := by
  by_cases empty : line = []
  · subst empty
    exact ⟨exec, by rw [iterate_apply]; rfl, rfl⟩
  · exact ⟨_, iterate_of_none empty (bind_of_none (parseChunkSize_line passes)), rfl⟩

theorem iterate_sizeCr (passes : ∀ c ∈ line, isLineByte c = true) :
    Scanner.iterate (parseChunk realloc) (count, beyond) (line ++ [13]) exec = (none, sized line exec) :=
  iterate_of_none (by simp) (bind_of_none (parseChunkSize_line_cr passes))

theorem iterate_sizeCrLf (passes : ∀ c ∈ line, isLineByte c = true) :
    Scanner.iterate (parseChunk realloc) (count, beyond) (line ++ [13, 10]) exec =
      (none, sized line exec) :=
  iterate_of_none (by simp) (bind_of_none (parseChunkSize_line_crlf passes))

theorem iterate_badSize (passes : ∀ c ∈ line, isLineByte c = true) {lf : UInt8}
    (other : lf ≠ 10) (rest : Bytes) :
    Scanner.iterate (parseChunk realloc) (count, beyond) (line ++ 13 :: lf :: rest) exec =
      (none, missing "'\n'" (rest.length + 1) (sized line exec)) :=
  iterate_of_none (by simp) (bind_of_none (parseChunkSize_malformed passes other rest))

/-- The chunk of size 0 ends the decoder. -/
theorem iterate_last (passes : ∀ c ∈ line, isLineByte c = true)
    (zero : strtol 16 (cstr line) = 0) (inhabited : rest ≠ []) :
    Scanner.iterate (parseChunk realloc) (count, beyond) (line ++ 13 :: 10 :: rest) exec =
      (some ((), rest), storeBody count [0] (sized line exec)) := by
  obtain ⟨c, left, rfl⟩ := List.exists_cons_of_ne_nil inhabited
  have some_ : (line ++ 13 :: 10 :: c :: left).isEmpty = false := by simp
  have round : parseChunk realloc (count, beyond) (line ++ 13 :: 10 :: c :: left) exec =
      (some (.inr (), c :: left), storeBody count [0] (sized line exec)) := by
    rw [parseChunk, bind_of_some (parseChunkSize_crlf passes c left), if_pos zero]
    rfl
  rw [iterate_apply, some_, round]
  rfl

/-- A chunk whose size is not 0, up to its data. -/
theorem parseChunk_data (passes : ∀ c ∈ line, isLineByte c = true)
    (size : strtol 16 (cstr line) ≠ 0) (inhabited : rest ≠ []) :
    parseChunk realloc (count, beyond) (line ++ 13 :: 10 :: rest) exec =
      (reserve realloc count (strtol 16 (cstr line)) >>= fun _ => parseChunkData beyond count >>=
        fun count => pure (.inl (count, beyond.tail))) rest (sized line exec) := by
  obtain ⟨c, left, rfl⟩ := List.exists_cons_of_ne_nil inhabited
  rw [parseChunk, bind_of_some (parseChunkSize_crlf passes c left), if_neg size]

theorem iterate_noRoom (passes : ∀ c ∈ line, isLineByte c = true)
    (size : strtol 16 (cstr line) ≠ 0) (inhabited : rest ≠ [])
    (noRoom : ∀ window, reserve realloc count (strtol 16 (cstr line)) window (sized line exec) =
      (none, exec')) :
    Scanner.iterate (parseChunk realloc) (count, beyond) (line ++ 13 :: 10 :: rest) exec = (none, exec') :=
  iterate_of_none (by simp)
    ((parseChunk_data passes size inhabited).trans (bind_of_none (noRoom rest)))

/-- What a chunk comes to when its data are not complete. -/
theorem iterate_dataStops (passes : ∀ c ∈ line, isLineByte c = true)
    (size : strtol 16 (cstr line) ≠ 0) (inhabited : rest ≠ [])
    (room : ∀ window, reserve realloc count (strtol 16 (cstr line)) window (sized line exec) =
      (some ((), window), ready))
    (stopped : parseChunkData beyond count rest ready = (none, exec')) :
    Scanner.iterate (parseChunk realloc) (count, beyond) (line ++ 13 :: 10 :: rest) exec = (none, exec') :=
  iterate_of_none (by simp) ((parseChunk_data passes size inhabited).trans
    ((bind_of_some (room rest)).trans (bind_of_none stopped)))

/-- A complete chunk is stored, and the window comes to reach one byte further. -/
theorem iterate_chunk (passes : ∀ c ∈ line, isLineByte c = true)
    (size : strtol 16 (cstr line) ≠ 0) (inside : ∀ c ∈ data, isLineByte c = true)
    (room : ∀ window, reserve realloc count (strtol 16 (cstr line)) window (sized line exec) =
      (some ((), window), ready)) (rest : Bytes) (beyond : Stream' UInt8) :
    Scanner.iterate (parseChunk realloc) (count, beyond)
        (line ++ 13 :: 10 :: (data ++ 13 :: 10 :: rest)) exec =
      Scanner.iterate (parseChunk realloc) (count + data.length, beyond.tail)
        (rest ++ [beyond.head]) (storeBody count data ready) := by
  have some_ : (line ++ 13 :: 10 :: (data ++ 13 :: 10 :: rest)).isEmpty = false := by simp
  have less : (rest ++ [beyond.head]).length <
      (line ++ 13 :: 10 :: (data ++ 13 :: 10 :: rest)).length := by
    simp only [List.length_append, List.length_cons, List.length_nil]
    omega
  have round : parseChunk realloc (count, beyond)
      (line ++ 13 :: 10 :: (data ++ 13 :: 10 :: rest)) exec =
      (some (.inl (count + data.length, beyond.tail), rest ++ [beyond.head]),
        storeBody count data ready) := by
    rw [parseChunk_data passes size (by simp), bind_of_some (room _),
      bind_of_some (parseChunkData_crlf inside rest)]
    rfl
  rw [iterate_apply, some_, round]
  simp only [Bool.false_eq_true, ↓reduceIte, if_pos less]

end Rounds

/-! ## Memory behind the text -/

section Behind

variable {realloc : Realloc} {count behind room : Nat} {exec : Exec ChunkBuf} {line text : Bytes}
  {memory : Stream' UInt8}

theorem forall_mem_append {front back : Bytes} {test : UInt8 → Bool}
    (first : ∀ c ∈ front, test c = true) (second : ∀ c ∈ back, test c = true) :
    ∀ c ∈ front ++ back, test c = true :=
  fun c member => (List.mem_append.mp member).elim (first c) (second c)

/-- The rounds over the first `room` bytes of a memory. -/
def chunksFrom (realloc : Realloc) (room : Nat) (memory : Stream' UInt8) (count : Nat) :
    Exec ChunkBuf → Option (Unit × Bytes) × Exec ChunkBuf :=
  Scanner.iterate (parseChunk realloc) (count, memory.drop room) (memory.take room)

theorem chunksFrom_of_le (fits : room ≤ text.length) (memory : Stream' UInt8) :
    chunksFrom realloc room (text ++ₛ memory) count exec =
      Scanner.iterate (parseChunk realloc) (count, text.drop room ++ₛ memory) (text.take room)
        exec := by
  rw [chunksFrom, Stream'.take_append_of_le_length _ _ _ fits,
    Stream'.drop_append_of_le_length _ _ _ fits]

theorem chunksFrom_add (text : Bytes) (memory : Stream' UInt8) (behind : Nat) :
    chunksFrom realloc (text.length + behind) (text ++ₛ memory) count exec =
      Scanner.iterate (parseChunk realloc) (count, memory.drop behind)
        (text ++ memory.take behind) exec := by
  rw [chunksFrom, take_append_add, drop_append_add]

/-- What a complete chunk at the start of a memory comes to. -/
theorem chunksFrom_chunk {data : Bytes} {ready : Exec ChunkBuf}
    (passes : ∀ c ∈ line, isLineByte c = true) (size : strtol 16 (cstr line) ≠ 0)
    (inside : ∀ c ∈ data, isLineByte c = true)
    (making : ∀ window, reserve realloc count (strtol 16 (cstr line)) window (sized line exec) =
      (some ((), window), ready)) (left : Nat) (rest : Bytes) (memory : Stream' UInt8) :
    chunksFrom realloc (line.length + data.length + 4 + left)
        ((line ++ 13 :: 10 :: (data ++ 13 :: 10 :: rest)) ++ₛ memory) count exec =
      chunksFrom realloc (left + 1) (rest ++ₛ memory) (count + data.length)
        (storeBody count data ready) := by
  have shape : (line ++ 13 :: 10 :: (data ++ 13 :: 10 :: rest)) ++ₛ memory =
      (line ++ 13 :: 10 :: (data ++ [13, 10])) ++ₛ (rest ++ₛ memory) := by
    rw [← Stream'.append_append_stream]
    simp
  have length : line.length + data.length + 4 + left =
      (line ++ 13 :: 10 :: (data ++ [13, 10])).length + left := by
    simp only [List.length_append, List.length_cons, List.length_nil]
    omega
  have window (more : Bytes) : line ++ 13 :: 10 :: (data ++ [13, 10]) ++ more =
      line ++ 13 :: 10 :: (data ++ 13 :: 10 :: more) := by simp
  have next : (rest ++ₛ memory).take left ++ [((rest ++ₛ memory).drop left).head] =
      (rest ++ₛ memory).take (left + 1) := by
    rw [Stream'.head_drop, Stream'.concat_take_get]
  rw [shape, length, chunksFrom_add, window, iterate_chunk passes size inside making, next,
    Stream'.tail_drop', chunksFrom]

/-- What the decoder does with a window does not depend on what is behind it, unless a chunk is
complete. -/
theorem iterate_cases (realloc : Realloc) (count : Nat) (window : Bytes) (exec : Exec ChunkBuf) :
    (∃ outcome, ∀ beyond,
      Scanner.iterate (parseChunk realloc) (count, beyond) window exec = outcome) ∨
    ∃ line data rest ready, window = line ++ 13 :: 10 :: (data ++ 13 :: 10 :: rest) ∧
      (∀ c ∈ line, isLineByte c = true) ∧ strtol 16 (cstr line) ≠ 0 ∧
      (∀ c ∈ data, isLineByte c = true) ∧
      ∀ window, reserve realloc count (strtol 16 (cstr line)) window (sized line exec) =
        (some ((), window), ready) := by
  have whole {line rest : Bytes} (passes : ∀ c ∈ line, isLineByte c = true)
      (size : strtol 16 (cstr line) ≠ 0) (inhabited : rest ≠ [])
      (stops : ∀ ready, ∃ exec', ∀ beyond, parseChunkData beyond count rest ready =
        (none, exec')) :
      ∃ outcome, ∀ beyond, Scanner.iterate (parseChunk realloc) (count, beyond)
        (line ++ 13 :: 10 :: rest) exec = outcome := by
    rcases reserve_cases realloc count (strtol 16 (cstr line)) (sized line exec) with
      ⟨full, noRoom⟩ | ⟨ready, making⟩
    · exact ⟨_, fun _ => iterate_noRoom passes size inhabited noRoom⟩
    · obtain ⟨exec', stopped⟩ := stops ready
      exact ⟨_, fun beyond => iterate_dataStops passes size inhabited making (stopped beyond)⟩
  cases chunkText window with
  | sizeLine passes =>
      by_cases empty : window = []
      · refine .inl ⟨(none, exec), fun _ => ?_⟩
        rw [empty, iterate_apply]
        rfl
      · exact .inl ⟨_, fun _ => iterate_of_none empty (bind_of_none (parseChunkSize_line passes))⟩
  | sizeCr passes => exact .inl ⟨_, fun _ => iterate_sizeCr passes⟩
  | badSize passes other rest => exact .inl ⟨_, fun _ => iterate_badSize passes other rest⟩
  | @last line passes zero rest =>
      cases rest with
      | nil => exact .inl ⟨_, fun _ => iterate_sizeCrLf passes⟩
      | cons c rest => exact .inl ⟨_, fun _ => iterate_last passes zero (List.cons_ne_nil c rest)⟩
  | @data line data passes size inside =>
      cases data with
      | nil => exact .inl ⟨_, fun _ => iterate_sizeCrLf passes⟩
      | cons c data =>
          exact .inl (whole passes size (List.cons_ne_nil c data) fun _ =>
            ⟨_, fun _ => parseChunkData_line inside⟩)
  | dataCr passes size inside =>
      exact .inl (whole passes size (by simp) fun _ => ⟨_, fun _ => parseChunkData_line_cr inside⟩)
  | badData passes size inside other rest =>
      exact .inl (whole passes size (by simp) fun _ =>
        ⟨_, fun _ => parseChunkData_malformed inside other rest⟩)
  | @chunk line data passes size inside rest =>
      rcases reserve_cases realloc count (strtol 16 (cstr line)) (sized line exec) with
        ⟨full, noRoom⟩ | ⟨ready, making⟩
      · exact .inl ⟨_, fun _ => iterate_noRoom passes size (by simp) noRoom⟩
      · exact .inr ⟨line, data, rest, ready, rfl, passes, size, inside, making⟩

/-- The decoder comes to its end with the last chunk, or behind a chunk that is complete. -/
theorem iterate_eq_some {exec' : Exec ChunkBuf} {window left : Bytes} {beyond : Stream' UInt8}
    (ran : Scanner.iterate (parseChunk realloc) (count, beyond) window exec =
      (some ((), left), exec')) :
    (∃ line, window = line ++ 13 :: 10 :: left ∧ (∀ c ∈ line, isLineByte c = true) ∧
      strtol 16 (cstr line) = 0 ∧ left ≠ [] ∧ exec' = storeBody count [0] (sized line exec)) ∨
    ∃ line data rest ready, window = line ++ 13 :: 10 :: (data ++ 13 :: 10 :: rest) ∧
      (∀ c ∈ line, isLineByte c = true) ∧ strtol 16 (cstr line) ≠ 0 ∧
      (∀ c ∈ data, isLineByte c = true) ∧
      (∀ window, reserve realloc count (strtol 16 (cstr line)) window (sized line exec) =
        (some ((), window), ready)) ∧
      Scanner.iterate (parseChunk realloc) (count + data.length, beyond.tail)
        (rest ++ [beyond.head]) (storeBody count data ready) = (some ((), left), exec') := by
  have stops {line rest : Bytes} (passes : ∀ c ∈ line, isLineByte c = true)
      (size : strtol 16 (cstr line) ≠ 0) (inhabited : rest ≠ [])
      (stopped : ∀ ready, ∃ exec'', parseChunkData beyond count rest ready = (none, exec'')) :
      (Scanner.iterate (parseChunk realloc) (count, beyond) (line ++ 13 :: 10 :: rest) exec).1 =
        none := by
    rcases reserve_cases realloc count (strtol 16 (cstr line)) (sized line exec) with
      ⟨full, noRoom⟩ | ⟨ready, making⟩
    · rw [iterate_noRoom passes size inhabited noRoom]
    · obtain ⟨exec'', none_⟩ := stopped ready
      rw [iterate_dataStops passes size inhabited making none_]
  have goes := congrArg Prod.fst ran
  cases chunkText window with
  | sizeLine passes =>
      obtain ⟨_, stopped, -⟩ := @iterate_sizeLine realloc count beyond exec _ passes
      rw [stopped] at goes
      cases goes
  | sizeCr passes =>
      rw [iterate_sizeCr passes] at goes
      cases goes
  | badSize passes other rest =>
      rw [iterate_badSize passes other] at goes
      cases goes
  | @last line passes zero rest =>
      cases rest with
      | nil =>
          rw [iterate_sizeCrLf passes] at goes
          cases goes
      | cons c rest =>
          rw [iterate_last passes zero (List.cons_ne_nil c rest)] at ran
          cases ran
          exact .inl ⟨line, rfl, passes, zero, List.cons_ne_nil c rest, rfl⟩
  | @data line data passes size inside =>
      cases data with
      | nil =>
          rw [iterate_sizeCrLf passes] at goes
          cases goes
      | cons c data =>
          rw [stops passes size (List.cons_ne_nil c data) fun _ => ⟨_, parseChunkData_line inside⟩]
            at goes
          cases goes
  | dataCr passes size inside =>
      rw [stops passes size (by simp) fun _ => ⟨_, parseChunkData_line_cr inside⟩] at goes
      cases goes
  | badData passes size inside other rest =>
      rw [stops passes size (by simp) fun _ => ⟨_, parseChunkData_malformed inside other rest⟩]
        at goes
      cases goes
  | @chunk line data passes size inside rest =>
      rcases reserve_cases realloc count (strtol 16 (cstr line)) (sized line exec) with
        ⟨full, noRoom⟩ | ⟨ready, making⟩
      · rw [iterate_noRoom passes size (by simp) noRoom] at goes
        cases goes
      · rw [iterate_chunk passes size inside making] at ran
        exact .inr ⟨line, data, rest, ready, rfl, passes, size, inside, making, ran⟩

/-- What the caller of the decoder sees: how many bytes are left, and the state. -/
def seen (outcome : Option (Unit × Bytes) × Exec ChunkBuf) : Option Nat × Exec ChunkBuf :=
  (outcome.1.map fun delivered => delivered.2.length, outcome.2)

/-- With room for `room` bytes, of which those of a text are known, what is seen of the decoder
does not depend on the others, and it counts no more than the text. -/
def Settles (realloc : Realloc) (text : Bytes) (room count : Nat) (exec : Exec ChunkBuf) : Prop :=
  ∃ outcome : Option Nat × Exec ChunkBuf,
    (∀ memory, seen (chunksFrom realloc room (text ++ₛ memory) count exec) = outcome) ∧
      ∀ left, outcome.1 = some left → room ≤ left + text.length

/-- Where a text does not leave the decoder at a byte that makes a difference. -/
def Settled (text : Bytes) (room : Nat) : Prop :=
  room + (chunkScan text).1 ≤ text.length ∨ (chunkScan text).2 = .ended ∨
    (chunkScan text).2 = .sizeLine ∧ room + (chunkScan text).1 ≤ text.length + 1

theorem settles_of_le {outcome : Option (Unit × Bytes) × Exec ChunkBuf} (fits : room ≤ text.length)
    (same : ∀ memory, chunksFrom realloc room (text ++ₛ memory) count exec = outcome) :
    Settles realloc text room count exec :=
  ⟨seen outcome, fun memory => congrArg seen (same memory), fun _ _ => by omega⟩

theorem settles_of_none {exec' : Exec ChunkBuf}
    (same : ∀ memory, chunksFrom realloc room (text ++ₛ memory) count exec = (none, exec')) :
    Settles realloc text room count exec :=
  ⟨(none, exec'), fun memory => congrArg seen (same memory), fun _ some_ => by cases some_⟩

/-- Inside a line with a size, one more byte makes no difference. -/
theorem iterate_sizeLine_one (passes : ∀ c ∈ line, isLineByte c = true) (c : UInt8)
    (beyond : Stream' UInt8) :
    Scanner.iterate (parseChunk realloc) (count, beyond) (line ++ [c]) exec =
      (none, sized line exec) := by
  by_cases cr : c = 13
  · rw [cr]
    exact iterate_sizeCr passes
  · have all : ∀ d ∈ line ++ [c], isLineByte d = true :=
      forall_mem_append passes (by simpa [isLineByte] using cr)
    refine iterate_of_none (by simp) (bind_of_none ?_)
    rw [parseChunkSize_line all, sized, List.length_append, List.length_singleton]
    simp only [Nat.lt_succ_iff]

/-- A chunk at the start of a text leaves what is behind it to be settled. -/
theorem settles_chunk {data rest : Bytes} (passes : ∀ c ∈ line, isLineByte c = true)
    (size : strtol 16 (cstr line) ≠ 0) (inside : ∀ c ∈ data, isLineByte c = true)
    {ready : Exec ChunkBuf}
    (making : ∀ window, reserve realloc count (strtol 16 (cstr line)) window (sized line exec) =
      (some ((), window), ready)) {left : Nat}
    (settles : Settles realloc rest (left + 1) (count + data.length) (storeBody count data ready)) :
    Settles realloc (line ++ 13 :: 10 :: (data ++ 13 :: 10 :: rest))
      (line.length + data.length + 4 + left) count exec := by
  obtain ⟨outcome, same, few⟩ := settles
  refine ⟨outcome, fun memory => ?_, fun bytes seen_ => ?_⟩
  · rw [chunksFrom_chunk passes size inside making, same]
  · have := few bytes seen_
    simp only [List.length_append, List.length_cons]
    omega

theorem settled_chunk {data rest : Bytes} (passes : ∀ c ∈ line, isLineByte c = true)
    (size : strtol 16 (cstr line) ≠ 0) (inside : ∀ c ∈ data, isLineByte c = true) (left : Nat) :
    Settled (line ++ 13 :: 10 :: (data ++ 13 :: 10 :: rest))
        (line.length + data.length + 4 + left) ↔ Settled rest (left + 1) := by
  simp only [Settled, chunkScan_chunk passes size inside, List.length_append, List.length_cons]
  constructor
  · rintro (early | ended | ⟨inLine, one⟩)
    · exact .inl (by omega)
    · exact .inr (.inl ended)
    · exact .inr (.inr ⟨inLine, by omega⟩)
  · rintro (early | ended | ⟨inLine, one⟩)
    · exact .inl (by omega)
    · exact .inr (.inl ended)
    · exact .inr (.inr ⟨inLine, by omega⟩)

/-- A malformed line with a size settles the bytes behind the text. -/
theorem settles_badSize {rest : Bytes} (passes : ∀ c ∈ line, isLineByte c = true) {lf : UInt8}
    (other : lf ≠ 10) :
    Settles realloc (line ++ 13 :: lf :: rest) ((line ++ 13 :: lf :: rest).length + behind) count
      exec := by
  refine @settles_of_none _ _ _ _ _ (missing "'\n'" (rest.length + behind + 1) (sized line exec))
    fun memory => ?_
  rw [chunksFrom_add, List.append_assoc, List.cons_append, List.cons_append,
    iterate_badSize passes other, List.length_append, Stream'.length_take]

/-- So does the last chunk, of which the bytes behind it are not a part. -/
theorem settles_last {rest : Bytes} (passes : ∀ c ∈ line, isLineByte c = true)
    (zero : strtol 16 (cstr line) = 0) (further : behind ≠ 0) :
    Settles realloc (line ++ 13 :: 10 :: rest) ((line ++ 13 :: 10 :: rest).length + behind) count
      exec := by
  refine ⟨(some (rest.length + behind), storeBody count [0] (sized line exec)),
    fun memory => ?_, fun left some_ => ?_⟩
  · have inhabited : rest ++ memory.take behind ≠ [] := fun none_ => further (by
      simpa using congrArg List.length (List.append_eq_nil_iff.mp none_).2)
    rw [chunksFrom_add, List.append_assoc, List.cons_append, List.cons_append,
      iterate_last passes zero inhabited, seen, Option.map_some, List.length_append,
      Stream'.length_take]
  · cases some_
    simp only [List.length_append, List.length_cons]
    omega

/-- So does a chunk for which there is no memory. -/
theorem settles_noRoom {rest : Bytes} {full : Exec ChunkBuf}
    (passes : ∀ c ∈ line, isLineByte c = true) (size : strtol 16 (cstr line) ≠ 0)
    (inhabited : rest ≠ [])
    (noRoom : ∀ window, reserve realloc count (strtol 16 (cstr line)) window (sized line exec) =
      (none, full)) :
    Settles realloc (line ++ 13 :: 10 :: rest) ((line ++ 13 :: 10 :: rest).length + behind) count
      exec := by
  refine @settles_of_none _ _ _ _ _ full fun memory => ?_
  rw [chunksFrom_add, List.append_assoc, List.cons_append, List.cons_append,
    iterate_noRoom passes size (by simp [inhabited]) noRoom]

/-- So do data that do not end as they should. -/
theorem settles_badData {data rest : Bytes} (passes : ∀ c ∈ line, isLineByte c = true)
    (size : strtol 16 (cstr line) ≠ 0) (inside : ∀ c ∈ data, isLineByte c = true) {lf : UInt8}
    (other : lf ≠ 10) :
    Settles realloc (line ++ 13 :: 10 :: (data ++ 13 :: lf :: rest))
      ((line ++ 13 :: 10 :: (data ++ 13 :: lf :: rest)).length + behind) count exec := by
  rcases reserve_cases realloc count (strtol 16 (cstr line)) (sized line exec) with
    ⟨full, noRoom⟩ | ⟨ready, making⟩
  · exact settles_noRoom passes size (by simp) noRoom
  · refine @settles_of_none _ _ _ _ _
      (missing "'\n'" (rest.length + behind + 1) (storeBody count data ready)) fun memory => ?_
    rw [chunksFrom_add, List.append_assoc, List.cons_append, List.cons_append,
      iterate_dataStops passes size (by simp) making (by
        rw [List.append_assoc, List.cons_append, List.cons_append,
          parseChunkData_malformed inside other]),
      List.length_append, Stream'.length_take]

/-- A text that leaves the decoder where nothing makes a difference settles it. -/
theorem settles_of_settled (settled : Settled text room) :
    Settles realloc text room count exec := by
  induction size : text.length using Nat.strongRecOn generalizing text room count exec with
  | ind size ih =>
      have next {line data rest : Bytes} (passes : ∀ c ∈ line, isLineByte c = true)
          (nonzero : strtol 16 (cstr line) ≠ 0) (inside : ∀ c ∈ data, isLineByte c = true)
          (shape : text = line ++ 13 :: 10 :: (data ++ 13 :: 10 :: rest)) {ready : Exec ChunkBuf}
          (making : ∀ window, reserve realloc count (strtol 16 (cstr line)) window
            (sized line exec) = (some ((), window), ready))
          (enough : line.length + data.length + 4 ≤ room) :
          Settles realloc text room count exec := by
        obtain ⟨left, rfl⟩ := Nat.exists_eq_add_of_le enough
        subst shape
        rw [settled_chunk passes nonzero inside] at settled
        simp only [List.length_append, List.length_cons] at size
        exact settles_chunk passes nonzero inside making (ih rest.length (by omega) settled rfl)
      by_cases fits : room ≤ text.length
      · -- the window ends inside the text
        rcases iterate_cases realloc count (text.take room) exec with
          ⟨outcome, same⟩ | ⟨line, data, rest, ready, shape, passes, nonzero, inside, making⟩
        · refine @settles_of_le _ _ _ _ _ outcome fits fun memory => ?_
          rw [chunksFrom_of_le fits, same]
        · have length := congrArg List.length shape
          rw [List.length_take, min_eq_left fits] at length
          simp only [List.length_append, List.length_cons] at length
          refine @next line data (rest ++ text.drop room) passes nonzero inside ?_ _ making
            (by omega)
          calc text = text.take room ++ text.drop room := (List.take_append_drop _ _).symm
            _ = line ++ 13 :: 10 :: (data ++ 13 :: 10 :: (rest ++ text.drop room)) := by
                rw [shape]
                simp
      · obtain ⟨behind, rfl⟩ := Nat.exists_eq_add_of_lt (Nat.not_le.mp fits)
        rw [Nat.add_assoc] at settled ⊢
        have window (memory : Stream' UInt8) : chunksFrom realloc (text.length + (behind + 1))
            (text ++ₛ memory) count exec = _ := chunksFrom_add text memory (behind + 1)
        cases chunkText text with
        | sizeLine passes =>
            rw [Settled, chunkScan_sizeLine passes] at settled
            obtain rfl : behind = 0 := by
              rcases settled with early | ended | ⟨-, one⟩
              · simp only at early
                omega
              · cases ended
              · simp only at one
                omega
            exact settles_of_none fun memory => (window memory).trans
              (iterate_sizeLine_one passes memory.head (memory.drop 1))
        | sizeCr passes =>
            rw [Settled, chunkScan_sizeCr passes] at settled
            simp only [reduceCtorEq, false_and, or_false] at settled
            omega
        | badSize passes other rest => exact settles_badSize passes other
        | last passes zero rest => exact settles_last passes zero (Nat.succ_ne_zero _)
        | data passes nonzero inside =>
            rw [Settled, chunkScan_data passes nonzero inside] at settled
            simp only [reduceCtorEq, false_and, or_false] at settled
            omega
        | dataCr passes nonzero inside =>
            rw [Settled, chunkScan_dataCr passes nonzero inside] at settled
            simp only [reduceCtorEq, false_and, or_false] at settled
            omega
        | badData passes nonzero inside other rest =>
            exact settles_badData passes nonzero inside other
        | chunk passes nonzero inside rest =>
            rcases reserve_cases realloc count _ (sized _ exec) with
              ⟨full, noRoom⟩ | ⟨ready, making⟩
            · exact settles_noRoom passes nonzero (by simp) noRoom
            · refine next passes nonzero inside rfl making ?_
              simp only [List.length_append, List.length_cons]
              omega

/-! ## Bytes that can be told apart -/

/-- One outcome can be told from the other: by the buffer, or by a new error. -/
def Told {α : Type} (error : ErrorHandler) (one other : Option α × Exec ChunkBuf) : Prop :=
  one.2.obj ≠ other.2.obj ∨
    (one.1 = none ∧ error.msgs.length < one.2.error.msgs.length ∧ one.2.error.event = true ∧
      other.2.error = error)

/-- A buffer that is never too small. -/
structure Roomy (room : Nat) (exec : Exec ChunkBuf) (array : Bytes) : Prop where
  obj : exec.obj = ⟨some array, array.length⟩
  addressable : 2 ^ 64 ≤ array.length
  enough : room ≤ array.length

theorem Roomy.reserve {room : Nat} {array : Bytes} (roomy : Roomy room exec array)
    (realloc : Realloc) (count : Nat) (chunkSize : Int) (window : Bytes) :
    HTTPFraming.reserve realloc count chunkSize window exec = (some ((), window), exec) := by
  have fits : sizeAfter chunkSize count < exec.obj.size := by
    rw [roomy.obj]
    exact Nat.lt_of_lt_of_le (toSize_lt _) roomy.addressable
  rw [HTTPFraming.reserve, if_pos fits]

theorem Roomy.storeBody {room : Nat} {array data : Bytes} (roomy : Roomy room exec array)
    (fits : count + data.length ≤ room) :
    Roomy room (storeBody count data exec) (store array count data) where
  obj := by
    have length := length_store (Nat.le_trans fits roomy.enough)
    rw [length, HTTPFraming.storeBody, roomy.obj, Option.getD_some]
  addressable := by
    rw [length_store (Nat.le_trans fits roomy.enough)]
    exact roomy.addressable
  enough := by
    rw [length_store (Nat.le_trans fits roomy.enough)]
    exact roomy.enough

theorem length_msgs_missing (wanted : String) (left : Nat) (exec : Exec ChunkBuf) :
    exec.error.msgs.length < (missing wanted left exec).error.msgs.length ∧
      (missing wanted left exec).error.event = true := by
  refine ⟨?_, ErrorHandler.event_init _ _ _ _⟩
  unfold missing ErrorHandler.init
  split
  · simp
  · simp

/-- An error is told from an outcome without one. -/
theorem Told.of_missing {α : Type} {reply : Option α} {wanted : String} {left : Nat}
    {exec exec₁ exec₂ : Exec ChunkBuf} (one : exec₁.error = exec.error)
    (other : exec₂.error = exec.error) :
    Told exec.error (none, missing wanted left exec₁) (reply, exec₂) :=
  .inr ⟨rfl, one ▸ (length_msgs_missing wanted left exec₁).1,
    (length_msgs_missing wanted left exec₁).2, other⟩

theorem line_of_replicate {line : Bytes} (passes : ∀ c ∈ line, isLineByte c = true) {c : UInt8}
    (test : isLineByte c = true) (count : Nat) :
    ∀ d ∈ line ++ List.replicate count c, isLineByte d = true :=
  forall_mem_append passes fun _ member => List.eq_of_mem_replicate member ▸ test

theorem Roomy.mono {room less : Nat} {array : Bytes} (roomy : Roomy room exec array)
    (fewer : less ≤ room) : Roomy less exec array where
  obj := roomy.obj
  addressable := roomy.addressable
  enough := Nat.le_trans fewer roomy.enough

theorem Roomy.sized {room : Nat} {array : Bytes} (roomy : Roomy room exec array) (line : Bytes) :
    Roomy room (sized line exec) array where
  obj := roomy.obj
  addressable := roomy.addressable
  enough := roomy.enough

/-- With enough room, a size and data that do not end raise no error. -/
theorem iterate_calm {room : Nat} {array : Bytes} (roomy : Roomy room exec array)
    (passes : ∀ c ∈ line, isLineByte c = true) (left : Nat) (beyond : Stream' UInt8) :
    ∃ reply exec', Scanner.iterate (parseChunk realloc) (count, beyond)
        (line ++ 13 :: 10 :: List.replicate left 120) exec = (reply, exec') ∧
      exec'.error = exec.error := by
  cases left with
  | zero => exact ⟨_, _, iterate_sizeCrLf passes, rfl⟩
  | succ left =>
      have inhabited : List.replicate (left + 1) (120 : UInt8) ≠ [] := by simp
      by_cases zero : strtol 16 (cstr line) = 0
      · exact ⟨_, _, iterate_last passes zero inhabited, rfl⟩
      · have inside : ∀ c ∈ List.replicate (left + 1) (120 : UInt8), isLineByte c = true :=
          fun c member => List.eq_of_mem_replicate member ▸ by decide
        exact ⟨_, _, iterate_dataStops passes zero inhabited
          ((roomy.sized line).reserve realloc count _) (parseChunkData_line inside), rfl⟩

/-- Some bytes behind the text are told from some others. -/
def Tears (realloc : Realloc) (text : Bytes) (room count : Nat) (exec : Exec ChunkBuf) : Prop :=
  ∃ one other : Bytes,
    Told exec.error (chunksFrom realloc room (text ++ₛ memoryOf one) count exec)
      (chunksFrom realloc room (text ++ₛ memoryOf other) count exec)

/-- The room ends with some bytes behind the text. -/
theorem chunksFrom_memoryOf (text more : Bytes) :
    chunksFrom realloc (text.length + more.length) (text ++ₛ memoryOf more) count exec =
      Scanner.iterate (parseChunk realloc) (count, Stream'.const 0) (text ++ more) exec := by
  have taken : (memoryOf more).take more.length = more := by
    rw [memoryOf, Stream'.take_append_of_le_length _ _ _ (le_refl _), List.take_length]
  rw [chunksFrom_add, taken, memoryOf, Stream'.drop_append_stream]

theorem tears_of_told {one other : Bytes} (same : one.length = behind)
    (same' : other.length = behind)
    (told : Told exec.error
      (Scanner.iterate (parseChunk realloc) (count, Stream'.const 0) (text ++ one) exec)
      (Scanner.iterate (parseChunk realloc) (count, Stream'.const 0) (text ++ other) exec)) :
    Tears realloc text (text.length + behind) count exec := by
  refine ⟨one, other, ?_⟩
  have first := @chunksFrom_memoryOf realloc count exec text one
  have second := @chunksFrom_memoryOf realloc count exec text other
  rw [same] at first
  rw [same'] at second
  rw [first, second]
  exact told

/-- Inside a line with a size, two more bytes tell. -/
theorem tears_sizeLine (passes : ∀ c ∈ line, isLineByte c = true) (left : Nat) :
    Tears realloc line (line.length + (left + 2)) count exec := by
  obtain ⟨exec', ran, same⟩ := @iterate_sizeLine realloc count (Stream'.const 0) exec _
    (line_of_replicate passes (show isLineByte 120 = true by decide) (left + 2))
  refine @tears_of_told _ _ _ _ _ (13 :: 120 :: List.replicate left 120)
    (List.replicate (left + 2) 120) (by simp) (by simp) ?_
  rw [iterate_badSize passes (by decide), ran]
  exact .of_missing rfl same

/-- Between the two bytes that end a line, one more byte tells. -/
theorem tears_sizeCr {array : Bytes} (roomy : Roomy room exec array)
    (passes : ∀ c ∈ line, isLineByte c = true) (left : Nat) :
    Tears realloc (line ++ [13]) ((line ++ [13]).length + (left + 1)) count exec := by
  obtain ⟨reply, exec', ran, same⟩ :=
    @iterate_calm realloc count exec line _ _ roomy passes left (Stream'.const 0)
  refine @tears_of_told _ _ _ _ _ (List.replicate (left + 1) 120)
    (10 :: List.replicate left 120) (by simp) (by simp) ?_
  rw [List.replicate_succ, List.append_assoc, List.append_assoc, List.singleton_append,
    List.singleton_append, iterate_badSize passes (by decide), ran]
  exact .of_missing rfl same

/-- Inside the data of a chunk, the byte that is stored tells. -/
theorem tears_data {data array : Bytes} (roomy : Roomy room exec array)
    (passes : ∀ c ∈ line, isLineByte c = true) (size : strtol 16 (cstr line) ≠ 0)
    (inside : ∀ c ∈ data, isLineByte c = true) {left : Nat}
    (enough : count + data.length + (left + 1) ≤ room) :
    Tears realloc (line ++ 13 :: 10 :: data)
      ((line ++ 13 :: 10 :: data).length + (left + 1)) count exec := by
  have stored (c : UInt8) (test : isLineByte c = true) :
      Scanner.iterate (parseChunk realloc) (count, Stream'.const 0)
          (line ++ 13 :: 10 :: data ++ List.replicate (left + 1) c) exec =
        (none, storeBody count (data ++ List.replicate (left + 1) c) (sized line exec)) := by
    have inhabited : data ++ List.replicate (left + 1) c ≠ [] := by simp
    rw [List.append_assoc, List.cons_append, List.cons_append]
    exact iterate_dataStops passes size inhabited ((roomy.sized line).reserve realloc count _)
      (parseChunkData_line (line_of_replicate inside test (left + 1)))
  have fits : count + (data ++ List.replicate (left + 1) (120 : UInt8)).length ≤ array.length := by
    have := roomy.enough
    simp only [List.length_append, List.length_replicate]
    omega
  refine @tears_of_told _ _ _ _ _ (List.replicate (left + 1) 120) (List.replicate (left + 1) 121)
    (by simp) (by simp) (.inl ?_)
  rw [stored 120 (by decide), stored 121 (by decide)]
  intro same
  simp only [HTTPFraming.storeBody, (roomy.sized line).obj, Option.getD_some, ChunkBuf.mk.injEq,
    Option.some.injEq, and_true] at same
  have alike := store_injective fits (by simp) same
  rw [List.append_cancel_left_eq, List.replicate_succ, List.replicate_succ,
    List.cons.injEq] at alike
  exact absurd alike.1 (by decide)

/-- Between the two bytes that end the data, one more byte tells. -/
theorem tears_dataCr {data array : Bytes} (roomy : Roomy room exec array)
    (passes : ∀ c ∈ line, isLineByte c = true) (size : strtol 16 (cstr line) ≠ 0)
    (inside : ∀ c ∈ data, isLineByte c = true) (left : Nat) :
    Tears realloc (line ++ 13 :: 10 :: (data ++ [13]))
      ((line ++ 13 :: 10 :: (data ++ [13])).length + (left + 1)) count exec := by
  have making := (roomy.sized line).reserve realloc count (strtol 16 (cstr line))
  have filler : ∀ c ∈ List.replicate left (120 : UInt8) ++ [0], isLineByte c = true :=
    forall_mem_append (fun c member => List.eq_of_mem_replicate member ▸ by decide)
      (List.forall_mem_singleton.mpr (by decide))
  obtain ⟨exec', ran, same⟩ := @iterate_sizeLine realloc (count + data.length) (Stream'.const 0).tail
    (storeBody count data (sized line exec)) _ filler
  have shape (c : UInt8) : line ++ 13 :: 10 :: (data ++ [13]) ++ c :: List.replicate left 120 =
      line ++ 13 :: 10 :: (data ++ 13 :: c :: List.replicate left 120) := by
    simp
  refine @tears_of_told _ _ _ _ _ (120 :: List.replicate left 120) (10 :: List.replicate left 120)
    (by simp) (by simp) ?_
  have stepped : Scanner.iterate (parseChunk realloc) (count, Stream'.const 0)
      (line ++ 13 :: 10 :: (data ++ 13 :: 10 :: List.replicate left 120)) exec = (none, exec') := by
    rw [iterate_chunk passes size inside making]
    exact ran
  rw [shape, shape, stepped, iterate_dataStops passes size (by simp) making
    (parseChunkData_malformed inside (by decide) _)]
  exact .of_missing rfl same

/-- A text after which the next bytes make a difference tears. -/
theorem tears_of_unsettled {array : Bytes} (unsettled : ¬Settled text room)
    (roomy : Roomy (count + room) exec array) : Tears realloc text room count exec := by
  induction size : text.length using Nat.strongRecOn generalizing text room count exec array with
  | ind size ih =>
      have most := chunkScan_le_length text
      have cut (none_ : (chunkScan text).1 = 0) : ∃ left, room = text.length + (left + 1) := by
        rw [Settled, none_, not_or] at unsettled
        exact ⟨room - text.length - 1, by omega⟩
      cases chunkText text with
      | sizeLine passes =>
          obtain ⟨left, rfl⟩ := cut (by rw [chunkScan_sizeLine passes])
          rw [Settled, chunkScan_sizeLine passes] at unsettled
          cases left with
          | zero => exact absurd (.inr (.inr ⟨rfl, by simp⟩)) unsettled
          | succ left => exact tears_sizeLine passes left
      | sizeCr passes =>
          obtain ⟨left, rfl⟩ := cut (by rw [chunkScan_sizeCr passes])
          exact tears_sizeCr roomy passes left
      | badSize passes other rest =>
          rw [Settled, chunkScan_badSize passes other] at unsettled
          exact absurd (.inr (.inl rfl)) unsettled
      | last passes zero rest =>
          rw [Settled, chunkScan_last passes zero] at unsettled
          exact absurd (.inr (.inl rfl)) unsettled
      | data passes nonzero inside =>
          obtain ⟨left, rfl⟩ := cut (by rw [chunkScan_data passes nonzero inside])
          refine tears_data roomy passes nonzero inside ?_
          simp only [List.length_append, List.length_cons]
          omega
      | dataCr passes nonzero inside =>
          obtain ⟨left, rfl⟩ := cut (by rw [chunkScan_dataCr passes nonzero inside])
          exact tears_dataCr roomy passes nonzero inside left
      | badData passes nonzero inside other rest =>
          rw [Settled, chunkScan_badData passes nonzero inside other] at unsettled
          exact absurd (.inr (.inl rfl)) unsettled
      | @chunk line data passes nonzero inside rest =>
          -- the room reaches behind the text with the chunks counted, so it holds this chunk
          have late := (not_or.mp unsettled).1
          have fewer := chunkScan_le_length rest
          rw [chunkScan_chunk passes nonzero inside] at late
          simp only [List.length_append, List.length_cons] at late size
          obtain ⟨left, rfl⟩ : ∃ left, room = line.length + data.length + 4 + left :=
            ⟨room - (line.length + data.length + 4), by omega⟩
          rw [settled_chunk passes nonzero inside] at unsettled
          have fits : count + data.length ≤ count + (line.length + data.length + 4 + left) := by
            omega
          have ready : Roomy (count + data.length + (left + 1))
              (HTTPFraming.storeBody count data (HTTPFraming.sized line exec)) _ :=
            ((roomy.sized line).storeBody fits).mono (by omega)
          obtain ⟨one, other, told⟩ := ih rest.length (by omega) unsettled ready rfl
          have making := (roomy.sized line).reserve realloc count (strtol 16 (cstr line))
          refine ⟨one, other, ?_⟩
          rw [chunksFrom_chunk passes nonzero inside making,
            chunksFrom_chunk passes nonzero inside making]
          exact told

/-! ## The whole decoder -/

/-- Whether a body settles the decoder when it is called with a length. White space in front
is skipped. -/
def chunksSettled (text : Bytes) (len : Nat) : Bool :=
  let body := text.dropWhile isspace
  let room := len - (text.length - body.length)
  if body.isEmpty then room ≤ 2
  else
    room + (chunkScan body).1 ≤ body.length ||
      match (chunkScan body).2 with
      | .ended => true
      | .sizeLine => room + (chunkScan body).1 ≤ body.length + 1
      | .torn => false

theorem chunksSettled_of_blank (blank : text.dropWhile isspace = []) (len : Nat) :
    chunksSettled text len = decide (len ≤ text.length + 2) := by
  simp only [chunksSettled, blank, List.isEmpty_nil, ↓reduceIte, List.length_nil, Nat.sub_zero,
    decide_eq_decide]
  omega

theorem chunksSettled_iff (solid : text.dropWhile isspace ≠ []) (len : Nat) :
    chunksSettled text len = true ↔
      Settled (text.dropWhile isspace) (len - (text.length - (text.dropWhile isspace).length)) := by
  have some_ : (text.dropWhile isspace).isEmpty = false := by simpa using solid
  simp only [chunksSettled, Settled, some_, Bool.false_eq_true, ↓reduceIte, Bool.or_eq_true,
    decide_eq_true_eq]
  cases (chunkScan (text.dropWhile isspace)).2 with
  | ended => simp
  | sizeLine => simp
  | torn => simp

theorem parseChunks_apply (beyond : Stream' UInt8) (window : Bytes) :
    parseChunks realloc beyond window exec =
      Scanner.iterate (parseChunk realloc) (0, beyond) (window.dropWhile isspace) exec := rfl

theorem parseChunkedMsgBody_of_some {body : Bytes} (some_ : exec.obj.msgBody = some body)
    (memory : Stream' UInt8) (len : Nat) :
    parseChunkedMsgBody realloc memory len exec =
      parseChunks realloc (memory.drop len) (memory.take len) exec := by
  simp only [parseChunkedMsgBody, some_, Option.isNone_some, Bool.false_eq_true, ↓reduceIte]

/-- A call with a buffer of known bytes. -/
theorem parseChunkedMsgBody_append (window : Bytes) (beyond : Stream' UInt8) {body : Bytes}
    (some_ : exec.obj.msgBody = some body) :
    parseChunkedMsgBody realloc (window ++ₛ beyond) window.length exec =
      Scanner.iterate (parseChunk realloc) (0, beyond) (window.dropWhile isspace) exec := by
  rw [parseChunkedMsgBody_of_some some_, Stream'.drop_append_stream,
    Stream'.take_append_of_le_length _ _ _ (le_refl _), List.take_length, parseChunks_apply]

theorem iterate_nil (place : Nat × Stream' UInt8) :
    Scanner.iterate (parseChunk realloc) place [] exec = (none, exec) := by
  rw [iterate_apply]
  rfl

/-- White space in front of a body is skipped, as far as the window reaches. -/
theorem parseChunks_solid (solid : text.dropWhile isspace ≠ []) (memory : Stream' UInt8)
    (len : Nat) :
    parseChunks realloc ((text ++ₛ memory).drop len) ((text ++ₛ memory).take len) exec =
      chunksFrom realloc (len - (text.length - (text.dropWhile isspace).length))
        (text.dropWhile isspace ++ₛ memory) 0 exec := by
  obtain ⟨first, body, shape⟩ := List.exists_cons_of_ne_nil solid
  have stop : isspace first = false := by
    have := List.head?_dropWhile_not isspace text
    rw [shape] at this
    simpa using this
  have whole := List.takeWhile_append_dropWhile (p := isspace) (l := text)
  have front : ∀ c ∈ text.takeWhile isspace, isspace c = true :=
    fun _ member => List.mem_takeWhile_imp member
  have length : text.length - (text.dropWhile isspace).length =
      (text.takeWhile isspace).length := by
    have := congrArg List.length whole
    rw [List.length_append] at this
    omega
  rw [length, parseChunks_apply]
  generalize text.takeWhile isspace = blank at whole front
  rw [shape] at whole ⊢
  subst whole
  rw [Stream'.append_append_stream]
  by_cases early : len < blank.length
  · have none_ : (blank.take len).dropWhile isspace = [] :=
      List.dropWhile_eq_nil_iff.mpr fun c member => front c (List.mem_of_mem_take member)
    have empty : len - blank.length = 0 := by omega
    rw [Stream'.take_append_of_le_length _ _ _ (Nat.le_of_lt early), none_, iterate_nil, empty,
      chunksFrom, Stream'.take_zero, iterate_nil]
  · obtain ⟨room, rfl⟩ := Nat.exists_eq_add_of_le (Nat.not_lt.mp early)
    have skipped : (blank ++ (first :: body ++ₛ memory).take room).dropWhile isspace =
        (first :: body ++ₛ memory).take room := by
      rw [List.dropWhile_append_of_pos front]
      cases room with
      | zero => rfl
      | succ room =>
          rw [Stream'.take_succ]
          exact List.dropWhile_cons_of_neg (by simpa [Stream'.head] using stop)
    rw [take_append_add, drop_append_add, skipped, Nat.add_sub_cancel_left, chunksFrom]

theorem no_overrun {length limit : Nat} (short : length < limit) (overrun : Bool) :
    (overrun || decide (limit ≤ length)) = overrun := by
  rw [decide_eq_false (by omega), Bool.or_false]

/-- With no more than two bytes the decoder waits, and nothing has changed. -/
theorem iterate_two {window : Bytes} (few : window.length ≤ 2)
    (trimmed : window.dropWhile isspace = window) (place : Nat × Stream' UInt8) :
    Scanner.iterate (parseChunk realloc) place window exec = (none, exec) := by
  obtain ⟨count, beyond⟩ := place
  obtain ⟨line, passes, rfl | rfl | ⟨c, rest, rfl⟩⟩ := exists_line window
  · by_cases empty : window = []
    · rw [empty, iterate_nil]
    · have same : { exec with overrun := exec.overrun || decide (scratchBufSize < window.length) } =
          exec := by
        rw [show (exec.overrun || decide (scratchBufSize < window.length)) = exec.overrun from
          no_overrun (by simp only [scratchBufSize]; omega) _]
      rw [iterate_of_none empty (bind_of_none (parseChunkSize_line passes)), same]
  · rw [List.length_append, List.length_singleton] at few
    rw [iterate_sizeCr passes, sized, no_overrun (by simp only [scratchBufSize]; omega)]
  · -- a carriage return in front is white space
    simp only [List.length_append, List.length_cons] at few
    have empty : line = [] := List.length_eq_zero_iff.mp (by omega)
    rw [empty, List.nil_append, List.dropWhile_cons_of_pos (by decide)] at trimmed
    have sizes := congrArg List.length trimmed
    have less := (List.dropWhile_suffix isspace (l := c :: rest)).length_le
    simp only [List.length_cons] at sizes less
    omega

/-- In front of white space alone, the window and the bytes behind it are what is parsed. -/
theorem dropWhile_take_of_blank (blank : text.dropWhile isspace = []) (memory : Stream' UInt8)
    (len : Nat) :
    ((text ++ₛ memory).take len).dropWhile isspace =
      (memory.take (len - text.length)).dropWhile isspace := by
  have front := List.dropWhile_eq_nil_iff.mp blank
  by_cases fits : len ≤ text.length
  · have none_ : len - text.length = 0 := by omega
    rw [Stream'.take_append_of_le_length _ _ _ fits, none_, Stream'.take_zero, List.dropWhile_nil]
    exact List.dropWhile_eq_nil_iff.mpr fun c member => front c (List.mem_of_mem_take member)
  · obtain ⟨more, rfl⟩ := Nat.exists_eq_add_of_le (Nat.le_of_not_le fits)
    rw [take_append_add, List.dropWhile_append_of_pos front, Nat.add_sub_cancel_left]

/-- A body that settles the decoder: what is seen of it does not depend on the bytes behind. -/
theorem settles_parseChunkedMsgBody {len : Nat} (settled : chunksSettled text len = true)
    (realloc : Realloc) (exec : Exec ChunkBuf) :
    ∃ outcome : Option Nat × Exec ChunkBuf,
      (∀ memory, seen (parseChunkedMsgBody realloc (text ++ₛ memory) len exec) = outcome) ∧
        ∀ left, outcome.1 = some left → len ≤ left + text.length := by
  cases body : exec.obj.msgBody with
  | none =>
      refine ⟨(none, { exec with
        error := exec.error.init ErrorHandler.EX_SOFTWARE
          ("HTTPFraming::ParseChunkedMsgBody(): TODO(aka) " ++
            "buf or our msg_body buffer is NULL") [] }), fun memory => ?_, fun _ some_ => by
              cases some_⟩
      simp only [parseChunkedMsgBody, body, Option.isNone_none, ↓reduceIte]
      rfl
  | some array =>
      by_cases blank : text.dropWhile isspace = []
      · rw [chunksSettled_of_blank blank, decide_eq_true_eq] at settled
        refine ⟨(none, exec), fun memory => ?_, fun _ some_ => by cases some_⟩
        have few : ((memory.take (len - text.length)).dropWhile isspace).length ≤ 2 := by
          have less := (List.dropWhile_suffix isspace (l := memory.take (len - text.length))).length_le
          rw [Stream'.length_take] at less
          omega
        rw [parseChunkedMsgBody_of_some body, parseChunks_apply, dropWhile_take_of_blank blank,
          iterate_two few (List.dropWhile_idempotent _ _)]
        rfl
      · obtain ⟨outcome, same, few⟩ :=
          @settles_of_settled realloc 0 _ exec _ ((chunksSettled_iff blank len).mp settled)
        refine ⟨outcome, fun memory => ?_, fun left some_ => ?_⟩
        · rw [parseChunkedMsgBody_of_some body, parseChunks_solid blank, same]
        · have := few left some_
          have less := (List.dropWhile_suffix isspace (l := text)).length_le
          omega

/-- A body that does not: some bytes behind it are told from some others. -/
theorem tears_parseChunkedMsgBody {len : Nat} {array : Bytes}
    (unsettled : chunksSettled text len = false) (roomy : Roomy len exec array) :
    ∃ one other : Bytes,
      Told exec.error (parseChunkedMsgBody realloc (text ++ₛ memoryOf one) len exec)
        (parseChunkedMsgBody realloc (text ++ₛ memoryOf other) len exec) := by
  have held : exec.obj.msgBody = some array := by rw [roomy.obj]
  have unsettled : ¬chunksSettled text len = true := by rw [unsettled]; exact Bool.false_ne_true
  by_cases blank : text.dropWhile isspace = []
  · rw [chunksSettled_of_blank blank, decide_eq_true_eq, Nat.not_le] at unsettled
    obtain ⟨left, rfl⟩ : ∃ left, len = text.length + (left + 3) :=
      ⟨len - text.length - 3, by omega⟩
    have passes : ∀ c ∈ ([120] : Bytes), isLineByte c = true := List.forall_mem_singleton.mpr rfl
    obtain ⟨exec', ran, same⟩ := @iterate_sizeLine realloc 0 (Stream'.const 0) exec _
      (line_of_replicate passes (show isLineByte 120 = true by decide) (left + 2))
    have read {more : Bytes} (length : more.length = left + 3)
        (solid : more.dropWhile isspace = more) :
        parseChunkedMsgBody realloc (text ++ₛ memoryOf more) (text.length + (left + 3)) exec =
          Scanner.iterate (parseChunk realloc) (0, Stream'.const 0) more exec := by
      have taken : (memoryOf more).take (left + 3) = more := by
        rw [← length, memoryOf, Stream'.take_append_of_le_length _ _ _ (le_refl _),
          List.take_length]
      rw [parseChunkedMsgBody_of_some held, parseChunks_apply, dropWhile_take_of_blank blank,
        drop_append_add, Nat.add_sub_cancel_left, taken, solid, ← length, memoryOf,
        Stream'.drop_append_stream]
    refine ⟨[120] ++ 13 :: 120 :: List.replicate left 120, [120] ++ List.replicate (left + 2) 120, ?_⟩
    rw [read (by simp) rfl, read (by simp) rfl, iterate_badSize passes (by decide), ran]
    exact .of_missing rfl same
  · rw [chunksSettled_iff blank] at unsettled
    obtain ⟨one, other, told⟩ := @tears_of_unsettled realloc 0 _ exec _ _ unsettled
      (roomy.mono (by omega))
    refine ⟨one, other, ?_⟩
    rw [parseChunkedMsgBody_of_some held, parseChunkedMsgBody_of_some held,
      parseChunks_solid blank, parseChunks_solid blank]
    exact told

end Behind

end HTTPFraming

end IpUtils
