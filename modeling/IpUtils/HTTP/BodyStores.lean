import IpUtils.HTTP.ChunkRoundTrip

/-! # Stores into the buffer of a decoded body

What `ParseChunkedMsgBody` stores is bounded by the data of the chunks, and the buffer by the
sizes that the chunks announce.
-/

namespace IpUtils

open CLib Scanner

namespace HTTPFraming

/-- The decoder comes to store bytes behind `at_` others, with the buffer as it is then. -/
inductive Stores (realloc : Realloc) :
    Nat × Stream' UInt8 → Bytes → Exec ChunkBuf → Nat → Bytes → Exec ChunkBuf → Prop
  /-- The NUL behind the last chunk. -/
  | last {count : Nat} {beyond : Stream' UInt8} {window rest : Bytes} {exec ready : Exec ChunkBuf}
      (size : parseChunkSize window exec = (some (0, rest), ready)) :
      Stores realloc (count, beyond) window exec count [0] ready
  /-- The data of a chunk. -/
  | data {count : Nat} {beyond : Stream' UInt8} {window rest : Bytes}
      {exec sized ready : Exec ChunkBuf} {chunkSize : Int}
      (size : parseChunkSize window exec = (some (chunkSize, rest), sized))
      (more : chunkSize ≠ 0)
      (room : reserve realloc count chunkSize rest sized = (some ((), rest), ready)) :
      Stores realloc (count, beyond) window exec count (rest.takeWhile isLineByte) ready
  /-- What is stored behind a complete chunk. -/
  | next {place place' : Nat × Stream' UInt8} {at_ : Nat} {window rest stored : Bytes}
      {exec exec' ready : Exec ChunkBuf}
      (chunk : parseChunk realloc place window exec = (some (.inl place', rest), exec'))
      (stores : Stores realloc place' rest exec' at_ stored ready) :
      Stores realloc place window exec at_ stored ready

/-- The size of the buffer in which a chunk is stored. -/
def sizeFor (size count : Nat) (chunkSize : Int) : Nat :=
  if sizeAfter chunkSize count < size then size else grownSize size chunkSize

section Fits

variable {line data rest : Bytes} {count size : Nat} {beyond : Stream' UInt8}

end Fits

/-! ## What is stored -/

section Inside

variable {realloc : Realloc} {count : Nat} {beyond : Stream' UInt8}
  {exec exec' sized ready : Exec ChunkBuf} {window rest : Bytes} {chunkSize : Int}

end Inside

/-! ## The rounds -/

section Rounds

variable {realloc : Realloc} {count : Nat} {beyond : Stream' UInt8} {exec : Exec ChunkBuf}
  {line : Bytes}

/-- Making room is successful, and the announced size says how large the buffer is then. -/
theorem reserve_of_reallocates (success : Reallocates realloc) (count : Nat) (chunkSize : Int)
    (exec : Exec ChunkBuf) :
    ∃ ready, ready.obj.size = sizeFor exec.obj.size count chunkSize ∧
      ∀ window, reserve realloc count chunkSize window exec = (some ((), window), ready) := by
  unfold reserve sizeFor
  by_cases enough : sizeAfter chunkSize count < exec.obj.size
  · refine ⟨exec, by rw [if_pos enough], ?_⟩
    intro window
    rw [if_pos enough]
  · obtain ⟨larger, given, -, -⟩ :=
      success (exec.obj.msgBody.getD []) (grownSize exec.obj.size chunkSize)
    refine ⟨{ exec with obj := ⟨some larger, grownSize exec.obj.size chunkSize⟩ },
      by rw [if_neg enough], ?_⟩
    intro window
    rw [if_neg enough]
    dsimp only
    rw [given]

end Rounds

end HTTPFraming

end IpUtils
