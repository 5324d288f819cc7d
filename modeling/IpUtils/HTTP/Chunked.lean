import IpUtils.CLib.Memory
import IpUtils.HTTP.Basic

/-! # Decoding a chunked message body

`ParseChunkedMsgBody` copies the data of the chunks into a buffer that it makes
larger when the announced size does not fit. The end of the data of a chunk is the
next carriage return, wherever that is, and the line feed behind it is not counted: with
every chunk the walk may go on for one byte more into the memory behind its window.
-/

namespace IpUtils

open CLib

/-- The buffer that the decoded body goes to: the array, unless the pointer is NULL,
and its size as the caller keeps it. -/
structure ChunkBuf where
  msgBody : Option Bytes
  size : Nat
  deriving DecidableEq, Repr

/-- `realloc`: the array of the new size, or NULL. -/
abbrev Realloc : Type :=
  Bytes → Nat → Option Bytes

namespace HTTPFraming

/-- `(size_t)(chunk_size + msg_body_cnt)`. -/
def sizeAfter (chunkSize : Int) (count : Nat) : Nat :=
  toSize (chunkSize + count)

/-- The size that is asked for when a chunk does not fit. -/
def grownSize (size : Nat) (chunkSize : Int) : Nat :=
  if chunkSize < scratchBufSize then (size + scratchBufSize) % 2 ^ 64
  else toSize (size + chunkSize + 1)

/-- Make room for a chunk. -/
def reserve (realloc : Realloc) (count : Nat) (chunkSize : Int) : Parse ChunkBuf Unit :=
  fun window exec =>
    if sizeAfter chunkSize count < exec.obj.size then (some ((), window), exec)
    else
      let newSize := grownSize exec.obj.size chunkSize
      match realloc (exec.obj.msgBody.getD []) newSize with
      | none =>
          (none, { exec with
            obj := { exec.obj with msgBody := none }
            error := exec.error.init ErrorHandler.EX_OSERR
              "HTTPFraming::ParseChunkedMsgBody(): realloc(3) failed for %lub" [.num newSize] })
      | some array => (some ((), window), { exec with obj := ⟨some array, newSize⟩ })

/-- Store bytes into the buffer of the body. -/
def storeBody (count : Nat) (data : Bytes) (exec : Exec ChunkBuf) : Exec ChunkBuf :=
  let array := exec.obj.msgBody.getD []
  { exec with
    obj := { exec.obj with msgBody := some (store array count data) }
    overrun := exec.overrun || array.length < count + data.length }

/-- The bytes of a line. -/
def isLineByte (c : UInt8) : Bool :=
  c != 13

/-- The messages of `ParseChunkedMsgBody` about a missing delimiter. -/
def chunkExpected (wanted : String) : String :=
  "HTTPFraming::ParseChunkedMsgBody(): TODO(aka) expected " ++ wanted ++ ", got: %s at cnt: %ld"

/-- The line with the size of a chunk. -/
def parseChunkSize : Parse ChunkBuf Int := do
  let digits ← Parse.token scratchBufSize isLineByte
  Parse.expectStep 13 (chunkExpected "'\r'")
  Parse.expectStep 10 (chunkExpected "'\n'")
  pure (strtol 16 digits)

/-- The data of a chunk, stored behind the `count` bytes that are there already. The line
feed behind them is skipped without counting it. -/
def parseChunkData (beyond : Stream' UInt8) (count : Nat) : Parse ChunkBuf Nat := do
  let data ← Scanner.takeWhile isLineByte
  Scanner.update (storeBody count data)
  Scanner.need
  Parse.expectStep 13 (chunkExpected "'\r'")
  Parse.expect 10 (chunkExpected "'\n'")
  Scanner.slide beyond.head
  pure (count + data.length)

/-- One round of the loop over the chunks; the chunk of size 0 is the last. The place is
that in the buffer, with the memory behind the window. -/
def parseChunk (realloc : Realloc) :
    Nat × Stream' UInt8 → Parse ChunkBuf ((Nat × Stream' UInt8) ⊕ Unit)
  | (count, beyond) => do
      let chunkSize ← parseChunkSize
      if chunkSize = 0 then
        Scanner.update (storeBody count [0])
        pure (.inr ())
      else
        reserve realloc count chunkSize
        let count ← parseChunkData beyond count
        pure (.inl (count, beyond.tail))

/-- The walk of `ParseChunkedMsgBody` over its window. -/
def parseChunks (realloc : Realloc) (beyond : Stream' UInt8) : Parse ChunkBuf Unit := do
  Scanner.skipWhile isspace
  Scanner.iterate (parseChunk realloc) (0, beyond)

/-- `ParseChunkedMsgBody(buf, len)`: with what is left of the window when it returns true. -/
def parseChunkedMsgBody (realloc : Realloc) (buf : Stream' UInt8) (len : Nat)
    (exec : Exec ChunkBuf) : Option (Unit × Bytes) × Exec ChunkBuf :=
  if exec.obj.msgBody.isNone then
    Parse.fail ("HTTPFraming::ParseChunkedMsgBody(): TODO(aka) " ++
      "buf or our msg_body buffer is NULL") (fun _ => []) (buf.take len) exec
  else parseChunks realloc (buf.drop len) (buf.take len) exec

end HTTPFraming

end IpUtils
