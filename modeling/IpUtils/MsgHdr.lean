import IpUtils.HTTP.Parse
import IpUtils.Process

/-! # Message headers

`MsgHdr` holds the header of a message in one of two framings and hides from a session
which of them it is.
-/

namespace IpUtils

open CLib

/-- `struct BasicFramingHdr`. -/
structure BasicFramingHdr where
  id : UInt8 := 0
  type : UInt8 := 0
  typeId : UInt8 := 0
  opt : UInt8 := 0
  msgId : UInt16 := 0
  lamport : UInt16 := 0
  len : UInt16 := 0
  deriving DecidableEq, Repr

namespace BasicFramingHdr

/-- `kBasicHdrSize`. -/
def size : Nat := 10

/-- A `uint16_t` in memory, low byte first. -/
def halfBytes (value : UInt16) : Bytes :=
  [value.toUInt8, (value >>> 8).toUInt8]

/-- The `uint16_t` that two bytes in memory make. -/
def half (low high : UInt8) : UInt16 :=
  low.toUInt16 ||| (high.toUInt16 <<< 8)

/-- The bytes of the structure in memory. -/
def toBytes (hdr : BasicFramingHdr) : Bytes :=
  [hdr.id, hdr.type, hdr.typeId, hdr.opt] ++ halfBytes hdr.msgId ++ halfBytes hdr.lamport ++
    halfBytes hdr.len

/-- The structure that bytes in memory make. -/
def ofBytes (bytes : Bytes) : BasicFramingHdr :=
  let byte (place : Nat) : UInt8 := bytes.getD place 0
  { id := byte 0, type := byte 1, typeId := byte 2, opt := byte 3
    msgId := half (byte 4) (byte 5), lamport := half (byte 6) (byte 7), len := half (byte 8) (byte 9) }

end BasicFramingHdr

/-- `MsgHdr` with the `HdrStorage` it contains. -/
structure MsgHdr where
  type : UInt8
  msgId : UInt16 := 0
  basic : BasicFramingHdr := {}
  http : HTTPFraming := {}
  deriving DecidableEq, Repr

namespace MsgHdr

def typeNone : UInt8 := 0

def typeBasic : UInt8 := 1

def typeHttp : UInt8 := 2

/-- `IPCOMM_PORT_NULL`. -/
def ipcommPortNull : UInt16 := 0

/-- `hdr_len`. -/
def hdrLen (hdr : MsgHdr) : Nat :=
  if hdr.type = typeBasic then BasicFramingHdr.size
  else if hdr.type = typeHttp then hdr.http.hdrLen false
  else 0

/-- `body_len`. -/
def bodyLen (hdr : MsgHdr) : Nat :=
  if hdr.type = typeBasic then hdr.basic.len.toNat
  else if hdr.type = typeHttp then hdr.http.msgLen
  else 0

/-- `set_body_len`. -/
def setBodyLen (bodyLen : Nat) (hdr : MsgHdr) (error : ErrorHandler) : MsgHdr × ErrorHandler :=
  if hdr.type = typeBasic then
    ({ hdr with basic := { hdr.basic with len := bodyLen.toUInt16 } }, error)
  else if hdr.type = typeHttp then
    let (http, error) := hdr.http.appendField (some HTTPFraming.mimeContentLength)
      (some (printInt (toInt bodyLen))) none none error
    ({ hdr with http }, error)
  else (hdr, error)

/-- `clear`. -/
def clear (_hdr : MsgHdr) : MsgHdr :=
  { type := typeNone }

/-- `IsMsgRequest`. -/
def isMsgRequest (hdr : MsgHdr) : Bool :=
  hdr.type == typeHttp && hdr.http.msgType == .request

/-- What `InitFromBuf` finds around its window: the bytes behind it, the bytes at the
address of its own parameter `buf`, and the allocator. -/
structure BufEnv where
  stale : Bytes
  parameter : Bytes
  realloc : Realloc

/-- What `InitFromBuf` leaves behind. -/
structure ParseOutcome where
  bytesUsed : Option Nat
  hdr : MsgHdr
  process : Process
  chunked : ChunkBuf

/-- The basic framing copies what stands at the address of the pointer, not what stands
where it points. -/
def initBasic (env : BufEnv) (window : Bytes) (chunked : ChunkBuf) (hdr : MsgHdr)
    (process : Process) : ParseOutcome :=
  if window.length < BasicFramingHdr.size then { bytesUsed := none, hdr, process, chunked }
  else
    let basic := BasicFramingHdr.ofBytes (readMemory env.parameter BasicFramingHdr.size)
    { bytesUsed := some BasicFramingHdr.size
      hdr := { hdr with basic, msgId := basic.msgId }
      process, chunked }

/-- The HTTP framing. -/
def initHttp (env : BufEnv) (window : Bytes) (chunked : ChunkBuf) (hdr : MsgHdr)
    (process : Process) : ParseOutcome :=
  let result := HTTPFraming.initFromBuf
    { stale := env.stale, defaultPort := ipcommPortNull, realloc := env.realloc } window
    { obj := hdr.http, error := process.error } chunked
  let hdr := { hdr with http := result.exec.obj }
  let process :=
    { process with
      error := result.exec.error
      overrun := process.overrun || result.exec.overrun }
  match result.bytesUsed with
  | none =>
      { bytesUsed := none
        hdr
        process :=
          if process.error.event then process.appendMsg "MsgHdr::InitFromBuf(): " [] else process
        chunked := result.chunked }
  | some used =>
      { bytesUsed := some used
        hdr := { hdr with msgId := process.msgIdHash + 1 }
        process := { process with msgIdHash := process.msgIdHash + 1 }
        chunked := result.chunked }

/-- `InitFromBuf`. For an unknown type an error is raised and true returned; the caller
has set `bytes_used` to 0. -/
def initFromBuf (env : BufEnv) (window : Bytes) (chunked : ChunkBuf) (hdr : MsgHdr)
    (process : Process) : ParseOutcome :=
  if hdr.type = typeBasic then initBasic env window chunked hdr process
  else if hdr.type = typeHttp then initHttp env window chunked hdr process
  else
    { bytesUsed := some 0
      hdr
      process := process.raise ErrorHandler.EX_DATAERR "MsgHdr::InitFromBuf(): unknown type: %d."
        [.num hdr.type.toNat]
      chunked }

end MsgHdr

end IpUtils
