import IpUtils.HTTP.Chunked
import IpUtils.URL.Parse

/-! # Parsing HTTP headers

The request and the response parser, the parser of one header field and the
decoder of a chunked body, as `HTTPFraming` has them. A parser sees the bytes it
may read as its window. The stale bytes of the buffer behind the window are passed
separately: they are what `strchr` runs into and what the chunk decoder is handed
when it is called with the wrong length. Memory behind those is taken to be NUL.
-/

namespace IpUtils

open CLib

/-- `SP`, `HT`: white space that does not end a line. -/
def isBlank (c : UInt8) : Bool :=
  c == 9 || c == 32

namespace Parse

variable {ω : Type}

/-- Step over a keyword, whatever its case, and continue with `found` on what
follows; the keyword must not end the window. -/
def keyword (word : Bytes) (found otherwise : Parse ω Unit) : Parse ω Unit := do
  if ← Scanner.lookahead (startsWithNoCase word) then
    Scanner.advanceBy word.length
    found
  else otherwise

/-- The digits of a number that something must follow, as an `int`. -/
def number : Parse ω Int := do
  let digits ← token scratchBufSize isdigit
  pure (toInt (strtol 10 digits))

end Parse

namespace HTTPFraming

def kHTTPSlash : Bytes := ascii "HTTP/"

/-- `msg_hdrs_.clear()`. -/
def clearHdrs (exec : Exec HTTPFraming) : Exec HTTPFraming :=
  { exec with obj := { exec.obj with msgHdrs := [] } }

/-! ## Header fields -/

/-- The bytes of a field name. -/
def isNameByte (c : UInt8) : Bool :=
  c != 58

/-- The bytes of a field value or of the value of a parameter. -/
def isValueByte (c : UInt8) : Bool :=
  c != 59 && c != 13

/-- The bytes of the key of a parameter. -/
def isKeyByte (c : UInt8) : Bool :=
  c != 61

/-- Whether a loop over parameters or fields has come to a line end. -/
def atLineEnd (window : Bytes) : Bool :=
  window.headD 0 == 13

/-- One round of the loop over the parameters of a field. -/
def parseParameter (parameters : List Rfc822Parameter) :
    Parse HTTPFraming (List Rfc822Parameter) := do
  Scanner.step
  Scanner.skip isspace
  let key ← Parse.token scratchBufSize isKeyByte
  Scanner.step
  Scanner.skip isspace
  let value ← Parse.token scratchBufSize isValueByte
  Scanner.skip isBlank
  pure (parameters ++ [{ key := key, value := value }])

/-- A space in front of a field would continue the line before it. -/
def refuseContinuation : Parse HTTPFraming Unit := do
  let here ← Scanner.current 0
  if isspace here then
    Parse.fail ("HTTPFraming::ParseMsgHdr(): TODO(aka) " ++
      "found space signaling line continuation at buf[%ld]: %s") fun left => [.cnt left, .ptr left]

/-- `ParseMsgHdr`: a stop is the return value 0, otherwise the bytes read are
returned, of which there are at least two. -/
def parseMsgHdr : Parse HTTPFraming Unit := do
  Scanner.need
  refuseContinuation
  let fieldName ← Parse.token scratchBufSize isNameByte
  Scanner.step
  Scanner.skip isspace
  let fieldValue ← Parse.token scratchBufSize isValueByte
  let parameters ← Scanner.loop atLineEnd parseParameter []
  Scanner.step
  Parse.expect 10 "HTTPFraming::ParseMsgHdr(): TODO(aka) expected '\n', got char: %s at cnt: %ld"
  Scanner.advance
  Parse.assign fun http =>
    { http with msgHdrs := http.msgHdrs ++ [{ fieldName, fieldValue, parameters }] }

/-- The loop over the header fields, up to the empty line. -/
def parseMsgHdrs : Parse HTTPFraming Unit :=
  Scanner.loop atLineEnd (fun _ => do parseMsgHdr; Scanner.need) ()

/-! ## Versions -/

/-- The versions that are accepted. -/
def knownVersion (major minor : Int) : Bool :=
  (major == 1 && minor == 1) || (major == 1 && minor == 0) || (major == 0 && minor == 9)

/-- Raise an error for a version that is not known. -/
def checkVersion (unknown : String) (major minor : Int) : Parse HTTPFraming Unit :=
  if knownVersion major minor then pure ()
  else Parse.fail unknown fun _ => [.num major, .num minor]

/-- `HTTP/`, the major number, a dot and the minor number. -/
def parseVersion (dot unknown : String) : Parse HTTPFraming Unit := do
  Parse.keyword kHTTPSlash (pure ()) Scanner.stop
  let major ← Parse.number
  Parse.assign fun http => { http with major }
  Parse.expectStep 46 dot
  let minor ← Parse.number
  Parse.assign fun http => { http with minor }
  checkVersion unknown major minor

/-! ## Requests -/

/-- The methods in the order in which `ParseRequestHdr` looks for them. -/
def parsedMethods : List HTTPMethod :=
  [.get, .put, .head, .post, .delete]

/-- Look for one method after the other. -/
def parseMethodFrom : List HTTPMethod → Parse HTTPFraming Unit
  | [] => Parse.fail "HTTPFraming::ParseRequestHdr(): unknown method: %s" fun left => [.ptr left]
  | method :: others =>
      Parse.keyword method.name (Parse.assign (setMethod method)) (parseMethodFrom others)

/-- The request method. There are at least 16 bytes, so no method ends the window. -/
def parseMethod : Parse HTTPFraming Unit :=
  parseMethodFrom parsedMethods

/-- The messages of `ParseRequestHdr` about a missing delimiter. -/
def requestExpected (wanted : String) : String :=
  "HTTPFraming::ParseRequestHdr(): expected " ++ wanted ++ " at cnt: %ld"

/-- Run a URL parser on `uri_`. -/
def onUri {α : Type} (body : Parse URL α) : Parse HTTPFraming α :=
  Scanner.zoom
    (fun exec => { obj := exec.obj.uri, error := exec.error, overrun := exec.overrun })
    (fun exec url => { obj := { exec.obj with uri := url.obj }, error := url.error,
                       overrun := url.overrun })
    body

/-- The request line behind the URI. -/
def parseRequestVersion : Parse HTTPFraming Unit := do
  Scanner.need
  Parse.expectStep 32 (requestExpected "SP, got char: %s")
  parseVersion
    "HTTPFraming::ParseRequestHdr(): TODO(aka) expected '.', got char: %s at cnt: %ld"
    "HTTPFraming::Parse_Request_Hdr(): received unknown HTTP header version: %d.%d"
  Parse.expectStep 13 (requestExpected "'\r', got: %s")
  Parse.expectStep 10 (requestExpected "'\n', got: %s")

/-- The header fields of a request and the empty line; a byte must follow it. -/
def parseRequestFields : Parse HTTPFraming Unit :=
  Scanner.onStop clearHdrs do
    parseMsgHdrs
    Parse.expectStep 13 (requestExpected "'\r', got: %s")
    Parse.expectStep 10 (requestExpected "'\n', got: %s")

/-- Stop unless a number of bytes are left. -/
def atLeast (count : Nat) : Parse HTTPFraming Unit :=
  fun window exec => if window.length < count then (none, exec) else (some ((), window), exec)

/-- Everything of a request behind the method. -/
def parseAfterMethod (stale : Bytes) (defaultPort : UInt16) : Parse HTTPFraming Unit := do
  Parse.expectStep 32 (requestExpected "SP, got char: %s")
  onUri (URL.initFromBuf stale defaultPort)
  parseRequestVersion
  parseRequestFields
  Parse.assign fun http => { http with msgType := .request }

/-- `ParseRequestHdr`. -/
def parseRequestHdr (stale : Bytes) (defaultPort : UInt16) : Parse HTTPFraming Unit := do
  Scanner.skipWhile isspace
  atLeast 16
  parseMethod
  parseAfterMethod stale defaultPort

/-! ## Responses -/

/-- The messages of `ParseResponseHdr` about a missing delimiter. -/
def responseExpected (wanted : String) : String :=
  "HTTPFraming::ParseResponseHdr(): TODO(aka) expected " ++ wanted ++ " at cnt: %ld"

/-- The bytes of a reason phrase. -/
def isPhraseByte (c : UInt8) : Bool :=
  c != 13

def parseStatusLine : Parse HTTPFraming Unit := do
  parseVersion (responseExpected "'.', got char: %s")
    "HTTPFraming::ParseResponseHdr(): TODO(aka) received unknown HTTP header version: %d.%d"
  Parse.expectStep 32 (responseExpected "SP, got char: %s")
  let statusCode ← Parse.number
  Parse.assign (setStatusCode statusCode)
  Parse.expectStep 32 (responseExpected "SP, got char: %s")
  let _ ← Parse.token scratchBufSize isPhraseByte
  Parse.expectStep 13 (responseExpected "'\r', got: %s")
  Parse.expectStep 10 (responseExpected "'\n', got: %s")

/-- Add a message to an event that has been raised. -/
def appendIfEvent {ω : Type} (format : String) (exec : Exec ω) : Exec ω :=
  if exec.error.event then { exec with error := exec.error.appendMsg format [] } else exec

/-- What a failing part of `ParseResponseHdr` leaves behind. -/
def abandonResponse (exec : Exec HTTPFraming) : Exec HTTPFraming :=
  clearHdrs (appendIfEvent "HTTPFraming::ParseResponseHdr(): " exec)

/-- The empty line of a response; nothing need follow it. -/
def parseEmptyLine : Parse HTTPFraming Unit :=
  Scanner.onStop clearHdrs do
    Scanner.step
    Parse.expect 10 (responseExpected "'\n', got: %s")
    Parse.assign fun http => { http with msgType := .response }
    Scanner.advance

/-- The header of a response. -/
def parseResponseHeader : Parse HTTPFraming Unit := do
  Scanner.skipWhile isspace
  parseStatusLine
  Scanner.onStop abandonResponse parseMsgHdrs
  parseEmptyLine

/-- What `InitFromBuf` and the functions below it are called with, apart from the
window: the bytes behind it, the default port and the allocator. -/
structure ParseEnv where
  stale : Bytes
  defaultPort : UInt16 := urlPortNull
  realloc : Realloc

/-- A return value with `bytes_used` when it is true, and what has been changed. -/
structure ParseResult where
  bytesUsed : Option Nat
  exec : Exec HTTPFraming
  chunked : ChunkBuf
  deriving DecidableEq, Repr

/-- The end of `ParseResponseHdr`: the header has taken `used` bytes, which is also
the length that the chunk decoder is called with. -/
def finishResponse (env : ParseEnv) (used : Nat) (rest : Bytes) (exec : Exec HTTPFraming)
    (chunked : ChunkBuf) : ParseResult :=
  if !exec.obj.isChunked then { bytesUsed := some used, exec, chunked }
  else if rest.isEmpty then { bytesUsed := none, exec := clearHdrs exec, chunked }
  else
    match parseChunkedMsgBody env.realloc (memoryOf (rest ++ env.stale)) used
        { obj := chunked, error := exec.error, overrun := exec.overrun } with
    | (none, decoded) =>
        { bytesUsed := none
          exec := abandonResponse
            { exec with error := decoded.error, overrun := decoded.overrun }
          chunked := decoded.obj }
    | (some (_, left), decoded) =>
        -- `n` may wrap around below zero, and the length used wraps back
        { bytesUsed := some (used + (used - left.length))
          exec := { exec with error := decoded.error, overrun := decoded.overrun }
          chunked := decoded.obj }

/-- `ParseResponseHdr`. -/
def parseResponseHdr (env : ParseEnv) (window : Bytes) (exec : Exec HTTPFraming)
    (chunked : ChunkBuf) : ParseResult :=
  match parseResponseHeader window exec with
  | (none, exec) => { bytesUsed := none, exec, chunked }
  | (some (_, rest), exec) => finishResponse env (window.length - rest.length) rest exec chunked

/-! ## Dispatch -/

/-- The methods in the order in which `InitFromBuf` looks for them. -/
def requestMethods : List HTTPMethod :=
  [.get, .head, .post, .put, .delete]

/-- The start line begins like that of a request. -/
def startsRequest (window : Bytes) : Bool :=
  requestMethods.any fun method => startsWithNoCase method.name window

/-- The start line begins like that of a response. -/
def startsResponse (window : Bytes) : Bool :=
  startsWithNoCase kHTTPSlash window

/-- `ParseRequestHdr` or `ParseResponseHdr`, depending on the first bytes, or an
error when there are enough bytes to tell that it is neither. -/
def parseStartLine (env : ParseEnv) (window : Bytes) (exec : Exec HTTPFraming)
    (chunked : ChunkBuf) : ParseResult :=
  if startsRequest window then
    match parseRequestHdr env.stale env.defaultPort window exec with
    | (none, exec) => { bytesUsed := none, exec, chunked }
    | (some (_, rest), exec) =>
        { bytesUsed := some (window.length - rest.length), exec, chunked }
  else parseResponseHdr env window exec chunked

/-- `InitFromBuf`, for a buffer that is not NULL. -/
def initFromBuf (env : ParseEnv) (buf : Bytes) (exec : Exec HTTPFraming) (chunked : ChunkBuf) :
    ParseResult :=
  let exec := { exec with obj := clear exec.obj }
  let window := buf.dropWhile isspace
  if startsRequest window || startsResponse window then
    let result := parseStartLine env window exec chunked
    if result.exec.error.event then
      { result with
        bytesUsed := none
        exec := { result.exec with
          error := result.exec.error.appendMsg "HTTPFraming::InitFromBuf(): " [] } }
    else
      { result with
        bytesUsed := result.bytesUsed.map fun used => (buf.length - window.length) + used }
  else if (ascii "DELETE").length ≤ window.length then
    { bytesUsed := none
      exec := { exec with
        error := exec.error.init ErrorHandler.EX_SOFTWARE
          "HTTPFraming::InitFromBuf(): unknown status-line: %s" [.ptr window.length] }
      chunked }
  else { bytesUsed := none, exec, chunked }

end HTTPFraming

end IpUtils
