import IpUtils.URL.Basic

/-! # HTTP headers

The fields of an `HTTPFraming`, its accessors and mutators and its printed forms.
Every print function fills a scratch buffer of `SCRATCH_BUF_SIZE` bytes with
`snprintf` and returns what fits.
-/

namespace IpUtils

open CLib

/-- `SCRATCH_BUF_SIZE`. -/
def scratchBufSize : Nat := 1024 * 4

/-- A parameter of a header field. -/
structure Rfc822Parameter where
  key : Bytes := []
  value : Bytes := []
  deriving DecidableEq, Repr

/-- A header field. -/
structure Rfc822MsgHdr where
  fieldName : Bytes := []
  fieldValue : Bytes := []
  parameters : List Rfc822Parameter := []
  deriving DecidableEq, Repr

/-- What kind of header an `HTTPFraming` holds. -/
inductive HTTPMsgType where
  | notReady
  | request
  | response
  | ready
  deriving DecidableEq, Repr

inductive HTTPMethod where
  | methodNull
  | get
  | head
  | post
  | put
  | delete
  | trace
  | connect
  | options
  deriving DecidableEq, Repr

/-- `method_names`. -/
def HTTPMethod.name : HTTPMethod → Bytes
  | methodNull => ascii "NONE"
  | get => ascii "GET"
  | head => ascii "HEAD"
  | post => ascii "POST"
  | put => ascii "PUT"
  | delete => ascii "DELETE"
  | trace => ascii "TRACE"
  | connect => ascii "CONNECT"
  | options => ascii "OPTIONS"

structure HTTPFraming where
  msgType : HTTPMsgType := .notReady
  major : Int := 1
  minor : Int := 1
  method : HTTPMethod := .methodNull
  statusCode : Int := 0
  uri : URL := {}
  msgHdrs : List Rfc822MsgHdr := []
  deriving DecidableEq, Repr

/-- `status_code_phrase`. -/
def statusCodePhrase (statusCode : Int) : Bytes :=
  match statusCode with
  | 200 => ascii "OK"
  | 201 => ascii "Created"
  | 202 => ascii "Accepted"
  | 203 => ascii "Non-Authoritative Information"
  | 204 => ascii "No Content"
  | 400 => ascii "Bad Request"
  | 401 => ascii "Unauthorized"
  | 402 => ascii "Payment Required"
  | 403 => ascii "Forbidden"
  | 404 => ascii "Method Not Allowed"
  | 500 => ascii "Internal Server Error"
  | 501 => ascii "Not Implemented"
  | 502 => ascii "Bad Gateway"
  | 503 => ascii "Service Unavailable"
  | 504 => ascii "Gateway Time-out"
  | 505 => ascii "HTTP Version not supported"
  | _ => ascii "NULL Status Phrase"

namespace HTTPFraming

def mimeContentLength : Bytes := ascii "Content-Length"

def mimeContentType : Bytes := ascii "Content-Type"

def mimeTransferEncoding : Bytes := ascii "Transfer-Encoding"

def mimeChunked : Bytes := ascii "chunked"

def httpFramingConnection : Bytes := ascii "Connection"

def kValueClose : Bytes := ascii "close"

/-! ## Accessors -/

/-- `msg_hdr`: the first field with a name, whatever its case. -/
def msgHdr? (http : HTTPFraming) (fieldName : Bytes) : Option Rfc822MsgHdr :=
  http.msgHdrs.find? fun msgHdr => equalsNoCase msgHdr.fieldName fieldName

/-- `msg_len`: the `long` that `strtol` reads becomes a `size_t`. -/
def msgLen (http : HTTPFraming) : Nat :=
  match http.msgHdr? mimeContentLength with
  | some msgHdr => toSize (strtol 10 msgHdr.fieldValue)
  | none => 0

/-- `content_type`. -/
def contentType (http : HTTPFraming) : Bytes :=
  match http.msgHdr? mimeContentType with
  | some msgHdr => msgHdr.fieldValue
  | none => ascii "NULL-Content-Type"

/-- `transfer_encoding`. -/
def transferEncoding (http : HTTPFraming) : Bytes :=
  match http.msgHdr? mimeTransferEncoding with
  | some msgHdr => msgHdr.fieldValue
  | none => []

/-- The test for a chunked message body. -/
def isChunked (http : HTTPFraming) : Bool :=
  equalsNoCase mimeChunked http.transferEncoding

/-! ## Mutators -/

def setUri (uri : URL) (http : HTTPFraming) : HTTPFraming :=
  { http with uri }

def setMethod (method : HTTPMethod) (http : HTTPFraming) : HTTPFraming :=
  { http with method }

def setStatusCode (statusCode : Int) (http : HTTPFraming) : HTTPFraming :=
  { http with statusCode }

/-- The value of the `Connection` field. -/
def connectionValue (connection : Int) : Bytes :=
  if connection ≠ 0 then kValueClose else ascii "open"

/-- Change the first field with a name, or tell that there is none. -/
def replaceValue (fieldName value : Bytes) : List Rfc822MsgHdr → Option (List Rfc822MsgHdr)
  | [] => none
  | msgHdr :: rest =>
      if equalsNoCase msgHdr.fieldName fieldName then
        some ({ msgHdr with fieldValue := value } :: rest)
      else (replaceValue fieldName value rest).map (msgHdr :: ·)

/-- `set_connection`. -/
def setConnection (connection : Int) (http : HTTPFraming) : HTTPFraming :=
  match replaceValue httpFramingConnection (connectionValue connection) http.msgHdrs with
  | some msgHdrs => { http with msgHdrs }
  | none =>
      { http with
        msgHdrs := http.msgHdrs ++
          [{ fieldName := httpFramingConnection, fieldValue := connectionValue connection }] }

def clear (_http : HTTPFraming) : HTTPFraming :=
  {}

/-- `InitRequest`. -/
def initRequest (method : HTTPMethod) (uri : URL) (http : HTTPFraming) : HTTPFraming :=
  setUri uri (setMethod method { clear http with msgType := .request })

/-- `InitResponse`. -/
def initResponse (code connection : Int) (http : HTTPFraming) : HTTPFraming :=
  setConnection connection (setStatusCode code { clear http with msgType := .response })

/-- `AppendMsgHdr`: a second field with the same name is an error. -/
def appendMsgHdr (msgHdr : Rfc822MsgHdr) (http : HTTPFraming) (error : ErrorHandler) :
    HTTPFraming × ErrorHandler :=
  if (http.msgHdr? msgHdr.fieldName).isSome then
    (http, error.init ErrorHandler.EX_SOFTWARE
      ("HTTPFraming::AppendMsgHdr(): TODO(aka) " ++
        "Attempting to install %s, but already exists!") [.str (cstr msgHdr.fieldName)])
  else ({ http with msgHdrs := http.msgHdrs ++ [msgHdr] }, error)

/-- `AppendMsgHdr` for a field with at most one parameter. -/
def appendField (fieldName fieldValue key value : Option Bytes) (http : HTTPFraming)
    (error : ErrorHandler) : HTTPFraming × ErrorHandler :=
  match fieldName, fieldValue with
  | none, _ =>
      (http, error.init ErrorHandler.EX_SOFTWARE
        "HTTPFraming::AppendMsgHdr(): field_name is NULL" [])
  | some _, none =>
      (http, error.init ErrorHandler.EX_SOFTWARE
        "HTTPFraming::AppendMsgHdr(): field_value is NULL" [])
  | some fieldName, some fieldValue =>
      let parameters := match key, value with
        | some key, some value => [{ key := cstr key, value := cstr value }]
        | _, _ => []
      appendMsgHdr { fieldName := cstr fieldName, fieldValue := cstr fieldValue, parameters }
        http error

/-! ## Printing -/

/-- `snprintf` to the end of a scratch buffer. -/
def append (buf text : Bytes) : Bytes :=
  snprintfAppend scratchBufSize buf text

def crlf : Bytes := [13, 10]

/-- `print_start_line`, up to its NUL. -/
def printStartLine (absPath : Bool) (http : HTTPFraming) : Bytes :=
  if http.method ≠ .methodNull then
    let uri := if absPath then http.uri.printAbsPath else http.uri.printAbsoluteURI
    append [] (http.method.name ++ 32 :: uri ++ ascii " HTTP/" ++ printInt http.major ++
      46 :: printInt http.minor)
  else
    append [] (ascii "HTTP/" ++ printInt http.major ++ 46 :: printInt http.minor ++
      32 :: printInt http.statusCode ++ 32 :: statusCodePhrase http.statusCode)

/-- The parameters of a field, as the loop of `print_msg_hdrs` appends them. -/
def appendParameters (buf : Bytes) (parameters : List Rfc822Parameter) : Bytes :=
  match parameters with
  | [] => buf
  | param :: rest =>
      let buf := append buf (cstr param.key ++ 61 :: cstr param.value)
      appendParameters (append buf (if rest.isEmpty then crlf else ascii "; ")) rest

/-- One round of the loop of `print_msg_hdrs`. -/
def appendHdr (buf : Bytes) (msgHdr : Rfc822MsgHdr) : Bytes :=
  let start := cstr msgHdr.fieldName ++ ascii ": " ++ cstr msgHdr.fieldValue
  if msgHdr.parameters.isEmpty then append buf (start ++ crlf)
  else appendParameters (append buf (start ++ ascii "; ")) msgHdr.parameters

/-- `print_msg_hdrs`, up to its NUL. -/
def printMsgHdrs (http : HTTPFraming) : Bytes :=
  http.msgHdrs.foldl appendHdr []

/-- What the `snprintf` of `print_hdr` prints when there is room for all of it. -/
def printHdrText (absPath : Bool) (http : HTTPFraming) : Bytes :=
  printStartLine absPath http ++ crlf ++ printMsgHdrs http ++ crlf

/-- `print_hdr`, up to its NUL. -/
def printHdr (offset : Nat) (absPath : Bool) (http : HTTPFraming) : Bytes :=
  if offset ≤ scratchBufSize then (append [] (printHdrText absPath http)).drop offset
  else append [] (printHdrText absPath http)

/-- `hdr_len`. -/
def hdrLen (absPath : Bool) (http : HTTPFraming) : Nat :=
  (printHdr 0 absPath http).length

end HTTPFraming

end IpUtils
