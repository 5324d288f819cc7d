import IpUtils.CLib.Numerals
import IpUtils.Parse

/-! # URLs

The fields of a `URL`, its mutators and its two printed forms. The mutators take
C strings, so a field never holds a NUL; a string with a back-quote, a bar or a
backslash is replaced by `STR_TAINTED`. Only `set_query` can raise an error.
-/

namespace IpUtils

open CLib

/-- A key of a query and its value. -/
structure UrlQueryInfo where
  key : Bytes := []
  value : Bytes := []
  deriving DecidableEq, Repr

/-- `URL_PORT_NULL`. -/
def urlPortNull : UInt16 := 0

structure URL where
  scheme : Bytes := []
  host : Bytes := []
  port : UInt16 := urlPortNull
  path : Bytes := []
  query : List UrlQueryInfo := []
  fragment : Bytes := []
  deriving DecidableEq, Repr

namespace URL

def kURLMaxSize : Nat := 1024 * 4

def PATH_MAX : Nat := 4096

def kQueryStart : UInt8 := 63

def kKeyValueDelimiter : UInt8 := 61

def kQueryDelimiter : UInt8 := 38

def kFragmentStart : UInt8 := 35

def kStringTainted : Bytes := ascii "STR_TAINTED"

/-- A back-quote, a bar or a backslash. -/
def isTainted (c : UInt8) : Bool :=
  c == 96 || c == 124 || c == 92

/-- `is_str_tainted`. -/
def isStrTainted (str : Option Bytes) : Bool :=
  match str with
  | none => false
  | some str => (cstr str).any isTainted

/-- What a mutator stores for a C string. -/
def untaint (str : Bytes) : Bytes :=
  if isStrTainted (some str) then kStringTainted else cstr str

/-! ## Mutators -/

def setScheme (scheme : Option Bytes) (url : URL) : URL :=
  match scheme with
  | none => url
  | some scheme => { url with scheme := untaint scheme }

def setHost (host : Option Bytes) (url : URL) : URL :=
  match host with
  | none => url
  | some host => { url with host := untaint host }

def setPort (port : UInt16) (url : URL) : URL :=
  { url with port }

def setFragment (fragment : Option Bytes) (url : URL) : URL :=
  match fragment with
  | none => url
  | some fragment => { url with fragment := untaint fragment }

/-- The bytes of a key: everything up to the delimiter or white space. -/
def isKeyByte (c : UInt8) : Bool :=
  c != kKeyValueDelimiter && !isspace c

/-- The bytes of a value: everything up to the next pair or white space. -/
def isValueByte (c : UInt8) : Bool :=
  c != kQueryDelimiter && !isspace c

/-- One round of the loop of `set_query`: a key, its delimiter, a value and the
delimiter of the next pair. -/
def queryPair (queryBuf : Bytes) : Parse URL Unit := do
  let key ← Parse.copyWhile kURLMaxSize isKeyByte
  Parse.require kKeyValueDelimiter "URL::set_query(): buf (%s) does not have a '%c'"
    fun _ => [.str (cstr queryBuf), .num kKeyValueDelimiter.toNat]
  let key ← Parse.terminate kURLMaxSize key
  Scanner.advance
  let value ← Parse.word kURLMaxSize isValueByte
  Parse.assign fun url => { url with query := url.query ++ [{ key, value }] }
  let here ← Scanner.current 0
  if here = kQueryDelimiter then
    Scanner.advance

/-- The loop of `set_query`. -/
def queryPairs (queryBuf : Bytes) : Parse URL Unit :=
  Scanner.loop List.isEmpty (fun _ => queryPair queryBuf) ()

def setQuery (queryBuf : Option Bytes) (len : Nat) (exec : Exec URL) : Exec URL :=
  match queryBuf with
  | none => exec
  | some queryBuf =>
      if queryBuf.getD len 0 ≠ 0 ∨ kURLMaxSize < len then
        { exec with
          error := exec.error.init ErrorHandler.EX_SOFTWARE
            "URL::set_query(): buf is not null terminated or too large" [] }
      else (queryPairs queryBuf (readMemory queryBuf len) exec).2

/-- The bytes of a path: everything up to a query or a fragment. -/
def isPathByte (c : UInt8) : Bool :=
  c != 0 && c != kQueryStart && c != kFragmentStart

def setPath (pathBuf : Option Bytes) (len : Nat) (exec : Exec URL) : Exec URL :=
  match pathBuf with
  | none => exec
  | some pathBuf =>
      if len = 0 then exec
      else if isStrTainted (some pathBuf) then
        { exec with obj := { exec.obj with path := kStringTainted } }
      else
        let path := (pathBuf.take len).takeWhile isPathByte
        let rest := pathBuf.drop path.length
        -- the test of the loop has counted once more than its body has run
        let i := path.length + 1
        let exec := { exec with
          obj := { exec.obj with path }
          overrun := exec.overrun || PATH_MAX + 1 ≤ path.length }
        if rest.headD 0 = kQueryStart then setQuery (some rest) (toSize (len - i)) exec
        else if rest.headD 0 = kFragmentStart then
          { exec with obj := setFragment (some rest) exec.obj }
        else exec

def clear (_url : URL) : URL :=
  {}

/-- `Init`. -/
def init (scheme host : Option Bytes) (port : UInt16) (pathBuf : Option Bytes) (pathLen : Nat)
    (queryBuf : Option Bytes) (queryLen : Nat) (fragment : Option Bytes) (exec : Exec URL) :
    Exec URL :=
  let exec := { exec with obj := setPort port (setHost host (setScheme scheme exec.obj)) }
  let exec := if pathLen ≠ 0 then setPath pathBuf pathLen exec else exec
  let exec := if queryLen ≠ 0 then setQuery queryBuf queryLen exec else exec
  let exec := { exec with obj := setFragment fragment exec.obj }
  if exec.error.event then
    { exec with error := exec.error.appendMsg "URL::Init(): " [] }
  else exec

/-! ## Printing -/

/-- `snprintf` to the end of the buffer that a print function fills. -/
def append (buf text : Bytes) : Bytes :=
  snprintfAppend kURLMaxSize buf text

/-- The pairs of a query, as the loop of `print_abs_path` appends them. -/
def appendPairs (buf : Bytes) (query : List UrlQueryInfo) : Bytes :=
  match query with
  | [] => buf
  | info :: rest =>
      let buf := append buf (cstr info.key)
      let buf := append buf (kKeyValueDelimiter :: cstr info.value)
      appendPairs (if rest.isEmpty then buf else append buf [kQueryDelimiter]) rest

/-- `print_abs_path`, up to its NUL. -/
def printAbsPath (url : URL) : Bytes :=
  let buf := if 0 < url.path.length then append [] (47 :: cstr url.path) else []
  let buf := if url.query.isEmpty then buf else appendPairs (append buf [kQueryStart]) url.query
  if 0 < url.fragment.length then append buf (kFragmentStart :: cstr url.fragment) else buf

/-- `print_absoluteURI`, up to its NUL. -/
def printAbsoluteURI (url : URL) : Bytes :=
  let buf := if 0 < url.scheme.length then append [] (cstr url.scheme ++ ascii "://") else []
  let buf := if 0 < url.host.length then append buf (cstr url.host) else buf
  let buf := if url.port ≠ urlPortNull then append buf (58 :: decimal url.port.toNat) else buf
  append buf (printAbsPath url)

end URL

end IpUtils
