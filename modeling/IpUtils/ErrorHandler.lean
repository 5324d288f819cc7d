import IpUtils.CLib.Strings

/-! # The global error event

`ErrorHandler` records one error event: its realm and the messages that the functions on
the way out have added. The system errno, which nothing sets, is left out. Messages are kept as
the format and the arguments handed to `vsnprintf`; an argument that points into
a parse buffer, or counts its bytes, is recorded by its place there.
-/

namespace IpUtils

/-- An argument of an error message. -/
inductive FmtArg where
  /-- A `std::string` or a literal. -/
  | str (text : Bytes)
  /-- An integer. -/
  | num (value : Int)
  /-- The C string at the place in the parse buffer with `left` bytes left. -/
  | ptr (left : Nat)
  /-- The bytes the parser has read when `left` bytes are left. -/
  | cnt (left : Nat)
  /-- The address of the buffer with a name. -/
  | addr (name : String)
  deriving DecidableEq, Repr

/-- A message: its format and its arguments. -/
structure Msg where
  format : String
  args : List FmtArg := []
  deriving DecidableEq, Repr

namespace ErrorHandler

def EX_OK : Int := 0

def EX_DATAERR : Int := 65

def EX_SOFTWARE : Int := 70

def EX_OSERR : Int := 71

def EX_IOERR : Int := 74

def null_msg : String := "Internal error: msg_ is NULL"

end ErrorHandler

open ErrorHandler in
/-- The state of the global `error`. -/
structure ErrorHandler where
  eventFlag : Bool := false
  realm : Int := EX_OK
  msgs : List Msg := []
  deriving DecidableEq, Repr

namespace ErrorHandler

/-- `Event()`. -/
def event (error : ErrorHandler) : Bool :=
  error.eventFlag

/-- The message that is pushed for a format and its arguments. -/
def message (format : String) (args : List FmtArg) : Msg :=
  if format.isEmpty then { format := null_msg } else { format, args }

/-- `Init`: a second call keeps the realm and leaves a warning. -/
def init (error : ErrorHandler) (realm : Int) (format : String) (args : List FmtArg) :
    ErrorHandler :=
  if error.eventFlag then
    { error with
      msgs := error.msgs ++
        [{ format := "WARN: ErrorHandler::Init() event_flag alrady set: " }, message format args] }
  else
    { error with eventFlag := true, realm, msgs := error.msgs ++ [message format args] }

/-- `AppendMsg`: without an event it makes one. -/
def appendMsg (error : ErrorHandler) (format : String) (args : List FmtArg) : ErrorHandler :=
  if error.eventFlag then
    { error with msgs := error.msgs ++ [message format args] }
  else
    { error with
      eventFlag := true
      realm := EX_SOFTWARE
      msgs := error.msgs ++
        [{ format := "WARN: ErrorHandler::append_msg(): event_flag not set: " },
          message format args] }

/-- `clear`. -/
def clear (_error : ErrorHandler) : ErrorHandler :=
  {}

@[simp] theorem event_init (error : ErrorHandler) (realm : Int) (format : String)
    (args : List FmtArg) : (error.init realm format args).event = true := by
  unfold init event
  split
  · assumption
  · rfl

@[simp] theorem event_appendMsg (error : ErrorHandler) (format : String) (args : List FmtArg) :
    (error.appendMsg format args).event = true := by
  unfold appendMsg event
  split
  · assumption
  · rfl

theorem length_msgs_appendMsg {error : ErrorHandler} (raised : error.event = true)
    (format : String) (args : List FmtArg) :
    (error.appendMsg format args).msgs.length = error.msgs.length + 1 := by
  have flag : error.eventFlag = true := raised
  simp only [appendMsg, flag, ↓reduceIte, List.length_append, List.length_singleton]

end ErrorHandler

end IpUtils
