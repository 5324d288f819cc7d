import IpUtils.Process

/-! # The connection under a session

Reading from and writing to a socket, over plain TCP and over TLS. The answers of the
kernel and of the TLS library are arguments. A call whose answers have run out has not
returned.
-/

namespace IpUtils

open CLib

/-- `SSLConn` with the classes it is derived from: `ssl` tells that `ssl_` is not NULL. -/
structure SSLConn where
  fd : Int := descriptorNull
  hostname : Bytes := []
  blocking : Bool := true
  connected : Bool := false
  ssl : Bool := false
  deriving DecidableEq, Repr

/-- What `read(2)` does: it delivers bytes, or fails with an `errno` that is or is not
`EAGAIN` and that `strerror` gives a text for. -/
inductive ReadReply where
  | received (bytes : Bytes)
  | failed (again : Bool) (reason : Bytes)
  deriving DecidableEq, Repr

/-- What `write(2)` does: it takes a number of bytes, at most those offered, or fails. -/
inductive WriteReply where
  | accepted (count : Nat)
  | failed (again : Bool) (reason : Bytes)
  deriving DecidableEq, Repr

/-- `SSL_get_error`. -/
inductive SSLError where
  | zeroReturn
  | wantRead
  | wantWrite
  | syscall
  | ssl
  | other
  deriving DecidableEq, Repr

/-- The two results of `SSL_shutdown` and what the library says about a negative one. -/
structure ShutdownReply where
  first : Int := 1
  second : Int := 1
  code : SSLError := .other
  text : Bytes := []
  deriving DecidableEq, Repr

/-- What `SSL_read` or `SSL_write` does: its result, the bytes that a read delivers and
what the library says about a result that is not positive. -/
structure SSLReply where
  result : Int
  bytes : Bytes := []
  code : SSLError := .other
  /-- `ERR_peek_error()`. -/
  queued : Bool := false
  /-- `ssl_err_str()`. -/
  text : Bytes := []
  /-- `strerror(errno)`. -/
  reason : Bytes := []
  shutdown : ShutdownReply := {}
  deriving DecidableEq, Repr

/-- The bytes that have been transferred. -/
def SSLReply.transferred (reply : SSLReply) : Nat :=
  reply.result.toNat

/-- What has been read, with the return value and `eof`. -/
structure Received where
  data : Bytes
  value : Int
  eof : Bool
  conn : SSLConn
  error : ErrorHandler
  deriving DecidableEq, Repr

/-- What the peer has been sent, with the return value if there is one yet. -/
structure Sent where
  data : Bytes
  value : Option Int
  conn : SSLConn
  error : ErrorHandler
  deriving DecidableEq, Repr

namespace TCPConn

/-- `TCPConn::Read`. -/
def read (bufLen : Int) (reply : ReadReply) (conn : SSLConn) (error : ErrorHandler) : Received :=
  match reply with
  | .received bytes =>
      let data := bytes.take (toSize bufLen)
      { data, value := data.length, eof := data.isEmpty, conn, error }
  | .failed again reason =>
      if !conn.blocking && again then { data := [], value := 0, eof := false, conn, error }
      else
        { data := [], value := -1, eof := false, conn
          error := error.init ErrorHandler.EX_IOERR "TCPConn::Read(%d): failed: %s"
            [.num conn.fd, .str reason] }

/-- The loop of `TCPConn::Write`, when `sent` has been taken and `left` has not. -/
def writeLoop (conn : SSLConn) (error : ErrorHandler) (sent left : Bytes) :
    List WriteReply → Sent
  | [] => { data := sent, value := none, conn, error }
  | .failed again reason :: _ =>
      if !conn.blocking && again then { data := sent, value := some sent.length, conn, error }
      else
        { data := sent, value := some 0, conn
          error := error.init ErrorHandler.EX_IOERR "TCPConn::Write(): write(fd: %d) failed: %s"
            [.num conn.fd, .str reason] }
  | .accepted count :: replies =>
      if left.length ≤ count then
        { data := sent ++ left, value := some (sent ++ left).length, conn, error }
      else writeLoop conn error (sent ++ left.take count) (left.drop count) replies

/-- `TCPConn::Write`. -/
def write (buf : Bytes) (replies : List WriteReply) (conn : SSLConn) (error : ErrorHandler) : Sent :=
  writeLoop conn error [] buf replies

/-- `TCPConn::Close`. -/
def close (conn : SSLConn) : SSLConn :=
  { conn with fd := if descriptorNull < conn.fd then descriptorNull else conn.fd, connected := false }

end TCPConn

namespace SSLConn

/-- `Shutdown(0)`, for an `ssl_` that is not NULL. -/
def shutdown (reply : ShutdownReply) (conn : SSLConn) (error : ErrorHandler) :
    SSLConn × ErrorHandler :=
  if conn.fd = descriptorNull then
    (conn, error.init ErrorHandler.EX_SOFTWARE
      "SSLConn::Shutdown(): %s\'s socket is not open (i.e., fd is %d)"
      [.str conn.hostname, .num descriptorNull])
  else
    let ret := if reply.first = 0 then reply.second else reply.first
    if 0 ≤ ret then (TCPConn.close conn, error)
    else if reply.code = .wantRead ∨ reply.code = .wantWrite then
      if conn.blocking then
        (TCPConn.close conn, error.init ErrorHandler.EX_SOFTWARE
          ("SSLConn::Shutdown(): Recevived SSL_ERROR_WANT_READ|WRITE " ++
            "on blocking connection with %s") [.str conn.hostname])
      else (conn, error)
    else
      (TCPConn.close conn, error.init ErrorHandler.EX_SOFTWARE
        "SSLConn::Shutdown(): Unknown ERROR with %s: %s" [.str conn.hostname, .str reply.text])

/-- The texts in which `SSLConn::Read` and `SSLConn::Write` differ. -/
structure Texts where
  caller : String
  cause : String
  unknown : Bool → String

def readTexts : Texts where
  caller := "SSLConn::Read(): "
  cause := "SSLConn::Read(): "
  unknown blocking :=
    if blocking then "SSLConn::Read(): unknown blocking ERROR: %s"
    else "SSLConn::Read(): unknown non-blocking ERROR: %s"

def writeTexts : Texts where
  caller := "SSLConn::Write(): "
  cause := "SSLConn::Write() "
  unknown _ := "SSLConn::Write() unknown ERROR: %s"

/-- What becomes of a result of `SSL_read` or `SSL_write`: whether the stream has ended,
the connection and the error. -/
structure Settled where
  eof : Bool := false
  conn : SSLConn
  error : ErrorHandler
  deriving DecidableEq, Repr

/-- The branches for the result 0. -/
def settleZero (texts : Texts) (reply : SSLReply) (conn : SSLConn) (error : ErrorHandler) :
    Settled :=
  match reply.code with
  | .zeroReturn =>
      let (conn, error) := conn.shutdown reply.shutdown error
      { conn, error }
  | .syscall =>
      if reply.queued then
        { conn, error := error.init ErrorHandler.EX_SOFTWARE
            (texts.caller ++ "Received SSL_ERROR_SYSCALL: %s terminated connection: %s")
            [.str conn.hostname, .str reply.text] }
      else { eof := true, conn, error }
  | .ssl => { conn, error }
  | _ =>
      { conn, error := error.init ErrorHandler.EX_SOFTWARE
          (texts.caller ++ "returned 0, unknown ERROR: %s") [.str reply.text] }

/-- The branches for a negative result. -/
def settleNegative (texts : Texts) (reply : SSLReply) (conn : SSLConn) (error : ErrorHandler) :
    Settled :=
  match reply.code with
  | .zeroReturn =>
      { conn, error := error.init ErrorHandler.EX_SOFTWARE
          (texts.caller ++ "SSL_ERROR_ZERO_RETURN: %s terminated connection")
          [.str conn.hostname] }
  | .wantRead => { conn, error }
  | .wantWrite =>
      if conn.blocking then
        { conn, error := error.init ErrorHandler.EX_SOFTWARE
            (texts.cause ++ "SSL_ERROR_WANT_WRITE: on blocking connection to %s on fd %d")
            [.str conn.hostname, .num conn.fd] }
      else { conn, error }
  | .syscall =>
      if reply.queued then
        { conn, error := error.init ErrorHandler.EX_SOFTWARE
            (texts.cause ++ "SSL_ERROR_SYSCALL: %s: %s") [.str conn.hostname, .str reply.text] }
      else
        { conn, error := error.init ErrorHandler.EX_SOFTWARE
            (texts.cause ++ "SSL_ERROR_SYSCALL: I/O error with %s on fd %d: %s")
            [.str conn.hostname, .num conn.fd, .str reply.reason] }
  | .ssl =>
      { conn, error := error.init ErrorHandler.EX_SOFTWARE
          (texts.cause ++ "SSL_ERROR_SSL: %s: %s") [.str conn.hostname, .str reply.text] }
  | .other =>
      { conn, error := error.init ErrorHandler.EX_SOFTWARE (texts.unknown conn.blocking)
          [.str reply.text] }

/-- What becomes of a result. -/
def settle (texts : Texts) (reply : SSLReply) (conn : SSLConn) (error : ErrorHandler) : Settled :=
  if reply.result = 0 then settleZero texts reply conn error
  else if reply.result < 0 then settleNegative texts reply conn error
  else { conn, error }

/-- What `SSLConn::Read` gets for an answer, from the kernel or from the TLS library. -/
structure NetRead where
  tcp : ReadReply := .failed true []
  tls : SSLReply := { result := 0 }
  deriving DecidableEq, Repr

/-- What `SSLConn::Write` gets for an answer. -/
structure NetWrite where
  tcp : List WriteReply := []
  tls : SSLReply := { result := 0 }
  deriving DecidableEq, Repr

/-- `SSLConn::Read`. -/
def read (bufLen : Int) (reply : NetRead) (conn : SSLConn) (error : ErrorHandler) : Received :=
  if conn.ssl then
    let settled := settle readTexts reply.tls conn error
    { data := readMemory reply.tls.bytes reply.tls.transferred
      value := reply.tls.result
      eof := settled.eof
      conn := settled.conn
      error := settled.error }
  else TCPConn.read bufLen reply.tcp conn error

/-- `SSLConn::Write`: the length may not be that of the bytes when it is negative. -/
def write (buf : Bytes) (bufLen : Int) (reply : NetWrite) (conn : SSLConn)
    (error : ErrorHandler) : Sent :=
  if conn.ssl then
    if bufLen = 0 then { data := [], value := some 0, conn, error }
    else
      let settled := settle writeTexts reply.tls conn error
      { data := buf.take reply.tls.transferred
        value := some reply.tls.result
        conn := settled.conn
        error := settled.error }
  else TCPConn.write buf reply.tcp conn error

end SSLConn

/-! ## Lemmas -/

namespace TCPConn

/-- No answer is an error: `EAGAIN` is not one on a socket that does not block. -/
def Soft (conn : SSLConn) (replies : List WriteReply) : Prop :=
  ∀ again reason, WriteReply.failed again reason ∈ replies → again = true ∧ conn.blocking = false

/-- Every answer takes bytes. -/
def Accepting (replies : List WriteReply) : Prop :=
  ∀ again reason, WriteReply.failed again reason ∉ replies

/-- What a write of `left` has come to, when `more` has been taken: it has not returned,
it has returned how much has been taken, or it has failed. -/
def WriteOutcome (conn : SSLConn) (error : ErrorHandler) (replies : List WriteReply)
    (left more : Bytes) (count : Nat) (sent : Sent) : Prop :=
  sent.error = error ∧
      (sent.value = none ∨
        sent.value = some (count : Int) ∧ (more = left ∨ ¬ Accepting replies)) ∨
    sent.error.event = true ∧ sent.value = some 0 ∧ ¬ Soft conn replies

theorem not_accepting_cons {reply : WriteReply} {replies : List WriteReply}
    (not : ¬ Accepting replies) : ¬ Accepting (reply :: replies) :=
  fun accepting => not fun again reason member =>
    accepting again reason (List.mem_cons_of_mem _ member)

theorem not_soft_cons {conn : SSLConn} {reply : WriteReply} {replies : List WriteReply}
    (not : ¬ Soft conn replies) : ¬ Soft conn (reply :: replies) :=
  fun soft => not fun again reason member => soft again reason (List.mem_cons_of_mem _ member)

/-- The peer gets a prefix of what is offered. -/
theorem writeLoop_spec (conn : SSLConn) (error : ErrorHandler) (replies : List WriteReply)
    (sent left : Bytes) :
    ∃ more, (writeLoop conn error sent left replies).data = sent ++ more ∧ more <+: left ∧
      (writeLoop conn error sent left replies).conn = conn ∧
      WriteOutcome conn error replies left more (sent ++ more).length
        (writeLoop conn error sent left replies) := by
  induction replies generalizing sent left with
  | nil => exact ⟨[], by simp [writeLoop, WriteOutcome]⟩
  | cons reply replies ih =>
      cases reply with
      | failed again reason =>
          have member : WriteReply.failed again reason ∈ WriteReply.failed again reason :: replies :=
            List.mem_cons_self
          refine ⟨[], ?_⟩
          unfold writeLoop
          split
          · exact ⟨by simp, List.nil_prefix, rfl, Or.inl ⟨rfl, Or.inr ⟨by simp, Or.inr fun accepting =>
              accepting again reason member⟩⟩⟩
          · rename_i hard
            refine ⟨by simp, List.nil_prefix, rfl, Or.inr ⟨ErrorHandler.event_init .., rfl, ?_⟩⟩
            intro soft
            obtain ⟨isAgain, nonblocking⟩ := soft again reason member
            simp [isAgain, nonblocking] at hard
      | accepted count =>
          unfold writeLoop
          split
          · exact ⟨left, rfl, List.prefix_refl _, rfl, Or.inl ⟨rfl, Or.inr ⟨rfl, Or.inl rfl⟩⟩⟩
          · obtain ⟨more, data, within, same, outcome⟩ := ih (sent ++ left.take count) (left.drop count)
            refine ⟨left.take count ++ more, ?_, ?_, same, ?_⟩
            · rw [data, List.append_assoc]
            · conv_rhs => rw [← List.take_append_drop count left]
              exact (List.prefix_append_right_inj _).mpr within
            · rw [List.append_assoc] at outcome
              rcases outcome with ⟨error, none_ | ⟨value, whole | not⟩⟩ | ⟨event, value, not⟩
              · exact Or.inl ⟨error, Or.inl none_⟩
              · exact Or.inl ⟨error, Or.inr ⟨value, Or.inl (by rw [whole, List.take_append_drop])⟩⟩
              · exact Or.inl ⟨error, Or.inr ⟨value, Or.inr (not_accepting_cons not)⟩⟩
              · exact Or.inr ⟨event, value, not_soft_cons not⟩

/-- The spec of `TCPConn::Write`. -/
theorem write_spec (buf : Bytes) (replies : List WriteReply) (conn : SSLConn)
    (error : ErrorHandler) :
    (write buf replies conn error).data <+: buf ∧
      (write buf replies conn error).conn = conn ∧
      WriteOutcome conn error replies buf (write buf replies conn error).data
        (write buf replies conn error).data.length (write buf replies conn error) := by
  obtain ⟨more, data, within, same, outcome⟩ := writeLoop_spec conn error replies [] buf
  unfold write
  rw [data]
  exact ⟨by simpa using within, same, outcome⟩

end TCPConn

end IpUtils
