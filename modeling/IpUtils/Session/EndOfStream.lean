import IpUtils.Session.Conn

/-! # The end of the stream

The three routines that read from a connection say in `eof` whether the peer has ended its
stream. What `read(2)` returns for an empty request says nothing about the peer.
-/

namespace IpUtils

open CLib

namespace TCPConn

/-- The loop of `ReadExhaustive`, when `data` has been read and there is room for `left` more
bytes. When the answers have run out it has not returned; and it does not return from an error
of `read(2)`, whose message takes the number of the socket for the address of a string. -/
def readLoop (conn : SSLConn) (error : ErrorHandler) (data : Bytes) (left : Nat) :
    List ReadReply → Option Received
  | [] => none
  | .received bytes :: replies =>
      let more := bytes.take left
      if more.isEmpty then some { data, value := data.length, eof := true, conn, error }
      else readLoop conn error (data ++ more) (left - more.length) replies
  | .failed again _ :: _ =>
      if !conn.blocking && again then
        some { data, value := data.length, eof := false, conn, error }
      else none

/-- `TCPConn::ReadExhaustive`, with what `eof` points to before the call. -/
def readExhaustive (bufLen : Int) (eof : Bool) (replies : List ReadReply) (conn : SSLConn)
    (error : ErrorHandler) : Option Received :=
  if conn.blocking then
    some
      { data := [], value := 0, eof, conn
        error := error.init ErrorHandler.EX_SOFTWARE
          "TCPConn::Read(): routine called on blocking socket." [] }
  else readLoop conn error [] (toSize bufLen) replies

end TCPConn

namespace SSLConn

/-- A call of one of the three routines, with the answers that it gets. -/
inductive ReadCall where
  | read (reply : ReadReply)
  | readExhaustive (eof : Bool) (replies : List ReadReply)
  | sslRead (reply : NetRead)
  deriving DecidableEq, Repr

namespace ReadCall

/-- What the routine returns. -/
def run (bufLen : Int) (conn : SSLConn) (error : ErrorHandler) : ReadCall → Option Received
  | read reply => some (TCPConn.read bufLen reply conn error)
  | readExhaustive eof replies => TCPConn.readExhaustive bufLen eof replies conn error
  | sslRead reply => some (conn.read bufLen reply error)

/-- `read(2)`, asked for some bytes, has returned that there are none any more. -/
def endObserved : Nat → List ReadReply → Bool
  | left, .received bytes :: replies =>
      left != 0 && (bytes.isEmpty || endObserved (left - bytes.length) replies)
  | _, _ => false

/-- The TLS library has said that the peer has closed the stream, or that the stream has ended
without that. -/
def endReported (reply : SSLReply) : Bool :=
  reply.result == 0 &&
    (reply.code == .zeroReturn || reply.code == .syscall && !reply.queued)

/-- The end of the peer's stream is observed during the call. -/
def observesEnd (bufLen : Int) (conn : SSLConn) : ReadCall → Bool
  | read reply => endObserved (toSize bufLen) [reply]
  | readExhaustive _ replies => endObserved (toSize bufLen) replies
  | sslRead reply =>
      if conn.ssl then endReported reply.tls else endObserved (toSize bufLen) [reply.tcp]

/-- The bytes that are delivered fill the buffer, and `read(2)` is asked for none once more and
does not fail. -/
def fillsBuffer : Nat → List ReadReply → Bool
  | left, .received bytes :: replies =>
      left == 0 || !bytes.isEmpty && fillsBuffer (left - bytes.length) replies
  | _, _ => false

/-- The routine takes something else for the end of the stream, or overlooks it. -/
def misjudges (bufLen : Int) (conn : SSLConn) : ReadCall → Bool
  | read _ => false
  | readExhaustive _ replies => fillsBuffer (toSize bufLen) replies
  | sslRead reply => conn.ssl && reply.tls.result == 0 && reply.tls.code == .zeroReturn

end ReadCall

/-! ## TCP -/

variable {bufLen : Int} {conn : SSLConn} {error : ErrorHandler} {received : Received}

theorem toSize_pos (positive : 1 ≤ bufLen) (small : bufLen < 2 ^ 63) : toSize bufLen ≠ 0 := by
  unfold toSize
  omega

theorem take_isEmpty {bytes : Bytes} {left : Nat} (room : left ≠ 0) :
    (bytes.take left).isEmpty = bytes.isEmpty := by
  cases bytes with
  | nil => rw [List.take_nil]
  | cons c bytes =>
      obtain ⟨left, rfl⟩ := Nat.exists_eq_succ_of_ne_zero room
      rfl

/-- A single call of `read(2)`. -/
theorem eof_read (reply : ReadReply) (room : toSize bufLen ≠ 0) :
    (TCPConn.read bufLen reply conn error).eof =
      ReadCall.endObserved (toSize bufLen) [reply] := by
  cases reply with
  | received bytes =>
      have asked : (toSize bufLen != 0) = true := bne_iff_ne.mpr room
      simp only [TCPConn.read, ReadCall.endObserved, take_isEmpty room, asked, Bool.true_and,
        Bool.or_false]
  | failed again reason =>
      unfold TCPConn.read
      dsimp only
      split <;> rfl

/-- The loop sees the end of the stream, or a full buffer, or neither. -/
theorem eof_readLoop {data : Bytes} {left : Nat} {replies : List ReadReply}
    (returned : TCPConn.readLoop conn error data left replies = some received) :
    received.eof =
      (ReadCall.endObserved left replies || ReadCall.fillsBuffer left replies) := by
  induction replies generalizing data left with
  | nil => cases returned
  | cons reply replies ih =>
      cases reply with
      | failed again reason =>
          unfold TCPConn.readLoop at returned
          split at returned
          · cases returned
            rfl
          · cases returned
      | received bytes =>
          unfold TCPConn.readLoop at returned
          dsimp only at returned
          by_cases room : left = 0
          · subst room
            rw [List.take_zero, if_pos List.isEmpty_nil] at returned
            cases returned
            rfl
          · have asked : (left != 0) = true := bne_iff_ne.mpr room
            have full : (left == 0) = false := beq_eq_false_iff_ne.mpr room
            rw [take_isEmpty room] at returned
            simp only [ReadCall.endObserved, ReadCall.fillsBuffer, asked, full, Bool.true_and,
              Bool.false_or]
            cases none_ : bytes.isEmpty with
            | true =>
                rw [none_, if_pos rfl] at returned
                cases returned
                rfl
            | false =>
                rw [none_, if_neg Bool.false_ne_true] at returned
                have more := ih returned
                rw [List.length_take] at more
                rw [Bool.false_or, Bool.not_false, Bool.true_and,
                  show left - bytes.length = left - min left bytes.length by omega]
                exact more

/-- A full buffer and the end of the stream exclude each other. -/
theorem not_endObserved_of_fillsBuffer {left : Nat} {replies : List ReadReply}
    (fills : ReadCall.fillsBuffer left replies = true) :
    ReadCall.endObserved left replies = false := by
  induction replies generalizing left with
  | nil => cases fills
  | cons reply replies ih =>
      cases reply with
      | failed again reason => rfl
      | received bytes =>
          simp only [ReadCall.fillsBuffer, Bool.or_eq_true, beq_iff_eq, Bool.and_eq_true,
            Bool.not_eq_true'] at fills
          rcases fills with full | ⟨some_, more⟩
          · simp [ReadCall.endObserved, full]
          · simp [ReadCall.endObserved, some_, ih more]

/-! ## TLS -/

/-- Without an error the library's answer is overlooked in one case only. -/
theorem eof_settle {reply : SSLReply}
    (calm : (settle readTexts reply conn error).error.event = false) :
    (settle readTexts reply conn error).eof =
      (ReadCall.endReported reply && !(reply.result == 0 && reply.code == .zeroReturn)) := by
  unfold settle at calm ⊢
  by_cases zero : reply.result = 0
  · rw [if_pos zero] at calm ⊢
    unfold settleZero at calm ⊢
    cases code : reply.code <;> simp [ReadCall.endReported, zero, code] at calm ⊢
    · cases queued : reply.queued <;> simp
  · have other : (reply.result == 0) = false := beq_eq_false_iff_ne.mpr zero
    rw [if_neg zero]
    simp only [ReadCall.endReported, other, Bool.false_and]
    split
    · unfold settleNegative
      cases reply.code <;> try rfl
      · dsimp only
        split <;> rfl
      · dsimp only
        split <;> rfl
    · rfl

/-- When a routine returns without an error, `eof` tells whether the end of the peer's stream
has been observed, except where the buffer of `ReadExhaustive` is full and where the peer has
closed a TLS connection cleanly. -/
theorem eof_iff_observesEnd_iff {call : ReadCall} (positive : 1 ≤ bufLen) (small : bufLen < 2 ^ 63)
    (returned : call.run bufLen conn error = some received)
    (calm : received.error.event = false) :
    (received.eof = true ↔ call.observesEnd bufLen conn = true) ↔
      call.misjudges bufLen conn = false := by
  have room := toSize_pos positive small
  cases call with
  | read reply =>
      obtain rfl := Option.some.inj returned
      rw [eof_read reply room]
      exact ⟨fun _ => rfl, fun _ => Iff.rfl⟩
  | readExhaustive eof replies =>
      change TCPConn.readExhaustive bufLen eof replies conn error = some received at returned
      unfold TCPConn.readExhaustive at returned
      split at returned
      · obtain rfl := Option.some.inj returned
        exact absurd calm (by simp [ErrorHandler.event_init])
      · rw [eof_readLoop returned]
        change (_ ↔ ReadCall.endObserved (toSize bufLen) replies = true) ↔
          ReadCall.fillsBuffer (toSize bufLen) replies = false
        cases fills : ReadCall.fillsBuffer (toSize bufLen) replies with
        | true => simp [not_endObserved_of_fillsBuffer fills]
        | false => simp
  | sslRead reply =>
      obtain rfl := Option.some.inj returned
      cases tls : conn.ssl with
      | false =>
          have plain : conn.read bufLen reply error = TCPConn.read bufLen reply.tcp conn error := by
            simp [SSLConn.read, tls]
          rw [plain, eof_read reply.tcp room]
          simp [ReadCall.observesEnd, ReadCall.misjudges, tls]
      | true =>
          have secure : (conn.read bufLen reply error).eof =
              (settle readTexts reply.tls conn error).eof ∧
              (conn.read bufLen reply error).error =
                (settle readTexts reply.tls conn error).error := by
            simp [SSLConn.read, tls]
          rw [secure.2] at calm
          rw [secure.1, eof_settle calm]
          simp only [ReadCall.observesEnd, ReadCall.misjudges, tls, if_true, Bool.true_and]
          cases closed : (reply.tls.result == 0 && reply.tls.code == .zeroReturn) with
          | false => simp
          | true =>
              have reported : ReadCall.endReported reply.tls = true := by
                simp only [Bool.and_eq_true] at closed
                simp [ReadCall.endReported, closed.1, closed.2]
              simp [reported]

/-- What is read from a peer that sends two bytes and ends its stream. -/
def readToEnd : Received :=
  { data := [104, 105], value := 2, eof := true, conn := { blocking := false }, error := {} }

theorem eof_iff_observesEnd_sample :
    readToEnd.eof = true ↔ ReadCall.observesEnd 4 { blocking := false }
      (.readExhaustive false [.received [104, 105], .received []]) = true :=
  (@eof_iff_observesEnd_iff 4 { blocking := false } {} readToEnd
    (.readExhaustive false [.received [104, 105], .received []]) (by decide) (by decide) rfl rfl).mpr
    rfl

/-- Four bytes fill a buffer of four bytes: `eof` is set on a live connection. And a peer that
has closed a TLS connection cleanly is not noticed. -/
theorem eof_misjudged :
    (∃ received, ReadCall.run 4 { blocking := false } {}
        (.readExhaustive false [.received [1, 2, 3, 4], .received [5]]) = some received ∧
      received.error.event = false ∧ received.eof = true ∧
      ReadCall.observesEnd 4 { blocking := false }
        (.readExhaustive false [.received [1, 2, 3, 4], .received [5]]) = false) ∧
    (∃ received, ReadCall.run 4 { fd := 5, ssl := true } {}
        (.sslRead { tls := { result := 0, code := .zeroReturn } }) = some received ∧
      received.error.event = false ∧ received.eof = false ∧
      ReadCall.observesEnd 4 { fd := 5, ssl := true }
        (.sslRead { tls := { result := 0, code := .zeroReturn } }) = true) :=
  ⟨⟨_, rfl, rfl, rfl, rfl⟩, ⟨_, rfl, rfl, rfl, rfl⟩⟩

end SSLConn

end IpUtils
