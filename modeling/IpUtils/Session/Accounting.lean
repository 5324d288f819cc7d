import IpUtils.Session.ForeignErrors

/-! # Counting bytes over TLS

A negative result of `SSL_read` or `SSL_write` that asks the caller to try again is handed
on by `SSLConn` without an error, and the counters of the session take it for a number of
bytes.
-/

namespace IpUtils

open CLib

/-- A result that only asks the caller to try again. -/
def SSLReply.Waits (reply : SSLReply) : Prop :=
  reply.result < 0 ∧ (reply.code = .wantRead ∨ reply.code = .wantWrite)

namespace SSLConn

variable {conn : SSLConn}

/-- On a connection that does not block, a negative result raises an error unless it asks to
try again. -/
theorem settle_waits (nonblocking : conn.blocking = false) (texts : Texts) {reply : SSLReply}
    (negative : reply.result < 0) :
    (settle texts reply conn {}).error.event = false ↔ reply.Waits := by
  have calm : ({} : ErrorHandler).event = false := rfl
  have nonzero : reply.result ≠ 0 := by omega
  unfold settle settleNegative SSLReply.Waits
  rw [if_neg nonzero, if_pos negative]
  cases reply.code <;> dsimp only <;> (simp [negative, nonblocking, calm]; try split_ifs <;> simp)

theorem shutdown_conn (reply : ShutdownReply) (conn : SSLConn) (error : ErrorHandler) :
    (conn.shutdown reply error).1.ssl = conn.ssl ∧
      (conn.shutdown reply error).1.blocking = conn.blocking := by
  unfold shutdown TCPConn.close
  dsimp only
  split_ifs <;> exact ⟨rfl, rfl⟩

theorem settle_conn (texts : Texts) (reply : SSLReply) (conn : SSLConn) (error : ErrorHandler) :
    (settle texts reply conn error).conn.ssl = conn.ssl ∧
      (settle texts reply conn error).conn.blocking = conn.blocking := by
  obtain ⟨ssl, blocking⟩ := shutdown_conn reply.shutdown conn error
  unfold settle settleZero settleNegative
  cases reply.code <;> dsimp only <;> split_ifs <;> simp [ssl, blocking]

/-- A call of `SSL_write`. -/
theorem write_tls (tls : conn.ssl = true) (nonblocking : conn.blocking = false) (buf : Bytes)
    {bufLen : Int} (some_ : bufLen ≠ 0) (reply : NetWrite) :
    (conn.write buf bufLen reply {}).value = some reply.tls.result ∧
      (conn.write buf bufLen reply {}).data = buf.take reply.tls.transferred ∧
      (conn.write buf bufLen reply {}).conn.ssl = true ∧
      (conn.write buf bufLen reply {}).conn.blocking = false ∧
      (reply.tls.Waits → (conn.write buf bufLen reply {}).error.event = false) ∧
      ((conn.write buf bufLen reply {}).error.event = false → reply.tls.result < 0 →
        reply.tls.Waits) := by
  obtain ⟨ssl, blocking⟩ := settle_conn writeTexts reply.tls conn {}
  unfold write
  rw [if_pos tls, if_neg some_]
  exact ⟨rfl, rfl, ssl.trans tls, blocking.trans nonblocking,
    fun waits => (settle_waits nonblocking writeTexts waits.1).mpr waits,
    fun quiet negative => (settle_waits nonblocking writeTexts negative).mp quiet⟩

end SSLConn

namespace World

variable {w : World}

/-! ## Read -/

/-- A call of `Read` that returns without an event has added the bytes that `SSL_read` has
delivered. -/
def ReadCounts (reply : SSLConn.NetRead) (fresh : Option Bytes) (w : World) : Prop :=
  ∀ result, (w.read reply fresh).2 = some result → (w.read reply fresh).1.event = false →
    (w.read reply fresh).1.session.rbufLen = w.session.rbufLen + reply.tls.transferred

/-- The calls of `Read` that count: there is an event, the call is refused or never gets the
mutex, `SSL_read` does not ask to try again, or there is no memory for a larger buffer. -/
def ReadCountable (reply : SSLConn.NetRead) (fresh : Option Bytes) (w : World) : Prop :=
  w.event = true ∨ w.session.rbuf = none ∨ w.session.mutexes.incoming = true ∨
    ¬ reply.tls.Waits ∨
    (w.session.rbufLen + reply.tls.result = w.session.rbufSize ∧ fresh = none)

theorem read_counts_iff (tls : w.session.conn.ssl = true)
    (nonblocking : w.session.conn.blocking = false) (reply : SSLConn.NetRead)
    (fresh : Option Bytes) : ReadCounts reply fresh w ↔ ReadCountable reply fresh w := by
  unfold ReadCounts ReadCountable
  cases has : w.session.rbuf with
  | none =>
      refine iff_of_true (fun result _ quiet => ?_) (Or.inr (Or.inl rfl))
      have refused : (w.read reply fresh).1.event = true := by
        unfold read
        rw [has]
        exact event_refuse ..
      rw [refused] at quiet
      cases quiet
  | some rbuf =>
  cases free : w.session.mutexes.incoming with
  | true =>
      refine iff_of_true (fun result returned _ => ?_) (Or.inr (Or.inr (Or.inl rfl)))
      unfold read at returned
      rw [has] at returned
      dsimp only at returned
      rw [lockIncoming_of_held free] at returned
      cases returned
  | false =>
  have answer : w.received reply =
      { data := readMemory reply.tls.bytes reply.tls.transferred, value := reply.tls.result
        eof := (SSLConn.settle SSLConn.readTexts reply.tls w.session.conn {}).eof
        conn := (SSLConn.settle SSLConn.readTexts reply.tls w.session.conn {}).conn
        error := (SSLConn.settle SSLConn.readTexts reply.tls w.session.conn {}).error } := by
    unfold received SSLConn.read
    rw [if_pos tls]
  obtain ⟨w₁, alike, tests, fails, keeps⟩ := @read_tests w rbuf reply has free fresh
  have rbufLen : w₁.session.rbufLen = w.session.rbufLen := by
    rw [alike.session]
    rfl
  have rbufSize : w₁.session.rbufSize = w.session.rbufSize := by
    rw [alike.session]
    rfl
  rw [answer] at tests keeps
  cases event : w₁.event with
  | true =>
      refine iff_of_true (fun result _ quiet => ?_) ?_
      · obtain ⟨args, failed⟩ := fails event
        rw [failed] at quiet
        exact absurd (event_resetRbuf (event_onProcess_appendMsg ..))
          (Bool.eq_false_iff.mp (by exact quiet))
      · rw [event] at tests
        rcases Bool.or_eq_true_iff.mp tests.symm with pending | raised
        · exact Or.inl pending
        · refine Or.inr (Or.inr (Or.inr (Or.inl fun waits => ?_)))
          rw [(SSLConn.settle_waits nonblocking _ waits.1).mpr waits] at raised
          cases raised
  | false =>
  rw [event] at tests
  obtain ⟨calm, quiet⟩ := Bool.or_eq_false_iff.mp tests.symm
  rw [keeps event]
  unfold keepReceived
  dsimp only [onSession]
  rw [rbufLen, rbufSize]
  have counts : (w.session.rbufLen + reply.tls.result =
      w.session.rbufLen + reply.tls.transferred) ↔ ¬ reply.tls.Waits := by
    have number : (reply.tls.transferred : Int) = max reply.tls.result 0 :=
      Int.toNat_eq_max reply.tls.result
    constructor
    · intro same waits
      have negative := waits.1
      omega
    · intro still
      by_cases negative : reply.tls.result < 0
      · exact absurd ((SSLConn.settle_waits nonblocking _ negative).mp quiet) still
      · omega
  have condition : (w.event = true ∨ some rbuf = none ∨ false = true ∨ ¬ reply.tls.Waits ∨
      (w.session.rbufLen + reply.tls.result = w.session.rbufSize ∧ fresh = none)) ↔
      ¬ reply.tls.Waits ∨
        (w.session.rbufLen + reply.tls.result = w.session.rbufSize ∧ fresh = none) := by
    simp [calm]
  rw [condition]
  by_cases full : w.session.rbufLen + reply.tls.result = w.session.rbufSize
  · rw [if_pos full]
    cases fresh with
    | none =>
        refine iff_of_true (fun result _ quiet => ?_) (Or.inr ⟨full, rfl⟩)
        refine absurd quiet ?_
        rw [Bool.not_eq_false]
        exact event_resetRbuf (event_raise_eq ..)
    | some bytes =>
        have only : ¬ reply.tls.Waits ∨
            (w.session.rbufLen + reply.tls.result = w.session.rbufSize ∧ some bytes = none) ↔
            ¬ reply.tls.Waits := by simp
        rw [only, ← counts]
        exact ⟨fun given => given _ rfl event, fun same _ _ _ => same⟩
  · have only : ¬ reply.tls.Waits ∨
        (w.session.rbufLen + reply.tls.result = w.session.rbufSize ∧ fresh = none) ↔
        ¬ reply.tls.Waits := by simp [full]
    rw [if_neg full, only, ← counts]
    exact ⟨fun given => given _ rfl event, fun same _ _ _ => same⟩

/-! ## Write -/

/-- A call of `Write` that returns without an event has moved the front message on by as many
bytes as `SSL_write` has accepted. -/
def WriteCounts (replies : WriteReplies) (w : World) : Prop :=
  ∀ value, (w.write replies).2 = some value → (w.write replies).1.event = false →
    ∀ front others, w.session.wpending = front :: others →
      ∃ front', (w.write replies).1.session.wpending = front' :: others ∧
        front'.bufOffset + front'.fileOffset =
          front.bufOffset + front.fileOffset +
            ((w.write replies).1.wire.length - w.wire.length : Int)

/-- In the part of a call behind the header, `SSL_write` asks to try again. -/
def FileWaits (front : MsgInfo) (replies : WriteReplies) (w : World) : Prop :=
  ∃ file more data, w.session.wfiles = file :: more ∧ ¬ NotOpened file replies w.process ∧
    piece file front replies w.process = some data ∧ replies.chunk.tls.Waits

/-- In a call for the front message, `SSL_write` asks to try again. -/
def FrontWaits (front : MsgInfo) (replies : WriteReplies) (w : World) : Prop :=
  if front.storage = sessionUseMem then
    front.bufOffset ≠ front.hdrLen + front.bodyLen ∧ replies.front.tls.Waits
  else if front.bufOffset < front.hdrLen then
    replies.front.tls.Waits ∨
      (w.frontSent front front.hdrLen replies.front).error.event = false ∧
        front.hdrLen ≤ front.bufOffset + replies.front.tls.result ∧ FileWaits front replies w
  else FileWaits front replies w

/-- The calls of `Write` that count: there is an event, the call is refused or never gets the
mutex, or no call of `SSL_write` asks to try again. -/
def WriteCountable (replies : WriteReplies) (w : World) : Prop :=
  w.event = true ∨ w.session.wbuf = none ∨ w.session.conn.connected = false ∨
    w.session.mutexes.outgoing = true ∨
    ∀ front others, w.session.wpending = front :: others → ¬ FrontWaits front replies w

/-- `SSL_write` never accepts more bytes than it is offered. -/
def Honest (front : MsgInfo) (replies : WriteReplies) (w : World) : Prop :=
  (front.storage = sessionUseMem → front.bufOffset ≠ front.hdrLen + front.bodyLen →
      replies.front.tls.result ≤ max 0 (front.hdrLen + front.bodyLen - front.bufOffset)) ∧
    (front.storage ≠ sessionUseMem → front.bufOffset < front.hdrLen →
      replies.front.tls.result ≤ front.hdrLen - front.bufOffset) ∧
    ∀ file more data, w.session.wfiles = file :: more →
      piece file front replies w.process = some data →
        replies.chunk.tls.result ≤ data.length

section Write

variable {front : MsgInfo} {others : List MsgInfo} {replies : WriteReplies}

theorem length_sliceAt (array : Bytes) (start count : Int) :
    (sliceAt array start count).length = count.toNat := by
  unfold sliceAt
  split
  · rename_i within
    rw [List.length_take, List.length_drop]
    simp only [inside, Bool.or_eq_true, Bool.and_eq_true, decide_eq_true_eq] at within
    omega
  · exact List.length_replicate

/-- What `SSL_write` takes of the bytes it is offered. -/
theorem length_taken {data : Bytes} {reply : SSLReply} (honest : reply.result ≤ data.length) :
    ((data.take reply.transferred).length : Int) = max reply.result 0 := by
  have number : (reply.transferred : Int) = max reply.result 0 := Int.toNat_eq_max reply.result
  rw [List.length_take]
  omega

/-- A piece of a file is sent, unless there is an event. -/
theorem writeFile_counts (tls : w.session.conn.ssl = true)
    (nonblocking : w.session.conn.blocking = false) (calm : w.event = false)
    (has : w.session.wbuf.isSome = true) (pending : w.session.wpending = front :: others) (file : File) (sent : Int)
    (honest : ∀ data, piece file front replies w.process = some data →
      replies.chunk.tls.result ≤ data.length) :
    ((w.writeFile file front sent replies).1.event = true ∧
        ¬ (¬ NotOpened file replies w.process ∧
          ∃ data, piece file front replies w.process = some data ∧ replies.chunk.tls.Waits)) ∨
      ((w.writeFile file front sent replies).1.event = false ∧
        (w.writeFile file front sent replies).2.isSome = true ∧
        (w.writeFile file front sent replies).1.session.wpending =
          { front with fileOffset := front.fileOffset + replies.chunk.tls.result } :: others ∧
        ((w.writeFile file front sent replies).1.wire.length : Int) =
          w.wire.length + max replies.chunk.tls.result 0 ∧
        (replies.chunk.tls.result < 0 ↔ ¬ NotOpened file replies w.process ∧
          ∃ data, piece file front replies w.process = some data ∧ replies.chunk.tls.Waits)) := by
  by_cases not : NotOpened file replies w.process
  · exact Or.inl ⟨(seen_writeFile_notOpened has not).2, fun waits => waits.1 not⟩
  obtain ⟨process, event, at_, reads⟩ := @writeFile_reads w file front replies sent not
  rw [reads]
  cases some_ : piece file front replies w.process with
  | none =>
      refine Or.inl ⟨(seen_writeChunk_none (by exact has) (by rw [at_]; exact some_)).2, ?_⟩
      rintro ⟨-, data, other, -⟩
      cases other
  | some data =>
  have read : pieceOf (file.desc process).openFile front replies = some data := by
    rw [at_]
    exact some_
  have bytes : (data.length : Int) ≠ 0 := by
    have inhabited := pieceOf_ne_nil read
    rw [← List.length_pos_iff] at inhabited
    omega
  have condition : (¬ NotOpened file replies w.process ∧
      ∃ data', some data = some data' ∧ replies.chunk.tls.Waits) ↔ replies.chunk.tls.Waits := by
    simp [not]
  rw [condition]
  obtain ⟨value, taken, -, -, waits, negative⟩ :=
    SSLConn.write_tls tls nonblocking data bytes replies.chunk
  obtain ⟨descriptors, overrun, offered⟩ :=
    @writeChunk_some { w with process } file front replies sent data read
  rw [offered]
  by_cases raised : (w.session.conn.write data data.length replies.chunk {}).error.event = true
  · left
    obtain ⟨w₁, -, fails⟩ := @send_fails
      { w with process := { process with descriptors, overrun } } data data.length replies.chunk
      (fun w =>
        (w.onProcess (Process.appendMsg
          "TCPSession::Write(): file %s, body_len %ld, file_offset %ld: "
          [.str (file.print w.process), .num front.bodyLen,
            .num front.fileOffset])).resetWbuf.returnOutgoing 0)
      (fun sent w =>
        (w.updateFront fun front =>
          { front with fileOffset := front.fileOffset + sent }).returnOutgoing sent)
      replies.chunk.tls.result value (by rw [raised, Bool.or_true])
    rw [fails]
    refine ⟨event_resetWbuf (event_onProcess_appendMsg ..), fun still => ?_⟩
    rw [waits still] at raised
    cases raised
  · right
    have quiet := Bool.eq_false_iff.mpr raised
    obtain ⟨error, none_, goes⟩ := @send_goes
      { w with process := { process with descriptors, overrun } } data data.length replies.chunk
      (fun w =>
        (w.onProcess (Process.appendMsg
          "TCPSession::Write(): file %s, body_len %ld, file_offset %ld: "
          [.str (file.print w.process), .num front.bodyLen,
            .num front.fileOffset])).resetWbuf.returnOutgoing 0)
      (fun sent w =>
        (w.updateFront fun front =>
          { front with fileOffset := front.fileOffset + sent }).returnOutgoing sent)
      replies.chunk.tls.result value
      (by rw [quiet, Bool.or_false]; exact event.trans calm)
    rw [goes]
    refine ⟨none_, rfl, ?_, ?_, negative quiet, fun still => still.1⟩
    · unfold updateFront onSession returnOutgoing unlockOutgoing
      dsimp only [onSession]
      rw [pending]
    · change ((w.wire ++ (w.session.conn.write data data.length replies.chunk {}).data).length : Int) = _
      rw [taken, List.length_append, Nat.cast_add, length_taken (honest data some_)]

/-! An event that is pending is still there when a call returns. -/

theorem event_send {buf : Bytes} {bufLen : Int} {reply : SSLConn.NetWrite}
    {failed : World → Outcome Int} {next : Int → World → Outcome Int} (raised : w.event = true)
    (fails : ∀ w₁, (failed w₁).1.event = true)
    (returned : (w.send buf bufLen reply failed next).2.isSome = true) :
    (w.send buf bufLen reply failed next).1.event = true := by
  cases returns : (w.session.conn.write buf bufLen reply {}).value with
  | none =>
      have hangs : (w.send buf bufLen reply failed next).2 = none :=
        congrArg Prod.snd (seen_send_hangs returns)
      rw [hangs] at returned
      cases returned
  | some value =>
      obtain ⟨w₁, -, fails'⟩ := @send_fails w buf bufLen reply failed next value returns
        (by rw [raised, Bool.true_or])
      rw [fails']
      exact fails w₁

theorem event_writeFile (raised : w.event = true) (has : w.session.wbuf.isSome = true)
    (file : File) (sent : Int)
    (returned : (w.writeFile file front sent replies).2.isSome = true) :
    (w.writeFile file front sent replies).1.event = true := by
  by_cases not : NotOpened file replies w.process
  · exact (seen_writeFile_notOpened has not).2
  obtain ⟨process, event, -, reads⟩ := @writeFile_reads w file front replies sent not
  rw [reads] at returned ⊢
  cases some_ : pieceOf (file.desc process).openFile front replies with
  | none => exact (@seen_writeChunk_none { w with process } file front replies sent has some_).2
  | some data =>
      obtain ⟨descriptors, overrun, offered⟩ :=
        @writeChunk_some { w with process } file front replies sent data some_
      rw [offered] at returned ⊢
      exact event_send (by exact event.trans raised)
        (fun _ => event_resetWbuf (event_onProcess_appendMsg ..)) returned

theorem event_writeDisc (raised : w.event = true) (has : w.session.wbuf.isSome = true)
    (pending : w.session.wpending = front :: others)
    (returned : (w.writeDisc front replies).2.isSome = true) :
    (w.writeDisc front replies).1.event = true := by
  obtain ⟨body, continues, ends, opens⟩ := writeDisc_eq front replies w
  rw [opens] at returned ⊢
  split_ifs at returned ⊢ with left
  · exact event_send (by exact raised)
      (fun _ => event_resetWbuf (event_onProcess_appendMsg ..)) returned
  · cases files : w.session.wfiles with
    | nil =>
        rw [ends _ _ (Or.inr files)]
        exact raised
    | cons file more =>
        rw [continues _ _ front others file more pending files, if_neg left] at returned ⊢
        exact event_writeFile raised has file 0 returned

theorem event_write (raised : w.event = true) (replies : WriteReplies)
    (returned : (w.write replies).2.isSome = true) : (w.write replies).1.event = true := by
  by_contra still
  obtain ⟨has, connected, free, front, others, pending⟩ :=
    reaches_of_quiet returned (Bool.eq_false_iff.mpr still)
  rw [write_reaches has pending connected free] at returned still
  split_ifs at returned still
  · exact still (event_send (by exact raised)
      (fun _ => event_resetWbuf (event_onProcess_appendMsg ..)) returned)
  · exact still (@event_writeDisc w.outgoingLocked front others replies raised has pending returned)

/-- The bytes of a message in memory. -/
theorem writeMem_counts (tls : w.session.conn.ssl = true)
    (nonblocking : w.session.conn.blocking = false) (calm : w.event = false)
    (has : w.session.wbuf.isSome = true) (pending : w.session.wpending = front :: others)
    (memory : front.storage = sessionUseMem) (honest : Honest front replies w) :
    ((w.writeMem front replies).1.event = true ∧ ¬ FrontWaits front replies w) ∨
      ((w.writeMem front replies).1.event = false ∧ (w.writeMem front replies).2.isSome = true ∧
        ∃ front', (w.writeMem front replies).1.session.wpending = front' :: others ∧
          (front'.bufOffset + front'.fileOffset = front.bufOffset + front.fileOffset +
              ((w.writeMem front replies).1.wire.length - w.wire.length : Int) ↔
            ¬ FrontWaits front replies w)) := by
  unfold FrontWaits
  rw [if_pos memory]
  have goes (value : Int) (returns : (w.frontSent front (front.hdrLen + front.bodyLen)
        replies.front).value = some value)
      (quiet : (w.frontSent front (front.hdrLen + front.bodyLen) replies.front).error.event = false) :
      (w.writeMem front replies).1.event = false ∧ (w.writeMem front replies).2.isSome = true ∧
        (w.writeMem front replies).1.session.wpending =
          { front with bufOffset := front.bufOffset + value } :: others ∧
        (w.writeMem front replies).1.wire = w.wire ++
          (w.frontSent front (front.hdrLen + front.bodyLen) replies.front).data := by
    obtain ⟨w₁, session, ⟨error, overrun, none_, process⟩, wire, goes⟩ := @sendFront_goes w front
      others _ value ", msg_len %ld, offset %ld: " replies.front
      (fun sent w => w.returnOutgoing sent) pending returns
      (by rw [calm, quiet, Bool.or_false])
    unfold writeMem
    rw [goes]
    refine ⟨?_, rfl, ?_, wire⟩
    · change w₁.process.error.event = false
      rw [process]
      exact none_
    · change w₁.session.wpending = _
      rw [session]
  by_cases nothing : front.bufOffset = front.hdrLen + front.bodyLen
  · -- nothing is left, and `SSL_write` is not called
    right
    have empty : w.frontSent front (front.hdrLen + front.bodyLen) replies.front =
        { data := [], value := some 0, conn := w.session.conn, error := {} } := by
      unfold frontSent SSLConn.write
      rw [if_pos tls, if_pos (by omega)]
    obtain ⟨quiet, returned, after, wire⟩ := goes 0 (by rw [empty]) (by rw [empty]; rfl)
    refine ⟨quiet, returned, _, after, iff_of_true ?_ (by simp [nothing])⟩
    rw [wire, empty, List.append_nil]
    dsimp only
    omega
  obtain ⟨value, taken, -, -, waits, negative⟩ := SSLConn.write_tls tls nonblocking
    (sliceAt (w.session.wbuf.getD []) front.bufOffset (front.hdrLen + front.bodyLen - front.bufOffset))
    (show front.hdrLen + front.bodyLen - front.bufOffset ≠ 0 by omega) replies.front
  by_cases raised :
      (w.frontSent front (front.hdrLen + front.bodyLen) replies.front).error.event = true
  · left
    refine ⟨?_, fun still => ?_⟩
    · unfold writeMem
      exact (seen_sendFront_fails has value (by
        rw [calm, Bool.false_or]
        exact raised)).2
    · have quiet : (w.frontSent front (front.hdrLen + front.bodyLen)
        replies.front).error.event = false := waits still.2
      rw [quiet] at raised
      cases raised
  · right
    have calm' : (w.frontSent front (front.hdrLen + front.bodyLen) replies.front).error.event =
      false := Bool.eq_false_iff.mpr raised
    obtain ⟨quiet, returned, after, wire⟩ := goes _ value calm'
    refine ⟨quiet, returned, _, after, ?_⟩
    have number := @length_taken (sliceAt (w.session.wbuf.getD []) front.bufOffset
      (front.hdrLen + front.bodyLen - front.bufOffset)) replies.front.tls (by
        rw [length_sliceAt]
        have := honest.1 memory nothing
        omega)
    have length : ((w.writeMem front replies).1.wire.length : Int) =
        w.wire.length + max replies.front.tls.result 0 := by
      rw [wire, List.length_append, Nat.cast_add, ← number, ← taken]
      rfl
    rw [length]
    dsimp only
    constructor
    · intro same still
      have below := still.2.1
      omega
    · intro still
      by_cases below : replies.front.tls.result < 0
      · exact absurd ⟨nothing, negative calm' below⟩ still
      · omega

theorem fileWaits_iff {file : File} {more : List File} (files : w.session.wfiles = file :: more) :
    FileWaits front replies w ↔ ¬ NotOpened file replies w.process ∧
      ∃ data, piece file front replies w.process = some data ∧ replies.chunk.tls.Waits := by
  unfold FileWaits
  rw [files]
  constructor
  · rintro ⟨file', more', data, shape, opened, some_, waits⟩
    obtain ⟨rfl, -⟩ := List.cons.inj shape
    exact ⟨opened, data, some_, waits⟩
  · rintro ⟨opened, data, some_, waits⟩
    exact ⟨file, more, data, rfl, opened, some_, waits⟩

/-- The bytes of a message on disc. -/
theorem writeDisc_counts (tls : w.session.conn.ssl = true)
    (nonblocking : w.session.conn.blocking = false) (calm : w.event = false)
    (has : w.session.wbuf.isSome = true) (pending : w.session.wpending = front :: others)
    (disc : front.storage ≠ sessionUseMem) (honest : Honest front replies w) :
    ((w.writeDisc front replies).1.event = true ∧ ¬ FrontWaits front replies w) ∨
      ((w.writeDisc front replies).1.event = false ∧ (w.writeDisc front replies).2.isSome = true ∧
        ∃ front', (w.writeDisc front replies).1.session.wpending = front' :: others ∧
          (front'.bufOffset + front'.fileOffset = front.bufOffset + front.fileOffset +
              ((w.writeDisc front replies).1.wire.length - w.wire.length : Int) ↔
            ¬ FrontWaits front replies w)) := by
  obtain ⟨body, continues, ends, opens⟩ := writeDisc_eq front replies w
  rw [opens]
  unfold FrontWaits
  rw [if_neg disc]
  by_cases left : front.bufOffset < front.hdrLen
  · rw [if_pos left, if_pos left]
    obtain ⟨value, taken, ssl, blocking, waits, negative⟩ := SSLConn.write_tls tls nonblocking
      (sliceAt (w.session.wbuf.getD []) front.bufOffset (front.hdrLen - front.bufOffset))
      (show front.hdrLen - front.bufOffset ≠ 0 by omega) replies.front
    by_cases raised : (w.frontSent front front.hdrLen replies.front).error.event = true
    · left
      refine ⟨(seen_sendFront_fails has value (by
        rw [calm, Bool.false_or]
        exact raised)).2, ?_⟩
      rintro (still | ⟨quiet, -⟩)
      · have quiet : (w.frontSent front front.hdrLen replies.front).error.event = false := waits still
        rw [quiet] at raised
        cases raised
      · rw [quiet] at raised
        cases raised
    have quiet : (w.frontSent front front.hdrLen replies.front).error.event = false :=
      Bool.eq_false_iff.mpr raised
    obtain ⟨w₁, session, ⟨error, overrun, none_, process⟩, wire, goes⟩ := @sendFront_goes w front
      others _ _ ", hdr_len %ld, offset %ld: " replies.front body pending value
      (by rw [calm, quiet, Bool.or_false])
    rw [goes]
    have pending₁ : w₁.session.wpending =
        { front with bufOffset := front.bufOffset + replies.front.tls.result } :: others := by
      rw [session]
    have files₁ : w₁.session.wfiles = w.session.wfiles := by rw [session]
    have event₁ : w₁.event = false := by
      unfold World.event
      rw [process]
      exact none_
    have number := @length_taken (sliceAt (w.session.wbuf.getD []) front.bufOffset
      (front.hdrLen - front.bufOffset)) replies.front.tls (by
        rw [length_sliceAt]
        have := honest.2.1 disc left
        omega)
    have length : (w₁.wire.length : Int) = w.wire.length + max replies.front.tls.result 0 := by
      rw [wire, List.length_append, Nat.cast_add, ← number, ← taken]
      rfl
    have still : replies.front.tls.Waits ↔ replies.front.tls.result < 0 :=
      ⟨And.left, negative quiet⟩
    by_cases short : front.bufOffset + replies.front.tls.result < front.hdrLen
    · -- the header is not complete yet
      right
      have stays : (body replies.front.tls.result w₁).1.event = false ∧
          (body replies.front.tls.result w₁).2.isSome = true ∧
          (body replies.front.tls.result w₁).1.session.wpending = w₁.session.wpending ∧
          (body replies.front.tls.result w₁).1.wire = w₁.wire := by
        cases files : w₁.session.wfiles with
        | nil =>
            rw [ends _ _ (Or.inr files)]
            exact ⟨event₁, rfl, rfl, rfl⟩
        | cons file more =>
            rw [continues _ _ _ _ file more pending₁ files, if_pos short]
            exact ⟨event₁, rfl, rfl, rfl⟩
      obtain ⟨calm', returned, after, wire'⟩ := stays
      refine ⟨calm', returned, _, after.trans pending₁, ?_⟩
      rw [wire', length, still, quiet]
      dsimp only
      constructor
      · rintro same (below | ⟨-, above, -⟩)
        · omega
        · omega
      · intro not
        have := fun below => not (Or.inl below)
        omega
    · have complete : (replies.front.tls.Waits ∨
          (w.frontSent front front.hdrLen replies.front).error.event = false ∧
            front.hdrLen ≤ front.bufOffset + replies.front.tls.result ∧ FileWaits front replies w) ↔
          FileWaits front replies w := by
        rw [still, quiet]
        constructor
        · rintro (below | ⟨-, -, waits'⟩)
          · omega
          · exact waits'
        · exact fun waits' => Or.inr ⟨rfl, by omega, waits'⟩
      rw [complete]
      cases files : w.session.wfiles with
      | nil =>
          right
          rw [ends _ _ (Or.inr (files₁.trans files))]
          refine ⟨event₁, rfl, _, pending₁, iff_of_true ?_ ?_⟩
          · change _ = _ + ((w₁.wire.length : Int) - _)
            rw [length]
            dsimp only
            omega
          · rintro ⟨file, more, data, some_, -⟩
            rw [files] at some_
            cases some_
      | cons file more =>
          rw [continues _ _ _ _ file more pending₁ (files₁.trans files), if_neg short,
            fileWaits_iff files]
          have same : ¬ NotOpened file replies w₁.process ↔ ¬ NotOpened file replies w.process := by
            rw [process, notOpened_after overrun (none_.trans calm.symm)]
          have read : piece file { front with
              bufOffset := front.bufOffset + replies.front.tls.result } replies w₁.process =
              piece file front replies w.process := by
            rw [process, piece_after]
          have counts := @writeFile_counts w₁ _ others replies
            (by rw [session]; exact ssl) (by rw [session]; exact blocking) event₁
            (by rw [session]; exact has) pending₁ file replies.front.tls.result
            (by rw [read]; exact fun data => honest.2.2 file more data files)
          rw [same, read] at counts
          rcases counts with ended | ⟨calm', returned, after, wire', below⟩
          · exact Or.inl ended
          · refine Or.inr ⟨calm', returned, _, after, ?_⟩
            rw [wire', length, ← below]
            dsimp only
            omega
  · rw [if_neg left, if_neg left]
    cases files : w.session.wfiles with
    | nil =>
        right
        rw [ends _ _ (Or.inr files)]
        refine ⟨calm, rfl, _, pending, iff_of_true ?_ ?_⟩
        · change _ = _ + ((w.wire.length : Int) - _)
          omega
        · rintro ⟨file, more, data, some_, -⟩
          rw [files] at some_
          cases some_
    | cons file more =>
        rw [continues _ _ front others file more pending files, if_neg left, fileWaits_iff files]
        rcases @writeFile_counts w front others replies tls nonblocking calm has pending file 0
          (fun data => honest.2.2 file more data files) with
          ended | ⟨calm', returned, after, wire', below⟩
        · exact Or.inl ended
        · refine Or.inr ⟨calm', returned, _, after, ?_⟩
          rw [wire', ← below]
          dsimp only
          omega

theorem write_counts_iff (tls : w.session.conn.ssl = true)
    (nonblocking : w.session.conn.blocking = false)
    (honest : ∀ front others, w.session.wpending = front :: others → Honest front replies w) :
    WriteCounts replies w ↔ WriteCountable replies w := by
  unfold WriteCounts WriteCountable
  by_cases raised : w.event = true
  · refine iff_of_true (fun value returned quiet => ?_) (Or.inl raised)
    rw [event_write raised replies (Option.isSome_of_eq_some returned)] at quiet
    cases quiet
  have calm := Bool.eq_false_iff.mpr raised
  by_cases reached : w.session.wbuf.isSome = true ∧ w.session.conn.connected = true ∧
      w.session.mutexes.outgoing = false ∧ ∃ front others, w.session.wpending = front :: others
  · obtain ⟨has, connected, free, front, others, pending⟩ := reached
    have condition : (w.event = true ∨ w.session.wbuf = none ∨ w.session.conn.connected = false ∨
        w.session.mutexes.outgoing = true ∨
        ∀ front others, w.session.wpending = front :: others → ¬ FrontWaits front replies w) ↔
        ¬ FrontWaits front replies w := by
      rw [pending]
      simp only [calm, Option.isSome_iff_ne_none.mp has, connected, free, Bool.false_eq_true,
        Bool.true_eq_false, false_or, forall_cons_iff]
    rw [condition, write_reaches has pending connected free]
    have counts : ∀ outcome : Outcome Int,
        (outcome.1.event = true ∧ ¬ FrontWaits front replies w) ∨
          (outcome.1.event = false ∧ outcome.2.isSome = true ∧
            ∃ front', outcome.1.session.wpending = front' :: others ∧
              (front'.bufOffset + front'.fileOffset = front.bufOffset + front.fileOffset +
                  (outcome.1.wire.length - w.wire.length : Int) ↔
                ¬ FrontWaits front replies w)) →
        ((∀ value, outcome.2 = some value → outcome.1.event = false →
          ∀ front others, w.session.wpending = front :: others →
            ∃ front', outcome.1.session.wpending = front' :: others ∧
              front'.bufOffset + front'.fileOffset = front.bufOffset + front.fileOffset +
                (outcome.1.wire.length - w.wire.length : Int)) ↔
          ¬ FrontWaits front replies w) := by
      rintro outcome (⟨event, still⟩ | ⟨quiet, returned, front', after, exact_⟩)
      · refine iff_of_true (fun value _ quiet => ?_) still
        rw [event] at quiet
        cases quiet
      · obtain ⟨value, returned⟩ := Option.isSome_iff_exists.mp returned
        constructor
        · intro given
          obtain ⟨front'', after', number⟩ := given value returned quiet front others pending
          obtain ⟨rfl, -⟩ := List.cons.inj (after.symm.trans after')
          exact exact_.mp number
        · intro still _ _ _ front₂ others₂ pending₂
          obtain ⟨rfl, rfl⟩ := List.cons.inj (pending.symm.trans pending₂)
          exact ⟨front', after, exact_.mpr still⟩
    split_ifs with memory
    · exact counts _ (@writeMem_counts w.outgoingLocked front others replies tls nonblocking calm
        has pending memory (honest front others pending))
    · exact counts _ (@writeDisc_counts w.outgoingLocked front others replies tls nonblocking calm
        has pending memory (honest front others pending))
  · refine iff_of_true (fun value returned quiet => ?_) ?_
    · exact absurd (reaches_of_quiet (Option.isSome_of_eq_some returned) quiet) reached
    · by_contra not
      simp only [not_or, Bool.not_eq_true, Bool.not_eq_false] at not
      obtain ⟨-, has, connected, free, some_⟩ := not
      push Not at some_
      obtain ⟨front, others, pending, -⟩ := some_
      exact reached ⟨Option.isSome_iff_ne_none.mpr has, connected, free, front, others, pending⟩

end Write

/-! ## Both directions -/

/-- Over TLS on a connection that does not block, the counters move by the bytes that are
transferred exactly in the calls that count. -/
theorem tls_counts_iff (tls : w.session.conn.ssl = true)
    (nonblocking : w.session.conn.blocking = false) :
    (∀ reply fresh, ReadCounts reply fresh w ↔ ReadCountable reply fresh w) ∧
      ∀ replies, (∀ front others, w.session.wpending = front :: others → Honest front replies w) →
        (WriteCounts replies w ↔ WriteCountable replies w) :=
  ⟨read_counts_iff tls nonblocking, fun _ honest => write_counts_iff tls nonblocking honest⟩

/-- A session over TLS with a message of three bytes to be sent. -/
def tlsSession : World :=
  (((TCPSession.create MsgHdr.typeHttp { connected := true, ssl := true, blocking := false }
      {}).init true (some [])).1.addMsgBuf (some (ascii "A")) 1 (ascii "bc") 2
    { type := MsgHdr.typeHttp } none).1

theorem tls_counts_iff_sample :
    ReadCounts { tls := { result := 1, bytes := ascii "H" } } none tlsSession ∧
      WriteCounts { front := { tls := { result := 2 } } } tlsSession := by
  have calm : tlsSession.event = false := by decide +kernel
  have tls : tlsSession.session.conn.ssl = true := by decide +kernel
  have nonblocking : tlsSession.session.conn.blocking = false := by decide +kernel
  obtain ⟨reads, writes⟩ := tls_counts_iff tls nonblocking
  have still (result : Int) (positive : ¬ result < 0) : ¬ SSLReply.Waits { result } :=
    fun waits => positive waits.1
  constructor
  · exact (reads _ none).mpr (Or.inr (Or.inr (Or.inr (Or.inl fun waits => absurd waits.1 (by decide)))))
  · have queue : tlsSession.session.wpending =
        [{ storage := sessionUseMem, storageInitialized := true, hdrLen := 1, bodyLen := 2 }] := by
      decide +kernel
    refine (writes _ fun front others pending => ?_).mpr
      (Or.inr (Or.inr (Or.inr (Or.inr fun front others pending waits => ?_))))
    all_goals
      rw [queue] at pending
      obtain ⟨rfl, -⟩ := List.cons.inj pending
    · exact ⟨fun _ _ => by decide, fun disc => absurd rfl disc,
        fun file more data _ _ => Int.natCast_nonneg _⟩
    · exact still 2 (by decide) waits.2

/-- `SSL_read` asks to try again: `rbuf_len_` becomes -1. -/
theorem rbufLen_below_zero :
    (tlsSession.read { tls := { result := -1, code := .wantRead } } none).1.event = false ∧
      (tlsSession.read { tls := { result := -1, code := .wantRead } } none).1.session.rbufLen = -1 ∧
      ¬ ReadCounts { tls := { result := -1, code := .wantRead } } none tlsSession := by
  have event : (tlsSession.read { tls := { result := -1, code := .wantRead } } none).1.event =
    false := by decide +kernel
  have rbufLen : (tlsSession.read
    { tls := { result := -1, code := .wantRead } } none).1.session.rbufLen = -1 := by decide +kernel
  have returned : (tlsSession.read { tls := { result := -1, code := .wantRead } } none).2 =
    some (-1, false) := by decide +kernel
  have before : tlsSession.session.rbufLen = 0 := by decide +kernel
  refine ⟨event, rbufLen, fun counts => ?_⟩
  have same := counts _ returned event
  rw [rbufLen, before] at same
  cases same

end World

end IpUtils
