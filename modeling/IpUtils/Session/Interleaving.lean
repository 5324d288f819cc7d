import IpUtils.Session.ForeignErrors
import IpUtils.Session.Machine

/-! # Sessions of one process

The transfers of two sessions are interleaved, and an error that one of them raises is
pending when the other is called.
-/

namespace IpUtils

open CLib

/-! ## Calls that take no notice -/

namespace Process.Alike

variable {process₁ process₂ : Process}

/-- `open(2)` answers both alike. -/
theorem openWith (alike : process₁.Alike process₂) (flags mode : Int) (reply : OpenReply)
    (file : File) :
    (file.openWith flags mode reply process₁).Alike (file.openWith flags mode reply process₂) := by
  unfold File.openWith
  rw [alike.desc]
  split_ifs
  · exact alike.raise ..
  · exact alike.raise ..
  · exact alike.raise ..
  · exact alike.setDescriptor ..
  · cases reply with
    | opened fd contents => exact alike.setDescriptor ..
    | failed reason => exact alike.raise ..

/-- An `Open` that raises an error opens nothing. -/
theorem of_openWith {process : Process} {flags mode : Int} {reply : OpenReply} {file : File}
    (calm : process.error.event = false)
    (raised : (file.openWith flags mode reply process).error.event = true) :
    (file.openWith flags mode reply process).Alike process := by
  have not {address : Nat} {change : Descriptor → Descriptor} :
      ¬ (process.setDescriptor address change).error.event = true :=
    fun event => Bool.false_ne_true (calm.symm.trans event)
  unfold File.openWith at raised ⊢
  split_ifs at raised ⊢
  · exact ⟨_, process.overrun, rfl⟩
  · exact ⟨_, process.overrun, rfl⟩
  · exact ⟨_, process.overrun, rfl⟩
  · exact absurd raised not
  · cases reply with
    | opened fd contents => exact absurd raised not
    | failed reason => exact ⟨_, process.overrun, rfl⟩

end Process.Alike

namespace World

variable {α : Type} {w w₁ w₂ : World} {error : ErrorHandler}

section Send

variable {buf : Bytes} {bufLen : Int} {reply : SSLConn.NetWrite}
  {failed₁ failed₂ : World → Outcome Int} {next₁ next₂ : Int → World → Outcome Int}

/-- The world behind the answer of the connection to a write. -/
def offered (buf : Bytes) (bufLen : Int) (reply : SSLConn.NetWrite) (w : World) : World :=
  { session := { w.session with conn := (w.session.conn.write buf bufLen reply {}).conn }
    process := w.process
    wire := w.wire ++ (w.session.conn.write buf bufLen reply {}).data }

/-- A write up to the test of the event. -/
theorem send_tests (buf : Bytes) (bufLen : Int) (reply : SSLConn.NetWrite) (w : World) :
    ∃ w₁ : World, w₁.Alike (w.offered buf bufLen reply) ∧
      w₁.event = (w.event || (w.session.conn.write buf bufLen reply {}).error.event) ∧
      ∀ (failed : World → Outcome Int) (next : Int → World → Outcome Int),
        w.send buf bufLen reply failed next =
          match (w.session.conn.write buf bufLen reply {}).value with
          | none => (w₁, none)
          | some value => if w₁.event then failed w₁ else next value w₁ := by
  obtain ⟨data, value, conn, event⟩ :=
    SSLConn.write_pending w.session.conn w.process.error buf bufLen reply
  unfold send offered
  dsimp only
  rw [← data, ← value, ← conn]
  generalize w.session.conn.write buf bufLen reply w.process.error = answer at event
  exact ⟨{ session := { w.session with conn := answer.conn }
           process := { w.process with error := answer.error }
           wire := w.wire ++ answer.data },
    ⟨rfl, ⟨answer.error, w.process.overrun, rfl⟩, rfl⟩, event, fun _ _ => rfl⟩

/-- The socket is offered the same bytes. -/
theorem Alike.offered (alike : w₁.Alike w₂) (buf : Bytes) (bufLen : Int)
    (reply : SSLConn.NetWrite) :
    (w₁.offered buf bufLen reply).Alike (w₂.offered buf bufLen reply) := by
  unfold World.offered
  rw [alike.session, alike.wire]
  exact ⟨rfl, alike.process, rfl⟩

/-- A write that never returns, or fails by itself, comes to the same whatever is pending. -/
theorem Alike.send (alike : w₁.Alike w₂)
    (ends : (w₂.session.conn.write buf bufLen reply {}).value = none ∨
      (w₂.session.conn.write buf bufLen reply {}).error.event = true)
    (failing : ∀ {after₁ after₂ : World}, after₁.Alike after₂ →
      SameOutcome (failed₁ after₁) (failed₂ after₂)) :
    SameOutcome (w₁.send buf bufLen reply failed₁ next₁) (w₂.send buf bufLen reply failed₂ next₂) := by
  obtain ⟨after₁, alike₁, tests₁, sends₁⟩ := send_tests buf bufLen reply w₁
  obtain ⟨after₂, alike₂, tests₂, sends₂⟩ := send_tests buf bufLen reply w₂
  have after := (alike₁.trans (alike.offered buf bufLen reply)).trans alike₂.symm
  rw [sends₁, sends₂, alike.session]
  rw [alike.session] at tests₁
  cases returns : (w₂.session.conn.write buf bufLen reply {}).value with
  | none => exact ⟨after, rfl⟩
  | some value =>
      have raised := ends.resolve_left (by simp [returns])
      rw [raised, Bool.or_true] at tests₁ tests₂
      dsimp only
      rw [if_pos tests₁, if_pos tests₂]
      exact failing after

end Send

/-- What is dropped is the same whatever has been appended to the error. -/
theorem Alike.abandonWrite (alike : w₁.Alike w₂) {format₁ format₂ : String}
    {args₁ args₂ : List FmtArg} (value : Int) :
    SameOutcome ((w₁.onProcess (Process.appendMsg format₁ args₁)).resetWbuf.returnOutgoing value)
      ((w₂.onProcess (Process.appendMsg format₂ args₂)).resetWbuf.returnOutgoing value) :=
  (((Alike.of_appendMsg ..).trans alike).trans (Alike.of_appendMsg ..).symm).resetWbuf.returnOutgoing
    value

section Front

variable {front : MsgInfo} {others : List MsgInfo} {replies : WriteReplies} {file : File}
  {len sent : Int} {text : String} {reply : SSLConn.NetWrite}
  {next₁ next₂ : Int → World → Outcome Int}

/-- When the bytes are never taken, or fail, what would come next does not matter. -/
theorem Alike.sendFront (alike : w₁.Alike w₂)
    (ends : (w₂.frontSent front len reply).value = none ∨
      (w₂.frontSent front len reply).error.event = true) :
    SameOutcome (w₁.sendFront front len text reply next₁)
      (w₂.sendFront front len text reply next₂) := by
  unfold World.sendFront
  rw [alike.session]
  exact (alike.onProcess fun process => process.checked _).send ends fun after => after.abandonWrite 0

/-- The next piece of an open file cannot be read, or its write never returns or fails. -/
theorem Alike.writeChunk (alike : w₁.Alike w₂)
    (ends : pieceOf (file.desc w₂.process).openFile front replies = none ∨
      ∃ data, pieceOf (file.desc w₂.process).openFile front replies = some data ∧
        ((w₂.session.conn.write data data.length replies.chunk {}).value = none ∨
          (w₂.session.conn.write data data.length replies.chunk {}).error.event = true)) :
    SameOutcome (w₁.writeChunk file front sent replies) (w₂.writeChunk file front sent replies) := by
  unfold pieceOf at ends
  unfold World.writeChunk
  cases reading : replies.reading with
  | failed => exact (alike.raise ..).resetWbuf.returnOutgoing _
  | delivered atMost =>
      rw [reading] at ends
      dsimp only at ends ⊢
      rw [alike.process.desc]
      generalize readFile (readAmount front) atMost (file.desc w₂.process).openFile = result at ends ⊢
      have read : (w₁.onProcess fun process =>
            (process.setDescriptor file.descriptor fun desc =>
              { desc with openFile := result.2 }).checked
                (decide (result.1.length ≤ kFileChunkSize))).Alike
          (w₂.onProcess fun process =>
            (process.setDescriptor file.descriptor fun desc =>
              { desc with openFile := result.2 }).checked
                (decide (result.1.length ≤ kFileChunkSize))) :=
        alike.onProcess fun process => (process.setDescriptor ..).checked _
      split_ifs with empty
      · exact (read.raise ..).resetWbuf.returnOutgoing _
      · rw [if_neg empty] at ends
        simp only [reduceCtorEq, Option.some.injEq, false_or] at ends
        obtain ⟨_, rfl, ends⟩ := ends
        exact read.send ends fun after => after.abandonWrite 0

/-- Sending for the front message takes no notice of a pending error: the call never
returns, fails by itself, or has no piece of the file to send. -/
def FrontSteady (front : MsgInfo) (replies : WriteReplies) (w : World) : Prop :=
  if front.storage = sessionUseMem then
    (w.frontSent front (front.hdrLen + front.bodyLen) replies.front).value = none ∨
      (w.frontSent front (front.hdrLen + front.bodyLen) replies.front).error.event = true
  else if front.bufOffset < front.hdrLen then
    (w.frontSent front front.hdrLen replies.front).value = none ∨
      (w.frontSent front front.hdrLen replies.front).error.event = true ∨
      -- the rest of the header is sent, and the file is not opened
      ∃ value file more,
        (w.frontSent front front.hdrLen replies.front).value = some value ∧
          front.hdrLen ≤ front.bufOffset + value ∧ w.session.wfiles = file :: more ∧
          file.isOpen w.process = false ∧
          (file.openWith File.readOnly 0 replies.opening w.process).error.event = true
  else
    ∀ file more, w.session.wfiles = file :: more →
      NotOpened file replies w.process ∨ file.isOpen w.process = true ∧
        (piece file front replies w.process = none ∨
          ∃ data, piece file front replies w.process = some data ∧
            ((w.session.conn.write data data.length replies.chunk {}).value = none ∨
              (w.session.conn.write data data.length replies.chunk {}).error.event = true))

/-- The calls of `Write` that take no notice of a pending error. -/
def WriteSteady (replies : WriteReplies) (w : World) : Prop :=
  w.session.wbuf = none ∨ w.session.conn.connected = false ∨ w.session.mutexes.outgoing = true ∨
    ∀ front others, w.session.wpending = front :: others → w.FrontSteady front replies

/-- `Write` drops the queue, whatever the front message has come to. -/
theorem resetWbuf_forgets (has : w.session.wbuf.isSome = true) (wpending : List MsgInfo) :
    (w.onSession fun session => { session with wpending }).resetWbuf = w.resetWbuf := by
  have present : ¬ w.session.wbuf.isNone = true := by
    simpa [Option.isSome_iff_ne_none] using has
  unfold resetWbuf
  rw [if_neg present, if_neg (by exact present)]
  rfl

/-- With an event pending, bytes that are sent are not taken into account. -/
theorem sendFront_pending {value : Int} (pending : w.event = true)
    (returns : (w.frontSent front len reply).value = some value)
    (text : String) (next : Int → World → Outcome Int) :
    SameOutcome (w.sendFront front len text reply next)
      ((w.offered (sliceAt (w.session.wbuf.getD []) front.bufOffset (len - front.bufOffset))
        (len - front.bufOffset) reply).resetWbuf.returnOutgoing 0) := by
  obtain ⟨after, alike, tests, sends⟩ := send_tests
    (sliceAt (w.session.wbuf.getD []) front.bufOffset (len - front.bufOffset))
    (len - front.bufOffset) reply (w.onProcess (Process.checked
      (inside (w.session.wbuf.getD []) front.bufOffset (len - front.bufOffset))))
  have checked : (w.onProcess (Process.checked
      (inside (w.session.wbuf.getD []) front.bufOffset (len - front.bufOffset)))).Alike w :=
    ⟨rfl, ⟨w.process.error, _, rfl⟩, rfl⟩
  unfold sendFront
  dsimp only
  rw [sends, show ((w.onProcess _).session.conn.write _ _ reply {}).value = some value from returns]
  dsimp only
  rw [if_pos (by rw [tests]; exact Bool.or_eq_true_iff.mpr (Or.inl pending))]
  exact (((Alike.of_appendMsg ..).trans alike).trans (checked.offered ..)).resetWbuf.returnOutgoing 0

/-- The rest of a header is sent, and the file behind it is not opened. -/
theorem writeDisc_header_same {value : Int} {more : List File} (calm : w.event = false)
    (pending : error.event = true) (has : w.session.wbuf.isSome = true)
    (queued : w.session.wpending = front :: others) (left : front.bufOffset < front.hdrLen)
    (returns : (w.frontSent front front.hdrLen replies.front).value = some value)
    (quiet : (w.frontSent front front.hdrLen replies.front).error.event = false)
    (complete : front.hdrLen ≤ front.bufOffset + value) (files : w.session.wfiles = file :: more)
    (closed : file.isOpen w.process = false)
    (refused : (file.openWith File.readOnly 0 replies.opening w.process).error.event = true) :
    SameOutcome ((w.withError error).writeDisc front replies) (w.writeDisc front replies) := by
  obtain ⟨body, continues, -, opens⟩ := writeDisc_eq front replies w
  obtain ⟨body', -, -, opens'⟩ := writeDisc_eq front replies (w.withError error)
  rw [opens, opens', if_pos left, if_pos left]
  refine (@sendFront_pending (w.withError error) front _ replies.front value pending returns
    _ _).trans (SameOutcome.symm ?_)
  obtain ⟨w₁, session, ⟨after, overrun, none_, process⟩, wire, goes⟩ := @sendFront_goes w front others
    _ value ", hdr_len %ld, offset %ld: " replies.front body queued returns
    (by rw [calm, quiet]; rfl)
  rw [goes, continues _ w₁ { front with bufOffset := front.bufOffset + value } others file more
    (by rw [session]) (by rw [session]; exact files), if_neg (by dsimp only; omega)]
  unfold writeFile
  rw [show file.isOpen w₁.process = false by rw [process]; exact closed,
    if_neg Bool.false_ne_true]
  dsimp only
  have raised : (file.openWith File.readOnly 0 replies.opening w₁.process).error.event = true := by
    rw [process, (openWith_pending File.readOnly 0 replies.opening file w.process after overrun).2.1
      (none_.trans calm.symm)]
    exact refused
  rw [if_pos (by exact raised)]
  have quiet₁ : w₁.process.error.event = false := by
    rw [process]
    exact none_
  have opened : (w₁.onProcess (file.openWith File.readOnly 0 replies.opening)).Alike
      ((w.offered (sliceAt (w.session.wbuf.getD []) front.bufOffset (front.hdrLen - front.bufOffset))
        (front.hdrLen - front.bufOffset) replies.front).onSession fun session =>
          { session with
            wpending := { front with bufOffset := front.bufOffset + value } :: others }) :=
    ⟨session, (Process.Alike.of_openWith quiet₁ raised).trans ⟨after, overrun, process⟩, wire⟩
  have same := ((Alike.of_appendMsg "TCPSession::Write(): current offset %ld: "
    [.num front.fileOffset] _).trans opened).resetWbuf
  rw [@resetWbuf_forgets (w.offered _ _ _) has _] at same
  exact (same.trans (((withError_alike error w).offered ..).resetWbuf).symm).returnOutgoing 0

/-- The header has been sent, and the file is not touched by the error. -/
theorem writeDisc_file_same (pending : error.event = true)
    (queued : w.session.wpending = front :: others) (done_ : ¬ front.bufOffset < front.hdrLen)
    (steady : ∀ file more, w.session.wfiles = file :: more →
      NotOpened file replies w.process ∨ file.isOpen w.process = true ∧
        (piece file front replies w.process = none ∨
          ∃ data, piece file front replies w.process = some data ∧
            ((w.session.conn.write data data.length replies.chunk {}).value = none ∨
              (w.session.conn.write data data.length replies.chunk {}).error.event = true))) :
    SameOutcome ((w.withError error).writeDisc front replies) (w.writeDisc front replies) := by
  have alike := withError_alike error w
  obtain ⟨body, continues, ends, opens⟩ := writeDisc_eq front replies w
  obtain ⟨body', continues', ends', opens'⟩ := writeDisc_eq front replies (w.withError error)
  rw [opens, opens', if_neg done_, if_neg done_]
  cases files : w.session.wfiles with
  | nil =>
      rw [ends _ _ (Or.inr files), ends' 0 (w.withError error) (Or.inr files)]
      exact (alike.onProcess fun process => process.checked false).returnOutgoing 0
  | cons file more =>
  rw [continues _ _ front others file more queued files,
    continues' 0 (w.withError error) front others file more queued files, if_neg done_, if_neg done_]
  unfold writeFile
  have opened' : file.isOpen (w.withError error).process = file.isOpen w.process := rfl
  rw [opened']
  rcases steady file more files with ⟨closed, fails⟩ | ⟨opened, none_⟩
  · rw [closed, if_neg Bool.false_ne_true, if_neg Bool.false_ne_true]
    have tried := alike.onProcess fun process =>
      process.openWith File.readOnly 0 replies.opening file
    dsimp only
    rw [if_pos (by
      exact (openWith_pending File.readOnly 0 replies.opening file w.process error
        w.process.overrun).2.2 pending)]
    by_cases raised : (w.onProcess (file.openWith File.readOnly 0 replies.opening)).event = true
    · rw [if_pos raised]
      exact tried.abandonWrite 0
    · obtain ⟨reason, seeking⟩ := Option.isSome_iff_exists.mp (fails.resolve_left raised)
      rw [if_neg raised, seeking]
      exact (((Alike.of_appendMsg ..).trans tried).trans
        (Alike.of_raise ..).symm).resetWbuf.returnOutgoing 0
  · rw [if_pos opened, if_pos opened]
    unfold piece readFrom at none_
    rw [if_pos opened] at none_
    exact alike.writeChunk none_

/-- A steady call leaves the same. -/
theorem write_same (calm : w.event = false) (pending : error.event = true)
    (steady : w.WriteSteady replies) :
    SameOutcome ((w.withError error).write replies) (w.write replies) := by
  have alike := withError_alike error w
  unfold write
  rw [alike.session]
  cases has : w.session.wbuf with
  | none =>
      rw [if_pos (by rfl), if_pos (by rfl)]
      exact ⟨alike.refuse _, rfl⟩
  | some wbuf =>
  rw [if_neg (by simp), if_neg (by simp)]
  cases queued : w.session.wpending with
  | nil => exact ⟨alike.refuse _, rfl⟩
  | cons front others =>
  dsimp only
  cases connected : w.session.conn.connected with
  | false => exact ⟨alike.refuse _, rfl⟩
  | true =>
  rw [Bool.not_true, if_neg Bool.false_ne_true, if_neg Bool.false_ne_true]
  cases free : w.session.mutexes.outgoing with
  | true =>
      rw [lockOutgoing_of_held (by exact free), lockOutgoing_of_held (by exact free)]
      exact ⟨alike.outgoingLocked, rfl⟩
  | false =>
  rw [lockOutgoing_of_free (by exact free), lockOutgoing_of_free (by exact free)]
  have steady : w.FrontSteady front replies := by
    rcases steady with none_ | disconnected | held | steady
    · rw [has] at none_
      cases none_
    · rw [connected] at disconnected
      cases disconnected
    · rw [free] at held
      cases held
    · exact steady front others queued
  unfold FrontSteady at steady
  split_ifs at steady with memory left
  · rw [if_pos memory, if_pos memory]
    unfold writeMem
    exact alike.outgoingLocked.sendFront steady
  · rw [if_neg memory, if_neg memory]
    obtain ⟨body, -, -, opens⟩ := writeDisc_eq front replies w.outgoingLocked
    obtain ⟨body', -, -, opens'⟩ := writeDisc_eq front replies (w.withError error).outgoingLocked
    rw [if_pos left] at opens opens'
    rcases steady with hangs | raised | ⟨value, file, more, returns, complete, files, closed, refused⟩
    · rw [opens, opens']
      exact alike.outgoingLocked.sendFront (Or.inl hangs)
    · rw [opens, opens']
      exact alike.outgoingLocked.sendFront (Or.inr raised)
    · by_cases raised : (w.frontSent front front.hdrLen replies.front).error.event = true
      · rw [opens, opens']
        exact alike.outgoingLocked.sendFront (Or.inr raised)
      have quiet := Bool.eq_false_iff.mpr raised
      exact @writeDisc_header_same w.outgoingLocked error front others replies file value more
        calm pending (Option.isSome_of_eq_some has) queued left returns quiet complete files closed
        refused
  · rw [if_neg memory, if_neg memory]
    exact @writeDisc_file_same w.outgoingLocked error front others replies pending queued left steady

end Front

/-- An error that is no event is empty. -/
def Proper (w : World) : Prop :=
  w.process.error.Proper

end World

/-! ## An error that is no event is empty -/

/-- An error that has been raised is an event. -/
@[simp] theorem ErrorHandler.proper_init (error : ErrorHandler) (realm : Int) (format : String)
    (args : List FmtArg) : (error.init realm format args).Proper :=
  .of_event (event_init ..)

/-- A message is appended to an event, or to nothing. -/
@[simp] theorem ErrorHandler.proper_appendMsg (error : ErrorHandler) (format : String)
    (args : List FmtArg) : (error.appendMsg format args).Proper :=
  .of_event (event_appendMsg ..)

namespace SSLConn

variable {conn : SSLConn} {error : ErrorHandler}

theorem proper_shutdown (proper : error.Proper) (reply : ShutdownReply) :
    (conn.shutdown reply error).2.Proper := by
  unfold shutdown
  dsimp only
  split_ifs <;> simp [proper]

/-- What an SSL call has answered is turned into an error or into none. -/
theorem proper_settle (proper : error.Proper) (texts : Texts) (reply : SSLReply) :
    (settle texts reply conn error).error.Proper := by
  have closes := @proper_shutdown conn error proper reply.shutdown
  unfold settle settleZero settleNegative
  cases reply.code <;> dsimp only <;> split_ifs <;> simp [proper, closes]

theorem proper_read (proper : error.Proper) (bufLen : Int) (reply : NetRead) :
    (conn.read bufLen reply error).error.Proper := by
  unfold read TCPConn.read
  split_ifs
  · exact proper_settle proper ..
  · cases reply.tcp with
    | received bytes => exact proper
    | failed again reason =>
        dsimp only
        split_ifs <;> simp [proper]

/-- Each round of the loop ends, goes on or raises an error. -/
theorem proper_writeLoop (proper : error.Proper) (sent left : Bytes) (replies : List WriteReply) :
    (TCPConn.writeLoop conn error sent left replies).error.Proper := by
  induction replies generalizing sent left with
  | nil => exact proper
  | cons reply replies ih =>
      cases reply with
      | failed again reason =>
          simp only [TCPConn.writeLoop]
          split_ifs <;> simp [proper]
      | accepted count =>
          simp only [TCPConn.writeLoop]
          split_ifs
          · exact proper
          · exact ih _ _

theorem proper_write (proper : error.Proper) (buf : Bytes) (bufLen : Int) (reply : NetWrite) :
    (conn.write buf bufLen reply error).error.Proper := by
  unfold write
  split_ifs
  · exact proper
  · exact proper_settle proper ..
  · exact proper_writeLoop proper ..

end SSLConn

namespace File

variable {process : Process}

theorem proper_close (proper : process.error.Proper) (file : File) :
    (file.close process).error.Proper := by
  unfold close
  split_ifs <;> simp [proper]

theorem proper_fclose (proper : process.error.Proper) (file : File) :
    (file.fclose process).error.Proper := by
  unfold fclose
  split_ifs <;> simp [proper]

theorem proper_release (proper : process.error.Proper) (file : File) :
    (file.release process).error.Proper := by
  unfold release
  dsimp only
  split_ifs
  · exact proper_close (by exact proper) file
  · exact proper_fclose (by exact proper) file
  · exact proper
  · exact proper

theorem proper_clear (proper : process.error.Proper) (file : File) :
    (file.clear process).2.error.Proper :=
  proper_release proper { file with name := [], dir := [] }

theorem proper_destroyAll (proper : process.error.Proper) (files : List File) :
    (destroyAll files process).error.Proper := by
  unfold destroyAll
  induction files generalizing process with
  | nil => exact proper
  | cons file files ih => exact ih (proper_release proper file)

theorem proper_openWith (proper : process.error.Proper) (flags mode : Int) (reply : OpenReply)
    (file : File) : (file.openWith flags mode reply process).error.Proper := by
  unfold openWith
  split_ifs
  · simp
  · simp
  · simp
  · exact proper
  · cases reply with
    | opened fd contents => exact proper
    | failed reason => simp

end File

/-- A `Content-Length` that cannot be appended raises an error. -/
theorem MsgHdr.proper_setBodyLen {error : ErrorHandler} (proper : error.Proper) (bodyLen : Nat)
    (hdr : MsgHdr) : (hdr.setBodyLen bodyLen error).2.Proper := by
  unfold setBodyLen HTTPFraming.appendField HTTPFraming.appendMsgHdr
  split_ifs
  · exact proper
  · dsimp only
    split_ifs <;> simp [proper]
  · exact proper

namespace World

variable {w : World}

theorem proper_shiftRbuf (proper : w.Proper) (len offset : Int) : (w.shiftRbuf len offset).Proper := by
  unfold shiftRbuf
  cases w.session.rbuf with
  | none => exact ErrorHandler.proper_init ..
  | some rbuf => exact proper

theorem proper_resetRbuf (proper : w.Proper) : w.resetRbuf.Proper := by
  unfold resetRbuf
  split_ifs
  · exact ErrorHandler.proper_init ..
  · exact File.proper_clear proper _
  · exact proper

theorem proper_resetWbuf (proper : w.Proper) : w.resetWbuf.Proper := by
  unfold resetWbuf
  split_ifs
  · exact ErrorHandler.proper_init ..
  · exact File.proper_destroyAll proper _

theorem proper_read (proper : w.Proper) (reply : SSLConn.NetRead) (fresh : Option Bytes) :
    (w.read reply fresh).1.Proper := by
  have answered : (w.session.conn.read (w.session.rbufSize - w.session.rbufLen) reply
      w.process.error).error.Proper := SSLConn.proper_read proper ..
  unfold read
  cases w.session.rbuf with
  | none => exact ErrorHandler.proper_init ..
  | some rbuf =>
  cases free : w.session.mutexes.incoming with
  | true =>
      dsimp only
      rw [lockIncoming_of_held free]
      exact proper
  | false =>
  dsimp only
  rw [lockIncoming_of_free free]
  split
  · exact proper_resetRbuf (ErrorHandler.proper_appendMsg ..)
  · unfold keepReceived
    dsimp only
    split
    · split
      · exact proper_resetRbuf (ErrorHandler.proper_init ..)
      · exact answered
    · exact answered

/-- Taking the header and the decoded body raises no error. -/
theorem proper_takeHeader (proper : w.Proper) (rbuf : Bytes) (used : Nat) (chunked : ChunkBuf) :
    (w.takeHeader rbuf used chunked).Proper := by
  unfold takeHeader
  dsimp only
  split_ifs
  · exact MsgHdr.proper_setBodyLen (proper_shiftRbuf (by exact proper) ..) ..
  · exact proper_shiftRbuf proper ..

/-- The parsers raise an error or none. -/
theorem proper_parseRhdr (proper : w.Proper) (env : InitEnv) (rbuf : Bytes) :
    (w.parseRhdr env rbuf).process.error.Proper := by
  unfold parseRhdr MsgHdr.initFromBuf
  split_ifs
  · unfold MsgHdr.initBasic
    split_ifs <;> exact proper
  · have parsed := @HTTPFraming.initFromBuf_proper
      { obj := w.session.rhdr.http, error := w.process.error } proper
      { stale := rbuf.drop (toSize w.session.rbufLen), defaultPort := MsgHdr.ipcommPortNull
        realloc := env.realloc }
      (readMemory rbuf (toSize w.session.rbufLen))
      { msgBody := callocate kDefaultBufSize true, size := kDefaultBufSize }
    unfold MsgHdr.initHttp
    dsimp only
    split
    · dsimp only
      split_ifs
      · exact ErrorHandler.proper_appendMsg ..
      · exact parsed
    · exact parsed
  · exact ErrorHandler.proper_init ..

theorem proper_initIncomingMsg (proper : w.Proper) (env : InitEnv) :
    (w.initIncomingMsg env).1.Proper := by
  unfold initIncomingMsg
  cases has : w.session.rbuf with
  | none => exact ErrorHandler.proper_init ..
  | some rbuf =>
  have parsed := proper_parseRhdr (w := w.incomingLocked) proper env rbuf
  dsimp only
  by_cases bytes : w.session.rbufLen = 0
  · rw [if_pos bytes]
    exact proper
  rw [if_neg bytes]
  cases free : w.session.mutexes.incoming with
  | true =>
      rw [lockIncoming_of_held free]
      exact proper
  | false =>
  rw [lockIncoming_of_free free]
  cases env.calloc with
  | false => exact ErrorHandler.proper_init ..
  | true =>
  rw [if_neg (by simp)]
  cases (w.incomingLocked.parseRhdr env rbuf).bytesUsed with
  | none =>
      dsimp only
      split_ifs
      · exact proper_resetRbuf (ErrorHandler.proper_appendMsg ..)
      · exact parsed
  | some used => exact proper_takeHeader (by exact parsed) ..

theorem proper_streamIncomingMsg (proper : w.Proper) (reply : WriteReply) :
    (w.streamIncomingMsg reply).1.Proper := by
  unfold streamIncomingMsg
  cases w.session.rbuf with
  | none => exact ErrorHandler.proper_init ..
  | some rbuf =>
  dsimp only
  split_ifs
  · exact ErrorHandler.proper_init ..
  · exact ErrorHandler.proper_init ..
  cases free : w.session.mutexes.incoming with
  | true =>
      rw [lockIncoming_of_held free]
      exact proper
  | false =>
  rw [lockIncoming_of_free free]
  cases reply with
  | failed again reason => exact proper_resetRbuf (ErrorHandler.proper_init ..)
  | accepted count =>
      have closes {after : World} (holds : after.Proper) :
          (if after.session.rpending.bodyLen ≤ after.session.rpending.fileOffset then
            (after.onProcess after.session.rfile.close).returnIncoming (0 : Int)
          else after.returnIncoming 1).1.Proper := by
        split_ifs
        · exact File.proper_close holds _
        · exact holds
      exact closes (proper_shiftRbuf (by exact proper) ..)

theorem proper_clearIncomingMsg (proper : w.Proper) : w.clearIncomingMsg.1.Proper := by
  unfold clearIncomingMsg
  cases w.session.rbuf with
  | none => exact ErrorHandler.proper_init ..
  | some rbuf =>
  unfold lockIncoming
  dsimp only
  split_ifs
  · exact proper
  · exact proper_shiftRbuf (by exact proper) ..
  · exact File.proper_clear (by exact proper) _

/-- What comes behind a write decides, whether it has failed or not. -/
theorem proper_send {failed : World → Outcome Int} {next : Int → World → Outcome Int}
    (proper : w.Proper) (buf : Bytes) (bufLen : Int) (reply : SSLConn.NetWrite)
    (failing : ∀ {after : World}, after.Proper → (failed after).1.Proper)
    (going : ∀ {value : Int} {after : World}, after.Proper → (next value after).1.Proper) :
    (w.send buf bufLen reply failed next).1.Proper := by
  have answered : (w.session.conn.write buf bufLen reply w.process.error).error.Proper :=
    SSLConn.proper_write proper buf bufLen reply
  unfold send
  dsimp only
  cases (w.session.conn.write buf bufLen reply w.process.error).value with
  | none => exact answered
  | some value =>
      dsimp only
      split_ifs
      · exact failing answered
      · exact going answered

theorem proper_sendFront {next : Int → World → Outcome Int} (proper : w.Proper) (front : MsgInfo)
    (len : Int) (text : String) (reply : SSLConn.NetWrite)
    (going : ∀ {value : Int} {after : World}, after.Proper → (next value after).1.Proper) :
    (w.sendFront front len text reply next).1.Proper :=
  proper_send (by exact proper) _ _ reply
    (fun _ => proper_resetWbuf (ErrorHandler.proper_appendMsg ..)) fun holds => going (by exact holds)

theorem proper_writeChunk (proper : w.Proper) (file : File) (front : MsgInfo) (sent : Int)
    (replies : WriteReplies) : (w.writeChunk file front sent replies).1.Proper := by
  unfold writeChunk
  cases replies.reading with
  | failed => exact proper_resetWbuf (ErrorHandler.proper_init ..)
  | delivered atMost =>
      dsimp only
      split_ifs
      · exact proper_resetWbuf (ErrorHandler.proper_init ..)
      · exact proper_send (by exact proper) _ _ _
          (fun _ => proper_resetWbuf (ErrorHandler.proper_appendMsg ..)) fun holds => holds

theorem proper_writeFile (proper : w.Proper) (file : File) (front : MsgInfo) (sent : Int)
    (replies : WriteReplies) : (w.writeFile file front sent replies).1.Proper := by
  have opened : (w.onProcess (file.openWith File.readOnly 0 replies.opening)).Proper :=
    File.proper_openWith proper ..
  unfold writeFile
  dsimp only
  split_ifs
  · exact proper_writeChunk proper ..
  · exact proper_resetWbuf (ErrorHandler.proper_appendMsg ..)
  · cases replies.seeking with
    | some reason => exact proper_resetWbuf (ErrorHandler.proper_init ..)
    | none => exact proper_writeChunk (by exact opened) ..

theorem proper_writeDisc (proper : w.Proper) (front : MsgInfo) (replies : WriteReplies) :
    (w.writeDisc front replies).1.Proper := by
  obtain ⟨body, continues, ends, opens⟩ := writeDisc_eq front replies w
  have behind {sent : Int} {w : World} (proper : w.Proper) : (body sent w).1.Proper := by
    cases queued : w.session.wpending with
    | nil =>
        rw [ends _ _ (Or.inl queued)]
        exact proper
    | cons front others =>
        cases files : w.session.wfiles with
        | nil =>
            rw [ends _ _ (Or.inr files)]
            exact proper
        | cons file more =>
            rw [continues _ _ front others file more queued files]
            split_ifs
            · exact proper
            · exact proper_writeFile proper ..
  rw [opens]
  split_ifs
  · exact proper_sendFront proper _ _ _ _ behind
  · exact behind proper

theorem proper_write (proper : w.Proper) (replies : WriteReplies) : (w.write replies).1.Proper := by
  unfold write
  split
  · exact ErrorHandler.proper_init ..
  split
  · exact ErrorHandler.proper_init ..
  split
  · exact ErrorHandler.proper_init ..
  unfold lockOutgoing
  dsimp only
  split_ifs
  · exact proper
  · unfold writeMem
    exact proper_sendFront (by exact proper) _ _ _ _ fun holds => holds
  · exact proper_writeDisc (by exact proper) ..

end World

/-! ## Operations -/

/-- The operations that move messages, with the answers of the kernel and the allocator. -/
inductive Operation where
  | read (reply : SSLConn.NetRead) (fresh : Option Bytes)
  | write (replies : WriteReplies)
  | initIncomingMsg (env : InitEnv)
  | streamIncomingMsg (reply : WriteReply)
  | clearIncomingMsg

namespace Operation

/-- The type of the return value, with `eof` for `Read`. -/
def Value : Operation → Type
  | read _ _ => Int × Bool
  | write _ => Int
  | initIncomingMsg _ => Bool
  | streamIncomingMsg _ => Int
  | clearIncomingMsg => Unit

/-- Call an operation of a session. -/
def perform : (op : Operation) → World → Outcome op.Value
  | read reply fresh, w => w.read reply fresh
  | write replies, w => w.write replies
  | initIncomingMsg env, w => w.initIncomingMsg env
  | streamIncomingMsg reply, w => w.streamIncomingMsg reply
  | clearIncomingMsg, w => w.clearIncomingMsg

/-- The calls for which a pending error makes no difference to what is seen of them. -/
def Spared : Operation → World → Prop
  | read reply fresh, w => w.ReadSpared reply fresh
  | write replies, w => w.WriteSpared replies
  | initIncomingMsg env, w => w.InitSpared env
  | streamIncomingMsg _, _ => True
  | clearIncomingMsg, _ => True

/-- The calls for which a pending error makes no difference at all. -/
def Steady : Operation → World → Prop
  | write replies, w => w.WriteSteady replies
  | op, w => op.Spared w

variable {op : Operation} {w : World} {error : ErrorHandler}

/-- A pending error changes what is seen of a call unless it is spared. -/
theorem spared_iff (calm : w.event = false) (pending : error.event = true) :
    World.seen (op.perform (w.withError error)) = World.seen (op.perform w) ↔ op.Spared w := by
  cases op with
  | read reply fresh => exact World.read_spared_iff calm pending reply fresh
  | write replies => exact World.write_spared_iff calm pending replies
  | initIncomingMsg env => exact World.init_spared_iff calm pending env
  | streamIncomingMsg reply =>
      exact iff_of_true ((World.withError_alike error w).streamIncomingMsg reply).seen trivial
  | clearIncomingMsg => exact iff_of_true (World.withError_alike error w).clearIncomingMsg.seen trivial

/-- A steady call leaves the same and returns the same. -/
theorem same_of_steady (calm : w.event = false) (pending : error.event = true)
    (steady : op.Steady w) :
    World.SameOutcome (op.perform (w.withError error)) (op.perform w) := by
  cases op with
  | read reply fresh => exact World.read_same calm pending steady
  | write replies => exact World.write_same calm pending steady
  | initIncomingMsg env => exact World.init_same calm pending steady
  | streamIncomingMsg reply => exact (World.withError_alike error w).streamIncomingMsg reply
  | clearIncomingMsg => exact (World.withError_alike error w).clearIncomingMsg

/-- What is the same in everything is seen to be the same. -/
theorem spared_of_steady (calm : w.event = false) (steady : op.Steady w) : op.Spared w :=
  have pending : (({} : ErrorHandler).init ErrorHandler.EX_OK "" []).event = true := rfl
  (spared_iff calm pending).mp (same_of_steady calm pending steady).seen

/-- Every operation leaves an event or no error at all. -/
theorem proper_perform (proper : w.Proper) (op : Operation) : (op.perform w).1.Proper := by
  cases op with
  | read reply fresh => exact World.proper_read proper reply fresh
  | write replies => exact World.proper_write proper replies
  | initIncomingMsg env => exact World.proper_initIncomingMsg proper env
  | streamIncomingMsg reply => exact World.proper_streamIncomingMsg proper reply
  | clearIncomingMsg => exact World.proper_clearIncomingMsg proper

end Operation

/-! ## Two sessions -/

/-- Two sessions of a process, with what the peer of each has been sent. -/
structure Couple where
  sessions : Bool → TCPSession
  wires : Bool → Bytes
  process : Process

/-- A call of one of the sessions, or of `error.clear()`. -/
inductive Turn where
  | call (side : Bool) (op : Operation)
  | clearError

/-- What is seen of a call. -/
abbrev Sight : Type :=
  Bool × (op : Operation) × World.Holdings × Option op.Value

namespace Couple

/-- The world of one of the sessions; overruns are recorded anew. -/
def world (side : Bool) (couple : Couple) : World where
  session := couple.sessions side
  process := { couple.process with overrun := false }
  wire := couple.wires side

/-- The sessions behind a call of one of them. -/
def put (side : Bool) (w : World) (couple : Couple) : Couple where
  sessions := Function.update couple.sessions side w.session
  wires := Function.update couple.wires side w.wire
  process := w.process

def clearError (couple : Couple) : Couple :=
  { couple with process := { couple.process with error := couple.process.error.clear } }

/-- Take a turn. -/
def step : Machine Turn Couple
  | .call side op, couple =>
      (couple.put side (op.perform (couple.world side)).1, (op.perform (couple.world side)).2.isSome)
  | .clearError, couple => (couple.clearError, true)

/-- The same with an error that is cleared before each call. -/
def stepApart : Machine Turn Couple
  | .call side op, couple => step (.call side op) couple.clearError
  | .clearError, couple => step .clearError couple

/-- What is seen of a turn. -/
def sight : Turn → Couple → List Sight
  | .call side op, couple => [⟨side, op, World.seen (op.perform (couple.world side))⟩]
  | .clearError, _ => []

def sightApart (turn : Turn) (couple : Couple) : List Sight :=
  sight turn couple.clearError

/-- A call that is made while an event is pending is steady. -/
def Steady : Turn → Couple → Prop
  | .call side op, couple =>
      couple.process.error.event = true → op.Steady (couple.clearError.world side)
  | .clearError, _ => True

/-- Sessions that agree in everything but the error, and the record of overruns. -/
structure Alike (couple₁ couple₂ : Couple) : Prop where
  sessions : couple₁.sessions = couple₂.sessions
  wires : couple₁.wires = couple₂.wires
  process : couple₁.process.Alike couple₂.process

variable {couple₁ couple₂ : Couple}

/-- Without the error the sessions are in the same world. -/
theorem Alike.world_clearError (alike : couple₁.Alike couple₂) (side : Bool) :
    couple₁.clearError.world side = couple₂.clearError.world side := by
  obtain ⟨error, overrun, same⟩ := alike.process
  unfold Couple.world clearError
  rw [alike.sessions, alike.wires, same]
  rfl

theorem Alike.clearError (alike : couple₁.Alike couple₂) :
    couple₁.clearError.Alike couple₂.clearError := by
  obtain ⟨error, overrun, same⟩ := alike.process
  refine ⟨alike.sessions, alike.wires, couple₁.process.error.clear, overrun, ?_⟩
  unfold Couple.clearError
  rw [same]

/-- Calls that leave the same are put back. -/
theorem Alike.put {w₁ w₂ : World} (alike : couple₁.Alike couple₂) (same : w₁.Alike w₂)
    (side : Bool) : (couple₁.put side w₁).Alike (couple₂.put side w₂) := by
  refine ⟨?_, ?_, same.process⟩
  · unfold Couple.put
    rw [alike.sessions, same.session]
  · unfold Couple.put
    rw [alike.wires, same.wire]

/-- A call comes to the same with the error that is there and with none. -/
theorem perform_world {couple : Couple} {side : Bool} {op : Operation}
    (proper : couple.process.error.Proper) (steady : Steady (.call side op) couple) :
    World.SameOutcome (op.perform (couple.world side)) (op.perform (couple.clearError.world side)) := by
  rcases proper with pending | none_
  · exact Operation.same_of_steady rfl pending (steady pending)
  · have cleared : couple.clearError.world side = couple.world side := by
      unfold clearError world ErrorHandler.clear
      rw [← none_]
    rw [cleared]
    exact ⟨.refl _, rfl⟩

/-- What one turn keeps. -/
theorem step_related {turn : Turn} (alike : couple₁.Alike couple₂)
    (proper : couple₁.process.error.Proper) (steady : Steady turn couple₁) :
    ((step turn couple₁).1.Alike (stepApart turn couple₂).1 ∧
        (step turn couple₁).1.process.error.Proper) ∧
      (step turn couple₁).2 = (stepApart turn couple₂).2 ∧
      sight turn couple₁ = sightApart turn couple₂ := by
  cases turn with
  | clearError =>
      exact ⟨⟨alike.clearError, Or.inr rfl⟩, rfl, rfl⟩
  | call side op =>
      have same := perform_world proper steady
      rw [alike.world_clearError side] at same
      have cleared : couple₁.Alike couple₂.clearError := ⟨alike.sessions, alike.wires, by
        obtain ⟨error, overrun, same⟩ := alike.process
        exact ⟨error, overrun, same⟩⟩
      exact ⟨⟨cleared.put same.world side,
          @Operation.proper_perform (couple₁.world side) proper op⟩,
        congrArg Option.isSome same.value,
        congrArg (fun seen => [(⟨side, op, seen⟩ : Sight)]) same.seen⟩

/-- In a run whose calls are steady when an event is pending, every call is seen to do what it
does when the error has been cleared before, and the sessions end the same. -/
theorem run_apart {turns : List Turn} {couple : Couple} (proper : couple.process.error.Proper)
    (steady : Machine.Along step Steady turns couple) :
    Machine.trace step sight turns couple = Machine.trace stepApart sightApart turns couple ∧
      (Machine.run step turns couple).1.sessions =
        (Machine.run stepApart turns couple).1.sessions := by
  obtain ⟨⟨last, -⟩, -, seen⟩ := @Machine.run_related Turn Couple step Steady Couple Sight stepApart
    sight sightApart (fun couple₁ couple₂ => couple₁.Alike couple₂ ∧ couple₁.process.error.Proper)
    (fun turn couple₁ couple₂ related => step_related related.1 related.2) turns couple couple
    ⟨⟨rfl, rfl, .refl _⟩, proper⟩ steady
  exact ⟨seen, last.sessions⟩

end Couple

namespace World

/-- What is seen of a call is the same with an error of another session pending exactly when
it is spared; `StreamIncomingMsg` and `ClearIncomingMsg` always are. And however the calls
of two sessions are interleaved, from a state with that error or with none: when those that
are made while an event is pending are steady, and so spared, each of them is seen to do what
it does without one. -/
theorem pendingError_ignored_iff {error : ErrorHandler} (pending : error.event = true) :
    (∀ (op : Operation) (w : World), w.event = false →
      (seen (op.perform (w.withError error)) = seen (op.perform w) ↔ op.Spared w) ∧
        (op.Steady w → op.Spared w)) ∧
    ∀ (turns : List Turn) (couple : Couple),
      couple.process.error = {} ∨ couple.process.error = error →
        Machine.Along Couple.step Couple.Steady turns couple →
          Machine.trace Couple.step Couple.sight turns couple =
              Machine.trace Couple.stepApart Couple.sightApart turns couple ∧
            (Machine.run Couple.step turns couple).1.sessions =
              (Machine.run Couple.stepApart turns couple).1.sessions := by
  refine ⟨fun op w calm => ⟨Operation.spared_iff calm pending, Operation.spared_of_steady calm⟩,
    fun turns couple starts steady => ?_⟩
  have proper : couple.process.error.Proper := by
    rcases starts with cleared | same
    · exact Or.inr cleared
    · exact Or.inl (same ▸ pending)
  exact Couple.run_apart proper steady

/-- An error that another session has raised. -/
def foreignError : ErrorHandler :=
  ({} : ErrorHandler).init ErrorHandler.EX_IOERR "TCPConn::Read(%d): failed: %s"
    [.num 7, .str (ascii "Connection reset by peer")]

/-- A session that has received nothing yet. -/
def idleSession : World :=
  ((TCPSession.create MsgHdr.typeHttp { connected := true, blocking := false } {}).init true
    (some [])).1

/-- A session that has received the first bytes of a response. -/
def receivedBytes : World :=
  (idleSession.read { tcp := .received (ascii "HTTP/1.1 200") } none).1

theorem rbuf_receivedBytes : receivedBytes.session.rbuf.isSome = true := by decide +kernel

/-- A `Read` that fails. -/
def failedRead : Operation :=
  .read { tcp := .failed false (ascii "Connection reset by peer") } none

/-- Two sessions that have received the same bytes. -/
def receivedTwice : Couple where
  sessions _ := receivedBytes.session
  wires _ := []
  process := receivedBytes.process

/-- The connection of the second session fails; the first one has nothing to send, no file to
stream to, loses its connection as well and has nothing to parse then. -/
def failures : List Turn :=
  [.call true failedRead, .call false (.write {}), .call false (.streamIncomingMsg (.accepted 3)),
    .call false failedRead, .call false (.initIncomingMsg {}), .clearError,
    .call false (.read { tcp := .received (ascii " O") } none)]

/-- A read that fails by itself, a header that does not, and seven turns of two sessions. -/
theorem pendingError_ignored_iff_sample :
    (seen (failedRead.perform (receivedBytes.withError foreignError)) =
        seen (failedRead.perform receivedBytes) ∧
      seen ((Operation.initIncomingMsg {}).perform (receivedBytes.withError foreignError)) ≠
        seen ((Operation.initIncomingMsg {}).perform receivedBytes)) ∧
    Machine.trace Couple.step Couple.sight failures receivedTwice =
      Machine.trace Couple.stepApart Couple.sightApart failures receivedTwice := by
  refine ⟨⟨?_, ?_⟩, ?_⟩
  · exact ((pendingError_ignored_iff (by decide)).1 failedRead _ (by decide +kernel)).1.mpr
      (Or.inr (Or.inr (Or.inl (by decide +kernel))))
  · intro same
    rcases ((pendingError_ignored_iff (by decide)).1 (.initIncomingMsg {}) _
      (by decide +kernel)).1.mp same with empty | held | fails | parses
    · exact absurd empty (by decide +kernel)
    · exact absurd held (by decide +kernel)
    · exact absurd fails (by decide)
    · rcases parses _ (Option.some_get rbuf_receivedBytes).symm with ⟨basic, -⟩ | event
      · exact absurd basic (by decide +kernel)
      · exact absurd event (by decide +kernel)
  · refine ((@pendingError_ignored_iff foreignError (by decide)).2 failures receivedTwice
      (Or.inl (by decide +kernel)) ?_).1
    unfold failures
    simp only [Machine.Along]
    refine ⟨fun event => ?_, fun _ => ⟨fun _ => ?_, fun _ => ⟨fun _ => trivial, fun _ =>
      ⟨fun _ => ?_, fun _ => ⟨fun _ => ?_, fun _ => ⟨trivial, fun _ =>
        ⟨fun event => ?_, fun _ => trivial⟩⟩⟩⟩⟩⟩⟩
    · exact absurd event (by decide +kernel)
    · exact Or.inr (Or.inr (Or.inr fun front others queued =>
        (List.cons_ne_nil front others (queued.symm.trans (by decide +kernel))).elim))
    · exact Or.inr (Or.inr (Or.inl (by decide +kernel)))
    · exact Or.inl (by decide +kernel)
    · exact absurd event (by decide +kernel)

/-- A read of two bytes drops the twelve that have been received before, and one that finds
nothing loses the framing type of a session that has just been made. -/
theorem foreignError_drops_bytes :
    receivedBytes.event = false ∧ foreignError.event = true ∧
      (seen (receivedBytes.read { tcp := .received (ascii " O") } none)).1.rbufLen = 14 ∧
      (seen ((receivedBytes.withError foreignError).read
        { tcp := .received (ascii " O") } none)).1.rbufLen = 0 ∧
      (seen (idleSession.read {} none)).1.rhdr.type = MsgHdr.typeHttp ∧
      (seen ((idleSession.withError foreignError).read {} none)).1.rhdr.type =
        MsgHdr.typeNone := by
  decide +kernel

end World

end IpUtils
