import IpUtils.Session.Basic

/-! # Outgoing messages

The queue of messages to be sent. Headers, and the bodies of messages in memory, stand
one behind the other in `wbuf_`; the bodies of messages on disc are in `wfiles_`.
-/

namespace IpUtils

open CLib

/-- `kFileChunkSize`. -/
def kFileChunkSize : Nat := 4096

/-- What `read(2)` does on an open file: it delivers bytes, one at least unless the file
is at its end, or fails. -/
inductive FileReply where
  | delivered (atMost : Nat)
  | failed
  deriving DecidableEq, Repr

/-- The answers that one call of `Write` gets: to the write of a message in memory or of
a header, to `open`, to `lseek` (the text of `errno` when it fails), to `read` and to
the write of a piece of a file. -/
structure WriteReplies where
  front : SSLConn.NetWrite := {}
  opening : OpenReply := .failed []
  seeking : Option Bytes := none
  reading : FileReply := .failed
  chunk : SSLConn.NetWrite := {}
  deriving DecidableEq, Repr

namespace World

/-! ## Adding messages -/

/-- Bytes behind those that `wbuf_` holds. -/
def appendWbuf (source : Bytes) (count : Int) (w : World) : World :=
  let data := sliceAt source 0 count
  let wbuf := w.session.wbuf.getD []
  { w with
    session := { w.session with
      wbuf := some (storeAt wbuf w.session.wbufLen data)
      wbufLen := w.session.wbufLen + count }
    process := w.process.checked (inside source 0 count && inside wbuf w.session.wbufLen count) }

/-- The part that `AddMsgBuf` and `AddMsgFile` share: room for `needed` bytes, the
entry of the queue and what `install` puts into the buffers. -/
def enqueue (caller : String) (needed : Int) (info : MsgInfo) (whdr : MsgHdr)
    (fresh : Option Bytes) (install : World → World) (w : World) : Outcome Bool :=
  let enter (w : World) : Outcome Bool :=
    let w := install (w.onSession fun session =>
      { session with wpending := session.wpending ++ [info] })
    (w.onSession fun session =>
      if whdr.isMsgRequest then { session with whdrs := session.whdrs ++ [whdr] }
      else session).returnOutgoing true
  if w.session.wbufSize < needed + w.session.wbufLen then
    let size := needed + w.session.wbufLen + kDefaultBufSize
    match reallocate (w.session.wbuf.getD []) size.toNat fresh with
    | none =>
        (w.raise ErrorHandler.EX_OSERR (caller ++ "realloc(%ld) failed")
          [.num size]).returnOutgoing false
    | some wbuf =>
        enter (w.onSession fun session => { session with wbuf := some wbuf, wbufSize := size })
  else enter w

/-- `AddMsgBuf`. The flag `initialized` of the entry is left unset by the code. -/
def addMsgBuf (framingHdr : Option Bytes) (hdrLen : Int) (msgBody : Bytes) (bodyLen : Int)
    (whdr : MsgHdr) (fresh : Option Bytes) (w : World) : Outcome Bool :=
  if w.session.wbuf.isNone then (w.refuse "TCPSession::AddMsgBuf(): wbuf_ is NULL", some false)
  else if (cstr (framingHdr.getD [])).isEmpty then
    (w.refuse "TCPSession::AddMsgBuf(): framing_hdr is NULL or empty", some false)
  else w.lockOutgoing fun w =>
    w.enqueue "TCPSession::AddMsgBuf(): " (hdrLen + bodyLen)
      { storage := sessionUseMem, storageInitialized := true, msgId := whdr.msgId, hdrLen, bodyLen }
      whdr fresh
      fun w => (w.appendWbuf (framingHdr.getD []) hdrLen).appendWbuf msgBody bodyLen

/-- `AddMsgFile`. -/
def addMsgFile (framingHdr : Option Bytes) (hdrLen : Int) (msgBody : File) (bodyLen : Int)
    (whdr : MsgHdr) (fresh : Option Bytes) (w : World) : Outcome Bool :=
  if w.session.wbuf.isNone then (w.refuse "TCPSession::AddMsgFile(): wbuf is NULL", some false)
  else if (cstr (framingHdr.getD [])).isEmpty then
    (w.refuse "TCPSession::AddMsgFile(): framing_hdr is NULL or empty", some false)
  else w.lockOutgoing fun w =>
    w.enqueue "TCPSession::AddMsgFile(): " hdrLen
      { storage := sessionUseDisc, storageInitialized := true, msgId := whdr.msgId, hdrLen, bodyLen }
      whdr fresh
      fun w =>
        let w := w.appendWbuf (framingHdr.getD []) hdrLen
        { w with
          session := { w.session with wfiles := w.session.wfiles ++ [msgBody] }
          process := msgBody.share w.process }

/-! ## Write -/

/-- Change the entry of the front message. -/
def updateFront (change : MsgInfo → MsgInfo) (w : World) : World :=
  w.onSession fun session =>
    { session with
      wpending := match session.wpending with
        | [] => []
        | front :: others => change front :: others }

/-- A call of `SSLConn::Write`: it may not return, raise an error, or return a number. -/
def send (buf : Bytes) (bufLen : Int) (reply : SSLConn.NetWrite) (failed : World → Outcome Int)
    (next : Int → World → Outcome Int) (w : World) : Outcome Int :=
  let sent := w.session.conn.write buf bufLen reply w.process.error
  let w : World :=
    { session := { w.session with conn := sent.conn }
      process := { w.process with error := sent.error }
      wire := w.wire ++ sent.data }
  match sent.value with
  | none => (w, none)
  | some value => if w.event then failed w else next value w

/-- Bytes of `wbuf_` from the offset of the front message on. -/
def sendFront (front : MsgInfo) (len : Int) (text : String) (reply : SSLConn.NetWrite)
    (next : Int → World → Outcome Int) (w : World) : Outcome Int :=
  let wbuf := w.session.wbuf.getD []
  let count := len - front.bufOffset
  (w.onProcess (Process.checked (inside wbuf front.bufOffset count))).send
    (sliceAt wbuf front.bufOffset count) count reply
    (fun w =>
      (w.onProcess (Process.appendMsg
        ("TCPSession::Write(): wbuf_ %p, wbuf_len_ %ld, wbuf_size_ %ld" ++ text)
        [.addr "wbuf_", .num w.session.wbufLen, .num w.session.wbufSize, .num len,
          .num front.bufOffset])).resetWbuf.returnOutgoing 0)
    (fun sent w => next sent (w.updateFront fun front =>
      { front with bufOffset := front.bufOffset + sent }))

/-- The front message is all in `wbuf_`. -/
def writeMem (front : MsgInfo) (replies : WriteReplies) (w : World) : Outcome Int :=
  w.sendFront front (front.hdrLen + front.bodyLen) ", msg_len %ld, offset %ld: " replies.front
    fun sent w => w.returnOutgoing sent

/-- `read(2)` from an open file: what it delivers, and the file behind it. -/
def readFile (amount : Nat) (atMost : Nat) (openFile : OpenFile) : Bytes × OpenFile :=
  let data := ((openFile.contents.drop openFile.position).take amount).take (max 1 atMost)
  (data, { openFile with position := openFile.position + data.length })

/-- The number of bytes that are asked for. -/
def readAmount (front : MsgInfo) : Nat :=
  let left := front.bodyLen - front.fileOffset
  if kFileChunkSize < left then kFileChunkSize else toSize left

/-- The file of the front message is open: send its next piece. -/
def writeChunk (file : File) (front : MsgInfo) (sent : Int) (replies : WriteReplies) (w : World) :
    Outcome Int :=
  let args (w : World) : List FmtArg :=
    [.str (file.print w.process), .num front.fileOffset, .num front.bodyLen]
  match replies.reading with
  | .failed =>
      (w.raise ErrorHandler.EX_IOERR
        "TCPSession::Write(): read(%s) failed, file_offset is %ld, size is %ld"
        (args w)).resetWbuf.returnOutgoing sent
  | .delivered atMost =>
      let (data, openFile) := readFile (readAmount front) atMost (file.desc w.process).openFile
      let w := w.onProcess fun process =>
        (process.setDescriptor file.descriptor fun desc => { desc with openFile }).checked
          (decide (data.length ≤ kFileChunkSize))
      if data.isEmpty then
        (w.raise ErrorHandler.EX_IOERR
          ("TCPSession::Write(): TOOD(aka) read EOF from %s, " ++
            "but file_offset is %ld, size is %ld") (args w)).resetWbuf.returnOutgoing sent
      else
        w.send data data.length replies.chunk
          (fun w =>
            (w.onProcess (Process.appendMsg
              "TCPSession::Write(): file %s, body_len %ld, file_offset %ld: "
              [.str (file.print w.process), .num front.bodyLen,
                .num front.fileOffset])).resetWbuf.returnOutgoing 0)
          fun sent w =>
            (w.updateFront fun front =>
              { front with fileOffset := front.fileOffset + sent }).returnOutgoing sent

/-- The header of the front message has been sent: open its file and move to the place
that has been reached, unless it is open. -/
def writeFile (file : File) (front : MsgInfo) (sent : Int) (replies : WriteReplies) (w : World) :
    Outcome Int :=
  if file.isOpen w.process then w.writeChunk file front sent replies
  else
    let w := w.onProcess (file.openWith File.readOnly 0 replies.opening)
    if w.event then
      (w.onProcess (Process.appendMsg "TCPSession::Write(): current offset %ld: "
        [.num front.fileOffset])).resetWbuf.returnOutgoing 0
    else
      match replies.seeking with
      | some reason =>
          (w.raise ErrorHandler.EX_IOERR "TCPSession::Write(): lseek(%s) failed: %s"
            [.str (file.print w.process), .str reason]).resetWbuf.returnOutgoing 0
      | none =>
          (w.onProcess fun process =>
            process.setDescriptor file.descriptor fun desc =>
              { desc with
                openFile := { desc.openFile with position := front.fileOffset.toNat } }).writeChunk
            file front sent replies

/-- The header of the front message is in `wbuf_` and its body in the first file. -/
def writeDisc (front : MsgInfo) (replies : WriteReplies) (w : World) : Outcome Int :=
  let body (sent : Int) (w : World) : Outcome Int :=
    match w.session.wpending, w.session.wfiles with
    | front :: _, file :: _ =>
        if front.bufOffset < front.hdrLen then w.returnOutgoing sent
        else w.writeFile file front sent replies
    -- the vectors are not empty
    | _, _ => (w.onProcess (Process.checked false)).returnOutgoing sent
  if front.bufOffset < front.hdrLen then
    w.sendFront front front.hdrLen ", hdr_len %ld, offset %ld: " replies.front body
  else body 0 w

/-- What follows the header is decided by the front message and the first file as they are
then. -/
theorem writeDisc_eq (front : MsgInfo) (replies : WriteReplies) (w : World) :
    ∃ body : Int → World → Outcome Int,
      (∀ (sent : Int) (w : World) (front : MsgInfo) (others : List MsgInfo) (file : File)
          (more : List File), w.session.wpending = front :: others → w.session.wfiles = file :: more →
        body sent w =
          if front.bufOffset < front.hdrLen then w.returnOutgoing sent
          else w.writeFile file front sent replies) ∧
      (∀ (sent : Int) (w : World), w.session.wpending = [] ∨ w.session.wfiles = [] →
        body sent w = (w.onProcess (Process.checked false)).returnOutgoing sent) ∧
      w.writeDisc front replies =
        if front.bufOffset < front.hdrLen then
          w.sendFront front front.hdrLen ", hdr_len %ld, offset %ld: " replies.front body
        else body 0 w := by
  refine ⟨fun sent w =>
    match w.session.wpending, w.session.wfiles with
    | front :: _, file :: _ =>
        if front.bufOffset < front.hdrLen then w.returnOutgoing sent
        else w.writeFile file front sent replies
    | _, _ => (w.onProcess (Process.checked false)).returnOutgoing sent, ?_, ?_, ?_⟩
  · intro sent w front others file more pending files
    dsimp only
    rw [pending, files]
  · rintro sent w (none_ | none_)
    · dsimp only
      rw [none_]
    · dsimp only
      rw [none_]
      cases w.session.wpending <;> rfl
  · unfold writeDisc
    rfl

/-- `Write`. -/
def write (replies : WriteReplies) (w : World) : Outcome Int :=
  if w.session.wbuf.isNone then (w.refuse "TCPSession::Write(): wbuf is NULL", some 0)
  else
    match w.session.wpending with
    | [] => (w.refuse "TCPSession::Write(): wpending is empty", some 0)
    | front :: _ =>
        if !w.session.conn.connected then
          (w.refuse "TCPSession::Write(): not connected", some 0)
        else w.lockOutgoing fun w =>
          if front.storage = sessionUseMem then w.writeMem front replies
          else w.writeDisc front replies

/-! ## PopOutgoingMsgQueue -/

/-- Remove bytes from the front of `wbuf_`. -/
def shiftWbuf (len : Int) (w : World) : World :=
  let wbuf := w.session.wbuf.getD []
  let count := w.session.wbufLen - len
  { w with
    session := { w.session with
      wbuf := some (moveAt wbuf 0 len count)
      wbufLen := count }
    process := w.process.checked (inside wbuf 0 count && inside wbuf len count) }

/-- `PopOutgoingMsgQueue`. -/
def popOutgoingMsgQueue (w : World) : Outcome Unit :=
  if w.session.wbuf.isNone then
    (w.refuse "TCPSession::PopOutgoingMsgQueue(): wbuf_ is NULL", some ())
  else
    match w.session.wpending with
    | [] => (w.refuse "TCPSession::PopOutgoingMsgQueue(): wpending is empty", some ())
    | front :: _ => w.lockOutgoing fun w =>
        let w :=
          if front.storage = sessionUseMem then w.shiftWbuf (front.hdrLen + front.bodyLen)
          else
            let w := w.shiftWbuf front.hdrLen
            let (wfiles, process) := File.eraseFront w.session.wfiles w.process
            { w with session := { w.session with wfiles }, process }
        (w.onSession fun session =>
          { session with wpending := session.wpending.tail }).returnOutgoing ()

end World

end IpUtils
