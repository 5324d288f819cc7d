import IpUtils.Session.Basic

/-! # Incoming messages

Reading from the connection, parsing the header of a message, streaming its body to a
file and clearing it.
-/

namespace IpUtils

open CLib

/-- What `InitIncomingMsg` gets from the allocator, and the bytes at the address of the
parameter of `MsgHdr::InitFromBuf`. -/
structure InitEnv where
  calloc : Bool := true
  realloc : Realloc := fun _ _ => none
  parameter : Bytes := []

namespace World

/-! ## Read -/

/-- `Read` behind a call of `SSLConn::Read` without an error. -/
def keepReceived (rbuf : Bytes) (fresh : Option Bytes) (value : Int) (eof : Bool) (w : World) :
    Outcome (Int × Bool) :=
  let rbufLen := w.session.rbufLen + value
  let w := w.onSession fun session => { session with rbufLen }
  if rbufLen = w.session.rbufSize then
    let size := w.session.rbufSize + kDefaultBufSize
    match reallocate rbuf size.toNat fresh with
    | none =>
        (w.raise ErrorHandler.EX_OSERR "TCPSession::Read(): realloc(%ld) failed"
          [.num size]).resetRbuf.returnIncoming (0, eof)
    | some rbuf =>
        (w.onSession fun session =>
          { session with rbuf := some rbuf, rbufSize := size }).returnIncoming (value, eof)
  else w.returnIncoming (value, eof)

/-- `Read`, with the return value and `eof`. -/
def read (reply : SSLConn.NetRead) (fresh : Option Bytes) (w : World) : Outcome (Int × Bool) :=
  match w.session.rbuf with
  | none => (w.refuse "TCPSession::Read(): rbuf is NULL", some (0, false))
  | some rbuf => w.lockIncoming fun w =>
      let received := w.session.conn.read (w.session.rbufSize - w.session.rbufLen) reply
        w.process.error
      let stored := storeAt rbuf w.session.rbufLen received.data
      let w : World :=
        { w with
          session := { w.session with conn := received.conn, rbuf := some stored }
          process := { w.process with error := received.error }.checked
            (inside rbuf w.session.rbufLen received.data.length) }
      if w.event then
        (w.onProcess (Process.appendMsg
          ("TCPSession::Read(): rbuf_ %p, rbuf_len_ %ld, rbuf_size_ %ld, eof %d: " ++
            "clearing rbuf_: ")
          [.addr "rbuf_", .num w.session.rbufLen, .num w.session.rbufSize,
            .num (if received.eof then 1 else 0)])).resetRbuf.returnIncoming (0, received.eof)
      else w.keepReceived stored fresh received.value received.eof

/-! ## InitIncomingMsg -/

/-- The header has been parsed: remove it from `rbuf_`, or put a decoded body in its
place, and describe the message. -/
def takeHeader (rbuf : Bytes) (used : Nat) (chunked : ChunkBuf) (w : World) : World :=
  let body := cstr (chunked.msgBody.getD [])
  let w :=
    if 0 < body.length then
      let w : World :=
        { w with
          session := { w.session with rbuf := some (storeAt rbuf 0 body) }
          process := w.process.checked (inside rbuf 0 body.length) }
      let w := w.shiftRbuf (toSsize (toSize (used - body.length))) body.length
      let (rhdr, error) := w.session.rhdr.setBodyLen body.length w.process.error
      { w with session := { w.session with rhdr }, process := { w.process with error } }
    else w.shiftRbuf (toSsize used) 0
  w.onSession fun session =>
    { session with
      rpending := { session.rpending with
        initialized := true
        msgId := session.rhdr.msgId
        hdrLen := toSsize session.rhdr.hdrLen
        bodyLen := toSsize session.rhdr.bodyLen
        bufOffset := 0
        fileOffset := 0
        storage := sessionUseMem } }

/-- `MsgHdr::InitFromBuf` on the bytes of `rbuf_`. -/
def parseRhdr (env : InitEnv) (rbuf : Bytes) (w : World) : MsgHdr.ParseOutcome :=
  w.session.rhdr.initFromBuf
    { stale := rbuf.drop (toSize w.session.rbufLen)
      parameter := env.parameter
      realloc := env.realloc }
    (readMemory rbuf (toSize w.session.rbufLen))
    { msgBody := callocate kDefaultBufSize true, size := kDefaultBufSize } w.process

/-- `InitIncomingMsg`. When `calloc` fails the incoming mutex stays locked. -/
def initIncomingMsg (env : InitEnv) (w : World) : Outcome Bool :=
  match w.session.rbuf with
  | none => (w.refuse "TCPSession::InitIncomingMsg(): rbuf is NULL", some false)
  | some rbuf =>
      if w.session.rbufLen = 0 then (w, some false)
      else w.lockIncoming fun w =>
        if !env.calloc then
          (w.raise ErrorHandler.EX_OSERR
            "TCPSession::InitIncomingMsg(): calloc(3) failed for size %lub"
            [.num kDefaultBufSize], some false)
        else
          let outcome := w.parseRhdr env rbuf
          let w : World :=
            { w with
              session := { w.session with rhdr := outcome.hdr }
              process := outcome.process }
          match outcome.bytesUsed with
          | none =>
              if w.event then
                (w.onProcess (Process.appendMsg "TCPSession::InitIncomingMsg(): "
                  [])).resetRbuf.returnIncoming false
              else w.returnIncoming false
          | some used => (w.takeHeader rbuf used outcome.chunked).returnIncoming true

/-! ## StreamIncomingMsg -/

/-- `write(2)` to an open file at its position. -/
def storeFile (data : Bytes) (desc : Descriptor) : Descriptor :=
  let openFile := desc.openFile
  { desc with
    openFile :=
      { contents := readMemory openFile.contents openFile.position ++ data ++
          openFile.contents.drop (openFile.position + data.length)
        position := openFile.position + data.length } }

/-- `StreamIncomingMsg`: the return value 0 tells that the body is complete. -/
def streamIncomingMsg (reply : WriteReply) (w : World) : Outcome Int :=
  match w.session.rbuf with
  | none => (w.refuse "TCPSession::StreamIncomingMsg(): rbuf is NULL", some 1)
  | some rbuf =>
      if !w.session.rfile.isOpen w.process then
        (w.refuse "TCPSession::StreamIncomingMsg(): rfile not open", some 1)
      else if !w.session.rpending.initialized then
        (w.refuse "TCPSession::Write(): rpending not initialized", some 1)
      else w.lockIncoming fun w =>
        let rpending := w.session.rpending
        let left := rpending.bodyLen - rpending.fileOffset
        let n := if left < w.session.rbufLen then left else w.session.rbufLen
        match reply with
        | .failed _ reason =>
            (w.raise ErrorHandler.EX_IOERR
              ("TCPSession::StreamIncomingMsg(): write(%s) failed, " ++
                "n %ld, rbuf len %ld, hdr len %ld: %s")
              [.str (w.session.rfile.print w.process), .num (-1), .num w.session.rbufLen,
                .num rpending.hdrLen, .str reason]).resetRbuf.returnIncoming 1
        | .accepted count =>
            let count := min count (toSize n)
            let w : World :=
              { w with
                session := { w.session with
                  rpending := { rpending with fileOffset := rpending.fileOffset + count } }
                process := (w.process.setDescriptor w.session.rfile.descriptor
                  (storeFile (sliceAt rbuf 0 count))).checked (inside rbuf 0 count) }
            let w := w.shiftRbuf count 0
            if w.session.rpending.bodyLen ≤ w.session.rpending.fileOffset then
              (w.onProcess w.session.rfile.close).returnIncoming 0
            else w.returnIncoming 1

/-! ## ClearIncomingMsg -/

/-- `ClearIncomingMsg`. -/
def clearIncomingMsg (w : World) : Outcome Unit :=
  match w.session.rbuf with
  | none => (w.refuse "TCPSession::ClearIncomingMsg(): rbuf_ is NULL", some ())
  | some _ => w.lockIncoming fun w =>
      let w :=
        if w.session.rpending.storage = sessionUseMem then
          w.shiftRbuf w.session.rpending.bodyLen 0
        else
          let (rfile, process) := w.session.rfile.clear w.process
          { w with session := { w.session with rfile }, process }
      (w.onSession fun session =>
        { session with rhdr := session.rhdr.clear, rpending := {} }).returnIncoming ()

end World

end IpUtils
