import IpUtils.File
import IpUtils.MsgHdr
import IpUtils.Session.Conn

/-! # Sessions

The fields of a `TCPSession`, the world it works in, its mutexes, its boolean checks
and the routines that the other modules share.
-/

namespace IpUtils

open CLib

/-- `kDefaultBufSize`. -/
def kDefaultBufSize : Nat := 4096

def sessionUseMem : UInt8 := 0

def sessionUseDisc : UInt8 := 1

/-- `MsgInfo`. -/
structure MsgInfo where
  initialized : Bool := false
  storage : UInt8 := sessionUseMem
  storageInitialized : Bool := false
  msgId : UInt16 := 0
  hdrLen : Int := 0
  bodyLen : Int := 0
  bufOffset : Int := 0
  fileOffset : Int := 0
  deriving DecidableEq, Repr

/-- The two mutexes of a session. -/
structure Mutexes where
  incoming : Bool := false
  outgoing : Bool := false
  /-- A mutex has been locked twice, unlocked while free or locked out of order. -/
  misused : Bool := false
  deriving DecidableEq, Repr

/-- `TCPSession`. A buffer is the whole array, with the bytes that are no longer in use. -/
structure TCPSession where
  conn : SSLConn := {}
  framingType : UInt8
  rbuf : Option Bytes := none
  rbufSize : Int := 0
  rbufLen : Int := 0
  rfile : File
  rpending : MsgInfo := {}
  rhdr : MsgHdr
  rtid : Nat := 0
  wbuf : Option Bytes := none
  wbufSize : Int := 0
  wbufLen : Int := 0
  wfiles : List File := []
  wpending : List MsgInfo := []
  whdrs : List MsgHdr := []
  mutexes : Mutexes := {}
  deriving DecidableEq, Repr

/-- A session, the state it shares with others and what its peer has been sent. -/
structure World where
  session : TCPSession
  process : Process
  wire : Bytes := []

/-- The outcome of a call: without a value it has not returned. -/
abbrev Outcome (α : Type) : Type := World × Option α

/-- The constructor. -/
def TCPSession.create (framingType : UInt8) (conn : SSLConn) (process : Process) : World :=
  let (rfile, process) := File.create process
  { session := { conn, framingType, rfile, rhdr := { type := framingType } }, process }

namespace World

variable {α : Type}

/-- Change the session. -/
def onSession (change : TCPSession → TCPSession) (w : World) : World :=
  { w with session := change w.session }

/-- Change what is shared. -/
def onProcess (change : Process → Process) (w : World) : World :=
  { w with process := change w.process }

/-- `error.Init`. -/
def raise (realm : Int) (format : String) (args : List FmtArg) (w : World) : World :=
  w.onProcess (Process.raise realm format args)

/-- `error.Init` for an error in the use of the class. -/
def refuse (format : String) (w : World) : World :=
  w.raise ErrorHandler.EX_SOFTWARE format []

/-- `error.Event()`. -/
def event (w : World) : Bool :=
  w.process.error.event

/-! ## Mutexes -/

/-- `pthread_mutex_lock(&incoming_mtx)`: a mutex that is held is never released, since
there is only this thread. -/
def lockIncoming (w : World) (body : World → Outcome α) : Outcome α :=
  let mutexes := w.session.mutexes
  let misused := mutexes.misused || mutexes.outgoing || mutexes.incoming
  let w := w.onSession fun session =>
    { session with mutexes := { mutexes with incoming := true, misused } }
  if mutexes.incoming then (w, none) else body w

/-- `pthread_mutex_lock(&outgoing_mtx)`. -/
def lockOutgoing (w : World) (body : World → Outcome α) : Outcome α :=
  let mutexes := w.session.mutexes
  let misused := mutexes.misused || mutexes.outgoing
  let w := w.onSession fun session =>
    { session with mutexes := { mutexes with outgoing := true, misused } }
  if mutexes.outgoing then (w, none) else body w

/-- `pthread_mutex_unlock(&incoming_mtx)`. -/
def unlockIncoming (w : World) : World :=
  let mutexes := w.session.mutexes
  w.onSession fun session =>
    { session with
      mutexes := { mutexes with
        incoming := false
        misused := mutexes.misused || !mutexes.incoming } }

/-- `pthread_mutex_unlock(&outgoing_mtx)`. -/
def unlockOutgoing (w : World) : World :=
  let mutexes := w.session.mutexes
  w.onSession fun session =>
    { session with
      mutexes := { mutexes with
        outgoing := false
        misused := mutexes.misused || !mutexes.outgoing } }

/-- Release the incoming mutex and return. -/
def returnIncoming (value : α) (w : World) : Outcome α :=
  (w.unlockIncoming, some value)

/-- Release the outgoing mutex and return. -/
def returnOutgoing (value : α) (w : World) : Outcome α :=
  (w.unlockOutgoing, some value)

/-! ## Boolean checks -/

/-- `IsIncomingMsgInitialized`. -/
def isIncomingMsgInitialized (w : World) : Bool :=
  w.session.rpending.initialized

/-- `IsIncomingMsgComplete`. -/
def isIncomingMsgComplete (w : World) : Bool :=
  w.session.rpending.initialized &&
    (decide (w.session.rpending.bodyLen ≤ w.session.rpending.fileOffset) ||
      decide (w.session.rpending.bodyLen ≤ w.session.rbufLen))

/-- `IsOutgoingMsgSent`. -/
def isOutgoingMsgSent (w : World) : Bool :=
  match w.session.wpending with
  | [] => false
  | front :: _ =>
      decide (front.hdrLen + front.bodyLen ≤ front.bufOffset) ||
        decide (front.hdrLen + front.bodyLen ≤ front.fileOffset + front.bufOffset)

/-- `IsOutgoingDataPending`. -/
def isOutgoingDataPending (w : World) : Bool :=
  w.session.wpending.any fun msg =>
    (msg.storage == sessionUseMem && decide (msg.bufOffset < msg.hdrLen + msg.bodyLen)) ||
      (msg.storage == sessionUseDisc &&
        (decide (msg.bufOffset < msg.hdrLen) || decide (msg.fileOffset < msg.bodyLen)))

/-! ## Mutators -/

/-- `set_connected`: the incoming mutex is locked first. -/
def setConnected (connected : Bool) (w : World) : Outcome Unit :=
  w.lockIncoming fun w => w.lockOutgoing fun w =>
    let w := w.onSession fun session => { session with conn := { session.conn with connected } }
    w.unlockOutgoing.returnIncoming ()

/-- `set_rtid`. -/
def setRtid (rtid : Nat) (w : World) : Outcome Unit :=
  w.lockIncoming fun w =>
    (w.onSession fun session => { session with rtid }).returnIncoming ()

/-- `set_storage`: the `int` becomes a `uint8_t`. -/
def setStorage (storage : UInt8) (w : World) : Outcome Unit :=
  w.lockIncoming fun w =>
    (w.onSession fun session =>
      { session with
        rpending := { session.rpending with storage, storageInitialized := true } }).returnIncoming ()

/-- `delete_whdr`. -/
def deleteWhdr (msgId : UInt16) (w : World) : Outcome Unit :=
  w.lockOutgoing fun w =>
    (w.onSession fun session =>
      { session with whdrs := session.whdrs.eraseP fun hdr => hdr.msgId == msgId }).returnOutgoing ()

/-- `set_rfile`. -/
def setRfile (path : Option Bytes) (reply : OpenReply) (w : World) : Outcome Unit :=
  match path with
  | none => (w.refuse "TCPSession::set_rfile(): path is NULL or empty", some ())
  | some path =>
      if (cstr path).isEmpty then
        (w.refuse "TCPSession::set_rfile(): path is NULL or empty", some ())
      else if w.session.rfile.isOpen w.process then
        (w.refuse "TCPSession::set_rfile(): rfile is open", some ())
      else w.lockIncoming fun w =>
        let (rfile, process) :=
          if w.session.rfile.name.isEmpty then (w.session.rfile, w.process)
          else w.session.rfile.clear w.process
        let rfile := rfile.initFromBuf path
        let process := rfile.openWith File.writeAnew File.ownerWritable reply process
        let process :=
          if process.error.event then process.appendMsg "TCPSession::set_rfile(): " [] else process
        { w with
          session := { w.session with
            rfile
            rpending := { w.session.rpending with
              fileOffset := 0
              storage := sessionUseDisc
              storageInitialized := true } }
          process }.returnIncoming ()

/-- `Init`. -/
def init (rbuf : Bool) (wbuf : Option Bytes) (w : World) : Outcome Unit :=
  if w.session.rbuf.isSome then (w.refuse "TCPSession::Init(): rbuf is not NULL", some ())
  else if w.session.rtid ≠ 0 then (w.refuse "TCPSession::Init(): rtid is not NULL", some ())
  else
    match callocate kDefaultBufSize rbuf with
    | none =>
        (w.raise ErrorHandler.EX_OSERR "TCPSession::Init(): rbuf calloc(%d) failed"
          [.num kDefaultBufSize], some ())
    | some rbuf =>
        let w := w.onSession fun session =>
          { session with rbuf := some rbuf, rbufSize := kDefaultBufSize, rbufLen := 0 }
        match reallocate [] kDefaultBufSize wbuf with
        | none =>
            ((w.onSession fun session => { session with wbuf := none }).raise
              ErrorHandler.EX_OSERR "TCPSession::Init(): wbuf malloc(%d) failed"
              [.num kDefaultBufSize], some ())
        | some wbuf =>
            (w.onSession fun session =>
              { session with wbuf := some wbuf, wbufSize := kDefaultBufSize, wbufLen := 0 }, some ())

/-! ## Private members -/

/-- `ShiftRbuf`: when there is less than is to be removed, what there is goes. -/
def shiftRbuf (len offset : Int) (w : World) : World :=
  match w.session.rbuf with
  | none => w.refuse "TCPSession::ShiftRbuf(): rbuf_ is NULL"
  | some rbuf =>
      let rbufLen := w.session.rbufLen
      let len := if rbufLen < len + offset then rbufLen - offset else len
      let count := rbufLen - (len + offset)
      { w with
        session := { w.session with
          rbuf := some (moveAt rbuf offset (offset + len) count)
          rbufLen := rbufLen - len }
        process := w.process.checked (inside rbuf offset count && inside rbuf (offset + len) count) }

/-- `ResetRbuf`. -/
def resetRbuf (w : World) : World :=
  if w.session.rbuf.isNone then w.refuse "TCPSession::ResetRbuf(): rbuf_ is NULL"
  else
    let (rfile, process) :=
      if w.session.rpending.storage = sessionUseDisc then w.session.rfile.clear w.process
      else (w.session.rfile, w.process)
    { w with
      session := { w.session with
        rbufLen := 0
        rfile
        rhdr := w.session.rhdr.clear
        rpending := {} }
      process }

/-- `ResetWbuf`. -/
def resetWbuf (w : World) : World :=
  if w.session.wbuf.isNone then w.refuse "TCPSession::ResetWbuf(): wbuf_ is NULL"
  else
    { w with
      session := { w.session with wbufLen := 0, wfiles := [], wpending := [] }
      process := File.destroyAll w.session.wfiles w.process }

/-! ## Locking -/

variable {w : World}

/-- The world in which the incoming mutex is held. -/
def incomingLocked (w : World) : World :=
  w.onSession fun session =>
    { session with
      mutexes := { w.session.mutexes with
        incoming := true
        misused := w.session.mutexes.misused || w.session.mutexes.outgoing ||
          w.session.mutexes.incoming } }

/-- The world in which the outgoing mutex is held. -/
def outgoingLocked (w : World) : World :=
  w.onSession fun session =>
    { session with
      mutexes := { w.session.mutexes with
        outgoing := true
        misused := w.session.mutexes.misused || w.session.mutexes.outgoing } }

theorem lockIncoming_of_free (free : w.session.mutexes.incoming = false)
    (body : World → Outcome α) : w.lockIncoming body = body w.incomingLocked := by
  unfold lockIncoming
  rw [if_neg (by simp [free])]
  rfl

theorem lockIncoming_of_held (held : w.session.mutexes.incoming = true)
    (body : World → Outcome α) : w.lockIncoming body = (w.incomingLocked, none) := by
  unfold lockIncoming
  rw [if_pos held]
  rfl

theorem lockOutgoing_of_free (free : w.session.mutexes.outgoing = false)
    (body : World → Outcome α) : w.lockOutgoing body = body w.outgoingLocked := by
  unfold lockOutgoing
  rw [if_neg (by simp [free])]
  rfl

theorem lockOutgoing_of_held (held : w.session.mutexes.outgoing = true)
    (body : World → Outcome α) : w.lockOutgoing body = (w.outgoingLocked, none) := by
  unfold lockOutgoing
  rw [if_pos held]
  rfl

/-! ## Errors stay -/

theorem event_raise_eq (realm : Int) (format : String) (args : List FmtArg) (w : World) :
    (w.raise realm format args).event = true :=
  Process.event_raise ..

theorem event_refuse (format : String) (w : World) : (w.refuse format).event = true :=
  Process.event_raise ..

theorem event_onProcess_appendMsg (format : String) (args : List FmtArg) (w : World) :
    (w.onProcess (Process.appendMsg format args)).event = true :=
  Process.event_appendMsg ..

theorem event_resetWbuf (raised : w.event = true) : w.resetWbuf.event = true := by
  unfold resetWbuf
  split
  · exact event_refuse ..
  · exact File.event_destroyAll raised _

theorem event_resetRbuf (raised : w.event = true) : w.resetRbuf.event = true := by
  unfold resetRbuf
  split
  · exact event_refuse ..
  · dsimp only
    split
    · exact File.event_clear raised _
    · exact raised

end World

end IpUtils
