import IpUtils.Session.Machine

/-! # The balance of the locks

Every member takes its mutexes and gives them back before it returns. The one that does
not is `InitIncomingMsg`, when `calloc` fails.
-/

namespace IpUtils

open CLib

namespace World

variable {α : Type} {w : World}

/-- A call has used the mutexes as it should, and has released them if it has returned. -/
structure Releases (outcome : Outcome α) : Prop where
  used : outcome.1.session.mutexes.misused = false
  free : outcome.2.isSome = true → outcome.1.session.mutexes = {}

/-! ## Parts that do not touch the mutexes -/

/-- What does not touch the mutexes. -/
@[simp] theorem mutexes_onProcess (change : Process → Process) (w : World) :
    (w.onProcess change).session.mutexes = w.session.mutexes := rfl

@[simp] theorem mutexes_raise (realm : Int) (format : String) (args : List FmtArg) (w : World) :
    (w.raise realm format args).session.mutexes = w.session.mutexes := rfl

@[simp] theorem mutexes_refuse (format : String) (w : World) :
    (w.refuse format).session.mutexes = w.session.mutexes := rfl

@[simp] theorem mutexes_shiftRbuf (len offset : Int) (w : World) :
    (w.shiftRbuf len offset).session.mutexes = w.session.mutexes := by
  unfold shiftRbuf
  split <;> rfl

@[simp] theorem mutexes_resetRbuf (w : World) :
    w.resetRbuf.session.mutexes = w.session.mutexes := by
  unfold resetRbuf
  split <;> rfl

@[simp] theorem mutexes_resetWbuf (w : World) :
    w.resetWbuf.session.mutexes = w.session.mutexes := by
  unfold resetWbuf
  split <;> rfl

@[simp] theorem mutexes_takeHeader (rbuf : Bytes) (used : Nat) (chunked : ChunkBuf) (w : World) :
    (w.takeHeader rbuf used chunked).session.mutexes = w.session.mutexes := by
  unfold takeHeader
  dsimp only [onSession]
  split <;> simp

@[simp] theorem mutexes_updateFront (change : MsgInfo → MsgInfo) (w : World) :
    (w.updateFront change).session.mutexes = w.session.mutexes := rfl

@[simp] theorem mutexes_shiftWbuf (len : Int) (w : World) :
    (w.shiftWbuf len).session.mutexes = w.session.mutexes := rfl

@[simp] theorem mutexes_appendWbuf (source : Bytes) (count : Int) (w : World) :
    (w.appendWbuf source count).session.mutexes = w.session.mutexes := rfl

/-! ## Taking and returning -/

/-- A call that returns before it takes a mutex. -/
theorem Releases.of_free {value : α} (free : w.session.mutexes = {}) :
    Releases (w, some value) :=
  ⟨by rw [free], fun _ => free⟩

/-- Return from a call that has the incoming mutex. -/
theorem releases_returnIncoming (held : w.session.mutexes = { incoming := true }) (value : α) :
    Releases (w.returnIncoming value) := by
  have free : (w.returnIncoming value).1.session.mutexes = {} := by
    simp [returnIncoming, unlockIncoming, onSession, held]
  exact ⟨by rw [free], fun _ => free⟩

/-- Return from a call that has the outgoing mutex. -/
theorem releases_returnOutgoing (held : w.session.mutexes = { outgoing := true }) (value : α) :
    Releases (w.returnOutgoing value) := by
  have free : (w.returnOutgoing value).1.session.mutexes = {} := by
    simp [returnOutgoing, unlockOutgoing, onSession, held]
  exact ⟨by rw [free], fun _ => free⟩

/-- The mutex has been free, so the thread has it and no other. -/
theorem mutexes_incomingLocked (free : w.session.mutexes = {}) :
    w.incomingLocked.session.mutexes = { incoming := true } := by
  simp [incomingLocked, onSession, free]

/-- The mutex has been free, so the thread has it and no other. -/
theorem mutexes_outgoingLocked (free : w.session.mutexes = {}) :
    w.outgoingLocked.session.mutexes = { outgoing := true } := by
  simp [outgoingLocked, onSession, free]

/-- With the mutexes free a call is never kept waiting for the incoming one. -/
theorem lockIncoming_eq (free : w.session.mutexes = {}) (body : World → Outcome α) :
    w.lockIncoming body = body w.incomingLocked :=
  lockIncoming_of_free (by rw [free]) body

/-- With the mutexes free a call is never kept waiting for the outgoing one. -/
theorem lockOutgoing_eq (free : w.session.mutexes = {}) (body : World → Outcome α) :
    w.lockOutgoing body = body w.outgoingLocked :=
  lockOutgoing_of_free (by rw [free]) body

/-! ## Incoming messages -/

/-- `Read` gives the incoming mutex back, also behind an error of the connection. -/
theorem releases_read (free : w.session.mutexes = {}) (reply : SSLConn.NetRead)
    (fresh : Option Bytes) : Releases (w.read reply fresh) := by
  have held := mutexes_incomingLocked free
  unfold read
  split
  · exact .of_free free
  · rw [lockIncoming_eq free]
    dsimp only
    split
    · exact releases_returnIncoming (by simpa using held) _
    · unfold keepReceived
      dsimp only
      split
      · split
        · exact releases_returnIncoming (by simpa [onSession] using held) _
        · exact releases_returnIncoming (by simpa [onSession] using held) _
      · exact releases_returnIncoming (by simpa [onSession] using held) _

/-- `InitIncomingMsg` returns with the mutex held when `calloc` fails. -/
theorem releases_initIncomingMsg_iff (free : w.session.mutexes = {}) (env : InitEnv) :
    Releases (w.initIncomingMsg env) ↔
      (w.session.rbuf.isSome = true → w.session.rbufLen ≠ 0 → env.calloc = true) := by
  have held := mutexes_incomingLocked free
  unfold initIncomingMsg
  split
  · rename_i none_
    exact ⟨fun _ => by simp [none_], fun _ => .of_free free⟩
  · rename_i rbuf some_
    split
    · rename_i empty
      exact ⟨fun _ _ not => absurd empty not, fun _ => .of_free free⟩
    · rename_i inhabited
      rw [lockIncoming_eq free]
      cases calloc : env.calloc with
      | false =>
          refine ⟨fun releases => ?_, fun success => absurd (success (by simp [some_]) inhabited)
            (by simp)⟩
          have locked := releases.free rfl
          simp [held] at locked
      | true =>
          refine ⟨fun _ _ _ => rfl, fun _ => ?_⟩
          simp only [Bool.not_true, Bool.false_eq_true, ↓reduceIte]
          split
          · split
            · exact releases_returnIncoming (by simpa using held) _
            · exact releases_returnIncoming (by simpa using held) _
          · exact releases_returnIncoming (by simpa using held) _

/-- `StreamIncomingMsg` gives the mutex back on each of its ways out. -/
theorem releases_streamIncomingMsg (free : w.session.mutexes = {}) (reply : WriteReply) :
    Releases (w.streamIncomingMsg reply) := by
  have held := mutexes_incomingLocked free
  unfold streamIncomingMsg
  split
  · exact .of_free free
  split
  · exact .of_free free
  split
  · exact .of_free free
  rw [lockIncoming_eq free]
  dsimp only
  split
  · exact releases_returnIncoming (by simpa using held) _
  -- how much of the body there is, and whether it is complete with it
  · split
    · split
      · exact releases_returnIncoming (by simpa using held) _
      · exact releases_returnIncoming (by simpa using held) _
    · split
      · exact releases_returnIncoming (by simpa using held) _
      · exact releases_returnIncoming (by simpa using held) _

/-- `ClearIncomingMsg` gives the mutex back for either storage. -/
theorem releases_clearIncomingMsg (free : w.session.mutexes = {}) :
    Releases w.clearIncomingMsg := by
  have held := mutexes_incomingLocked free
  unfold clearIncomingMsg
  split
  · exact .of_free free
  · rw [lockIncoming_eq free]
    dsimp only [onSession]
    split
    · exact releases_returnIncoming (by simpa using held) _
    · exact releases_returnIncoming (by simpa using held) _

/-- `set_rfile` gives the mutex back, also when the file cannot be opened. -/
theorem releases_setRfile (free : w.session.mutexes = {}) (path : Option Bytes)
    (reply : OpenReply) : Releases (w.setRfile path reply) := by
  have held := mutexes_incomingLocked free
  unfold setRfile
  split
  · exact .of_free free
  split
  · exact .of_free free
  split
  · exact .of_free free
  rw [lockIncoming_eq free]
  exact releases_returnIncoming (by simpa using held) _

/-! ## Outgoing messages -/

/-- A call of `SSLConn::Write` while the mutex is held. -/
theorem releases_send {buf : Bytes} {bufLen : Int} {reply : SSLConn.NetWrite}
    {failed : World → Outcome Int} {next : Int → World → Outcome Int}
    (held : w.session.mutexes = { outgoing := true })
    (fails : ∀ w : World, w.session.mutexes = { outgoing := true } → Releases (failed w))
    (continues : ∀ sent (w : World), w.session.mutexes = { outgoing := true } →
      Releases (next sent w)) : Releases (w.send buf bufLen reply failed next) := by
  unfold send
  dsimp only
  split
  · exact ⟨by simp [held], fun returned => absurd returned (by simp)⟩
  · split
    · exact fails _ held
    · exact continues _ _ held

/-- The bytes of the front message are sent while the mutex is held. -/
theorem releases_sendFront {front : MsgInfo} {len : Int} {text : String} {reply : SSLConn.NetWrite}
    {next : Int → World → Outcome Int} (held : w.session.mutexes = { outgoing := true })
    (continues : ∀ sent (w : World), w.session.mutexes = { outgoing := true } →
      Releases (next sent w)) : Releases (w.sendFront front len text reply next) := by
  unfold sendFront
  refine releases_send (by simpa using held) (fun w held => ?_) fun sent w held => ?_
  · exact releases_returnOutgoing (by simpa using held) _
  · exact continues _ _ (by simpa using held)

/-- The piece of a file that has been read is sent and the mutex given back. -/
theorem releases_writeChunk {file : File} {front : MsgInfo} {sent : Int} {replies : WriteReplies}
    (held : w.session.mutexes = { outgoing := true }) :
    Releases (w.writeChunk file front sent replies) := by
  unfold writeChunk
  dsimp only
  split
  · exact releases_returnOutgoing (by simpa using held) _
  · split
    · exact releases_returnOutgoing (by simpa using held) _
    · refine releases_send (by simpa using held) (fun w held => ?_) fun sent w held => ?_
      · exact releases_returnOutgoing (by simpa using held) _
      · exact releases_returnOutgoing (by simpa using held) _

/-- The file of the front message is opened, read and sent, or the mutex is given back before. -/
theorem releases_writeFile {file : File} {front : MsgInfo} {sent : Int} {replies : WriteReplies}
    (held : w.session.mutexes = { outgoing := true }) :
    Releases (w.writeFile file front sent replies) := by
  unfold writeFile
  split
  · exact releases_writeChunk held
  · dsimp only
    split
    · exact releases_returnOutgoing (by simpa using held) _
    · split
      · exact releases_returnOutgoing (by simpa using held) _
      · exact releases_writeChunk (by simpa using held)

/-- A message on disc is sent, its header first. -/
theorem releases_writeDisc {front : MsgInfo} {replies : WriteReplies}
    (held : w.session.mutexes = { outgoing := true }) : Releases (w.writeDisc front replies) := by
  obtain ⟨body, continues, ends, opens⟩ := writeDisc_eq front replies w
  have releases (sent : Int) (w : World) (held : w.session.mutexes = { outgoing := true }) :
      Releases (body sent w) := by
    cases pending : w.session.wpending with
    | nil =>
        rw [ends sent w (Or.inl pending)]
        exact releases_returnOutgoing (by simpa using held) _
    | cons front others =>
        cases files : w.session.wfiles with
        | nil =>
            rw [ends sent w (Or.inr files)]
            exact releases_returnOutgoing (by simpa using held) _
        | cons file more =>
            rw [continues sent w front others file more pending files]
            split
            · exact releases_returnOutgoing held _
            · exact releases_writeFile held
  rw [opens]
  split
  · exact releases_sendFront held releases
  · exact releases 0 w held

/-- `Write` gives the outgoing mutex back for either storage. -/
theorem releases_write (free : w.session.mutexes = {}) (replies : WriteReplies) :
    Releases (w.write replies) := by
  have held := mutexes_outgoingLocked free
  unfold write
  split
  · exact .of_free free
  split
  · exact .of_free free
  split
  · exact .of_free free
  rw [lockOutgoing_eq free]
  split
  · exact releases_sendFront held fun sent w held => releases_returnOutgoing held _
  · exact releases_writeDisc held

/-- What `AddMsgBuf` and `AddMsgFile` share: the message is queued, or there is no memory for it. -/
theorem releases_enqueue {caller : String} {needed : Int} {info : MsgInfo} {whdr : MsgHdr}
    {fresh : Option Bytes} {install : World → World}
    (held : w.session.mutexes = { outgoing := true })
    (installs : ∀ w : World, (install w).session.mutexes = w.session.mutexes) :
    Releases (w.enqueue caller needed info whdr fresh install) := by
  unfold enqueue
  dsimp only [onSession]
  split
  · split
    · exact releases_returnOutgoing (by simpa using held) _
    · refine releases_returnOutgoing ?_ _
      split <;> simpa [installs] using held
  · refine releases_returnOutgoing ?_ _
    split <;> simpa [installs] using held

/-- `AddMsgBuf` gives the mutex back. -/
theorem releases_addMsgBuf (free : w.session.mutexes = {}) (framingHdr : Option Bytes) (hdrLen : Int)
    (msgBody : Bytes) (bodyLen : Int) (whdr : MsgHdr) (fresh : Option Bytes) :
    Releases (w.addMsgBuf framingHdr hdrLen msgBody bodyLen whdr fresh) := by
  unfold addMsgBuf
  split
  · exact .of_free free
  split
  · exact .of_free free
  rw [lockOutgoing_eq free]
  exact releases_enqueue (mutexes_outgoingLocked free) fun w => rfl

/-- `AddMsgFile` gives the mutex back. -/
theorem releases_addMsgFile (free : w.session.mutexes = {}) (framingHdr : Option Bytes)
    (hdrLen : Int) (msgBody : File) (bodyLen : Int) (whdr : MsgHdr) (fresh : Option Bytes) :
    Releases (w.addMsgFile framingHdr hdrLen msgBody bodyLen whdr fresh) := by
  unfold addMsgFile
  split
  · exact .of_free free
  split
  · exact .of_free free
  rw [lockOutgoing_eq free]
  exact releases_enqueue (mutexes_outgoingLocked free) fun w => rfl

/-- `PopOutgoingMsgQueue` gives the mutex back, also when the queue is empty. -/
theorem releases_popOutgoingMsgQueue (free : w.session.mutexes = {}) :
    Releases w.popOutgoingMsgQueue := by
  have held := mutexes_outgoingLocked free
  unfold popOutgoingMsgQueue
  split
  · exact .of_free free
  split
  · exact .of_free free
  rw [lockOutgoing_eq free]
  dsimp only [onSession]
  split
  · exact releases_returnOutgoing (by simpa using held) _
  · exact releases_returnOutgoing (by simpa using held) _

/-- `Init` takes no mutex. -/
theorem releases_init (free : w.session.mutexes = {}) (rbuf : Bool) (wbuf : Option Bytes) :
    Releases (w.init rbuf wbuf) := by
  unfold init
  split
  · exact .of_free free
  split
  · exact .of_free free
  split
  · exact .of_free free
  · dsimp only
    split
    · exact .of_free free
    · exact .of_free free

/-! ## All calls -/

/-- `set_connected` takes the incoming mutex, then the outgoing one, and gives both back. -/
theorem releases_setConnected (free : w.session.mutexes = {}) (connected : Bool) :
    Releases (w.setConnected connected) := by
  have held := mutexes_incomingLocked free
  unfold setConnected
  rw [lockIncoming_eq free, lockOutgoing_of_free (by rw [held])]
  refine releases_returnIncoming ?_ _
  simp [unlockOutgoing, outgoingLocked, onSession, held]

/-- `set_storage` gives the mutex back. -/
theorem releases_setStorage (free : w.session.mutexes = {}) (storage : UInt8) :
    Releases (w.setStorage storage) := by
  unfold setStorage
  rw [lockIncoming_eq free]
  exact releases_returnIncoming (by exact mutexes_incomingLocked free) _

/-- `set_rtid` gives the mutex back. -/
theorem releases_setRtid (free : w.session.mutexes = {}) (rtid : Nat) :
    Releases (w.setRtid rtid) := by
  unfold setRtid
  rw [lockIncoming_eq free]
  exact releases_returnIncoming (by exact mutexes_incomingLocked free) _

/-- `delete_whdr` gives the mutex back. -/
theorem releases_deleteWhdr (free : w.session.mutexes = {}) (msgId : UInt16) :
    Releases (w.deleteWhdr msgId) := by
  unfold deleteWhdr
  rw [lockOutgoing_eq free]
  exact releases_returnOutgoing (by exact mutexes_outgoingLocked free) _

/-- What the state behind a call says, whether it has returned or not. -/
theorem releases_iff_settle (outcome : Outcome α) :
    Releases outcome ↔ (settle outcome).1.session.mutexes.misused = false ∧
      ((settle outcome).2 = true → (settle outcome).1.session.mutexes = {}) :=
  ⟨fun releases => ⟨releases.used, releases.free⟩, fun given => ⟨given.1, given.2⟩⟩

/-- A call that is not one of `InitIncomingMsg`. -/
theorem iff_of_releases {outcome : Outcome α} {call : Call} {condition : InitEnv → Prop}
    (releases : Releases outcome) (other : ∀ env, call ≠ .initIncomingMsg env) :
    ((settle outcome).1.session.mutexes.misused = false ∧
        ((settle outcome).2 = true → (settle outcome).1.session.mutexes = {})) ↔
      ∀ env, call = .initIncomingMsg env → condition env :=
  ⟨fun _ env same => absurd same (other env), fun _ => (releases_iff_settle outcome).mp releases⟩

/-- A call that takes a mutex uses it as it should and gives it back. The one exception is a
call of `InitIncomingMsg` for which `calloc` fails. -/
theorem step_releases_iff (free : w.session.mutexes = {}) (call : Call) :
    ((World.step call w).1.session.mutexes.misused = false ∧
        ((World.step call w).2 = true → (World.step call w).1.session.mutexes = {})) ↔
      ∀ env, call = .initIncomingMsg env → w.session.rbuf.isSome = true → w.session.rbufLen ≠ 0 →
        env.calloc = true := by
  cases call with
  | initIncomingMsg env =>
      refine (releases_iff_settle (w.initIncomingMsg env)).symm.trans
        ((releases_initIncomingMsg_iff free env).trans ⟨fun given other same => ?_, fun given => given env rfl⟩)
      obtain rfl := Call.initIncomingMsg.inj same
      exact given
  | init rbuf wbuf => exact iff_of_releases (releases_init free rbuf wbuf) nofun
  | read reply fresh => exact iff_of_releases (releases_read free reply fresh) nofun
  | streamIncomingMsg reply => exact iff_of_releases (releases_streamIncomingMsg free reply) nofun
  | clearIncomingMsg => exact iff_of_releases (releases_clearIncomingMsg free) nofun
  | setRfile path reply => exact iff_of_releases (releases_setRfile free path reply) nofun
  | setStorage storage => exact iff_of_releases (releases_setStorage free storage) nofun
  | setRtid rtid => exact iff_of_releases (releases_setRtid free rtid) nofun
  | setConnected connected => exact iff_of_releases (releases_setConnected free connected) nofun
  | deleteWhdr msgId => exact iff_of_releases (releases_deleteWhdr free msgId) nofun
  | addMsgBuf framingHdr hdrLen msgBody bodyLen whdr fresh =>
      exact iff_of_releases
        (releases_addMsgBuf free framingHdr hdrLen msgBody bodyLen whdr fresh) nofun
  | addMsgFile framingHdr hdrLen msgBody bodyLen whdr fresh =>
      exact iff_of_releases
        (releases_addMsgFile free framingHdr hdrLen msgBody bodyLen whdr fresh) nofun
  | write replies => exact iff_of_releases (releases_write free replies) nofun
  | popOutgoingMsgQueue => exact iff_of_releases (releases_popOutgoingMsgQueue free) nofun
  | clearError =>
      have kept : ({ w with process := { w.process with error := w.process.error.clear } } :
          World).session.mutexes = {} := free
      exact iff_of_releases (@Releases.of_free Unit _ () kept) nofun

/-- A new session that has received one byte. -/
def receivedByte : World :=
  (World.step (.read { tcp := .received (ascii "H") } none)
    ((TCPSession.create MsgHdr.typeHttp { connected := true } {}).init true (some [])).1).1

/-- One byte is too little for a header, and `InitIncomingMsg` gives the mutex back. -/
theorem step_releases_iff_sample :
    (World.step (.initIncomingMsg {}) receivedByte).1.session.mutexes.misused = false ∧
      ((World.step (.initIncomingMsg {}) receivedByte).2 = true →
        (World.step (.initIncomingMsg {}) receivedByte).1.session.mutexes = {}) := by
  have free : receivedByte.session.mutexes = {} := by decide +kernel
  refine (step_releases_iff free (.initIncomingMsg {})).mpr fun env same _ _ => ?_
  obtain rfl := Call.initIncomingMsg.inj same
  rfl

/-- `calloc` fails, and `InitIncomingMsg` returns with the mutex held. -/
theorem initIncomingMsg_keeps_mutex :
    receivedByte.session.mutexes = {} ∧
      (World.step (.initIncomingMsg { calloc := false }) receivedByte).2 = true ∧
      (World.step (.initIncomingMsg { calloc := false }) receivedByte).1.session.mutexes.incoming =
        true := by
  decide +kernel

end World

end IpUtils
