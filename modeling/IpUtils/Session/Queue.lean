import IpUtils.Session.Machine
import Mathlib.Data.List.Forall2

/-! # What the queue of outgoing messages stands for

`wbuf_`, `wpending_` and `wfiles_` describe one list of messages between them. Adding a
message puts it behind the others, removing one takes the first, and a call of `Write`
leaves the list alone or, after an error, makes it empty.
-/

namespace IpUtils

open CLib

/-- The body of an outgoing message. -/
inductive OutBody where
  | memory (bytes : Bytes)
  | disc (file : File) (length : Int)
  deriving DecidableEq, Repr

/-- An outgoing message. -/
structure OutMsg where
  hdr : Bytes
  body : OutBody
  deriving DecidableEq, Repr

namespace OutMsg

/-- What of a message stands in `wbuf_`. -/
def buffered (msg : OutMsg) : Bytes :=
  match msg.body with
  | .memory bytes => msg.hdr ++ bytes
  | .disc _ _ => msg.hdr

/-- The file with the body of a message. -/
def file? (msg : OutMsg) : Option File :=
  match msg.body with
  | .memory _ => none
  | .disc file _ => some file

def storage (msg : OutMsg) : UInt8 :=
  match msg.body with
  | .memory _ => sessionUseMem
  | .disc _ _ => sessionUseDisc

def bodyLen (msg : OutMsg) : Int :=
  match msg.body with
  | .memory bytes => bytes.length
  | .disc _ length => length

/-- An entry of `wpending_` describes a message. -/
structure Describes (info : MsgInfo) (msg : OutMsg) : Prop where
  storage : info.storage = msg.storage
  hdrLen : info.hdrLen = msg.hdr.length
  bodyLen : info.bodyLen = msg.bodyLen

end OutMsg

/-- Nothing of a message has been sent. -/
def MsgInfo.Untouched (info : MsgInfo) : Prop :=
  info.bufOffset = 0 ∧ info.fileOffset = 0

/-- The bytes in use of `wbuf_`. -/
structure Filled (session : TCPSession) (bytes : Bytes) : Prop where
  buffer : ∃ wbuf, session.wbuf = some wbuf ∧ (wbuf.length : Int) = session.wbufSize ∧
    bytes <+: wbuf
  len : session.wbufLen = bytes.length

/-- The buffers of a session hold a list of messages. -/
structure Queued (session : TCPSession) (queue : List OutMsg) : Prop where
  filled : Filled session (queue.flatMap OutMsg.buffered)
  entries : List.Forall₂ OutMsg.Describes session.wpending queue
  files : session.wfiles = queue.filterMap OutMsg.file?
  untouched : ∀ info ∈ session.wpending.tail, info.Untouched

variable {session after : TCPSession} {queue : List OutMsg}

/-- The parts of a session that hold outgoing messages are the same. -/
structure SameQueue (session after : TCPSession) : Prop where
  wbuf : after.wbuf = session.wbuf
  wbufSize : after.wbufSize = session.wbufSize
  wbufLen : after.wbufLen = session.wbufLen
  wpending : after.wpending = session.wpending
  wfiles : after.wfiles = session.wfiles

theorem SameQueue.filled (same : SameQueue session after) {bytes : Bytes}
    (filled : Filled session bytes) : Filled after bytes where
  buffer := by
    rw [same.wbuf, same.wbufSize]
    exact filled.buffer
  len := same.wbufLen.trans filled.len

theorem SameQueue.queued (same : SameQueue session after) (queued : Queued session queue) :
    Queued after queue where
  filled := same.filled queued.filled
  entries := same.wpending ▸ queued.entries
  files := same.wfiles.trans queued.files
  untouched := same.wpending ▸ queued.untouched

namespace World

theorem wpending_updateFront_nil {w : World} (pending : w.session.wpending = [])
    (change : MsgInfo → MsgInfo) : (w.updateFront change).session.wpending = [] := by
  simp only [updateFront, onSession, pending]

theorem updateFront_cons {w : World} {front : MsgInfo} {others : List MsgInfo}
    (pending : w.session.wpending = front :: others) (change : MsgInfo → MsgInfo) :
    w.updateFront change =
      { w with session := { w.session with wpending := change front :: others } } := by
  simp only [updateFront, onSession, pending]

theorem wpending_updateFront_cons {w : World} {front : MsgInfo} {others : List MsgInfo}
    (pending : w.session.wpending = front :: others) (change : MsgInfo → MsgInfo) :
    (w.updateFront change).session.wpending = change front :: others := by
  simp only [updateFront, onSession, pending]

end World

namespace Queued

/-- The buffer is large enough for what it holds. -/
theorem len_le_size (queued : Queued session queue) : session.wbufLen ≤ session.wbufSize := by
  obtain ⟨wbuf, -, size, within⟩ := queued.filled.buffer
  rw [queued.filled.len, ← size]
  exact_mod_cast within.length_le

/-- The bytes in use are those of the messages. -/
theorem take_wbuf (queued : Queued session queue) :
    (session.wbuf.getD []).take session.wbufLen.toNat = queue.flatMap OutMsg.buffered := by
  obtain ⟨wbuf, held, -, within⟩ := queued.filled.buffer
  rw [held, queued.filled.len, Int.toNat_natCast]
  exact (List.prefix_iff_eq_take.mp within).symm

/-- A change of the offsets of the front message. -/
theorem updateFront {w : World} (queued : Queued w.session queue) {change : MsgInfo → MsgInfo}
    (offsets : ∀ info msg, OutMsg.Describes info msg → OutMsg.Describes (change info) msg) :
    Queued (w.updateFront change).session queue where
  filled := ⟨queued.filled.buffer, queued.filled.len⟩
  files := queued.files
  entries := by
    have entries := queued.entries
    cases pending : w.session.wpending with
    | nil =>
        rw [pending] at entries
        rw [World.wpending_updateFront_nil pending]
        exact entries
    | cons front others =>
        rw [pending] at entries
        rw [World.wpending_updateFront_cons pending]
        cases entries with
        | cons first rest => exact .cons (offsets _ _ first) rest
  untouched := by
    have untouched := queued.untouched
    cases pending : w.session.wpending with
    | nil =>
        rw [World.wpending_updateFront_nil pending]
        simp
    | cons front others =>
        rw [pending] at untouched
        rw [World.wpending_updateFront_cons pending]
        exact untouched

/-- Nothing is left after a reset. -/
theorem resetWbuf {w : World} (queued : Queued w.session queue) :
    Queued w.resetWbuf.session [] := by
  obtain ⟨wbuf, held, size, -⟩ := queued.filled.buffer
  have some_ : w.session.wbuf.isNone = false := by rw [held]; rfl
  rw [World.resetWbuf, some_]
  exact ⟨⟨⟨wbuf, held, size, List.nil_prefix⟩, rfl⟩, .nil, rfl, by simp⟩

/-- The queue with one more message. -/
theorem enqueue (queued : Queued session queue) {msg : OutMsg} {info : MsgInfo}
    (describes : OutMsg.Describes info msg) (untouched : info.Untouched)
    (filled : Filled after (queue.flatMap OutMsg.buffered ++ msg.buffered))
    (pending : after.wpending = session.wpending ++ [info])
    (files : after.wfiles = session.wfiles ++ msg.file?.toList) :
    Queued after (queue ++ [msg]) where
  filled := by simpa using filled
  entries := by
    rw [pending]
    exact List.rel_append queued.entries (.cons describes .nil)
  files := by
    rw [files, queued.files]
    cases file : msg.file? <;> simp [file]
  untouched := by
    rw [pending]
    intro other member
    cases entries : session.wpending with
    | nil =>
        rw [entries] at member
        simp at member
    | cons front others =>
        rw [entries] at member
        rcases List.mem_append.mp member with old | new
        · exact queued.untouched other (by rw [entries]; exact old)
        · rw [List.mem_singleton.mp new]
          exact untouched

end Queued

/-! ## Write -/

/-- The messages that a session holds stay, or all are gone. -/
def KeepsQueue (session after : TCPSession) : Prop :=
  ∀ queue, Queued session queue → Queued after queue ∨ Queued after []

namespace KeepsQueue

theorem refl (session : TCPSession) : KeepsQueue session session :=
  fun _ queued => Or.inl queued

theorem trans {last : TCPSession} (first : KeepsQueue session after)
    (second : KeepsQueue after last) : KeepsQueue session last := by
  intro queue queued
  rcases first queue queued with same | none_
  · exact second queue same
  · exact Or.inr ((second [] none_).elim id id)

theorem same {last : TCPSession} (keeps : KeepsQueue session after)
    (same : SameQueue after last) : KeepsQueue session last :=
  keeps.trans fun _ queued => Or.inl (same.queued queued)

theorem resetWbuf {w : World} (keeps : KeepsQueue session w.session) :
    KeepsQueue session w.resetWbuf.session :=
  keeps.trans fun _ queued => Or.inr queued.resetWbuf

theorem updateFront {w : World} (keeps : KeepsQueue session w.session)
    {change : MsgInfo → MsgInfo}
    (offsets : ∀ info msg, OutMsg.Describes info msg → OutMsg.Describes (change info) msg) :
    KeepsQueue session (w.updateFront change).session :=
  keeps.trans fun _ queued => Or.inl (queued.updateFront offsets)

end KeepsQueue

namespace World

variable {w : World}

theorem sameQueue_mutexes (mutexes : Mutexes) (session : TCPSession) :
    SameQueue session { session with mutexes } :=
  ⟨rfl, rfl, rfl, rfl, rfl⟩

theorem keepsQueue_returnOutgoing {α : Type} (value : α) (keeps : KeepsQueue session w.session) :
    KeepsQueue session (w.returnOutgoing value).1.session :=
  keeps.same (sameQueue_mutexes _ _)

/-- A call of `SSLConn::Write` does not touch the queue; what follows may. -/
theorem keepsQueue_send {buf : Bytes} {bufLen : Int} {reply : SSLConn.NetWrite}
    {failed : World → Outcome Int} {next : Int → World → Outcome Int}
    (start : KeepsQueue session w.session)
    (onFailure : ∀ w', KeepsQueue session w'.session → KeepsQueue session (failed w').1.session)
    (onNext : ∀ value w', KeepsQueue session w'.session →
      KeepsQueue session (next value w').1.session) :
    KeepsQueue session (w.send buf bufLen reply failed next).1.session := by
  have sent (conn : SSLConn) : KeepsQueue session { w.session with conn } :=
    start.same ⟨rfl, rfl, rfl, rfl, rfl⟩
  unfold send
  dsimp only
  split
  · exact sent _
  · split
    · exact onFailure _ (sent _)
    · exact onNext _ _ (sent _)

theorem keepsQueue_sendFront {front : MsgInfo} {len : Int} {text : String}
    {reply : SSLConn.NetWrite} {next : Int → World → Outcome Int}
    (start : KeepsQueue session w.session)
    (onNext : ∀ value w', KeepsQueue session w'.session →
      KeepsQueue session (next value w').1.session) :
    KeepsQueue session (w.sendFront front len text reply next).1.session := by
  refine keepsQueue_send start (fun w' kept => ?_) (fun value w' kept => ?_)
  · exact keepsQueue_returnOutgoing _ (KeepsQueue.resetWbuf kept)
  · exact onNext _ _ (kept.updateFront fun info msg describes =>
      ⟨describes.storage, describes.hdrLen, describes.bodyLen⟩)

theorem keepsQueue_writeChunk {file : File} {front : MsgInfo} {sent : Int}
    {replies : WriteReplies} (start : KeepsQueue session w.session) :
    KeepsQueue session (w.writeChunk file front sent replies).1.session := by
  unfold writeChunk
  dsimp only
  split
  · exact keepsQueue_returnOutgoing _ (KeepsQueue.resetWbuf start)
  · split
    · exact keepsQueue_returnOutgoing _ (KeepsQueue.resetWbuf start)
    · refine keepsQueue_send start (fun w' kept => ?_) (fun value w' kept => ?_)
      · exact keepsQueue_returnOutgoing _ (KeepsQueue.resetWbuf kept)
      · exact keepsQueue_returnOutgoing _ (kept.updateFront fun info msg describes =>
          ⟨describes.storage, describes.hdrLen, describes.bodyLen⟩)

theorem keepsQueue_writeFile {file : File} {front : MsgInfo} {sent : Int}
    {replies : WriteReplies} (start : KeepsQueue session w.session) :
    KeepsQueue session (w.writeFile file front sent replies).1.session := by
  unfold writeFile
  split
  · exact keepsQueue_writeChunk start
  · dsimp only
    split
    · exact keepsQueue_returnOutgoing _ (KeepsQueue.resetWbuf start)
    · split
      · exact keepsQueue_returnOutgoing _ (KeepsQueue.resetWbuf start)
      · exact keepsQueue_writeChunk start

/-- `Write` leaves the messages alone or, after an error, removes them all. -/
theorem keepsQueue_writeDisc {front : MsgInfo} {replies : WriteReplies}
    (keeps : KeepsQueue session w.session) :
    KeepsQueue session (w.writeDisc front replies).1.session := by
  obtain ⟨body, continues, ends, opens⟩ := writeDisc_eq front replies w
  have kept (sent : Int) (w : World) (keeps : KeepsQueue session w.session) :
      KeepsQueue session (body sent w).1.session := by
    cases pending : w.session.wpending with
    | nil =>
        rw [ends sent w (Or.inl pending)]
        exact keepsQueue_returnOutgoing _ keeps
    | cons front others =>
        cases files : w.session.wfiles with
        | nil =>
            rw [ends sent w (Or.inr files)]
            exact keepsQueue_returnOutgoing _ keeps
        | cons file more =>
            rw [continues sent w front others file more pending files]
            split
            · exact keepsQueue_returnOutgoing _ keeps
            · exact keepsQueue_writeFile keeps
  rw [opens]
  split
  · exact keepsQueue_sendFront keeps kept
  · exact kept 0 w keeps

theorem keepsQueue_write (replies : WriteReplies) (w : World) :
    KeepsQueue w.session (w.write replies).1.session := by
  have locked (mutexes : Mutexes) : KeepsQueue w.session { w.session with mutexes } :=
    (KeepsQueue.refl _).same (sameQueue_mutexes _ _)
  unfold write
  split
  · exact KeepsQueue.refl _
  · split
    · exact KeepsQueue.refl _
    · split
      · exact KeepsQueue.refl _
      · unfold lockOutgoing
        dsimp only
        split
        · exact locked _
        · split
          · exact keepsQueue_sendFront (locked _) fun value w' kept =>
              keepsQueue_returnOutgoing _ kept
          · exact keepsQueue_writeDisc (locked _)

/-! ## Adding a message -/

/-- What a call does not do: send, raise an error or touch the connection. -/
structure Undisturbed (w after : World) : Prop where
  wire : after.wire = w.wire
  conn : after.session.conn = w.session.conn
  event : after.event = w.event

theorem Undisturbed.trans {middle last : World} (first : Undisturbed w middle)
    (second : Undisturbed middle last) : Undisturbed w last :=
  ⟨second.wire.trans first.wire, second.conn.trans first.conn, second.event.trans first.event⟩

theorem filled_appendWbuf {bytes source : Bytes} (filled : Filled w.session bytes)
    (room : (bytes.length : Int) + source.length ≤ w.session.wbufSize) :
    Filled (w.appendWbuf source source.length).session (bytes ++ source) := by
  obtain ⟨wbuf, held, size, within⟩ := filled.buffer
  have stored := @prefix_storeAt _ _ source within (by omega)
  refine ⟨⟨storeAt wbuf bytes.length source, ?_, ?_, stored⟩, ?_⟩
  · simp only [appendWbuf, held, Option.getD_some, filled.len, sliceAt_self]
  · rw [length_storeAt]
    exact size
  · simp only [appendWbuf, filled.len, List.length_append]
    omega

theorem undisturbed_appendWbuf (source : Bytes) (count : Int) (w : World) :
    Undisturbed w (w.appendWbuf source count) :=
  ⟨rfl, rfl, rfl⟩

/-- Adding a message succeeds, or there is an error and the queue is as before. -/
theorem enqueue_spec {caller : String} {msg : OutMsg} {info : MsgInfo} {whdr : MsgHdr}
    {fresh : Option Bytes} {install : World → World} (queued : Queued w.session queue)
    (describes : OutMsg.Describes info msg) (untouched : info.Untouched)
    (installs : ∀ w' bytes, Filled w'.session bytes →
      (bytes.length : Int) + msg.buffered.length ≤ w'.session.wbufSize →
      Filled (install w').session (bytes ++ msg.buffered) ∧
        (install w').session.wpending = w'.session.wpending ∧
        (install w').session.wfiles = w'.session.wfiles ++ msg.file?.toList ∧
        Undisturbed w' (install w')) :
    ∃ after, (w.enqueue caller msg.buffered.length info whdr fresh install = (after, some true) ∧
          Queued after.session (queue ++ [msg]) ∧ Undisturbed w after ∧
          after.session.wpending = w.session.wpending ++ [info] ∨
        w.enqueue caller msg.buffered.length info whdr fresh install = (after, some false) ∧
          SameQueue w.session after.session ∧ after.event = true) ∧
      after.session.mutexes.outgoing = false := by
  have entered (w' : World) (same : w'.session.wpending = w.session.wpending)
      (files : w'.session.wfiles = w.session.wfiles)
      (filled : Filled w'.session (queue.flatMap OutMsg.buffered))
      (room : ((queue.flatMap OutMsg.buffered).length : Int) + msg.buffered.length ≤
        w'.session.wbufSize) (quiet : Undisturbed w w') :
      let entry := w'.onSession fun session => { session with wpending := session.wpending ++ [info] }
      let installed := (install entry).onSession fun session =>
        if whdr.isMsgRequest then { session with whdrs := session.whdrs ++ [whdr] } else session
      Queued installed.unlockOutgoing.session (queue ++ [msg]) ∧
        Undisturbed w installed.unlockOutgoing ∧
        installed.unlockOutgoing.session.wpending = w.session.wpending ++ [info] := by
    intro entry installed
    obtain ⟨full, pending, stored, still⟩ := installs entry _ ⟨filled.buffer, filled.len⟩ room
    have last : SameQueue (install entry).session installed.unlockOutgoing.session := by
      simp only [installed, onSession, unlockOutgoing]
      split <;> exact ⟨rfl, rfl, rfl, rfl, rfl⟩
    have behind : (install entry).session.wpending = w.session.wpending ++ [info] := by
      rw [pending, ← same]
      rfl
    refine ⟨last.queued (queued.enqueue describes untouched full behind ?_), quiet.trans ?_,
      last.wpending.trans behind⟩
    · rw [stored, ← files]
      rfl
    · have start : Undisturbed w' entry := ⟨rfl, rfl, rfl⟩
      have finish : Undisturbed (install entry) installed.unlockOutgoing := by
        simp only [installed, onSession, unlockOutgoing]
        split <;> exact ⟨rfl, rfl, rfl⟩
      exact start.trans (still.trans finish)
  have enough := queued.len_le_size
  have len := queued.filled.len
  unfold enqueue
  dsimp only
  split
  · rename_i full
    split
    · exact ⟨_, Or.inr ⟨rfl, ⟨rfl, rfl, rfl, rfl, rfl⟩, by simp [event, raise, onProcess,
        unlockOutgoing, onSession]⟩, rfl⟩
    · rename_i wbuf grown
      obtain ⟨old, held, size, within⟩ := queued.filled.buffer
      rw [held, Option.getD_some] at grown
      have length := length_reallocate grown
      have larger : old.length ≤
          ((msg.buffered.length : Int) + w.session.wbufLen + kDefaultBufSize).toNat := by omega
      obtain ⟨done_, quiet, pending⟩ := entered (w.onSession fun session =>
          { session with
            wbuf := some wbuf
            wbufSize := (msg.buffered.length : Int) + w.session.wbufLen + kDefaultBufSize })
        rfl rfl ⟨⟨wbuf, rfl, by simp only [onSession]; omega, prefix_reallocate grown larger within⟩, len⟩
        (by simp only [onSession]; omega) ⟨rfl, rfl, rfl⟩
      exact ⟨_, Or.inl ⟨rfl, done_, quiet, pending⟩, rfl⟩
  · obtain ⟨done_, quiet, pending⟩ := entered w rfl rfl queued.filled (by omega) ⟨rfl, rfl, rfl⟩
    exact ⟨_, Or.inl ⟨rfl, done_, quiet, pending⟩, rfl⟩

/-- The outcome of adding a message. Without a value the mutex was held. -/
inductive Adds (w : World) (queue : List OutMsg) (msg : OutMsg) : Outcome Bool → Prop
  | added {after : World} (queued : Queued after.session (queue ++ [msg]))
      (quiet : Undisturbed w after) {info : MsgInfo} (untouched : info.Untouched)
      (pending : after.session.wpending = w.session.wpending ++ [info])
      (was : w.session.mutexes.outgoing = false)
      (free : after.session.mutexes.outgoing = false) : Adds w queue msg (after, some true)
  | refused {after : World} (same : SameQueue w.session after.session)
      (event : after.event = true) : Adds w queue msg (after, some false)
  | hung {after : World} (same : SameQueue w.session after.session) (quiet : Undisturbed w after)
      (held : w.session.mutexes.outgoing = true)
      (still : after.session.mutexes.outgoing = true) : Adds w queue msg (after, none)

theorem Adds.of_enqueue {caller : String} {msg : OutMsg} {info : MsgInfo} {whdr : MsgHdr}
    {fresh : Option Bytes} {install : World → World} (queued : Queued w.session queue)
    (describes : OutMsg.Describes info msg) (untouched : info.Untouched)
    (installs : ∀ w' bytes, Filled w'.session bytes →
      (bytes.length : Int) + msg.buffered.length ≤ w'.session.wbufSize →
      Filled (install w').session (bytes ++ msg.buffered) ∧
        (install w').session.wpending = w'.session.wpending ∧
        (install w').session.wfiles = w'.session.wfiles ++ msg.file?.toList ∧
        Undisturbed w' (install w')) :
    Adds w queue msg (w.lockOutgoing fun w =>
      w.enqueue caller msg.buffered.length info whdr fresh install) := by
  unfold lockOutgoing
  dsimp only
  split
  · rename_i held
    exact .hung ⟨rfl, rfl, rfl, rfl, rfl⟩ ⟨rfl, rfl, rfl⟩ held rfl
  · rename_i free
    have locked : Queued ((w.onSession fun session =>
        { session with mutexes := { w.session.mutexes with
            outgoing := true
            misused := w.session.mutexes.misused || w.session.mutexes.outgoing } }).session) queue :=
      (sameQueue_mutexes _ _).queued queued
    obtain ⟨after, added | refused, unlocked⟩ := @enqueue_spec _ _ caller msg info whdr
      fresh install locked describes untouched installs
    · rw [added.1]
      exact .added added.2.1 ⟨added.2.2.1.wire, added.2.2.1.conn, added.2.2.1.event⟩ untouched
        added.2.2.2 (by simpa using free) unlocked
    · rw [refused.1]
      exact .refused ⟨refused.2.1.wbuf, refused.2.1.wbufSize, refused.2.1.wbufLen,
        refused.2.1.wpending, refused.2.1.wfiles⟩ refused.2.2

/-- A call that is refused for the way it is made. -/
theorem Adds.of_refuse {msg : OutMsg} (format : String) :
    Adds w queue msg (w.refuse format, some false) :=
  .refused ⟨rfl, rfl, rfl, rfl, rfl⟩ (by simp [event, refuse, raise, onProcess])

/-- The spec of `AddMsgBuf`. -/
theorem adds_addMsgBuf (queued : Queued w.session queue) (framingHdr : Option Bytes) (body : Bytes)
    (whdr : MsgHdr) (fresh : Option Bytes) :
    Adds w queue { hdr := framingHdr.getD [], body := .memory body }
      (w.addMsgBuf framingHdr (framingHdr.getD []).length body body.length whdr fresh) := by
  unfold addMsgBuf
  split
  · exact .of_refuse _
  split
  · exact .of_refuse _
  have size : ((framingHdr.getD []).length : Int) + body.length =
      (OutMsg.buffered { hdr := framingHdr.getD [], body := .memory body }).length := by
    simp [OutMsg.buffered]
  rw [size]
  refine .of_enqueue queued ⟨rfl, rfl, rfl⟩ ⟨rfl, rfl⟩ fun w' bytes filled room => ?_
  rw [← size] at room
  have front := @filled_appendWbuf _ _ (framingHdr.getD []) filled (by omega)
  have both := @filled_appendWbuf _ _ body front (by
    rw [List.length_append]
    change _ ≤ w'.session.wbufSize
    omega)
  rw [List.append_assoc] at both
  exact ⟨both, rfl, (List.append_nil _).symm, (undisturbed_appendWbuf _ _ _).trans
    (undisturbed_appendWbuf _ _ _)⟩

/-- The spec of `AddMsgFile`. -/
theorem adds_addMsgFile (queued : Queued w.session queue) (framingHdr : Option Bytes) (file : File)
    (length : Int) (whdr : MsgHdr) (fresh : Option Bytes) :
    Adds w queue { hdr := framingHdr.getD [], body := .disc file length }
      (w.addMsgFile framingHdr (framingHdr.getD []).length file length whdr fresh) := by
  unfold addMsgFile
  split
  · exact .of_refuse _
  split
  · exact .of_refuse _
  have size : ((framingHdr.getD []).length : Int) =
      (OutMsg.buffered { hdr := framingHdr.getD [], body := .disc file length }).length := rfl
  conv in w.lockOutgoing _ => rw [size]
  refine .of_enqueue queued ⟨rfl, rfl, rfl⟩ ⟨rfl, rfl⟩ fun w' bytes filled room => ?_
  have front := @filled_appendWbuf _ _ (framingHdr.getD []) filled room
  exact ⟨⟨front.buffer, front.len⟩, rfl, rfl, ⟨rfl, rfl, rfl⟩⟩

/-! ## Removing a message -/

theorem filled_shiftWbuf {front back : Bytes} (filled : Filled w.session (front ++ back)) :
    Filled (w.shiftWbuf front.length).session back := by
  obtain ⟨wbuf, held, size, within⟩ := filled.buffer
  have count : w.session.wbufLen - (front.length : Int) = back.length := by
    rw [filled.len, List.length_append]
    omega
  refine ⟨⟨moveAt wbuf 0 front.length back.length, ?_, ?_, prefix_moveAt within⟩, ?_⟩
  · simp only [shiftWbuf, held, Option.getD_some, count]
  · rw [length_moveAt]
    exact size
  · simp only [shiftWbuf, count]

theorem wfiles_eraseFront (files : List File) (process : Process) :
    (File.eraseFront files process).1 = files.tail := by
  match files with
  | [] | [_] | _ :: _ :: _ => rfl

/-- The spec of `PopOutgoingMsgQueue` when there is a message: it is gone, or the mutex
was held. -/
theorem queued_popOutgoingMsgQueue {msg : OutMsg} {others : List OutMsg}
    (queued : Queued w.session (msg :: others)) :
    (w.popOutgoingMsgQueue.2 = some () ∧ Queued w.popOutgoingMsgQueue.1.session others ∧
        w.session.mutexes.outgoing = false ∧
        w.popOutgoingMsgQueue.1.session.mutexes.outgoing = false ∧
        w.popOutgoingMsgQueue.1.session.conn = w.session.conn ∧
        w.popOutgoingMsgQueue.1.session.wpending = w.session.wpending.tail ∨
      w.popOutgoingMsgQueue.2 = none ∧ SameQueue w.session w.popOutgoingMsgQueue.1.session ∧
        Undisturbed w w.popOutgoingMsgQueue.1 ∧ w.session.mutexes.outgoing = true ∧
        w.popOutgoingMsgQueue.1.session.mutexes.outgoing = true) ∧
      w.popOutgoingMsgQueue.1.wire = w.wire := by
  obtain ⟨wbuf, held, -, -⟩ := queued.filled.buffer
  have some_ : w.session.wbuf.isNone = false := by rw [held]; rfl
  have entries := queued.entries
  have untouched := queued.untouched
  have files := queued.files
  cases pending : w.session.wpending with
  | nil =>
      rw [pending] at entries
      cases entries
  | cons front rest =>
      rw [pending] at entries untouched
      cases entries with
      | cons describes behind =>
          rw [popOutgoingMsgQueue, some_, if_neg (by simp), pending]
          dsimp only
          unfold lockOutgoing
          dsimp only
          split
          · rename_i isHeld
            exact ⟨Or.inr ⟨rfl, ⟨rfl, rfl, rfl, pending ▸ rfl, rfl⟩, ⟨rfl, rfl, rfl⟩, isHeld, rfl⟩, rfl⟩
          · rename_i isFree
            have filled : Filled (w.onSession fun session =>
                { session with mutexes := { w.session.mutexes with
                    outgoing := true
                    misused := w.session.mutexes.misused || w.session.mutexes.outgoing } }).session
                (msg.buffered ++ others.flatMap OutMsg.buffered) :=
              ⟨queued.filled.buffer, queued.filled.len⟩
            have shifted := filled_shiftWbuf filled
            have rest' : ∀ info ∈ rest.tail, info.Untouched := fun info member =>
              untouched info (List.mem_of_mem_tail member)
            obtain ⟨hdr, body⟩ := msg
            cases body with
            | memory bytes =>
                have storage : front.storage = sessionUseMem := describes.storage
                have left : w.session.wfiles = others.filterMap OutMsg.file? := files
                have size : front.hdrLen + front.bodyLen =
                    (OutMsg.buffered { hdr, body := .memory bytes }).length := by
                  rw [describes.hdrLen, describes.bodyLen]
                  simp [OutMsg.buffered, OutMsg.bodyLen]
                rw [if_pos storage, size]
                refine ⟨Or.inl ⟨rfl, ⟨⟨shifted.buffer, shifted.len⟩, ?_, ?_, ?_⟩,
                  by simpa using isFree, rfl, rfl,
                  by simp [returnOutgoing, unlockOutgoing, onSession, shiftWbuf, pending]⟩, rfl⟩
                · simpa [returnOutgoing, unlockOutgoing, onSession, shiftWbuf, pending] using behind
                · simpa [returnOutgoing, unlockOutgoing, onSession, shiftWbuf] using left
                · simpa [returnOutgoing, unlockOutgoing, onSession, shiftWbuf, pending] using rest'
            | disc file length =>
                have storage : ¬ front.storage = sessionUseMem := by
                  rw [describes.storage]
                  simp [OutMsg.storage, sessionUseDisc, sessionUseMem]
                have size : front.hdrLen =
                    (OutMsg.buffered { hdr, body := .disc file length }).length := describes.hdrLen
                rw [if_neg storage, size]
                refine ⟨Or.inl ⟨rfl, ⟨⟨shifted.buffer, shifted.len⟩, ?_, ?_, ?_⟩,
                  by simpa using isFree, rfl, rfl,
                  by simp [returnOutgoing, unlockOutgoing, onSession, shiftWbuf, pending]⟩, rfl⟩
                · simpa [returnOutgoing, unlockOutgoing, onSession, shiftWbuf, pending] using behind
                · simp [returnOutgoing, unlockOutgoing, onSession, shiftWbuf, wfiles_eraseFront,
                    files, OutMsg.file?]
                · simpa [returnOutgoing, unlockOutgoing, onSession, shiftWbuf, pending] using rest'

/-- The spec of `PopOutgoingMsgQueue` when there is no message: it is an error. -/
theorem popOutgoingMsgQueue_nil (queued : Queued w.session []) :
    SameQueue w.session w.popOutgoingMsgQueue.1.session ∧
      w.popOutgoingMsgQueue.1.event = true := by
  obtain ⟨wbuf, held, -, -⟩ := queued.filled.buffer
  have some_ : w.session.wbuf.isNone = false := by rw [held]; rfl
  have entries := queued.entries
  cases pending : w.session.wpending with
  | nil =>
      rw [popOutgoingMsgQueue, some_, if_neg (by simp), pending]
      exact ⟨⟨rfl, rfl, rfl, rfl, rfl⟩, by simp [event, refuse, raise, onProcess]⟩
  | cons front rest =>
      rw [pending] at entries
      cases entries

end World

end IpUtils
