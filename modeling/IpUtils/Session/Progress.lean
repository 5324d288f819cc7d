import IpUtils.Session.Accounting
import IpUtils.Session.FileDelivery

/-! # How far the message at the front has been sent

The two offsets of the front message add up to the bytes that the socket has taken for it,
and the two tests that a caller makes read them correctly.
-/

namespace IpUtils

open CLib

namespace MsgInfo

/-- The message is in memory or on disc, and no length is negative. -/
structure Sound (info : MsgInfo) : Prop where
  storage : info.storage = sessionUseMem ∨ info.storage = sessionUseDisc
  hdrLen : 0 ≤ info.hdrLen
  bodyLen : 0 ≤ info.bodyLen

/-- The offsets stay within the message, and those into a file start behind the header. -/
structure Within (info : MsgInfo) : Prop where
  memory : info.storage = sessionUseMem →
    0 ≤ info.bufOffset ∧ info.bufOffset ≤ info.hdrLen + info.bodyLen ∧ info.fileOffset = 0
  disc : info.storage = sessionUseDisc →
    (0 ≤ info.bufOffset ∧ info.bufOffset ≤ info.hdrLen) ∧
      (0 ≤ info.fileOffset ∧ info.fileOffset ≤ info.bodyLen) ∧
      (0 < info.fileOffset → info.bufOffset = info.hdrLen)

/-- The two messages differ in their offsets only. -/
structure SameMsg (info other : MsgInfo) : Prop where
  storage : other.storage = info.storage
  hdrLen : other.hdrLen = info.hdrLen
  bodyLen : other.bodyLen = info.bodyLen

theorem Untouched.within {info : MsgInfo} (untouched : info.Untouched) (sound : info.Sound) :
    info.Within := by
  obtain ⟨buf, file⟩ := untouched
  have hdr := sound.hdrLen
  have body := sound.bodyLen
  exact ⟨fun _ => by omega, fun _ => by omega⟩

end MsgInfo

/-- What a call does to the message at the front: the socket takes bytes of it, or another
message takes its place. -/
inductive FrontEvent where
  | taken (count : Nat)
  | gone
  deriving DecidableEq, Repr

/-- The bytes that have been taken since a message has come to the front. -/
def takenOfFront (events : List FrontEvent) : Nat :=
  events.foldl
    (fun total event =>
      match event with
      | .taken count => total + count
      | .gone => 0) 0

@[simp] theorem takenOfFront_append_taken (events : List FrontEvent) (count : Nat) :
    takenOfFront (events ++ [.taken count]) = takenOfFront events + count := by
  simp [takenOfFront]

@[simp] theorem takenOfFront_append_gone (events : List FrontEvent) :
    takenOfFront (events ++ [.gone]) = 0 := by
  simp [takenOfFront]

namespace World

/-- A call of `Write` that loses the queue takes its front away. -/
def frontEvents : Call → World → List FrontEvent
  | .write replies, w =>
      if (w.write replies).1.session.wpending.isEmpty then [.gone]
      else [.taken ((w.write replies).1.wire.length - w.wire.length)]
  | .popOutgoingMsgQueue, _ => [.gone]
  | _, _ => []

/-- The front message after a call of `Write`, which has sent from it what the wire has grown by
since `sent` bytes were on it. -/
structure Moved (sent : Nat) (front moved : MsgInfo) (after : World) : Prop where
  same : front.SameMsg moved
  within : moved.Within
  grown : sent ≤ after.wire.length
  wire : (after.wire.length : Int) - sent =
    moved.bufOffset + moved.fileOffset - (front.bufOffset + front.fileOffset)

/-- When it returns, a call of `Write` has lost the queue or moved its front. -/
def Moves (conn : SSLConn) (sent : Nat) (front : MsgInfo) (others : List MsgInfo)
    (outcome : Outcome Int) : Prop :=
  outcome.2.isSome = true → outcome.1.session.conn = conn ∧
    (outcome.1.session.wpending = [] ∨
      ∃ moved, outcome.1.session.wpending = moved :: others ∧ Moved sent front moved outcome.1)

variable {w : World} {front : MsgInfo} {others : List MsgInfo} {conn : SSLConn} {before : Nat}

theorem Moved.trans {middle last : World} {second third : MsgInfo}
    (first : Moved before front second middle)
    (next : Moved middle.wire.length second third last) : Moved before front third last where
  same := ⟨next.same.storage.trans first.same.storage, next.same.hdrLen.trans first.same.hdrLen,
    next.same.bodyLen.trans first.same.bodyLen⟩
  within := next.within
  grown := first.grown.trans next.grown
  wire := by
    have one := first.wire
    have two := next.wire
    omega

theorem moves_none (after : World) : Moves conn before front others (after, none) := by
  rintro ⟨⟩

theorem moves_reset {after : World} (same : after.session.conn = conn)
    (has : after.session.wbuf.isNone = false) (value : Int) :
    Moves conn before front others (after.resetWbuf.returnOutgoing value) := by
  intro _
  refine ⟨?_, Or.inl (wpending_resetWbuf has)⟩
  rw [resetWbuf, has]
  exact same

theorem moves_returnOutgoing {after : World} {moved : MsgInfo} (same : after.session.conn = conn)
    (pending : after.session.wpending = moved :: others)
    (moves : Moved before front moved after) (value : Int) :
    Moves conn before front others (after.returnOutgoing value) :=
  fun _ => ⟨same, Or.inr ⟨moved, pending, moves.same, moves.within, moves.grown, moves.wire⟩⟩

theorem moves_updateFront {after : World} (same : after.session.conn = conn)
    (pending : after.session.wpending = front :: others) (change : MsgInfo → MsgInfo)
    (moves : Moved before front (change front) after) (value : Int) :
    Moves conn before front others ((after.updateFront change).returnOutgoing value) := by
  rw [updateFront_cons pending]
  exact @moves_returnOutgoing front others conn before
    { after with session := { after.session with wpending := change front :: others } } _
    same rfl ⟨moves.same, moves.within, moves.grown, moves.wire⟩ value

/-- A call of `SSLConn::Write` over plain TCP fails or goes on with what has been taken. -/
theorem moves_send {buf : Bytes} {bufLen : Int} {reply : SSLConn.NetWrite}
    {failed : World → Outcome Int} {next : Int → World → Outcome Int}
    (plain : w.session.conn.ssl = false)
    (fails : ∀ process wire, Moves w.session.conn w.wire.length front others (failed { w with process, wire }))
    (goes : ∀ data, data <+: buf →
      Moves w.session.conn w.wire.length front others (next data.length { w with wire := w.wire ++ data })) :
    Moves w.session.conn w.wire.length front others (w.send buf bufLen reply failed next) := by
  have tcp : w.session.conn.write buf bufLen reply w.process.error =
      TCPConn.write buf reply.tcp w.session.conn w.process.error := by
    rw [SSLConn.write, plain]
    rfl
  obtain ⟨within, conn, outcome⟩ := TCPConn.write_spec buf reply.tcp w.session.conn w.process.error
  unfold send
  rw [tcp]
  generalize TCPConn.write buf reply.tcp w.session.conn w.process.error = sent at within conn outcome
  obtain ⟨data, value, conn', error'⟩ := sent
  dsimp only at conn outcome within ⊢
  subst conn
  rcases outcome with ⟨rfl, rfl | ⟨rfl, -⟩⟩ | ⟨event, rfl, -⟩
  · exact moves_none _
  · dsimp only
    split
    · exact fails _ _
    · exact goes data within
  · dsimp only
    split
    · exact fails _ _
    · next calm => exact absurd event calm

/-! ## The stages of a call -/

/-- Bytes of `wbuf_` up to `len`. -/
theorem moves_sendFront {len : Int} {text : String} {reply : SSLConn.NetWrite}
    {next : Int → World → Outcome Int} (plain : w.session.conn.ssl = false)
    (has : w.session.wbuf.isNone = false) (pending : w.session.wpending = front :: others)
    (high : front.bufOffset ≤ len)
    (goes : ∀ (data : Bytes) (process : Process), front.bufOffset + data.length ≤ len →
      Moves w.session.conn w.wire.length front others (next data.length
        { session := { w.session with
            wpending := { front with bufOffset := front.bufOffset + data.length } :: others }
          process, wire := w.wire ++ data })) :
    Moves w.session.conn w.wire.length front others (w.sendFront front len text reply next) := by
  unfold sendFront
  dsimp only
  generalize inside (w.session.wbuf.getD []) front.bufOffset (len - front.bufOffset) = stays
  refine moves_send (w := w.onProcess (Process.checked stays)) plain ?_ ?_
  · intro process wire
    exact moves_reset (by rfl) (by exact has) 0
  · intro data taken
    have length := taken.length_le
    rw [length_sliceAt] at length
    have same : (({ w with
        process := w.process.checked stays
        wire := w.wire ++ data } : World)).session.wpending = front :: others := pending
    have moved := goes data (w.process.checked stays) (by omega)
    rw [← updateFront_cons same fun front =>
      { front with bufOffset := front.bufOffset + (data.length : Int) }] at moved
    exact moved

/-- The message is in memory. -/
theorem moves_writeMem {replies : WriteReplies} (plain : w.session.conn.ssl = false)
    (has : w.session.wbuf.isNone = false) (pending : w.session.wpending = front :: others)
    (memory : front.storage = sessionUseMem) (within : front.Within) :
    Moves w.session.conn w.wire.length front others (w.writeMem front replies) := by
  obtain ⟨low, high, file⟩ := within.memory memory
  refine moves_sendFront plain has pending high ?_
  intro data process bound
  refine @moves_returnOutgoing front others w.session.conn _
    { session := { w.session with
        wpending := { front with bufOffset := front.bufOffset + data.length } :: others }
      process := process, wire := w.wire ++ data } _ rfl rfl ⟨⟨rfl, rfl, rfl⟩, ⟨?_, ?_⟩, ?_, ?_⟩ _
  · intro _
    exact ⟨by dsimp only; omega, bound, file⟩
  · intro disc
    exact absurd (memory.symm.trans disc) (by decide)
  · simp
  · simp only [List.length_append, Nat.cast_add]
    omega

/-- No more is read from a file than is left of the body. -/
theorem readAmount_le (info : MsgInfo) (left : info.fileOffset ≤ info.bodyLen) :
    (readAmount info : Int) ≤ info.bodyLen - info.fileOffset := by
  unfold readAmount toSize
  dsimp only
  split <;> omega

theorem length_readFile_le (amount atMost : Nat) (openFile : OpenFile) :
    (readFile amount atMost openFile).1.length ≤ amount := by
  simp only [readFile, List.length_take]
  omega

/-- The header of a message on disc has been sent, and its file is open. -/
theorem moves_writeChunk {file : File} {sent : Int} {replies : WriteReplies}
    (plain : w.session.conn.ssl = false) (has : w.session.wbuf.isNone = false)
    (pending : w.session.wpending = front :: others) (disc : front.storage = sessionUseDisc)
    (within : front.Within) (behind : front.hdrLen ≤ front.bufOffset) :
    Moves w.session.conn w.wire.length front others (w.writeChunk file front sent replies) := by
  obtain ⟨⟨low, high⟩, ⟨left, right⟩, start⟩ := within.disc disc
  unfold writeChunk
  dsimp only
  split
  · exact moves_reset (by rfl) (by exact has) sent
  · next atMost _ =>
      have amount := length_readFile_le (readAmount front) atMost (file.desc w.process).openFile
      have bound := readAmount_le front right
      generalize readFile (readAmount front) atMost (file.desc w.process).openFile = piece at amount ⊢
      obtain ⟨data, openFile⟩ := piece
      dsimp only at amount ⊢
      split
      · exact moves_reset (by rfl) (by exact has) sent
      · refine moves_send (w := w.onProcess _) plain ?_ ?_
        · intro process wire
          exact moves_reset (by rfl) (by exact has) 0
        · intro taken offered
          have length := offered.length_le
          refine moves_updateFront (by rfl) (by exact pending) _
            ⟨⟨rfl, rfl, rfl⟩, ⟨?_, ?_⟩, ?_, ?_⟩ _
          · intro memory
            exact absurd (disc.symm.trans memory) (by decide)
          · intro _
            refine ⟨⟨low, high⟩, ⟨?_, ?_⟩, fun _ => ?_⟩
            · dsimp only
              omega
            · dsimp only
              omega
            · dsimp only
              omega
          · simp [onProcess]
          · simp only [onProcess, List.length_append, Nat.cast_add]
            omega

theorem moves_writeFile {file : File} {sent : Int} {replies : WriteReplies}
    (plain : w.session.conn.ssl = false) (has : w.session.wbuf.isNone = false)
    (pending : w.session.wpending = front :: others) (disc : front.storage = sessionUseDisc)
    (within : front.Within) (behind : front.hdrLen ≤ front.bufOffset) :
    Moves w.session.conn w.wire.length front others (w.writeFile file front sent replies) := by
  have opened_ (process : Process) : Moves w.session.conn w.wire.length front others
      (({ w with process } : World).writeChunk file front sent replies) :=
    moves_writeChunk (w := { w with process }) plain has pending disc within behind
  unfold writeFile
  dsimp only
  split
  · exact moves_writeChunk plain has pending disc within behind
  · split
    · exact moves_reset (by rfl) (by exact has) 0
    · split
      · exact moves_reset (by rfl) (by exact has) 0
      · exact opened_ _

/-- The message is on disc. -/
theorem moves_writeDisc {replies : WriteReplies} (plain : w.session.conn.ssl = false)
    (has : w.session.wbuf.isNone = false) (pending : w.session.wpending = front :: others)
    (disc : front.storage = sessionUseDisc) (within : front.Within) :
    Moves w.session.conn w.wire.length front others (w.writeDisc front replies) := by
  obtain ⟨⟨low, high⟩, ⟨left, right⟩, start⟩ := within.disc disc
  obtain ⟨body, bodyOf, bodyNil, whole⟩ := writeDisc_eq front replies w
  -- what follows the header, from any place in it
  have rest (sent : Int) (middle : World) (info : MsgInfo) (conn : middle.session.conn = w.session.conn)
      (has' : middle.session.wbuf.isNone = false) (pending' : middle.session.wpending = info :: others)
      (moved : Moved w.wire.length front info middle) : Moves w.session.conn w.wire.length front others (body sent middle) := by
    have onDisc : info.storage = sessionUseDisc := moved.same.storage.trans disc
    rcases files : middle.session.wfiles with _ | ⟨file, more⟩
    · rw [bodyNil sent middle (Or.inr files)]
      have kept : (middle.onProcess (Process.checked false)).session.conn = w.session.conn := conn
      exact moves_returnOutgoing kept pending'
        ⟨moved.same, moved.within, moved.grown, moved.wire⟩ sent
    · rw [bodyOf sent middle info others file more pending' files]
      split
      · exact moves_returnOutgoing conn pending' moved sent
      · next complete =>
          intro returned
          have next : Moves middle.session.conn middle.wire.length info others
              (middle.writeFile file info sent replies) := moves_writeFile
            (by rw [conn]; exact plain) has' pending' onDisc moved.within (by omega)
          replace next := next returned
          refine ⟨next.1.trans conn, next.2.imp_right ?_⟩
          rintro ⟨last, pending'', moved'⟩
          exact ⟨last, pending'', moved.trans moved'⟩
  rw [whole]
  split
  · next begun =>
      refine moves_sendFront plain has pending high ?_
      intro data process bound
      refine rest _ _ { front with bufOffset := front.bufOffset + data.length } rfl has rfl ⟨⟨rfl, rfl, rfl⟩, ⟨?_, ?_⟩, ?_, ?_⟩
      · intro memory
        exact absurd (disc.symm.trans memory) (by decide)
      · intro _
        refine ⟨⟨?_, bound⟩, ⟨left, right⟩, fun positive => ?_⟩
        · dsimp only
          omega
        · have complete := start positive
          omega
      · simp
      · simp only [List.length_append, Nat.cast_add]
        omega
  · exact rest 0 w front rfl has pending ⟨⟨rfl, rfl, rfl⟩, within, le_refl _, by simp⟩

/-- The spec of `Write` for offsets that are within their message. -/
theorem moves_write (replies : WriteReplies) (plain : w.session.conn.ssl = false)
    (has : w.session.wbuf.isNone = false) (pending : w.session.wpending = front :: others)
    (sound : front.Sound) (within : front.Within) :
    Moves w.session.conn w.wire.length front others (w.write replies) := by
  rw [write, has, if_neg (by simp), pending]
  dsimp only
  split
  · intro _
    exact ⟨rfl, Or.inr ⟨front, pending, ⟨rfl, rfl, rfl⟩, within, le_refl _, by simp [refuse, raise, onProcess]⟩⟩
  · cases lock : w.session.mutexes.outgoing with
    | true =>
        rw [lockOutgoing_of_held lock]
        exact moves_none _
    | false =>
        rw [lockOutgoing_of_free lock]
        split
        · next memory =>
            exact @moves_writeMem w.outgoingLocked front others replies plain has pending memory within
        · next other =>
            exact @moves_writeDisc w.outgoingLocked front others replies plain has pending
              (sound.storage.resolve_left other) within

/-! ## Whole runs -/

theorem conn_enqueue {caller : String} {needed : Int} {info : MsgInfo} {whdr : MsgHdr}
    {fresh : Option Bytes} {install : World → World}
    (installs : ∀ w : World, (install w).session.conn = w.session.conn) (w : World) :
    (w.enqueue caller needed info whdr fresh install).1.session.conn = w.session.conn := by
  have entered (w : World) : ((install (w.onSession fun session =>
      { session with wpending := session.wpending ++ [info] })).onSession fun session =>
        if whdr.isMsgRequest then { session with whdrs := session.whdrs ++ [whdr] }
        else session).session.conn = w.session.conn := by
    simp only [onSession]
    split <;> exact installs _
  unfold enqueue
  dsimp only
  split
  · split
    · rfl
    · exact entered _
  · exact entered _

theorem conn_lockOutgoing {α : Type} {body : World → Outcome α}
    (keeps : ∀ w : World, (body w).1.session.conn = w.session.conn) (w : World) :
    (w.lockOutgoing body).1.session.conn = w.session.conn := by
  cases lock : w.session.mutexes.outgoing with
  | true => rw [lockOutgoing_of_held lock]; rfl
  | false => rw [lockOutgoing_of_free lock]; exact keeps _

theorem conn_addMsgBuf (framingHdr : Option Bytes) (hdrLen : Int) (body : Bytes) (bodyLen : Int)
    (whdr : MsgHdr) (fresh : Option Bytes) (w : World) :
    (w.addMsgBuf framingHdr hdrLen body bodyLen whdr fresh).1.session.conn = w.session.conn := by
  unfold addMsgBuf
  split
  · rfl
  · split
    · rfl
    · refine conn_lockOutgoing (fun w => conn_enqueue ?_ w) w
      intro w
      rfl

theorem conn_addMsgFile (framingHdr : Option Bytes) (hdrLen : Int) (file : File) (bodyLen : Int)
    (whdr : MsgHdr) (fresh : Option Bytes) (w : World) :
    (w.addMsgFile framingHdr hdrLen file bodyLen whdr fresh).1.session.conn = w.session.conn := by
  unfold addMsgFile
  split
  · rfl
  · split
    · rfl
    · refine conn_lockOutgoing (fun w => conn_enqueue ?_ w) w
      intro w
      rfl

/-- The entries of a queue are sound when no file has a negative length. -/
theorem sound_of_describes {infos : List MsgInfo} {queue : List OutMsg}
    (entries : List.Forall₂ OutMsg.Describes infos queue) (lengths : ∀ msg ∈ queue, 0 ≤ msg.bodyLen) :
    ∀ info ∈ infos, info.Sound := by
  induction entries with
  | nil => simp
  | @cons info msg _ _ describes _ ih =>
      rw [List.forall_mem_cons] at lengths ⊢
      refine ⟨⟨?_, ?_, ?_⟩, ih lengths.2⟩
      · rw [describes.storage, OutMsg.storage]
        split
        · exact Or.inl rfl
        · exact Or.inr rfl
      · rw [describes.hdrLen]
        exact Int.natCast_nonneg _
      · rw [describes.bodyLen]
        exact lengths.1

/-- Between two calls, the offsets of the front message add up to what has been taken for it. -/
structure InProgress (w : World) (events : List FrontEvent) : Prop where
  queued : ∃ queue, Queued w.session queue ∧ ∀ msg ∈ queue, 0 ≤ msg.bodyLen
  plain : w.session.conn.ssl = false
  front : ∀ front others, w.session.wpending = front :: others →
    front.Within ∧ (takenOfFront events : Int) = front.bufOffset + front.fileOffset
  empty : w.session.wpending = [] → takenOfFront events = 0

namespace InProgress

variable {events : List FrontEvent}

theorem sound (progress : InProgress w events) : ∀ info ∈ w.session.wpending, info.Sound := by
  obtain ⟨queue, queued, lengths⟩ := progress.queued
  exact sound_of_describes queued.entries lengths

theorem of_same {after : World} (progress : InProgress w events)
    (same : SameQueue w.session after.session) (conn : after.session.conn = w.session.conn) :
    InProgress after events := by
  obtain ⟨queue, queued, lengths⟩ := progress.queued
  refine ⟨⟨queue, same.queued queued, lengths⟩, by rw [conn]; exact progress.plain, ?_, ?_⟩
  · rw [same.wpending]
    exact progress.front
  · rw [same.wpending]
    exact progress.empty

/-- A queue whose front has just come there. -/
theorem of_gone {after : World} {queue : List OutMsg} (queued : Queued after.session queue)
    (lengths : ∀ msg ∈ queue, 0 ≤ msg.bodyLen) (plain : after.session.conn.ssl = false)
    (untouched : ∀ info ∈ after.session.wpending, info.Untouched) :
    InProgress after (events ++ [.gone]) := by
  refine ⟨⟨queue, queued, lengths⟩, plain, ?_, fun _ => takenOfFront_append_gone events⟩
  intro front others pending
  have member : front ∈ after.session.wpending := by simp [pending]
  have fresh := untouched front member
  rw [takenOfFront_append_gone, fresh.1, fresh.2]
  exact ⟨fresh.within (sound_of_describes queued.entries lengths front member), rfl⟩

/-- Adding a message. -/
theorem of_adds {queue : List OutMsg} {msg : OutMsg} {outcome : Outcome Bool}
    (progress : InProgress w events) (lengths : ∀ msg ∈ queue, 0 ≤ msg.bodyLen) (length : 0 ≤ msg.bodyLen)
    (adds : Adds w queue msg outcome) (conn : outcome.1.session.conn = w.session.conn) :
    InProgress outcome.1 events := by
  cases adds with
  | refused same _ => exact progress.of_same same conn
  | hung same _ _ _ => exact progress.of_same same conn
  | @added after queued' _ info untouched pending _ _ =>
      have all : ∀ other ∈ queue ++ [msg], 0 ≤ other.bodyLen := by
        intro other member
        rcases List.mem_append.mp member with old | new
        · exact lengths other old
        · exact List.mem_singleton.mp new ▸ length
      refine ⟨⟨_, queued', all⟩, by rw [conn]; exact progress.plain, ?_, ?_⟩
      · intro front others entries
        dsimp only at pending entries
        rcases was : w.session.wpending with _ | ⟨first, rest⟩
        · rw [pending, was, List.nil_append] at entries
          obtain ⟨rfl, rfl⟩ := List.cons.inj entries
          have sound := sound_of_describes queued'.entries all info (by simp [pending])
          rw [progress.empty was, untouched.1, untouched.2]
          exact ⟨untouched.within sound, rfl⟩
        · rw [pending, was, List.cons_append] at entries
          obtain ⟨rfl, rfl⟩ := List.cons.inj entries
          exact progress.front _ _ was
      · intro none
        dsimp only at pending none
        rw [pending] at none
        simp at none

/-- A call of `Write` that returns. -/
theorem of_write (progress : InProgress w events) (replies : WriteReplies)
    (returned : (w.write replies).2.isSome = true) :
    InProgress (w.write replies).1 (events ++ frontEvents (.write replies) w) := by
  obtain ⟨queue, queued, lengths⟩ := progress.queued
  obtain ⟨wbuf, held, -, -⟩ := queued.filled.buffer
  have has : w.session.wbuf.isNone = false := by rw [held]; rfl
  rcases pending : w.session.wpending with _ | ⟨front, others⟩
  · have refused : w.write replies =
        (w.refuse "TCPSession::Write(): wpending is empty", some 0) := by
      rw [write, has, if_neg (by simp), pending]
    have gone : frontEvents (.write replies) w = [.gone] := by
      rw [frontEvents, refused]
      simp [refuse, raise, onProcess, pending]
    rw [gone, refused]
    have still : Queued (w.refuse "TCPSession::Write(): wpending is empty", some (0 : Int)).1.session queue :=
      ⟨queued.filled, queued.entries, queued.files, queued.untouched⟩
    refine of_gone still lengths progress.plain ?_
    simp [refuse, raise, onProcess, pending]
  · obtain ⟨within, total⟩ := progress.front front others pending
    have sound := progress.sound front (by simp [pending])
    obtain ⟨conn, lost | ⟨moved, pending', moves⟩⟩ :=
      moves_write replies progress.plain has pending sound within returned
    · have gone : frontEvents (.write replies) w = [.gone] := by
        rw [frontEvents, lost]
        rfl
      rw [gone]
      rcases keepsQueue_write replies w _ queued with same | none
      · exact of_gone same lengths (by rw [conn]; exact progress.plain) (by simp [lost])
      · exact of_gone none (by simp) (by rw [conn]; exact progress.plain) (by simp [lost])
    · have taken : frontEvents (.write replies) w =
          [.taken ((w.write replies).1.wire.length - w.wire.length)] := by
        rw [frontEvents, pending']
        rfl
      have kept : Queued (w.write replies).1.session queue := by
        rcases keepsQueue_write replies w _ queued with same | none
        · exact same
        · have entries := none.entries
          rw [pending'] at entries
          cases entries
      refine ⟨⟨queue, kept, lengths⟩, by rw [conn]; exact progress.plain, ?_, ?_⟩
      · intro first rest pending''
        obtain ⟨rfl, rfl⟩ := List.cons.inj (pending'.symm.trans pending'')
        have grown := moves.grown
        have wire := moves.wire
        rw [taken, takenOfFront_append_taken]
        exact ⟨moves.within, by omega⟩
      · rw [pending']
        intro none
        cases none

/-- A call of `PopOutgoingMsgQueue` that returns. -/
theorem of_pop (progress : InProgress w events)
    (returned : w.popOutgoingMsgQueue.2.isSome = true) :
    InProgress w.popOutgoingMsgQueue.1 (events ++ [.gone]) := by
  obtain ⟨queue, queued, lengths⟩ := progress.queued
  rcases queue with _ | ⟨msg, others⟩
  · obtain ⟨same, -⟩ := popOutgoingMsgQueue_nil queued
    have none : w.session.wpending = [] := List.forall₂_nil_right_iff.mp queued.entries
    obtain ⟨wbuf, held, -, -⟩ := queued.filled.buffer
    have conn : w.popOutgoingMsgQueue.1.session.conn = w.session.conn := by
      rw [popOutgoingMsgQueue, held, none]
      rfl
    refine of_gone (same.queued queued) lengths (by rw [conn]; exact progress.plain) ?_
    rw [same.wpending, none]
    simp
  · obtain ⟨⟨-, popped, -, -, conn, tail⟩ | ⟨hangs, -⟩, -⟩ := queued_popOutgoingMsgQueue queued
    · refine of_gone popped (fun other member => lengths other (List.mem_cons_of_mem _ member))
        (by rw [conn]; exact progress.plain) ?_
      rw [tail]
      exact queued.untouched
    · rw [hangs] at returned
      cases returned

/-- One call that returns. -/
theorem step {call : Call} (progress : InProgress w events) (sending : Sending call)
    (returned : (World.step call w).2 = true) :
    InProgress (World.step call w).1 (events ++ frontEvents call w) := by
  obtain ⟨queue, queued, lengths⟩ := progress.queued
  cases sending with
  | addMsgBuf framingHdr body whdr fresh =>
      rw [show frontEvents _ w = [] from rfl, List.append_nil]
      exact progress.of_adds lengths (Int.natCast_nonneg _)
        (adds_addMsgBuf queued framingHdr body whdr fresh) (conn_addMsgBuf _ _ _ _ _ _ _)
  | addMsgFile framingHdr file nonneg whdr fresh =>
      rw [show frontEvents _ w = [] from rfl, List.append_nil]
      exact progress.of_adds lengths (by exact nonneg)
        (adds_addMsgFile queued framingHdr file _ whdr fresh) (conn_addMsgFile _ _ _ _ _ _ _)
  | write replies => exact progress.of_write replies returned
  | popOutgoingMsgQueue => exact progress.of_pop returned

/-- The front message counts as sent when all its bytes have been taken. -/
theorem isOutgoingMsgSent_iff (progress : InProgress w events) :
    w.isOutgoingMsgSent = true ↔ ∃ front ∈ w.session.wpending.head?,
      (takenOfFront events : Int) = front.hdrLen + front.bodyLen := by
  rcases pending : w.session.wpending with _ | ⟨front, others⟩
  · simp [isOutgoingMsgSent, pending]
  · obtain ⟨within, total⟩ := progress.front front others pending
    have sound := progress.sound front (by simp [pending])
    have hdr := sound.hdrLen
    have body := sound.bodyLen
    simp only [isOutgoingMsgSent, pending, Bool.or_eq_true, decide_eq_true_eq, List.head?_cons,
      Option.mem_def, Option.some.injEq, exists_eq_left']
    rcases sound.storage with memory | disc
    · have bounds := within.memory memory
      omega
    · have bounds := within.disc disc
      omega

/-- The test that `IsOutgoingDataPending` makes of each message. -/
theorem unaccepted_iff {info : MsgInfo} (sound : info.Sound) (within : info.Within) :
    ((info.storage == sessionUseMem && decide (info.bufOffset < info.hdrLen + info.bodyLen)) ||
        (info.storage == sessionUseDisc &&
          (decide (info.bufOffset < info.hdrLen) || decide (info.fileOffset < info.bodyLen)))) = true ↔
      info.bufOffset + info.fileOffset < info.hdrLen + info.bodyLen := by
  have distinct : sessionUseMem ≠ sessionUseDisc := by decide
  rcases sound.storage with memory | disc
  · have bounds := within.memory memory
    simp [memory, distinct, bounds.2.2]
  · have bounds := within.disc disc
    simp only [disc, distinct.symm, beq_iff_eq, BEq.rfl, Bool.or_eq_true, Bool.and_eq_true,
      decide_eq_true_eq, false_and, true_and, false_or]
    omega

/-- Data is pending when some message has bytes that have not been taken: the front message what
is left of it, and every other message all of it. -/
theorem isOutgoingDataPending_iff (progress : InProgress w events) :
    w.isOutgoingDataPending = true ↔ ∃ front others, w.session.wpending = front :: others ∧
      ((takenOfFront events : Int) < front.hdrLen + front.bodyLen ∨
        ∃ info ∈ others, 0 < info.hdrLen + info.bodyLen) := by
  obtain ⟨queue, queued, -⟩ := progress.queued
  rcases pending : w.session.wpending with _ | ⟨front, others⟩
  · simp [isOutgoingDataPending, pending]
  · obtain ⟨within, total⟩ := progress.front front others pending
    have sound := progress.sound
    have untouched := queued.untouched
    rw [pending] at sound untouched
    rw [isOutgoingDataPending, pending, List.any_cons, Bool.or_eq_true, List.any_eq_true,
      unaccepted_iff (sound front List.mem_cons_self) within, total]
    constructor
    · rintro (first | ⟨info, member, left⟩)
      · exact ⟨front, others, rfl, Or.inl first⟩
      · have info_sound := sound info (List.mem_cons_of_mem _ member)
        have start := untouched info member
        rw [unaccepted_iff info_sound (start.within info_sound), start.1, start.2] at left
        exact ⟨front, others, rfl, Or.inr ⟨info, member, left⟩⟩
    · rintro ⟨first, rest, same, left⟩
      obtain ⟨rfl, rfl⟩ := List.cons.inj same
      refine left.imp_right ?_
      rintro ⟨info, member, left⟩
      have info_sound := sound info (List.mem_cons_of_mem _ member)
      have start := untouched info member
      refine ⟨info, member, ?_⟩
      rw [unaccepted_iff info_sound (start.within info_sound), start.1, start.2]
      exact left

end InProgress

theorem inProgress_opened (framingType : UInt8) {conn : SSLConn} (plain : conn.ssl = false)
    (process : Process) (fresh : Bytes) : InProgress (opened framingType conn process fresh) [] :=
  ⟨⟨[], queued_opened _ _ _ _, by simp⟩, plain, by
    simp [opened, TCPSession.create, init, callocate, reallocate, onSession], fun _ => rfl⟩

/-- In every state between two calls, the offsets of the front message are within it, it counts as
sent when the socket has taken all its bytes, and data is pending when there is a message of
which it has not. -/
theorem run_progress (framingType : UInt8) {conn : SSLConn} (plain : conn.ssl = false)
    (process : Process) (fresh : Bytes) {calls : List Call}
    (sending : Machine.Along World.step (fun call _ => Sending call) calls
      (opened framingType conn process fresh))
    (returned : (Machine.run World.step calls (opened framingType conn process fresh)).2 = true) :
    let start := opened framingType conn process fresh
    let reached := (Machine.run World.step calls start).1
    let taken := takenOfFront (Machine.trace World.step frontEvents calls start)
    (∀ front ∈ reached.session.wpending.head?, front.Within) ∧
      (reached.isOutgoingMsgSent = true ↔ ∃ front ∈ reached.session.wpending.head?,
        (taken : Int) = front.hdrLen + front.bodyLen) ∧
      (reached.isOutgoingDataPending = true ↔
        ∃ front others, reached.session.wpending = front :: others ∧
          ((taken : Int) < front.hdrLen + front.bodyLen ∨
            ∃ info ∈ others, 0 < info.hdrLen + info.bodyLen)) := by
  intro start reached taken
  have preserved (call : Call) (w : World) (events : List FrontEvent) (progress : InProgress w events)
      (sends : Sending call) (returned : (World.step call w).2 = true) :
      InProgress (World.step call w).1 (events ++ frontEvents call w) :=
    progress.step sends returned
  have progress : InProgress reached (Machine.trace World.step frontEvents calls start) :=
    Machine.run_preserves_trace_of_returns preserved (inProgress_opened framingType plain process fresh)
      sending returned
  refine ⟨?_, progress.isOutgoingMsgSent_iff, progress.isOutgoingDataPending_iff⟩
  intro front member
  rcases pending : reached.session.wpending with _ | ⟨first, others⟩
  · rw [pending] at member
    cases member
  · rw [pending] at member
    cases member
    exact (progress.front _ _ pending).1

/-- A message of three bytes, of which the socket has taken one. -/
theorem run_progress_one :
    let start := opened MsgHdr.typeHttp { connected := true, blocking := false } {} []
    let calls : List Call :=
      [.addMsgBuf (some (ascii "A")) (1 : Nat) (ascii "bc") (2 : Nat) { type := MsgHdr.typeHttp } none,
        .write { front := { tcp := [.accepted 1, .failed true []] } }]
    let reached := (Machine.run World.step calls start).1
    let taken := takenOfFront (Machine.trace World.step frontEvents calls start)
    (∀ front ∈ reached.session.wpending.head?, front.Within) ∧
      (reached.isOutgoingMsgSent = true ↔ ∃ front ∈ reached.session.wpending.head?,
        (taken : Int) = front.hdrLen + front.bodyLen) ∧
      (reached.isOutgoingDataPending = true ↔
        ∃ front others, reached.session.wpending = front :: others ∧
          ((taken : Int) < front.hdrLen + front.bodyLen ∨
            ∃ info ∈ others, 0 < info.hdrLen + info.bodyLen)) :=
  run_progress MsgHdr.typeHttp rfl {} []
    ⟨.addMsgBuf (some (ascii "A")) (ascii "bc") _ _, fun _ => ⟨.write _, fun _ => trivial⟩⟩
    (by decide +kernel)

end World

end IpUtils
