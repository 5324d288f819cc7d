import IpUtils.Session.Delivery

/-! # Messages on disc

A message whose body is a file goes out header first and then piece by piece. A piece
that has been read from the file and that the socket does not take whole is lost: the
file stands behind it.
-/

namespace IpUtils

open CLib

/-- The descriptor of a file will deliver its contents from a place on: it is closed, or
open at that place. -/
structure File.At (file : File) (process : Process) (contents : Bytes) (place : Nat) : Prop where
  noStream : (file.desc process).fp = none
  named : file.name ≠ []
  opened : (file.desc process).fd ≠ descriptorNull →
    (file.desc process).openFile = { contents, position := place }

/-- The answers to a call of `Write` in which nothing fails: the file is found with its
contents, and `write(2)` takes some bytes or answers `EAGAIN` on a socket that does not
block. -/
structure Answers (conn : SSLConn) (contents : Bytes) (replies : WriteReplies) : Prop where
  opening : ∃ fd, replies.opening = .opened fd contents
  seeking : replies.seeking = none
  reading : ∃ atMost, replies.reading = .delivered atMost
  front : TCPConn.Soft conn replies.front.tcp
  chunk : TCPConn.Soft conn replies.chunk.tcp

namespace World

variable {w : World}

/-- The front message, with its body on disc, is being sent: `place` of its bytes have
been taken behind those in `before`. -/
structure Transmits (conn : SSLConn) (before hdr contents : Bytes) (file : File) (w : World)
    (place : Nat) : Prop where
  filled : ∃ rest, Filled w.session (hdr ++ rest)
  conn : w.session.conn = conn
  entry : ∃ front others, w.session.wpending = front :: others ∧ front.storage ≠ sessionUseMem ∧
    front.hdrLen = hdr.length ∧ front.bodyLen = contents.length ∧
    front.bufOffset = min place hdr.length ∧ front.fileOffset = (place - hdr.length : Nat)
  files : ∃ more, w.session.wfiles = file :: more
  at_ : file.At w.process contents (place - hdr.length)
  wire : w.wire = before ++ (hdr ++ contents).take place
  bounded : place ≤ (hdr ++ contents).length
  calm : w.event = false
  free : w.session.mutexes.outgoing = false

/-- A call of `Write` has not returned. -/
structure Waits (before hdr contents : Bytes) (w : World) : Prop where
  wbuf : w.session.wbuf.isNone = false
  entry : w.session.wpending ≠ []
  connected : w.session.conn.connected = true
  wire : ∃ place, w.wire = before ++ (hdr ++ contents).take place
  calm : w.event = false
  held : w.session.mutexes.outgoing = true

/-- All bytes have been taken, and an error has been raised. -/
structure Over (before hdr contents : Bytes) (w : World) : Prop where
  entry : w.session.wpending = []
  wire : w.wire = before ++ (hdr ++ contents)
  event : w.event = true

/-- The states in which a message on disc can be while it is sent. -/
inductive Transmission (conn : SSLConn) (before hdr contents : Bytes) (file : File) (w : World) :
    Prop where
  | transmits {place : Nat} (state : Transmits conn before hdr contents file w place)
  | waits (state : Waits before hdr contents w)
  | done (state : Over before hdr contents w)

theorem wpending_resetWbuf (some_ : w.session.wbuf.isNone = false) :
    w.resetWbuf.session.wpending = [] := by
  rw [resetWbuf, some_]
  rfl

theorem wire_resetWbuf (w : World) : w.resetWbuf.wire = w.wire := by
  unfold resetWbuf
  split <;> rfl

/-! ## One piece of the file -/

section Piece

variable {conn : SSLConn} {file : File} {front : MsgInfo} {others : List MsgInfo}
  {contents : Bytes} {place : Nat} {replies : WriteReplies} {sent : Int}

/-- The piece of the file that a call reads is empty only at its end. -/
theorem piece_ne_nil (inside : place < contents.length) (atMost : Nat)
    (bodyLen : front.bodyLen = contents.length) (offset : front.fileOffset = place) :
    ((contents.drop place).take (readAmount front)).take (max 1 atMost) ≠ [] := by
  have amount : 0 < readAmount front := by
    unfold readAmount
    dsimp only
    split
    · exact Nat.zero_lt_succ _
    · rw [toSize]
      have small : front.bodyLen - front.fileOffset ≤ kFileChunkSize := by omega
      have positive : 0 < front.bodyLen - front.fileOffset := by omega
      rw [Int.emod_eq_of_lt (by omega) (by simp only [kFileChunkSize] at small; norm_num; omega)]
      omega
  intro empty
  have none_ := congrArg List.length empty
  simp only [List.length_take, List.length_drop, List.length_nil] at none_
  omega

/-- A piece of an open file has been read. -/
def pieceRead (file : File) (contents : Bytes) (place : Nat) (piece : Bytes) (process : Process) :
    Process :=
  (process.setDescriptor file.descriptor fun desc =>
    { desc with openFile := { contents, position := place + piece.length } }).checked
      (decide (piece.length ≤ kFileChunkSize))

/-- The front message behind a piece of its file. -/
def pieceSent (front : MsgInfo) (others : List MsgInfo) (piece : Bytes) (w : World) : World :=
  { w with
    session := { w.session with
      wpending := { front with fileOffset := front.fileOffset + piece.length } :: others }
    wire := w.wire ++ piece }

/-- The open file of the front message: its next piece is read and offered. -/
theorem writeChunk_piece (at_ : (file.desc w.process).openFile = { contents, position := place })
    (answers : Answers conn contents replies) (accepting : TCPConn.Accepting replies.chunk.tcp)
    (same : w.session.conn = conn) (plain : conn.ssl = false) (calm : w.event = false)
    (pending : w.session.wpending = front :: others) (bodyLen : front.bodyLen = contents.length)
    (offset : front.fileOffset = place) (inside : place < contents.length) :
    ∃ piece, piece <+: contents.drop place ∧ piece ≠ [] ∧
      ((∃ taken, taken <+: piece ∧
          w.writeChunk file front sent replies =
            ({ w with
              process := pieceRead file contents place piece w.process
              wire := w.wire ++ taken }, none)) ∨
        w.writeChunk file front sent replies =
          ((w.onProcess (pieceRead file contents place piece)).pieceSent front others
            piece).returnOutgoing (piece.length : Int)) := by
  obtain ⟨atMost, reading⟩ := answers.reading
  have inhabited := piece_ne_nil inside atMost bodyLen offset
  refine ⟨((contents.drop place).take (readAmount front)).take (max 1 atMost),
    (List.take_prefix _ _).trans (List.take_prefix _ _), inhabited, ?_⟩
  unfold writeChunk
  rw [reading]
  simp only [readFile, at_]
  generalize ((contents.drop place).take (readAmount front)).take (max 1 atMost) = piece at inhabited ⊢
  have some_ : piece.isEmpty = false := by simpa using inhabited
  rw [some_, if_neg (by simp)]
  obtain ⟨data, within, hangs | ⟨returns, whole⟩ | ⟨raised, event, hard, fails⟩⟩ := @send_plain
    (w.onProcess (pieceRead file contents place piece)) piece piece.length replies.chunk
    (fun w => (w.onProcess (Process.appendMsg
        "TCPSession::Write(): file %s, body_len %ld, file_offset %ld: "
        [.str (file.print w.process), .num front.bodyLen, .num front.fileOffset])).resetWbuf.returnOutgoing 0)
    (fun sent w => (w.updateFront fun front =>
        { front with fileOffset := front.fileOffset + sent }).returnOutgoing sent)
    (same ▸ plain) calm
  · exact Or.inl ⟨data, within, hangs⟩
  · obtain rfl := whole.resolve_right fun not => not accepting
    refine Or.inr (returns.trans ?_)
    have pending' : (({ w.onProcess (pieceRead file contents place data) with
        wire := w.wire ++ data } : World)).session.wpending = front :: others := pending
    exact congrArg (returnOutgoing _) (updateFront_cons pending' fun front =>
      { front with fileOffset := front.fileOffset + (data.length : Int) })
  · exact absurd (same ▸ answers.chunk) hard

/-- At the end of the file there is an error, which empties the queue. -/
theorem writeChunk_end (at_ : (file.desc w.process).openFile = { contents, position := place })
    (answers : Answers conn contents replies) (beyond : contents.length ≤ place)
    (some_ : w.session.wbuf.isNone = false) :
    (w.writeChunk file front sent replies).1.event = true ∧
      (w.writeChunk file front sent replies).1.wire = w.wire ∧
      (w.writeChunk file front sent replies).1.session.wpending = [] := by
  obtain ⟨atMost, reading⟩ := answers.reading
  unfold writeChunk
  rw [reading]
  simp only [readFile, at_, List.drop_of_length_le beyond, List.take_nil, List.isEmpty_nil, ↓reduceIte]
  exact ⟨event_resetWbuf (event_raise_eq ..), wire_resetWbuf _, wpending_resetWbuf some_⟩

/-- The file of the front message is opened and positioned when it is not open. -/
theorem writeFile_open (at_ : file.At w.process contents place)
    (answers : Answers conn contents replies) (calm : w.event = false)
    (offset : front.fileOffset = place) :
    ∃ process, process.error = w.process.error ∧ (file.desc process).fp = none ∧
      (file.desc process).openFile = { contents, position := place } ∧
      w.writeFile file front sent replies =
        ({ w with process } : World).writeChunk file front sent replies := by
  obtain ⟨fd, opening⟩ := answers.opening
  unfold writeFile
  by_cases closed : (file.desc w.process).fd = descriptorNull
  · have shut : file.isOpen w.process = false := by
      simp [File.isOpen, at_.noStream, closed]
    have named : file.name.isEmpty = false := by simpa using at_.named
    have noStream : (file.desc w.process).fp.isSome = false := by simp [at_.noStream]
    rw [shut, if_neg (by simp), opening, answers.seeking]
    have found : ∃ number : Int, file.openWith File.readOnly 0 (.opened fd contents) w.process =
        w.process.setDescriptor file.descriptor fun desc =>
          { desc with fd := number, openFile := { contents } } := by
      rw [File.openWith, noStream, named, closed]
      simp only [Bool.false_eq_true, ↓reduceIte, ne_eq, not_true_eq_false]
      split
      · exact ⟨0, rfl⟩
      · exact ⟨fd, rfl⟩
    obtain ⟨number, found⟩ := found
    have calm' : (w.onProcess (file.openWith File.readOnly 0 (.opened fd contents))).event = false := by
      rw [onProcess, found]
      exact calm
    dsimp only
    rw [if_neg (by simp [calm'])]
    refine ⟨_, ?_, ?_, ?_, rfl⟩
    · simp only [onProcess, found, Process.error_setDescriptor]
    · simp only [onProcess, found, File.desc, Process.descriptors_setDescriptor]
      exact at_.noStream
    · simp only [onProcess, found, File.desc, Process.descriptors_setDescriptor, offset,
        Int.toNat_natCast]
  · have isOpen : file.isOpen w.process = true := by simp [File.isOpen, closed]
    rw [if_pos isOpen]
    exact ⟨w.process, rfl, at_.noStream, at_.opened closed, rfl⟩

end Piece

/-! ## One call -/

section Step

variable {conn : SSLConn} {before hdr contents : Bytes} {file : File} {place : Nat}
  {replies : WriteReplies}

/-- The header has been sent: a piece of the file, or the end of it. -/
theorem transmission_writeFile {sent : Int} {front : MsgInfo} {others : List MsgInfo}
    (answers : Answers conn contents replies) (accepting : TCPConn.Accepting replies.chunk.tcp)
    (plain : conn.ssl = false) (connected : conn.connected = true)
    (filled : ∃ rest, Filled w.session (hdr ++ rest)) (same : w.session.conn = conn)
    (pending : w.session.wpending = front :: others) (storage : front.storage ≠ sessionUseMem)
    (hdrLen : front.hdrLen = hdr.length) (bodyLen : front.bodyLen = contents.length)
    (bufOffset : front.bufOffset = hdr.length) (fileOffset : front.fileOffset = place)
    (files : ∃ more, w.session.wfiles = file :: more) (at_ : file.At w.process contents place)
    (wire : w.wire = before ++ (hdr ++ contents.take place)) (bounded : place ≤ contents.length)
    (calm : w.event = false) (held : w.session.mutexes.outgoing = true) :
    Transmission conn before hdr contents file (w.writeFile file front sent replies).1 ∧
      ((w.writeFile file front sent replies).1.event = true → place = contents.length) := by
  obtain ⟨rest, full⟩ := filled
  have some_ : w.session.wbuf.isNone = false := by
    obtain ⟨wbuf, holds, -⟩ := full.buffer
    rw [holds]
    rfl
  obtain ⟨process, error, noStream, openFile, opened⟩ :=
    @writeFile_open w conn file front contents place replies sent at_ answers calm fileOffset
  have calm' : ({ w with process } : World).event = false := by
    simp only [event, error]
    exact calm
  rw [opened]
  by_cases inside : place < contents.length
  · obtain ⟨piece, within, inhabited, ⟨taken, part, hangs⟩ | returns⟩ :=
      @writeChunk_piece { w with process } conn file front others contents place replies sent openFile
        answers accepting same plain calm' pending bodyLen fileOffset inside
    · rw [hangs]
      refine ⟨.waits ⟨some_, by simp [pending], by rw [same]; exact connected, ?_, calm', held⟩,
        fun raised => absurd (raised.symm.trans calm') (by simp)⟩
      refine ⟨hdr.length + (place + taken.length), ?_⟩
      have taken' : taken = (contents.drop place).take taken.length :=
        List.prefix_iff_eq_take.mp (part.trans within)
      rw [wire, List.take_length_add_append, List.append_assoc, List.append_assoc, List.take_add,
        ← taken']
    · rw [returns]
      refine ⟨@Transmission.transmits _ _ _ _ _ _
        (hdr.length + (place + piece.length)) ⟨⟨rest, full.buffer, full.len⟩,
        same, ⟨_, others, rfl, storage, hdrLen, bodyLen, ?_, ?_⟩, files, ⟨?_, at_.named, ?_⟩, ?_,
        ?_, calm', rfl⟩, fun raised => absurd (raised.symm.trans calm') (by simp)⟩
      · change front.bufOffset = _
        omega
      · change front.fileOffset + (piece.length : Int) = _
        omega
      · simpa [returnOutgoing, unlockOutgoing, onSession, pieceSent, onProcess, pieceRead, File.desc,
          Process.checked] using noStream
      · intro _
        simp [returnOutgoing, unlockOutgoing, onSession, pieceSent, onProcess, pieceRead, File.desc,
          Process.checked]
      · have piece' : piece = (contents.drop place).take piece.length :=
          List.prefix_iff_eq_take.mp within
        change w.wire ++ piece = _
        rw [wire, List.take_length_add_append, List.append_assoc, List.append_assoc, List.take_add,
          ← piece']
      · have length := within.length_le
        rw [List.length_drop] at length
        rw [List.length_append]
        omega
  · have whole : place = contents.length := by omega
    obtain ⟨event, sameWire, none_⟩ := @writeChunk_end { w with process } conn file front contents
      place replies sent openFile answers (by omega) some_
    refine ⟨.done ⟨none_, ?_, event⟩, fun _ => whole⟩
    rw [sameWire]
    change w.wire = _
    rw [wire, whole, List.take_length]

/-- The header of the front message, whose body is on disc, is sent; with it a first piece
of the file. -/
theorem transmission_writeDisc {front : MsgInfo} {others : List MsgInfo}
    (answers : Answers conn contents replies) (accepting : TCPConn.Accepting replies.chunk.tcp)
    (plain : conn.ssl = false) (connected : conn.connected = true) (inhabited : contents ≠ [])
    (state : Transmits conn before hdr contents file w place)
    (pending : w.session.wpending = front :: others) :
    Transmission conn before hdr contents file (w.outgoingLocked.writeDisc front replies).1 ∧
      ((w.outgoingLocked.writeDisc front replies).1.event = true →
        place = (hdr ++ contents).length) := by
  obtain ⟨first, others', entry, storage, hdrLen, bodyLen, bufOffset, fileOffset⟩ := state.entry
  obtain ⟨rfl, rfl⟩ : front = first ∧ others = others' := by simpa [pending] using entry
  obtain ⟨rest, full⟩ := state.filled
  obtain ⟨more, files⟩ := state.files
  have locked : Filled w.outgoingLocked.session (hdr ++ rest) := ⟨full.buffer, full.len⟩
  have some_ : w.session.wbuf.isNone = false := by
    obtain ⟨wbuf, holds, -⟩ := full.buffer
    rw [holds]
    rfl
  have calm : w.outgoingLocked.event = false := state.calm
  obtain ⟨body, continues, -, opens⟩ := writeDisc_eq front replies w.outgoingLocked
  rw [opens]
  by_cases header : front.bufOffset < front.hdrLen
  · rw [if_pos header]
    have early : place < hdr.length := by omega
    have start : place - hdr.length = 0 := by omega
    have offset : front.bufOffset = place := by omega
    have wire : w.wire = before ++ hdr.take place := by
      rw [state.wire, List.take_append_of_le_length (by omega)]
    have at_ : file.At w.process contents 0 := start ▸ state.at_
    obtain ⟨data, process, taken, error, descriptors, hangs | returns | ⟨-, hard⟩⟩ :=
      @sendFront_plain w.outgoingLocked front others hdr ", hdr_len %ld, offset %ld: "
        replies.front body front.hdrLen
        (by rw [show w.outgoingLocked.session.conn = conn from state.conn]; exact plain) calm
        ⟨rest, locked⟩ hdrLen (by omega) (by omega) pending
    · have part : data = (hdr.drop place).take data.length := by
        rw [offset, Int.toNat_natCast] at taken
        exact List.prefix_iff_eq_take.mp taken
      have length : data.length ≤ hdr.length - place := by
        rw [part, List.length_take, List.length_drop]
        omega
      rw [hangs]
      refine ⟨.waits ⟨some_, by simp [outgoingLocked, onSession, pending], ?_, ⟨place + data.length, ?_⟩, ?_, rfl⟩,
        fun raised => absurd ((congrArg ErrorHandler.event error).symm.trans raised)
          (by simpa [event] using calm)⟩
      · change w.session.conn.connected = true
        rw [state.conn]
        exact connected
      · change w.wire ++ data = _
        rw [wire, List.append_assoc, List.take_append_of_le_length (by omega), List.take_add, ← part]
      · change process.error.event = false
        rw [error]
        exact calm
    · have part : data = (hdr.drop place).take data.length := by
        rw [offset, Int.toNat_natCast] at taken
        exact List.prefix_iff_eq_take.mp taken
      have length : data.length ≤ hdr.length - place := by
        rw [part, List.length_take, List.length_drop]
        omega
      have sent : w.wire ++ data = before ++ hdr.take (place + data.length) := by
        rw [wire, List.append_assoc, List.take_add, ← part]
      have calm' : process.error.event = false := by
        rw [error]
        exact calm
      have at' : file.At process contents 0 := by
        refine ⟨?_, at_.named, ?_⟩
        · rw [File.desc, descriptors]
          exact at_.noStream
        · rw [File.desc, descriptors]
          exact at_.opened
      rw [returns, continues data.length
        { session := { w.outgoingLocked.session with
            wpending := { front with bufOffset := front.bufOffset + data.length } :: others }
          process, wire := w.outgoingLocked.wire ++ data }
        { front with bufOffset := front.bufOffset + data.length } others file more rfl files]
      by_cases whole : place + data.length < hdr.length
      · rw [if_pos (by dsimp only; omega)]
        have same : place + data.length - hdr.length = 0 := by omega
        refine ⟨@Transmission.transmits _ _ _ _ _ _ (place + data.length)
          ⟨⟨rest, locked.buffer, locked.len⟩, state.conn,
            ⟨_, others, rfl, storage, hdrLen, bodyLen, ?_, ?_⟩, ⟨more, files⟩, same ▸ at', ?_, ?_,
            calm', rfl⟩, fun raised => absurd (raised.symm.trans calm') (by simp)⟩
        · change front.bufOffset + (data.length : Int) = _
          omega
        · change front.fileOffset = _
          omega
        · change w.wire ++ data = _
          rw [sent, List.take_append_of_le_length (by omega)]
        · rw [List.length_append]
          omega
      · rw [if_neg (by dsimp only; omega)]
        have all : place + data.length = hdr.length := by omega
        obtain ⟨next, raises⟩ := @transmission_writeFile
          { session := { w.outgoingLocked.session with
              wpending := { front with bufOffset := front.bufOffset + data.length } :: others }
            process, wire := w.outgoingLocked.wire ++ data }
          conn before hdr contents file 0 replies data.length
          { front with bufOffset := front.bufOffset + data.length } others answers accepting plain
          connected ⟨rest, locked.buffer, locked.len⟩ state.conn rfl storage hdrLen bodyLen
          (by change front.bufOffset + (data.length : Int) = _; omega)
          (by change front.fileOffset = _; omega) ⟨more, files⟩ at'
          (by
            change w.wire ++ data = _
            rw [sent, all, List.take_length, List.take_zero, List.append_nil])
          (Nat.zero_le _) calm' rfl
        exact ⟨next, fun raised =>
          absurd (raises raised).symm (by simpa using inhabited)⟩
    · exact absurd ((show w.outgoingLocked.session.conn = conn from state.conn) ▸ answers.front) hard
  · rw [if_neg header, continues 0 w.outgoingLocked front others file more pending files, if_neg header]
    have late : hdr.length ≤ place := by omega
    have bounded := state.bounded
    rw [List.length_append] at bounded
    obtain ⟨next, raises⟩ := @transmission_writeFile w.outgoingLocked conn before hdr contents file
      (place - hdr.length) replies 0 front others answers accepting plain connected ⟨rest, locked⟩
      state.conn pending storage hdrLen bodyLen (by omega) fileOffset ⟨more, files⟩ state.at_
      (by
        change w.wire = _
        rw [state.wire, List.take_append, List.take_of_length_le late])
      (by omega) calm rfl
    refine ⟨next, fun raised => ?_⟩
    have whole := raises raised
    rw [List.length_append]
    omega

/-- A call of `Write` while a message on disc is being sent. -/
theorem Transmission.write (answers : Answers conn contents replies)
    (accepting : TCPConn.Accepting replies.chunk.tcp) (plain : conn.ssl = false)
    (connected : conn.connected = true) (inhabited : contents ≠ [])
    (transmission : Transmission conn before hdr contents file w) :
    Transmission conn before hdr contents file (w.write replies).1 ∧
      ((w.write replies).1.event = true → w.wire = before ++ (hdr ++ contents)) := by
  unfold World.write
  cases transmission with
  | @transmits place state =>
      obtain ⟨front, others, pending, storage, -⟩ := state.entry
      obtain ⟨rest, full⟩ := state.filled
      obtain ⟨wbuf, holds, -⟩ := full.buffer
      rw [holds, if_neg (by simp), pending]
      dsimp only
      rw [state.conn, connected, if_neg (by simp), lockOutgoing_of_free state.free,
        if_neg storage]
      obtain ⟨next, raises⟩ :=
        transmission_writeDisc answers accepting plain connected inhabited state pending
      refine ⟨next, fun raised => ?_⟩
      rw [state.wire, raises raised, List.take_length]
  | waits state =>
      obtain ⟨front, others, pending⟩ := List.exists_cons_of_ne_nil state.entry
      rw [state.wbuf, if_neg (by simp), pending]
      dsimp only
      rw [state.connected, if_neg (by simp), lockOutgoing_of_held state.held]
      exact ⟨.waits ⟨state.wbuf, state.entry, state.connected, state.wire, state.calm, rfl⟩,
        fun raised => absurd (raised.symm.trans state.calm) (by simp)⟩
  | done state =>
      rw [state.entry]
      split
      · exact ⟨.done ⟨state.entry, state.wire, event_refuse ..⟩, fun _ => state.wire⟩
      · exact ⟨.done ⟨state.entry, state.wire, event_refuse ..⟩, fun _ => state.wire⟩

/-- A message on disc that has come to the front and of which nothing has been sent. -/
theorem Transmission.of_queued {length : Int} {queue : List OutMsg}
    (queued : Queued w.session ({ hdr, body := .disc file length } :: queue))
    (size : length = contents.length) (untouched : ∀ front ∈ w.session.wpending.head?, front.Untouched)
    (at_ : file.At w.process contents 0) (calm : w.event = false)
    (free : w.session.mutexes.outgoing = false) :
    Transmission w.session.conn w.wire hdr contents file w := by
  cases pending : w.session.wpending with
  | nil =>
      have entries := queued.entries
      rw [pending] at entries
      cases entries
  | cons front others =>
      have entries := queued.entries
      rw [pending] at entries untouched
      obtain ⟨bufOffset, fileOffset⟩ := untouched front rfl
      cases entries with
      | cons describes _ =>
          refine @Transmission.transmits _ _ _ _ _ _ 0 ⟨⟨_, queued.filled⟩, rfl,
            ⟨front, others, pending, ?_, describes.hdrLen, describes.bodyLen.trans size, ?_, ?_⟩,
            ⟨_, queued.files⟩, ?_, by simp, Nat.zero_le _, calm, free⟩
          · rw [describes.storage]
            exact (by decide : sessionUseDisc ≠ sessionUseMem)
          · simpa using bufOffset
          · simpa using fileOffset
          · simpa using at_

/-- A message that is added to an empty queue is at the front, and nothing of it has been
sent. -/
theorem Adds.front {msg : OutMsg} {outcome : Outcome Bool} (adds : Adds w [] msg outcome)
    (accepted : outcome.2 = some true) (empty : w.session.wpending = []) :
    Queued outcome.1.session [msg] ∧
      (∀ front ∈ outcome.1.session.wpending.head?, front.Untouched) ∧
      Undisturbed w outcome.1 ∧ outcome.1.session.mutexes.outgoing = false := by
  cases adds with
  | added queued quiet untouched pending was free =>
      refine ⟨queued, fun front member => ?_, quiet, free⟩
      rw [pending, empty] at member
      cases member
      exact untouched
  | refused same event => cases accepted
  | hung same quiet held still => cases accepted

/-- Nothing fails in a call of `Write`, and `write(2)` does not answer `EAGAIN` while a
piece of the file is being sent. -/
def WritesFile (conn : SSLConn) (contents : Bytes) (call : Call) : Prop :=
  ∃ replies, call = .write replies ∧ Answers conn contents replies ∧
    TCPConn.Accepting replies.chunk.tcp

end Step

/-! ## Whole runs -/

/-- A message on disc whose body is not empty arrives as it is, and an error is not raised
before a call behind the one that completes it, as long as the socket takes every piece
of the file whole. -/
theorem run_sends_file {hdr contents : Bytes} {file : File} {queue : List OutMsg}
    (plain : w.session.conn.ssl = false) (connected : w.session.conn.connected = true)
    (inhabited : contents ≠ [])
    (queued : Queued w.session ({ hdr, body := .disc file contents.length } :: queue))
    (untouched : ∀ front ∈ w.session.wpending.head?, front.Untouched)
    (at_ : file.At w.process contents 0) (calm : w.event = false)
    (free : w.session.mutexes.outgoing = false) {calls : List Call} {call : Call}
    (along : Machine.Along World.step (fun call _ => WritesFile w.session.conn contents call)
      (calls ++ [call]) w) :
    let reached := (Machine.run World.step calls w).1
    let last := (Machine.run World.step (calls ++ [call]) w).1
    (∃ sent, sent <+: hdr ++ contents ∧ reached.wire = w.wire ++ sent) ∧
      (last.event = true → reached.wire = w.wire ++ (hdr ++ contents)) := by
  intro reached last
  have begins := Transmission.of_queued queued rfl untouched at_ calm free
  have preserved (call : Call) (state : World)
      (transmission : Transmission w.session.conn w.wire hdr contents file state)
      (writes : WritesFile w.session.conn contents call) :
      Transmission w.session.conn w.wire hdr contents file (World.step call state).1 := by
    obtain ⟨replies, rfl, answers, accepting⟩ := writes
    exact (transmission.write answers accepting plain connected inhabited).1
  have holds : Transmission w.session.conn w.wire hdr contents file reached :=
    Machine.run_preserves preserved begins along.front
  have wire : reached.event = true → reached.wire = w.wire ++ (hdr ++ contents) := by
    intro raised
    cases holds with
    | transmits state => exact absurd (raised.symm.trans state.calm) (by simp)
    | waits state => exact absurd (raised.symm.trans state.calm) (by simp)
    | done state => exact state.wire
  refine ⟨?_, fun raised => ?_⟩
  · cases holds with
    | transmits state => exact ⟨_, List.take_prefix _ _, state.wire⟩
    | waits state =>
        obtain ⟨place, sent⟩ := state.wire
        exact ⟨_, List.take_prefix _ _, sent⟩
    | done state => exact ⟨_, List.prefix_rfl, state.wire⟩
  · by_cases returns : (Machine.run World.step calls w).2 = true
    · obtain ⟨⟨replies, rfl, answers, accepting⟩, -⟩ := along.behind returns
      refine (holds.write answers accepting plain connected inhabited).2 ?_
      have whole : last = (reached.write replies).1 := by
        change (Machine.run World.step (calls ++ [_]) w).1 = _
        rw [Machine.run_append, if_pos returns]
        simp only [Machine.run]
        split <;> rfl
      rw [← whole]
      exact raised
    · refine wire ?_
      have whole : last = reached := by
        change (Machine.run World.step (calls ++ [_]) w).1 = _
        rw [Machine.run_append, if_neg returns]
      rw [← whole]
      exact raised

/-- A session with a message of one byte and a file of three. -/
def sendingFile : World :=
  (World.step (.addMsgFile (some (ascii "H")) (1 : Nat) { descriptor := 7, name := ascii "f" }
    (3 : Nat) { type := MsgHdr.typeHttp } none)
    (opened MsgHdr.typeHttp { connected := true, blocking := false } {} [])).1

/-- The answers to two calls of `Write`: the file is read in two pieces. -/
def firstPiece (chunk : List WriteReply) : WriteReplies where
  front := { tcp := [.accepted 1] }
  opening := .opened 5 (ascii "abc")
  reading := .delivered 2
  chunk := { tcp := chunk }

def secondPiece : WriteReplies where
  opening := .opened 5 (ascii "abc")
  reading := .delivered 2
  chunk := { tcp := [.accepted 2] }

theorem run_sends_file_sample :
    let reached := (Machine.run World.step [.write (firstPiece [.accepted 2])] sendingFile).1
    let last := (Machine.run World.step
      ([.write (firstPiece [.accepted 2])] ++ [.write secondPiece]) sendingFile).1
    (∃ sent, sent <+: ascii "H" ++ ascii "abc" ∧ reached.wire = sendingFile.wire ++ sent) ∧
      (last.event = true → reached.wire = sendingFile.wire ++ (ascii "H" ++ ascii "abc")) := by
  have first : Answers sendingFile.session.conn (ascii "abc") (firstPiece [.accepted 2]) :=
    ⟨⟨5, rfl⟩, rfl, ⟨2, rfl⟩, by simp [TCPConn.Soft, firstPiece], by simp [TCPConn.Soft, firstPiece]⟩
  have second : Answers sendingFile.session.conn (ascii "abc") secondPiece :=
    ⟨⟨5, rfl⟩, rfl, ⟨2, rfl⟩, by simp [TCPConn.Soft, secondPiece],
      by simp [TCPConn.Soft, secondPiece]⟩
  obtain ⟨queued, untouched, quiet, free⟩ := (adds_addMsgFile (queued_opened MsgHdr.typeHttp
    { connected := true, blocking := false } {} []) (some (ascii "H"))
    { descriptor := 7, name := ascii "f" } (3 : Nat) { type := MsgHdr.typeHttp } none).front
    (by decide +kernel) rfl
  exact @run_sends_file sendingFile (ascii "H") (ascii "abc") { descriptor := 7, name := ascii "f" }
    [] rfl rfl (by decide) queued untouched ⟨rfl, by decide, by decide +kernel⟩
    quiet.event free [.write (firstPiece [.accepted 2])] (.write secondPiece)
    ⟨⟨_, rfl, first, by simp [TCPConn.Accepting, firstPiece]⟩, fun _ =>
      ⟨⟨_, rfl, second, by simp [TCPConn.Accepting, secondPiece]⟩, fun _ => trivial⟩⟩

/-- Two of the three bytes are read, one of them is taken and the other is not sent
again. -/
theorem run_loses_bytes_of_file :
    let calls := [.write (firstPiece [.accepted 1, .failed true []]), .write secondPiece]
    let reached := (Machine.run World.step calls sendingFile).1
    reached.wire = ascii "Hac" ∧ ¬ reached.wire <+: ascii "H" ++ ascii "abc" := by
  intro calls reached
  have wire : reached.wire = ascii "Hac" := by decide +kernel
  refine ⟨wire, ?_⟩
  rw [wire]
  decide

end World

end IpUtils
