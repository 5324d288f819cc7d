import IpUtils.File.Path
import IpUtils.Session.Completeness

/-! # Streaming to disc

Between `set_rfile` and the end of the body, every byte that has been received behind the
header is either in the file or in the read buffer.
-/

namespace IpUtils

open CLib

namespace World

variable {w w' : World} {received : Bytes}

/-- A message whose header has been taken out of the read buffer, and of whose body nothing has
been streamed. -/
structure AtBody (w : World) : Prop where
  plain : PlainBuffer w.session
  array : ∃ array, w.session.rbuf = some array ∧ (array.length : Int) = w.session.rbufSize
  initialized : w.session.rpending.initialized = true
  unstreamed : w.session.rpending.fileOffset = 0
  free : w.session.mutexes.incoming = false

/-- `set_rfile` opens a file, and it is empty then. -/
structure Opens (path : Bytes) (reply : OpenReply) (w : World) : Prop where
  calm : (w.setRfile (some path) reply).1.event = false
  truncated : reply.openFile = {}

/-- `Read` does not raise an error, nor is it made on an absurdly large buffer, and `write(2)`
accepts some bytes. -/
inductive Smooth : Call → World → Prop
  | read {w : World} (reply : SSLConn.NetRead) (fresh : Option Bytes)
      (small : w.session.rbufSize ≤ 2 ^ 62)
      (calm : (w.read reply fresh).1.event = false) : Smooth (.read reply fresh) w
  | streamIncomingMsg {w : World} (count : Nat) : Smooth (.streamIncomingMsg (.accepted count)) w

/-- What a call receives. -/
def receives : Call → World → Bytes
  | .read reply _, w => delivered reply w
  | _, _ => []

/-- Nothing of what has been received is lost, nothing is invented, and the body ends where it
should. -/
structure Conserves (bodyLen : Int) (w : World) (received : Bytes) : Prop where
  conserved : w.storedFile.contents ++ w.session.held = received
  announced : w.session.rpending.bodyLen = bodyLen
  written : w.session.rpending.fileOffset = w.storedFile.contents.length
  within : w.session.rpending.fileOffset ≤ bodyLen
  complete : w.session.rfile.isOpen w.process = false → w.session.rpending.fileOffset = bodyLen
  returns : w.session.rfile.isOpen w.process = true → ∀ count,
    let after := w.streamIncomingMsg (.accepted count)
    (after.2 = some 0 ↔ after.1.session.rpending.fileOffset = bodyLen)
  ends : w.session.rfile.isOpen w.process = true → ∀ count,
    let after := w.streamIncomingMsg (.accepted count)
    after.2 = some 0 → after.1.session.held = received.drop bodyLen.toNat ∧
      (w.session.rfile.name ≠ File.stdin → after.1.session.rfile.isOpen after.1.process = false)
  refused : w.session.rfile.isOpen w.process = false → ∀ count,
    let after := w.streamIncomingMsg (.accepted count)
    after.2 = some 1 ∧ after.1.event = true ∧ after.1.session = w.session ∧
      after.1.storedFile = w.storedFile

/-- A message is being streamed: its file has not been opened as a stream, and it is closed
only when the body is complete. -/
structure Streams (bodyLen : Int) (w : World) (received : Bytes) : Prop where
  plain : PlainBuffer w.session
  tracks : Tracks w received
  initialized : w.session.rpending.initialized = true
  announced : w.session.rpending.bodyLen = bodyLen
  free : w.session.mutexes.incoming = false
  named : w.session.rfile.name.isEmpty = false
  unbuffered : (w.session.rfile.desc w.process).fp = none
  complete : w.session.rfile.isOpen w.process = false → w.session.rpending.fileOffset = bodyLen

/-! ## Read -/

/-- A call of `Read` without an error leaves the message and its file alone. -/
theorem read_calm {reply : SSLConn.NetRead} {fresh : Option Bytes}
    (has : w.session.rbuf.isSome = true) (free : w.session.mutexes.incoming = false)
    (calm : (w.read reply fresh).1.event = false) :
    (w.read reply fresh).1.session.rpending = w.session.rpending ∧
      (w.read reply fresh).1.session.rfile = w.session.rfile ∧
      (w.read reply fresh).1.session.mutexes.incoming = false ∧
      (w.read reply fresh).1.process.descriptors = w.process.descriptors := by
  obtain ⟨array, has⟩ := Option.isSome_iff_exists.mp has
  unfold World.read at calm ⊢
  rw [has] at calm ⊢
  dsimp only at calm ⊢
  rw [lockIncoming_of_free free] at calm ⊢
  generalize w.incomingLocked.session.conn.read
    (w.incomingLocked.session.rbufSize - w.incomingLocked.session.rbufLen) reply
    w.incomingLocked.process.error = outcome at calm ⊢
  split at calm
  · -- the error stays while the buffer is cleared
    exact absurd calm (ne_false_of_eq_true (event_resetRbuf (event_onProcess_appendMsg _ _ _)))
  · rename_i quiet
    rw [if_neg quiet]
    unfold keepReceived at calm ⊢
    dsimp only [onSession] at calm ⊢
    by_cases full : w.incomingLocked.session.rbufLen + outcome.value =
        w.incomingLocked.session.rbufSize
    · rw [if_pos full] at calm ⊢
      split at calm
      · exact absurd calm (ne_false_of_eq_true (event_resetRbuf (Process.event_raise _ _ _ _)))
      · rename_i larger given
        exact ⟨rfl, rfl, rfl, rfl⟩
    · rw [if_neg full]
      exact ⟨rfl, rfl, rfl, rfl⟩

theorem Streams.read {bodyLen : Int} (streams : Streams bodyLen w received)
    (small : w.session.rbufSize ≤ 2 ^ 62) {reply : SSLConn.NetRead} {fresh : Option Bytes}
    (calm : (w.read reply fresh).1.event = false) :
    Streams bodyLen (w.read reply fresh).1 (received ++ delivered reply w) := by
  obtain ⟨array, has, _⟩ := streams.tracks.array
  obtain ⟨rpending, rfile, free, descriptors⟩ :=
    read_calm (by rw [has]; rfl) streams.free calm
  have same : (w.read reply fresh).1.session.rfile.desc (w.read reply fresh).1.process =
      w.session.rfile.desc w.process := by
    rw [File.desc, descriptors, rfile]
    rfl
  constructor
  · exact plainBuffer_read streams.plain small reply fresh
  · exact streams.tracks.read streams.plain small reply fresh
  · rw [rpending]
    exact streams.initialized
  · rw [rpending]
    exact streams.announced
  · exact free
  · rw [rfile]
    exact streams.named
  · rw [same]
    exact streams.unbuffered
  · rw [File.isOpen, same, rpending]
    exact streams.complete

/-! ## StreamIncomingMsg -/

/-- How many bytes of the body `write(2)` takes out of the buffer. -/
def taken (count : Nat) (w : World) : Nat :=
  min count (toSize (if w.session.rpending.bodyLen - w.session.rpending.fileOffset <
      w.session.rbufLen then
    w.session.rpending.bodyLen - w.session.rpending.fileOffset
  else w.session.rbufLen))

/-- The session when they have been taken out. -/
def moved (array : Bytes) (count : Nat) (w : World) : World :=
  (w.incomingLocked.streamed array (w.taken count)).shiftRbuf (w.taken count) 0

/-- `StreamIncomingMsg`, when the file is open. -/
theorem streamIncomingMsg_of_open {array : Bytes} (has : w.session.rbuf = some array)
    (isOpen : w.session.rfile.isOpen w.process = true)
    (there : w.session.rpending.initialized = true)
    (free : w.session.mutexes.incoming = false) (count : Nat) :
    w.streamIncomingMsg (.accepted count) =
      if (w.moved array count).session.rpending.bodyLen ≤
          (w.moved array count).session.rpending.fileOffset then
        ((w.moved array count).onProcess
          (w.moved array count).session.rfile.close).returnIncoming 0
      else (w.moved array count).returnIncoming 1 := by
  unfold World.streamIncomingMsg
  rw [has]
  dsimp only
  rw [isOpen, there, if_neg (by simp), if_neg (by simp), lockIncoming_of_free free]
  rfl

/-- `StreamIncomingMsg`, when the file is not open. -/
theorem streamIncomingMsg_of_closed {array : Bytes} (has : w.session.rbuf = some array)
    (closed : w.session.rfile.isOpen w.process = false) (reply : WriteReply) :
    w.streamIncomingMsg reply =
      (w.refuse "TCPSession::StreamIncomingMsg(): rfile not open", some 1) := by
  unfold World.streamIncomingMsg
  rw [has]
  dsimp only
  rw [closed, if_pos (by simp)]

theorem fileOffset_moved (array : Bytes) (count : Nat) (w : World) :
    (w.moved array count).session.rpending =
      { w.session.rpending with
        fileOffset := w.session.rpending.fileOffset + w.taken count } := by
  rw [moved, rpending_shiftRbuf]
  rfl

theorem rfile_shiftRbuf (len offset : Int) (w : World) :
    (w.shiftRbuf len offset).session.rfile = w.session.rfile := by
  unfold shiftRbuf
  split <;> rfl

theorem descriptors_shiftRbuf (len offset : Int) (w : World) :
    (w.shiftRbuf len offset).process.descriptors = w.process.descriptors := by
  unfold shiftRbuf
  split <;> rfl

/-- Writing to a file does not close it. -/
theorem desc_moved (array : Bytes) (count : Nat) (w : World) :
    (w.moved array count).session.rfile = w.session.rfile ∧
    ((w.moved array count).session.rfile.desc (w.moved array count).process).fd =
        (w.session.rfile.desc w.process).fd ∧
      ((w.moved array count).session.rfile.desc (w.moved array count).process).fp =
        (w.session.rfile.desc w.process).fp := by
  rw [moved, File.desc, rfile_shiftRbuf, descriptors_shiftRbuf]
  simp [World.streamed, File.desc, storeFile, incomingLocked, onSession, Process.checked,
    Process.setDescriptor]

theorem taken_le (count : Nat) (buffer : ReadBuffer w.session) :
    (w.taken count : Int) ≤ w.session.rpending.bodyLen - w.session.rpending.fileOffset := by
  have low := buffer.low
  have within := buffer.within
  rw [taken, toSize]
  split <;> omega

/-- A file that is closed is not open, unless it is the standard input. -/
theorem isOpen_close {file : File} {process : Process} (named : file.name.isEmpty = false)
    (unbuffered : (file.desc process).fp = none) (other : file.name ≠ File.stdin) :
    file.isOpen (file.close process) = false := by
  unfold File.close
  rw [named, unbuffered, if_neg (by simp), if_neg (by simp)]
  split
  · rename_i closed
    have closed : (file.desc process).fd = descriptorNull := by simpa [other] using closed
    simp [File.isOpen, unbuffered, closed]
  · have same : (file.desc process).fp = none := unbuffered
    rw [File.desc] at same
    simp [File.isOpen, File.desc, Process.setDescriptor, same]

theorem fp_close (file : File) (process : Process) :
    (file.desc (file.close process)).fp = (file.desc process).fp := by
  unfold File.close
  split
  · rfl
  split
  · rfl
  split
  · rfl
  · simp [File.desc, Process.setDescriptor]

/-- A call of `StreamIncomingMsg` on an open file. -/
theorem Streams.stream {bodyLen : Int} (streams : Streams bodyLen w received)
    (isOpen : w.session.rfile.isOpen w.process = true) (count : Nat) :
    let after := w.streamIncomingMsg (.accepted count)
    Streams bodyLen after.1 received ∧
      (after.2 = some 0 ↔ after.1.session.rpending.fileOffset = bodyLen) ∧
      (after.2 = some 0 → w.session.rfile.name ≠ File.stdin →
        after.1.session.rfile.isOpen after.1.process = false) := by
  obtain ⟨array, has, _⟩ := streams.tracks.array
  have plain := plainBuffer_streamIncomingMsg streams.plain (.accepted count)
  have tracks := streams.tracks.streamIncomingMsg streams.plain (.accepted count)
  have answer := streamIncomingMsg_of_open has isOpen streams.initialized streams.free count
  have rpending := fileOffset_moved array count w
  obtain ⟨rfile, fd, fp⟩ := desc_moved array count w
  have amount := taken_le count streams.plain.buffer
  have offset : (w.moved array count).session.rpending.fileOffset =
      w.session.rpending.fileOffset + w.taken count := by rw [rpending]
  have announced : (w.moved array count).session.rpending.bodyLen = bodyLen := by
    rw [rpending]
    exact streams.announced
  have initialized : (w.moved array count).session.rpending.initialized = true := by
    rw [rpending]
    exact streams.initialized
  have named : (w.moved array count).session.rfile.name.isEmpty = false := by
    rw [rfile]
    exact streams.named
  have unbuffered := fp.trans streams.unbuffered
  have still : (w.moved array count).session.rfile.isOpen (w.moved array count).process = true := by
    rw [File.isOpen, fd, fp]
    exact isOpen
  have most : (w.moved array count).session.rpending.fileOffset ≤ bodyLen := by
    rw [offset, ← streams.announced]
    omega
  rw [answer] at plain tracks ⊢
  rw [← rfile]
  generalize w.moved array count = after at *
  rw [announced] at plain tracks ⊢
  by_cases ended : bodyLen ≤ after.session.rpending.fileOffset
  · rw [if_pos ended] at plain tracks ⊢
    have equal : after.session.rpending.fileOffset = bodyLen := by omega
    refine ⟨⟨plain, tracks, initialized, announced, rfl, named, ?_, fun _ => equal⟩,
      ⟨fun _ => equal, fun _ => rfl⟩, fun _ other => isOpen_close named unbuffered other⟩
    exact (fp_close after.session.rfile after.process).trans unbuffered
  · rw [if_neg ended] at plain tracks ⊢
    refine ⟨⟨plain, tracks, initialized, announced, rfl, named, unbuffered, fun closed => ?_⟩,
      ⟨fun zero => ?_, fun equal => ?_⟩, fun zero => ?_⟩
    · exact absurd (still.symm.trans closed) (by simp)
    · simp [World.returnIncoming] at zero
    · exact absurd (le_of_eq equal.symm) ended
    · simp [World.returnIncoming] at zero

/-- A call of `StreamIncomingMsg` on a file that is not open is refused. -/
theorem Streams.refuse {bodyLen : Int} (streams : Streams bodyLen w received) (format : String) :
    Streams bodyLen (w.refuse format) received :=
  ⟨streams.plain, streams.tracks.refuse format, streams.initialized, streams.announced,
    streams.free, streams.named, streams.unbuffered, streams.complete⟩

/-- The step. -/
theorem Streams.step {bodyLen : Int} (streams : Streams bodyLen w received) {call : Call}
    (smooth : Smooth call w) :
    Streams bodyLen (World.step call w).1 (received ++ receives call w) := by
  cases smooth with
  | read reply fresh small calm => exact streams.read small calm
  | streamIncomingMsg count =>
      have none_ : receives (.streamIncomingMsg (.accepted count)) w = [] := rfl
      rw [none_, List.append_nil]
      cases open_ : w.session.rfile.isOpen w.process with
      | true => exact (streams.stream open_ count).1
      | false =>
          obtain ⟨array, has, _⟩ := streams.tracks.array
          change Streams bodyLen (w.streamIncomingMsg (.accepted count)).1 received
          rw [streamIncomingMsg_of_closed has open_]
          exact streams.refuse _

/-- What holds while a message is streamed. -/
theorem Streams.conserves {bodyLen : Int} (streams : Streams bodyLen w received) :
    Conserves bodyLen w received := by
  obtain ⟨array, has, _⟩ := streams.tracks.array
  have follows := streams.tracks.follows streams.initialized
  have start := streams.plain.buffer.start
  have within := follows.within
  have contents := congrArg OpenFile.contents follows.file
  dsimp only at contents
  constructor
  · rw [contents, follows.held]
    exact List.take_append_drop _ _
  · exact streams.announced
  · rw [contents, List.length_take]
    omega
  · rw [← streams.announced]
    exact streams.plain.buffer.within
  · exact streams.complete
  · intro isOpen count
    exact (streams.stream isOpen count).2.1
  · intro isOpen count after zero
    obtain ⟨later, complete, closes⟩ := streams.stream isOpen count
    refine ⟨?_, fun other => closes zero other⟩
    have held := (later.tracks.follows later.initialized).held
    rw [complete.mp zero] at held
    exact held
  · intro closed count
    dsimp only
    rw [streamIncomingMsg_of_closed has closed]
    exact ⟨rfl, event_refuse _ w, rfl, rfl⟩

/-! ## set_rfile -/

/-- A message that is to be streamed to a file that has been opened. -/
theorem streams_setRfile (begun : AtBody w) {path : Bytes} {reply : OpenReply}
    (opens : Opens path reply w) :
    Streams w.session.rpending.bodyLen (w.setRfile (some path) reply).1 w.session.held := by
  have plain := plainBuffer_setRfile begun.plain (some path) reply
  have calm := opens.calm
  unfold World.setRfile at plain calm ⊢
  dsimp only at plain calm ⊢
  have refuses (format : String) : ¬(w.refuse format).event = false :=
    ne_false_of_eq_true (event_refuse format w)
  by_cases empty : (cstr path).isEmpty = true
  · rw [if_pos empty] at calm
    exact absurd calm (refuses _)
  by_cases isOpen : w.session.rfile.isOpen w.process = true
  · rw [if_neg empty, if_pos isOpen] at calm
    exact absurd calm (refuses _)
  rw [if_neg empty, if_neg isOpen, lockIncoming_of_free begun.free] at plain calm ⊢
  generalize (if w.incomingLocked.session.rfile.name.isEmpty then
      (w.incomingLocked.session.rfile, w.incomingLocked.process)
    else w.incomingLocked.session.rfile.clear w.incomingLocked.process) = cleared at *
  have quiet : ((cleared.1.initFromBuf path).openWith File.writeAnew File.ownerWritable reply
      cleared.2).error.event = false := by
    by_contra raised
    rw [if_pos (by simpa using raised)] at calm
    exact absurd calm (ne_false_of_eq_true (Process.event_appendMsg _ _ _))
  rw [← File.openIn_none] at quiet
  obtain ⟨named, unbuffered, isOpen, file⟩ := File.openIn_calm quiet
  rw [File.openIn_none] at quiet unbuffered isOpen file
  rw [if_neg (by rw [quiet]; simp)] at plain calm ⊢
  rw [opens.truncated] at file
  generalize (cleared.1.initFromBuf path).openWith File.writeAnew File.ownerWritable reply
    cleared.2 = process at *
  refine ⟨plain, ⟨begun.array, fun _ => ⟨rfl, ?_, file⟩⟩, begun.initialized, rfl, rfl, named,
    unbuffered, fun closed => ?_⟩
  · exact Int.natCast_nonneg _
  · exact absurd (isOpen.symm.trans closed) (by simp)

/-! ## Runs -/

/-- Between `set_rfile` and the end of the body nothing is lost and nothing is invented, in
every run of calls that receive and stream and do not fail. -/
theorem run_conserves {w : World} (begun : AtBody w) {path : Bytes} {reply : OpenReply}
    (opens : Opens path reply w) {calls : List Call}
    (along : Machine.Along World.step Smooth calls (w.setRfile (some path) reply).1) :
    Conserves w.session.rpending.bodyLen
      (Machine.run World.step calls (w.setRfile (some path) reply).1).1
      (w.session.held ++
        Machine.trace World.step receives calls (w.setRfile (some path) reply).1) := by
  apply Streams.conserves
  refine @Machine.run_preserves_trace _ _ World.step _ _ receives
    (Streams w.session.rpending.bodyLen) ?_ calls _ _ (streams_setRfile begun opens) along
  intro call w received streams smooth
  exact streams.step smooth

/-- The header of the short response has been accepted. -/
def shortBegun : World :=
  (Machine.run World.step shortResponse (opened MsgHdr.typeHttp {} {} [])).1

theorem atBody_shortBegun : AtBody shortBegun := by
  -- one evaluation of the run gives every field
  have fields : (0 ≤ shortBegun.session.rbufLen ∧
      shortBegun.session.rbufLen < shortBegun.session.rbufSize ∧
      0 ≤ shortBegun.session.rpending.bodyLen ∧ 0 ≤ shortBegun.session.rpending.fileOffset ∧
      shortBegun.session.rpending.fileOffset ≤ shortBegun.session.rpending.bodyLen) ∧
      shortBegun.session.conn.ssl = false ∧
      (shortBegun.session.rbuf.isSome = true ∧
        ((shortBegun.session.rbuf.getD []).length : Int) = shortBegun.session.rbufSize) ∧
      shortBegun.session.rpending.initialized = true ∧
      shortBegun.session.rpending.fileOffset = 0 ∧
      shortBegun.session.mutexes.incoming = false := by
    decide +kernel
  obtain ⟨⟨low, high, body, start, within⟩, plain, ⟨is_some, length⟩, initialized, unstreamed,
    free⟩ := fields
  obtain ⟨array, has⟩ := Option.isSome_iff_exists.mp is_some
  rw [has] at length
  exact ⟨⟨⟨low, high, body, start, within⟩, plain⟩, ⟨array, has, length⟩, initialized,
    unstreamed, free⟩

/-- Its body is streamed in two pieces, and more is received between them. -/
def twoPieces : List Call :=
  [.streamIncomingMsg (.accepted 1), .read { tcp := .received (ascii "HTTP") } none,
    .streamIncomingMsg (.accepted 9)]

theorem run_conserves_sample :
    Conserves shortBegun.session.rpending.bodyLen
      (Machine.run World.step twoPieces
        (shortBegun.setRfile (some (ascii "f")) (.opened 5 [])).1).1
      (shortBegun.session.held ++ Machine.trace World.step receives twoPieces
        (shortBegun.setRfile (some (ascii "f")) (.opened 5 [])).1) := by
  apply run_conserves atBody_shortBegun ⟨by decide +kernel, rfl⟩
  refine ⟨.streamIncomingMsg 1, fun _ => ⟨.read _ _ (by decide +kernel) (by decide +kernel),
    fun _ => ⟨.streamIncomingMsg 9, fun _ => trivial⟩⟩⟩

/-- When the body is complete, one more call returns 1; and the standard input stays open. -/
theorem streams_behind_end :
    let ended (path : String) := (shortBegun.setRfile (some (ascii path)) (.opened 5 [])).1
      |>.streamIncomingMsg (.accepted 2)
    ((ended "f").2 = some 0 ∧
      ((ended "f").1.streamIncomingMsg (.accepted 0)).2 = some 1 ∧
      ((ended "f").1.streamIncomingMsg (.accepted 0)).1.session.rpending.fileOffset =
        shortBegun.session.rpending.bodyLen) ∧
    ((ended "-").2 = some 0 ∧
      (ended "-").1.session.rfile.isOpen (ended "-").1.process = true) := by
  decide +kernel

end World

end IpUtils
