import IpUtils.File.Copy
import IpUtils.Session.Boxes
import IpUtils.Session.FileDelivery
import IpUtils.Session.Letters
import IpUtils.Session.ToDisc

/-! # From file to file

One session sends a message whose body is a file. The other takes the header, and streams
the body to a file of its own while it comes in.
-/

namespace IpUtils

open CLib World

/-- The two ends of a connection, what has come out of it so far, whether the receiver has
been given a file, and whether its calls have returned. -/
structure Transfer where
  sender : World
  receiver : World
  got : Bytes := []
  storing : Bool := false
  receiving : Bool := true

namespace Transfer

/-- A call of the sender's `Write`, a round of the receiver's loop in which `read(2)` returns
at most `count` bytes, or a call of the receiver for its file. -/
inductive Event where
  | write (replies : WriteReplies)
  | receive (count : Nat) (fresh : Bytes) (env : InitEnv)
  | setRfile (path : Bytes) (reply : OpenReply)
  | streamIncomingMsg (count : Nat)

def arrival (transfer : Transfer) (count : Nat) (fresh : Bytes) (env : InitEnv) : Arrival :=
  { bytes := (transfer.sender.wire.drop transfer.got.length).take count, fresh, env }

def step : Machine Event Transfer
  | .write replies, transfer =>
      ({ transfer with sender := (transfer.sender.write replies).1 }, true)
  | .receive count fresh env, transfer =>
      let arrival := transfer.arrival count fresh env
      let outcome := World.receive arrival transfer.receiver
      ({ transfer with
          receiver := outcome.1
          got := transfer.got ++ arrival.bytes
          receiving := transfer.receiving && outcome.2 }, true)
  | .setRfile path reply, transfer =>
      let outcome := transfer.receiver.setRfile (some path) reply
      ({ transfer with
          receiver := outcome.1
          storing := true
          receiving := transfer.receiving && outcome.2.isSome }, true)
  | .streamIncomingMsg count, transfer =>
      let outcome := transfer.receiver.streamIncomingMsg (.accepted count)
      ({ transfer with
          receiver := outcome.1
          receiving := transfer.receiving && outcome.2.isSome }, true)

/-- What is asked of an event: the sender's calls do not fail, the receiver has room, it opens
one file when it has the header, and streams while that is open. -/
inductive Admits (conn : SSLConn) (contents : Bytes) : Event → Transfer → Prop
  | write {replies : WriteReplies} {transfer : Transfer} (answers : Answers conn contents replies)
      (accepting : TCPConn.Accepting replies.chunk.tcp) :
      Admits conn contents (.write replies) transfer
  | receive {count : Nat} {fresh : Bytes} {env : InitEnv} {transfer : Transfer}
      (fits : Fits (transfer.arrival count fresh env) transfer.receiver)
      (small : transfer.receiver.session.rbufSize ≤ 2 ^ 62) :
      Admits conn contents (.receive count fresh env) transfer
  | setRfile {path : Bytes} {reply : OpenReply} {transfer : Transfer}
      (initialized : transfer.receiver.isIncomingMsgInitialized = true)
      (first : transfer.storing = false) (opens : Opens path reply transfer.receiver) :
      Admits conn contents (.setRfile path reply) transfer
  | streamIncomingMsg {count : Nat} {transfer : Transfer} (storing : transfer.storing = true)
      (isOpen : transfer.receiver.session.rfile.isOpen transfer.receiver.process = true) :
      Admits conn contents (.streamIncomingMsg count) transfer

end Transfer

/-! ## One call of the receiver -/

namespace World

variable {w : World} {held received bytes : Bytes} {bodyLen : Int}

theorem Idle.held_eq (idle : Idle w held) : w.session.held = held := by
  obtain ⟨array, has, -, within⟩ := idle.array
  exact held_of_front has within idle.rbufLen

/-- A message that is streamed leaves the session free for the next call. -/
theorem Streams.idle (streams : Streams bodyLen w received) (calm : w.event = false) :
    Idle w w.session.held := by
  obtain ⟨array, has, size⟩ := streams.tracks.array
  have low := streams.plain.buffer.low
  have high := streams.plain.buffer.high
  have length : (w.session.held.length : Int) = w.session.rbufLen :=
    length_held has low (by omega)
  exact ⟨⟨⟨array, has, size.symm, held_front has⟩, length.symm, by omega, streams.plain.plain,
    calm⟩, streams.free⟩

theorem delivered_of_fits (idle : Idle w held)
    (fits : (bytes.length : Int) ≤ w.session.rbufSize - w.session.rbufLen)
    (small : w.session.rbufSize < 2 ^ 63) : delivered { tcp := .received bytes } w = bytes := by
  have room := idle.room
  have rbufLen := idle.rbufLen
  rw [delivered, idle.free, if_neg (by simp), SSLConn.read, idle.plain, if_neg (by simp),
    TCPConn.read]
  refine List.take_of_length_le ?_
  rw [toSize]
  omega

/-- A round of the loop while a message is streamed. -/
theorem Streams.receive {arrival : Arrival} (streams : Streams bodyLen w received)
    (calm : w.event = false) (fits : Fits arrival w) (small : w.session.rbufSize ≤ 2 ^ 62) :
    (World.receive arrival w).2 = true ∧ (World.receive arrival w).1.event = false ∧
      Streams bodyLen (World.receive arrival w).1 (received ++ arrival.bytes) := by
  have idle := streams.idle calm
  obtain ⟨isSome, idle', -, -, -⟩ := idle.read fits.bytes fits.rbufSize arrival.fresh
  have next := streams.read small idle'.calm
  rw [delivered_of_fits idle fits.bytes fits.rbufSize] at next
  unfold World.receive
  dsimp only
  rw [if_neg (by rw [Option.isNone_eq_false_iff.mpr isSome]; simp),
    if_pos (by exact next.initialized)]
  exact ⟨rfl, idle'.calm, next⟩

/-- A call of `set_rfile` for a message whose header has been taken. -/
theorem Takes.setRfile {letter : Letter} {got : Bytes} (takes : Takes letter w got)
    (initialized : w.isIncomingMsgInitialized = true) {path : Bytes} {reply : OpenReply}
    (opens : Opens path reply w) :
    (w.setRfile (some path) reply).2.isSome = true ∧
      ∃ behind, got = letter.header ++ behind ∧ letter.needs ≤ behind.length ∧
        Streams letter.body.length (w.setRfile (some path) reply).1 behind := by
  cases takes with
  | header idle type unread within short =>
      exact absurd (initialized.symm.trans unread) (by simp)
  | @message behind idle there announced fileOffset http enough =>
      have free := idle.free
      have begun : AtBody w := by
        have rbufLen := idle.rbufLen
        have room := idle.room
        obtain ⟨array, has, size, -⟩ := idle.array
        refine ⟨⟨⟨?_, ?_, ?_, ?_, ?_⟩, idle.plain⟩, ⟨array, has, size.symm⟩, there, fileOffset, free⟩
        all_goals omega
      have streams := streams_setRfile begun opens
      rw [announced, idle.held_eq] at streams
      refine ⟨?_, behind, rfl, enough, streams⟩
      unfold World.setRfile
      dsimp only
      rw [lockIncoming_of_free free]
      split
      · rfl
      · split <;> rfl

/-- A call of `StreamIncomingMsg` on an open file. -/
theorem Streams.streamed (streams : Streams bodyLen w received) (calm : w.event = false)
    (isOpen : w.session.rfile.isOpen w.process = true) (count : Nat) :
    (w.streamIncomingMsg (.accepted count)).2.isSome = true ∧
      (w.streamIncomingMsg (.accepted count)).1.event = false ∧
      (w.streamIncomingMsg (.accepted count)).1.session.rpending.fileOffset =
        w.session.rpending.fileOffset + w.taken count := by
  obtain ⟨array, has, -⟩ := streams.tracks.array
  obtain ⟨rfile, -, fp⟩ := desc_moved array count w
  have quiet : (w.moved array count).event = false := by
    have same : (w.incomingLocked.streamed array (w.taken count)).session.rbuf = some array := has
    rw [moved, shiftRbuf, same]
    exact calm
  have offset : (w.moved array count).session.rpending.fileOffset =
      w.session.rpending.fileOffset + w.taken count := by
    rw [fileOffset_moved]
  have named : (w.moved array count).session.rfile.name.isEmpty = false := by
    rw [rfile]
    exact streams.named
  have closed := (File.error_close_of_named named (fp.trans streams.unbuffered)).1
  rw [streamIncomingMsg_of_open has isOpen streams.initialized streams.free count]
  split
  · refine ⟨rfl, ?_, offset⟩
    change ((w.moved array count).session.rfile.close (w.moved array count).process).error.event =
      false
    rw [closed]
    exact quiet
  · exact ⟨rfl, quiet, offset⟩

/-- All of the body has come: one call that writes all of it is enough. -/
theorem Streams.finishes {body : Bytes} (streams : Streams body.length w body)
    (calm : w.event = false) (isOpen : w.session.rfile.isOpen w.process = true)
    (small : w.session.rbufSize ≤ 2 ^ 62) {count : Nat} (all : body.length ≤ count) :
    let after := w.streamIncomingMsg (.accepted count)
    after.2 = some 0 ∧ after.1.storedFile.contents = body := by
  obtain ⟨-, -, offset⟩ := streams.streamed calm isOpen count
  obtain ⟨later, complete, -⟩ := streams.stream isOpen count
  have follows := streams.tracks.follows streams.initialized
  obtain ⟨array, has, size⟩ := streams.tracks.array
  have low := streams.plain.buffer.low
  have high := streams.plain.buffer.high
  have start := streams.plain.buffer.start
  have within := streams.plain.buffer.within
  have announced := streams.announced
  have length : (w.session.held.length : Int) = w.session.rbufLen :=
    length_held has low (by omega)
  rw [follows.held, List.length_drop] at length
  have whole : (w.taken count : Int) = body.length - w.session.rpending.fileOffset := by
    rw [taken, toSize]
    split <;> omega
  have ended : (w.streamIncomingMsg (.accepted count)).1.session.rpending.fileOffset =
      body.length := by
    rw [offset, whole]
    omega
  have file := (later.tracks.follows later.initialized).file
  rw [ended, Int.toNat_natCast, List.take_length] at file
  exact ⟨complete.mpr ended, congrArg OpenFile.contents file⟩

end World

/-! ## One event -/

namespace Transfer

variable {letter : Letter} {conn : SSLConn} {file : File} {transfer : Transfer}

/-- What the socket has taken of a message on disc is a part of it. -/
theorem wire_of_transmission {hdr contents : Bytes} {w : World}
    (transmission : Transmission conn [] hdr contents file w) : w.wire <+: hdr ++ contents := by
  cases transmission with
  | transmits state =>
      rw [state.wire]
      exact List.take_prefix _ _
  | waits state =>
      obtain ⟨place, wire⟩ := state.wire
      rw [wire]
      exact List.take_prefix _ _
  | done state =>
      have wire : w.wire = hdr ++ contents := state.wire
      exact wire ▸ List.prefix_rfl

/-- The message is on its way, and the receiver holds what has come of it, in its buffer or
in its file. -/
structure Transfers (letter : Letter) (conn : SSLConn) (file : File) (transfer : Transfer) :
    Prop where
  transmission : Transmission conn [] letter.header letter.body file transfer.sender
  within : transfer.got <+: transfer.sender.wire
  receiving : transfer.receiving = true
  calm : transfer.receiver.event = false
  taken : transfer.storing = false → Takes letter transfer.receiver transfer.got
  streams : transfer.storing = true → ∃ behind, transfer.got = letter.header ++ behind ∧
    letter.needs ≤ behind.length ∧ Streams letter.body.length transfer.receiver behind

theorem Transfers.step {event : Event} (transfers : Transfers letter conn file transfer)
    (plain : conn.ssl = false) (connected : conn.connected = true) (inhabited : letter.body ≠ [])
    (admits : Admits conn letter.body event transfer) :
    Transfers letter conn file (Transfer.step event transfer).1 := by
  have transmission := transfers.transmission
  have within := transfers.within
  have receiving := transfers.receiving
  have calm := transfers.calm
  cases admits with
  | write answers accepting =>
      exact ⟨(transmission.write answers accepting plain connected inhabited).1,
        within.trans (sends_write _ _).wire, receiving, calm, transfers.taken, transfers.streams⟩
  | @receive count fresh env _ fits small =>
      have further : transfer.got ++ (transfer.arrival count fresh env).bytes <+:
          transfer.sender.wire := by
        obtain ⟨flight, whole⟩ := within
        rw [arrival, ← whole, List.drop_left]
        exact (List.prefix_append_right_inj _).mpr (List.take_prefix _ _)
      cases phase : transfer.storing with
      | false =>
          obtain ⟨more, stream⟩ := further.trans (wire_of_transmission transmission)
          have stream' : transfer.got ++ (transfer.arrival count fresh env).bytes ++ more =
              letter.text ++ [] := stream.trans (List.append_nil _).symm
          obtain ⟨returned, takes⟩ := (transfers.taken phase).step fits stream'
          refine ⟨transmission, further, ?_, takes.calm, fun _ => takes, fun storing => ?_⟩
          · rw [Transfer.step, receiving]
            exact returned
          · exact absurd (phase.symm.trans storing) (by simp)
      | true =>
          obtain ⟨behind, got, enough, streams⟩ := transfers.streams phase
          obtain ⟨returned, calm', next⟩ := streams.receive calm fits small
          refine ⟨transmission, further, ?_, calm', fun other => ?_, fun _ => ⟨_, ?_, ?_, next⟩⟩
          · rw [Transfer.step, receiving]
            exact returned
          · exact absurd (phase.symm.trans other) (by simp)
          · change transfer.got ++ _ = _
            rw [got, List.append_assoc]
          · rw [List.length_append]
            omega
  | setRfile initialized first opens =>
      obtain ⟨returned, behind, got, enough, streams⟩ :=
        (transfers.taken first).setRfile initialized opens
      refine ⟨transmission, within, ?_, opens.calm, fun other => ?_,
        fun _ => ⟨behind, got, enough, streams⟩⟩
      · rw [Transfer.step, receiving]
        exact returned
      · cases other
  | @streamIncomingMsg count _ storing isOpen =>
      obtain ⟨behind, got, enough, streams⟩ := transfers.streams storing
      obtain ⟨returned, calm', -⟩ := streams.streamed calm isOpen count
      refine ⟨transmission, within, ?_, calm', fun other => ?_,
        fun _ => ⟨behind, got, enough, (streams.stream isOpen count).1⟩⟩
      · rw [Transfer.step, receiving]
        exact returned
      · exact absurd (storing.symm.trans other) (by simp)

/-! ## Whole runs -/

/-- **From file to file.** A message whose body is a file, of which the socket takes every
piece whole, is sent and received in any order of the two sessions' calls. The receiver
raises no error and never hangs. Once it has been given a file, that file and the read
buffer hold between them what has come of the body, and nothing else is in the file; when it is
closed, it has the contents of the file that was sent. When all has come, one call that
writes all is enough for that. -/
theorem run_transfers (letter : Letter) (inhabited : letter.body ≠ []) {sender : World}
    (plain : sender.session.conn.ssl = false) (connected : sender.session.conn.connected = true)
    {file : File} {queue : List OutMsg}
    (queued : Queued sender.session
      ({ hdr := letter.header, body := .disc file letter.body.length } :: queue))
    (untouched : ∀ front ∈ sender.session.wpending.head?, front.Untouched)
    (at_ : file.At sender.process letter.body 0) (calm : sender.event = false)
    (free : sender.session.mutexes.outgoing = false) (unsent : sender.wire = [])
    {conn : SSLConn} (plain' : conn.ssl = false) {process : Process}
    (calm' : process.error.event = false) (fresh : Bytes) {events : List Event}
    (along : Machine.Along step (Admits sender.session.conn letter.body) events
      { sender, receiver := opened MsgHdr.typeHttp conn process fresh }) :
    let reached := (Machine.run step events
      { sender, receiver := opened MsgHdr.typeHttp conn process fresh }).1
    reached.receiving = true ∧ reached.receiver.event = false ∧
      reached.got <+: letter.header ++ letter.body ∧
      (reached.storing = true →
        letter.header <+: reached.got ∧
        reached.receiver.storedFile.contents ++ reached.receiver.session.held =
          reached.got.drop letter.header.length ∧
        (reached.receiver.session.rfile.isOpen reached.receiver.process = false →
          reached.receiver.storedFile.contents = letter.body) ∧
        (reached.got = letter.header ++ letter.body →
          reached.receiver.session.rfile.isOpen reached.receiver.process = true →
          reached.receiver.session.rbufSize ≤ 2 ^ 62 → ∀ count, letter.body.length ≤ count →
            let after := reached.receiver.streamIncomingMsg (.accepted count)
            after.2 = some 0 ∧ after.1.storedFile.contents = letter.body)) := by
  intro reached
  have begins : Transfers letter sender.session.conn file
      { sender, receiver := opened MsgHdr.typeHttp conn process fresh } := by
    have transmission := Transmission.of_queued queued rfl untouched at_ calm free
    rw [unsent] at transmission
    have takes := takes_opened letter plain' calm' fresh
    exact ⟨transmission, List.nil_prefix, rfl, takes.calm, fun _ => takes, fun storing => by cases storing⟩
  have preserved (event : Event) (state : Transfer)
      (transfers : Transfers letter sender.session.conn file state)
      (admits : Admits sender.session.conn letter.body event state) :
      Transfers letter sender.session.conn file (step event state).1 :=
    transfers.step plain connected inhabited admits
  have transfers : Transfers letter sender.session.conn file reached :=
    Machine.run_preserves preserved begins along
  have part := transfers.within.trans (wire_of_transmission transfers.transmission)
  refine ⟨transfers.receiving, transfers.calm, part, fun storing => ?_⟩
  obtain ⟨behind, got, -, streams⟩ := transfers.streams storing
  have conserves := streams.conserves
  have behind' : reached.got.drop letter.header.length = behind := by
    rw [got, List.drop_left]
  have body : behind <+: letter.body := by
    rw [got] at part
    exact (List.prefix_append_right_inj _).mp part
  refine ⟨got ▸ List.prefix_append _ _, ?_, fun closed => ?_, fun all isOpen small count enough => ?_⟩
  · rw [behind']
    exact conserves.conserved
  · have ended := conserves.complete closed
    have written := conserves.written
    have stored : reached.receiver.storedFile.contents <+: letter.body := by
      refine List.IsPrefix.trans ?_ body
      rw [← conserves.conserved]
      exact List.prefix_append _ _
    exact stored.eq_of_length (by omega)
  · have whole : behind = letter.body := by
      rw [got] at all
      exact List.append_cancel_left all
    rw [whole] at streams
    exact streams.finishes transfers.calm isOpen small enough

/-- A session with the response, whose body is in a file. -/
def sampleSender : World :=
  (World.step (.addMsgFile (some sampleResponse.header) sampleResponse.header.length
    { descriptor := 7, name := ascii "f" } (2 : Nat) { type := MsgHdr.typeHttp } none)
    (opened MsgHdr.typeHttp { connected := true, blocking := false } {} [])).1

/-- The file goes out in two pieces. -/
def samplePiece : WriteReplies where
  front := { tcp := [.accepted 100] }
  opening := .opened 5 (ascii "hi")
  reading := .delivered 1
  chunk := { tcp := [.accepted 1] }

def sampleEvents : List Event :=
  [.write samplePiece, .receive 100 [] {}, .setRfile (ascii "g") (.opened 6 []),
    .streamIncomingMsg 1, .write samplePiece, .receive 100 [] {}, .streamIncomingMsg 9]

theorem run_transfers_sample :
    (Machine.run step sampleEvents
      { sender := sampleSender
        receiver := opened MsgHdr.typeHttp {} {} [] }).1.receiver.storedFile.contents =
      ascii "hi" := by
  obtain ⟨queued, untouched, quiet, free⟩ := (adds_addMsgFile (queued_opened MsgHdr.typeHttp
    { connected := true, blocking := false } {} []) (some sampleResponse.header)
    { descriptor := 7, name := ascii "f" } (2 : Nat) { type := MsgHdr.typeHttp } none).front
    (by decide +kernel) rfl
  have answers : Answers sampleSender.session.conn (ascii "hi") samplePiece :=
    ⟨⟨5, rfl⟩, rfl, ⟨1, rfl⟩, by simp [TCPConn.Soft, samplePiece], by simp [TCPConn.Soft, samplePiece]⟩
  have accepting : TCPConn.Accepting samplePiece.chunk.tcp := by
    simp [TCPConn.Accepting, samplePiece]
  have transfers := @run_transfers (Letter.ofResponse sampleResponse) (by decide) sampleSender
    rfl rfl { descriptor := 7, name := ascii "f" } [] queued untouched
    ⟨rfl, by decide, by decide +kernel⟩ quiet.event free (by decide +kernel) {} rfl {} rfl []
    sampleEvents
    ⟨.write answers accepting, fun _ =>
      ⟨.receive ⟨by decide +kernel, rfl, by decide +kernel⟩ (by decide +kernel), fun _ =>
      ⟨.setRfile (by decide +kernel) (by decide +kernel) ⟨by decide +kernel, rfl⟩, fun _ =>
      ⟨.streamIncomingMsg (by decide +kernel) (by decide +kernel), fun _ =>
      ⟨.write answers accepting, fun _ =>
      ⟨.receive ⟨by decide +kernel, rfl, by decide +kernel⟩ (by decide +kernel), fun _ =>
      ⟨.streamIncomingMsg (by decide +kernel) (by decide +kernel), fun _ => trivial⟩⟩⟩⟩⟩⟩⟩
  exact (transfers.2.2.2 (by decide +kernel)).2.2.1 (by decide +kernel)

end Transfer

end IpUtils
