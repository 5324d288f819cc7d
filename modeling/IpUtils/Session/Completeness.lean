import IpUtils.Calls.Basic
import IpUtils.HTTP.Outcome
import IpUtils.Session.Boxes
import IpUtils.Session.ReadBuffer
import IpUtils.Session.Receiving
import IpUtils.Session.Representation

/-! # Complete messages

Where the body of a message is while it is received: what has been streamed is in the file,
and the rest at the front of the read buffer, with the bytes of the next message behind it.
-/

namespace IpUtils

open CLib

/-- The bytes of `rbuf_`. -/
def TCPSession.held (session : TCPSession) : Bytes :=
  (session.rbuf.getD []).take session.rbufLen.toNat

namespace World

variable {w w' : World} {stream : Bytes}

/-- What the kernel keeps for `rfile_`. -/
def storedFile (w : World) : OpenFile :=
  (w.session.rfile.desc w.process).openFile

/-- `rfile_` and `rbuf_` hold the bytes behind the header: the file those that have been
streamed, and the buffer all others. -/
structure Follows (w : World) (stream : Bytes) : Prop where
  held : w.session.held = stream.drop w.session.rpending.fileOffset.toNat
  within : w.session.rpending.fileOffset ≤ stream.length
  file : w.storedFile =
    { contents := stream.take w.session.rpending.fileOffset.toNat
      position := w.session.rpending.fileOffset.toNat }

/-- `rbuf_` is an array of `rbuf_size_` bytes, and the message that there is is followed. -/
structure Tracks (w : World) (stream : Bytes) : Prop where
  array : ∃ array, w.session.rbuf = some array ∧ (array.length : Int) = w.session.rbufSize
  follows : w.session.rpending.initialized = true → Follows w stream

/-- The calls that receive a message. -/
inductive Incoming : Call → Prop
  | read (reply : SSLConn.NetRead) (fresh : Option Bytes) : Incoming (.read reply fresh)
  | initIncomingMsg (env : InitEnv) : Incoming (.initIncomingMsg env)
  | streamIncomingMsg (reply : WriteReply) : Incoming (.streamIncomingMsg reply)
  | setRfile (path : Option Bytes) (reply : OpenReply) : Incoming (.setRfile path reply)
  | setStorage (storage : UInt8) : Incoming (.setStorage storage)

theorem Incoming.receiving {call : Call} (incoming : Incoming call) : Receiving call := by
  cases incoming with
  | read reply fresh => exact .read reply fresh
  | initIncomingMsg env => exact .initIncomingMsg env
  | streamIncomingMsg reply => exact .streamIncomingMsg reply
  | setRfile path reply => exact .setRfile path reply
  | setStorage storage => exact .setStorage storage

/-- What a call of `Read` receives. -/
def delivered (reply : SSLConn.NetRead) (w : World) : Bytes :=
  if w.session.mutexes.incoming then []
  else (w.session.conn.read (w.session.rbufSize - w.session.rbufLen) reply w.process.error).data

/-- The bytes behind the header of the message, after a call: when a header is accepted, those
that have been received behind the bytes that the parser has used for it; and all that are read
after that. -/
def follow (call : Call) (w : World) (stream : Bytes) : Bytes :=
  match call with
  | .read reply _ => stream ++ delivered reply w
  | .initIncomingMsg env =>
      if (w.initIncomingMsg env).2 = some true then
        w.session.held.drop ((w.parseRhdr env (w.session.rbuf.getD [])).bytesUsed.getD 0)
      else stream
  | _ => stream

/-- The header is not that of a chunked response. -/
def Undecoded (outcome : MsgHdr.ParseOutcome) : Prop :=
  outcome.hdr.type = MsgHdr.typeHttp → outcome.hdr.http.msgType = .response →
    outcome.hdr.http.isChunked = false

/-- A header is accepted while nothing stands in `rfile_`, and is not that of a chunked response;
a file is given to the session before the body is streamed, and it is empty behind `open(2)`. -/
structure Careful (call : Call) (w : World) : Prop where
  undecoded : ∀ env, call = .initIncomingMsg env → (w.initIncomingMsg env).2 = some true →
    Undecoded (w.parseRhdr env (w.session.rbuf.getD []))
  accepts : ∀ env, call = .initIncomingMsg env → (w.initIncomingMsg env).2 = some true →
    w.storedFile = {}
  replaces : ∀ path reply, call = .setRfile path reply →
    w.session.rpending.initialized = true → w.session.rpending.fileOffset = 0
  truncates : ∀ path reply, call = .setRfile path reply → reply.openFile = {}

/-! ## What does not touch the body -/

/-- The body is where it was. -/
theorem Follows.congr (follows : Follows w stream) (held : w'.session.held = w.session.held)
    (offset : w'.session.rpending.fileOffset = w.session.rpending.fileOffset)
    (file : w'.storedFile = w.storedFile) : Follows w' stream := by
  constructor
  · rw [held, offset]
    exact follows.held
  · rw [offset]
    exact follows.within
  · rw [file, offset]
    exact follows.file

/-- More has been received. -/
theorem Follows.extend (follows : Follows w stream) {data : Bytes}
    (start : 0 ≤ w.session.rpending.fileOffset) (held : w'.session.held = w.session.held ++ data)
    (offset : w'.session.rpending.fileOffset = w.session.rpending.fileOffset)
    (file : w'.storedFile = w.storedFile) : Follows w' (stream ++ data) := by
  have within := follows.within
  have reached : w.session.rpending.fileOffset.toNat ≤ stream.length := by omega
  constructor
  · rw [held, offset, follows.held, List.drop_append_of_le_length reached]
  · rw [offset, List.length_append]
    omega
  · rw [file, offset, List.take_append_of_le_length reached]
    exact follows.file

/-- The bytes at the start of `rbuf_`. -/
theorem held_of_front {session : TCPSession} {array front : Bytes}
    (has : session.rbuf = some array) (within : front <+: array)
    (rbufLen : session.rbufLen = front.length) : session.held = front := by
  rw [TCPSession.held, has, rbufLen]
  exact (List.prefix_iff_eq_take.mp within).symm

/-- The bytes that are held stand at the start of `rbuf_`. -/
theorem held_front {session : TCPSession} {array : Bytes} (has : session.rbuf = some array) :
    session.held <+: array := by
  rw [TCPSession.held, has]
  exact List.take_prefix _ _

theorem length_held {session : TCPSession} {array : Bytes} (has : session.rbuf = some array)
    (low : 0 ≤ session.rbufLen) (high : session.rbufLen ≤ array.length) :
    (session.held.length : Int) = session.rbufLen := by
  rw [TCPSession.held, has, Option.getD_some, List.length_take]
  omega

theorem Tracks.incomingLocked (tracks : Tracks w stream) : Tracks w.incomingLocked stream :=
  ⟨tracks.array, fun there => (tracks.follows there).congr rfl rfl rfl⟩

theorem Tracks.returnIncoming {α : Type} (value : α) (tracks : Tracks w stream) :
    Tracks (w.returnIncoming value).1 stream :=
  ⟨tracks.array, fun there => (tracks.follows there).congr rfl rfl rfl⟩

theorem Tracks.refuse (tracks : Tracks w stream) (format : String) :
    Tracks (w.refuse format) stream :=
  ⟨tracks.array, fun there => (tracks.follows there).congr rfl rfl rfl⟩

/-- A call that locks the incoming mutex first. -/
theorem Tracks.lockIncoming {α : Type} (tracks : Tracks w stream) {body : World → Outcome α}
    (inside : w.session.mutexes.incoming = false → Tracks (body w.incomingLocked).1 stream) :
    Tracks (w.lockIncoming body).1 stream := by
  cases held : w.session.mutexes.incoming with
  | true =>
      rw [lockIncoming_of_held held]
      exact tracks.incomingLocked
  | false =>
      rw [lockIncoming_of_free held]
      exact inside held

/-- Without a message there is nothing to follow. -/
theorem tracks_resetRbuf
    (array : ∃ array, w.session.rbuf = some array ∧ (array.length : Int) = w.session.rbufSize) :
    Tracks w.resetRbuf stream := by
  obtain ⟨array, has, length⟩ := array
  unfold resetRbuf
  rw [has, if_neg (by simp)]
  exact ⟨⟨array, has, length⟩, fun there => by cases there⟩

theorem Tracks.setStorage (tracks : Tracks w stream) (storage : UInt8) :
    Tracks (w.setStorage storage).1 stream := by
  unfold World.setStorage
  refine tracks.lockIncoming fun _ => ?_
  exact ⟨tracks.array, fun there => (tracks.follows there).congr rfl rfl rfl⟩

/-! ## Read -/

/-- What has been read counts. -/
theorem value_read {conn : SSLConn} (plain : conn.ssl = false) {bufLen : Int}
    (reply : SSLConn.NetRead) (error : ErrorHandler)
    (quiet : (conn.read bufLen reply error).error.event = false) :
    (conn.read bufLen reply error).value = (conn.read bufLen reply error).data.length := by
  rw [SSLConn.read, plain, if_neg (by simp)] at quiet ⊢
  unfold TCPConn.read at quiet ⊢
  split at quiet
  · rfl
  · split
    · rfl
    · rename_i hard
      rw [if_neg hard] at quiet
      dsimp only at quiet
      rw [ErrorHandler.event_init] at quiet
      cases quiet

/-- What is received goes behind what is held. -/
theorem Tracks.read (tracks : Tracks w stream) (plain : PlainBuffer w.session)
    (small : w.session.rbufSize ≤ 2 ^ 62) (reply : SSLConn.NetRead) (fresh : Option Bytes) :
    Tracks (w.read reply fresh).1 (stream ++ delivered reply w) := by
  obtain ⟨array, has, length⟩ := tracks.array
  have low := plain.buffer.low
  have high := plain.buffer.high
  have start := plain.buffer.start
  unfold World.read
  rw [has]
  dsimp only
  cases locked : w.session.mutexes.incoming with
  | true =>
      have none_ : delivered reply w = [] := by rw [delivered, locked, if_pos rfl]
      rw [lockIncoming_of_held locked, none_, List.append_nil]
      exact tracks.incomingLocked
  | false =>
      have data : delivered reply w = (w.session.conn.read
          (w.session.rbufSize - w.session.rbufLen) reply w.process.error).data := by
        rw [delivered, locked, if_neg (by simp)]
      rw [lockIncoming_of_free locked, data]
      obtain ⟨same, fits⟩ := read_plain plain.plain
        (show 0 ≤ w.session.rbufSize - w.session.rbufLen by omega) (by omega) reply w.process.error
      have counts := @value_read _ plain.plain (w.session.rbufSize - w.session.rbufLen) reply
        w.process.error
      have answer : w.incomingLocked.session.conn.read
          (w.incomingLocked.session.rbufSize - w.incomingLocked.session.rbufLen) reply
          w.incomingLocked.process.error =
          w.session.conn.read (w.session.rbufSize - w.session.rbufLen) reply w.process.error := rfl
      rw [answer]
      generalize w.session.conn.read (w.session.rbufSize - w.session.rbufLen) reply
        w.process.error = received at same fits counts ⊢
      have size : ((storeAt array w.session.rbufLen received.data).length : Int) =
          w.session.rbufSize := by
        rw [length_storeAt]
        exact length
      split
      · exact Tracks.returnIncoming _ (tracks_resetRbuf ⟨_, rfl, size⟩)
      · rename_i calm
        have quiet : received.error.event = false := by simpa [event] using calm
        have value := counts quiet
        have most := (fits quiet).2
        have held := @length_held w.session array has low (by omega)
        have stored : w.session.held ++ received.data <+:
            storeAt array w.session.rbufLen received.data := by
          rw [← held]
          exact prefix_storeAt (held_front has) (by omega)
        have counted : w.session.rbufLen + received.value =
            ((w.session.held ++ received.data).length : Int) := by
          rw [List.length_append]
          omega
        unfold keepReceived
        dsimp only [onSession]
        split
        · split
          · exact Tracks.returnIncoming _ (tracks_resetRbuf ⟨_, rfl, size⟩)
          · rename_i larger given
            refine Tracks.returnIncoming _ ⟨⟨larger, rfl, ?_⟩, fun there => ?_⟩
            · rw [length_reallocate given]
              change _ = w.session.rbufSize + kDefaultBufSize
              change ((w.session.rbufSize + kDefaultBufSize).toNat : Int) = _
              omega
            · refine (tracks.follows there).extend start ?_ rfl rfl
              refine held_of_front rfl (prefix_reallocate given ?_ stored) counted
              change (storeAt array w.session.rbufLen received.data).length ≤
                (w.session.rbufSize + kDefaultBufSize).toNat
              omega
        · refine Tracks.returnIncoming _ ⟨⟨_, rfl, size⟩, fun there => ?_⟩
          exact (tracks.follows there).extend start (held_of_front rfl stored counted) rfl rfl

/-! ## InitIncomingMsg -/

/-- The parser leaves the files alone. -/
theorem descriptors_initFromBuf (env : MsgHdr.BufEnv) (window : Bytes) (chunked : ChunkBuf)
    (hdr : MsgHdr) (process : Process) :
    (hdr.initFromBuf env window chunked process).process.descriptors = process.descriptors :=
  (files_initFromBuf env window chunked hdr process).1

theorem storedFile_shiftRbuf (len offset : Int) (w : World) :
    (w.shiftRbuf len offset).storedFile = w.storedFile := by
  unfold shiftRbuf
  split <;> rfl

theorem array_shiftRbuf {array : Bytes} (has : w.session.rbuf = some array)
    (length : (array.length : Int) = w.session.rbufSize) (len offset : Int) :
    ∃ array, (w.shiftRbuf len offset).session.rbuf = some array ∧
      (array.length : Int) = (w.shiftRbuf len offset).session.rbufSize := by
  unfold shiftRbuf
  rw [has]
  refine ⟨_, rfl, ?_⟩
  rw [length_moveAt]
  exact length

/-- A message begins in the read buffer. -/
theorem takeHeader_begins {array : Bytes} (has : w.session.rbuf = some array)
    (length : (array.length : Int) = w.session.rbufSize) (used : Nat) (chunked : ChunkBuf) :
    (∃ array', (w.takeHeader array used chunked).session.rbuf = some array' ∧
      (array'.length : Int) = (w.takeHeader array used chunked).session.rbufSize) ∧
    (w.takeHeader array used chunked).session.rpending.fileOffset = 0 ∧
    (w.takeHeader array used chunked).storedFile = w.storedFile := by
  unfold takeHeader
  generalize cstr (chunked.msgBody.getD []) = body
  dsimp only [onSession]
  split
  · generalize stored : ({ w with
      session := { w.session with rbuf := some (storeAt array 0 body) }
      process := w.process.checked (inside array 0 body.length) } : World) = placed
    have same : placed.session.rbuf = some (storeAt array 0 body) ∧
        ((storeAt array 0 body).length : Int) = placed.session.rbufSize ∧
        placed.storedFile = w.storedFile := by
      rw [← stored, length_storeAt]
      exact ⟨rfl, length, rfl⟩
    have file := storedFile_shiftRbuf (toSsize (toSize ((used : Int) - body.length))) body.length
      placed
    have array' := array_shiftRbuf same.1 same.2.1
      (toSsize (toSize ((used : Int) - body.length))) body.length
    exact ⟨array', rfl, file.trans same.2.2⟩
  · have file := storedFile_shiftRbuf (toSsize used) 0 w
    have array' := array_shiftRbuf has length (toSsize used) 0
    exact ⟨array', rfl, file⟩

/-- Bytes are removed from the front of the read buffer. -/
theorem held_shiftRbuf {array : Bytes} (has : w.session.rbuf = some array)
    (low : 0 ≤ w.session.rbufLen) (high : w.session.rbufLen ≤ array.length) {count : Nat}
    (within : (count : Int) ≤ w.session.rbufLen) :
    (w.shiftRbuf count 0).session.held = w.session.held.drop count := by
  have length := length_held has low high
  have moved := @prefix_moveAt array (w.session.held.take count) (w.session.held.drop count)
    (by rw [List.take_append_drop]; exact held_front has)
  have front : (w.session.held.take count).length = count := by
    rw [List.length_take]
    omega
  have behind : ((w.session.held.drop count).length : Int) = w.session.rbufLen - count := by
    rw [List.length_drop]
    omega
  rw [front, behind] at moved
  unfold shiftRbuf
  rw [has]
  dsimp only
  rw [if_neg (by omega)]
  refine held_of_front rfl ?_ behind.symm
  simpa using moved

/-- Without a decoded body, a message begins with what has been received behind its header. -/
theorem held_takeHeader {array : Bytes} {chunked : ChunkBuf}
    (blank : cstr (chunked.msgBody.getD []) = []) (has : w.session.rbuf = some array)
    (low : 0 ≤ w.session.rbufLen) (high : w.session.rbufLen ≤ array.length) {used : Nat}
    (within : (used : Int) ≤ w.session.rbufLen) (small : used < 2 ^ 63) :
    (w.takeHeader array used chunked).session.held = w.session.held.drop used := by
  rw [takeHeader_blank blank, toSsize_of_small small]
  exact held_shiftRbuf has low high within

/-- A header that is not that of a chunked response is taken out of the window, and nothing is
decoded. -/
theorem initFromBuf_undecoded {env : MsgHdr.BufEnv} {window : Bytes} {hdr : MsgHdr}
    {process : Process} {used size : Nat}
    (accepted : (hdr.initFromBuf env window { msgBody := callocate size true, size }
      process).bytesUsed = some used)
    (undecoded : Undecoded (hdr.initFromBuf env window { msgBody := callocate size true, size }
      process)) :
    used ≤ window.length ∧
      cstr ((hdr.initFromBuf env window { msgBody := callocate size true, size }
        process).chunked.msgBody.getD []) = [] := by
  have empty : cstr ((callocate size true).getD []) = [] := by
    rw [callocate, if_pos rfl, Option.getD_some]
    cases size <;> rfl
  have typed := type_initFromBuf env window { msgBody := callocate size true, size } hdr process
  unfold Undecoded at undecoded
  rw [typed] at undecoded
  unfold MsgHdr.initFromBuf at accepted undecoded ⊢
  by_cases basic : hdr.type = MsgHdr.typeBasic
  · rw [if_pos basic] at accepted ⊢
    unfold MsgHdr.initBasic at accepted ⊢
    by_cases short : window.length < BasicFramingHdr.size
    · rw [if_pos short] at accepted
      cases accepted
    · rw [if_neg short] at accepted ⊢
      cases accepted
      exact ⟨Nat.not_lt.mp short, empty⟩
  rw [if_neg basic] at accepted undecoded ⊢
  by_cases http : hdr.type = MsgHdr.typeHttp
  · rw [if_pos http] at accepted undecoded ⊢
    have undecoded := undecoded http
    have inner := @HTTPFraming.initFromBuf_undecoded
      { obj := hdr.http, error := process.error } { msgBody := callocate size true, size } used
      { stale := env.stale, defaultPort := MsgHdr.ipcommPortNull, realloc := env.realloc } window
    unfold MsgHdr.initHttp at accepted undecoded ⊢
    generalize HTTPFraming.initFromBuf _ _ _ _ = result at accepted undecoded inner ⊢
    dsimp only at accepted undecoded ⊢
    cases given : result.bytesUsed with
    | none =>
        rw [given] at accepted
        cases accepted
    | some used' =>
        rw [given] at accepted undecoded inner
        cases accepted
        obtain ⟨within, same⟩ := inner rfl undecoded
        refine ⟨within, ?_⟩
        dsimp only
        rw [same]
        exact empty
  · rw [if_neg http] at accepted ⊢
    cases accepted
    exact ⟨Nat.zero_le _, empty⟩

/-- When a header is taken that is not that of a chunked response, what has been received behind
it is left. -/
theorem held_accepted {array : Bytes} (has : w.session.rbuf = some array)
    (length : (array.length : Int) = w.session.rbufSize) (plain : PlainBuffer w.session)
    (small : w.session.rbufSize ≤ 2 ^ 62) (env : InitEnv) {used : Nat}
    (accepted : (w.parseRhdr env array).bytesUsed = some used)
    (undecoded : Undecoded (w.parseRhdr env array)) :
    (takeHeader array used (w.parseRhdr env array).chunked { w.incomingLocked with
      session := { w.incomingLocked.session with rhdr := (w.parseRhdr env array).hdr }
      process := (w.parseRhdr env array).process }).session.held = w.session.held.drop used := by
  have low := plain.buffer.low
  have high := plain.buffer.high
  obtain ⟨within, blank⟩ := initFromBuf_undecoded accepted undecoded
  rw [length_readMemory, toSize] at within
  refine @held_takeHeader { w.incomingLocked with
    session := { w.incomingLocked.session with rhdr := (w.parseRhdr env array).hdr }
    process := (w.parseRhdr env array).process } array _ blank has low ?_ used ?_ (by omega)
  · change w.session.rbufLen ≤ _
    omega
  · change (used : Int) ≤ w.session.rbufLen
    omega

/-- Either no header is accepted, or a message begins, with what has been received behind the
header. -/
theorem initIncomingMsg_cases (tracks : Tracks w stream) (plain : PlainBuffer w.session)
    (env : InitEnv) :
    ((w.initIncomingMsg env).2 ≠ some true ∧ Tracks (w.initIncomingMsg env).1 stream) ∨
      ((∃ array, (w.initIncomingMsg env).1.session.rbuf = some array ∧
          (array.length : Int) = (w.initIncomingMsg env).1.session.rbufSize) ∧
        (w.initIncomingMsg env).2 = some true ∧
        (w.initIncomingMsg env).1.session.rpending.fileOffset = 0 ∧
        (w.initIncomingMsg env).1.storedFile = w.storedFile ∧
        (w.session.rbufSize ≤ 2 ^ 62 → Undecoded (w.parseRhdr env (w.session.rbuf.getD [])) →
          (w.initIncomingMsg env).1.session.held = w.session.held.drop
            ((w.parseRhdr env (w.session.rbuf.getD [])).bytesUsed.getD 0))) := by
  obtain ⟨array, has, length⟩ := tracks.array
  unfold initIncomingMsg
  rw [has]
  dsimp only
  split
  · exact .inl ⟨by simp, tracks⟩
  cases locked : w.session.mutexes.incoming with
  | true =>
      rw [lockIncoming_of_held locked]
      exact .inl ⟨by simp, tracks.incomingLocked⟩
  | false =>
      rw [lockIncoming_of_free locked]
      split
      · exact .inl ⟨by simp, ⟨⟨array, has, length⟩, fun there =>
          (tracks.follows there).congr rfl rfl rfl⟩⟩
      have files := descriptors_initFromBuf
        { stale := array.drop (toSize w.session.rbufLen), parameter := env.parameter
          realloc := env.realloc } (readMemory array (toSize w.session.rbufLen))
        { msgBody := callocate kDefaultBufSize true, size := kDefaultBufSize } w.session.rhdr
        w.process
      have parsed : (w.incomingLocked.parseRhdr env array).process.descriptors =
          w.process.descriptors := files
      have same_ : w.incomingLocked.parseRhdr env array = w.parseRhdr env array := rfl
      have removed (small : w.session.rbufSize ≤ 2 ^ 62) {used : Nat} :=
        @held_accepted w array has length plain small env used
      rw [Option.getD_some]
      rw [same_] at parsed ⊢
      generalize w.parseRhdr env array = outcome at parsed removed ⊢
      have same : storedFile { w.incomingLocked with
          session := { w.incomingLocked.session with rhdr := outcome.hdr }
          process := outcome.process } = w.storedFile := by
        unfold storedFile File.desc
        rw [parsed]
        rfl
      cases given : outcome.bytesUsed with
      | none =>
          dsimp only
          refine .inl ⟨?_, ?_⟩
          · split <;> simp [World.returnIncoming]
          · split
            · exact Tracks.returnIncoming _ (tracks_resetRbuf ⟨array, has, length⟩)
            · exact ⟨⟨array, has, length⟩, fun there =>
                (tracks.follows there).congr rfl rfl same⟩
      | some used =>
          dsimp only
          have begins := @takeHeader_begins { w.incomingLocked with
            session := { w.incomingLocked.session with rhdr := outcome.hdr }
            process := outcome.process } array has length used outcome.chunked
          rw [same] at begins
          have removed (small : w.session.rbufSize ≤ 2 ^ 62) := removed small given
          generalize takeHeader array used outcome.chunked { w.incomingLocked with
            session := { w.incomingLocked.session with rhdr := outcome.hdr }
            process := outcome.process } = taken at begins removed ⊢
          obtain ⟨array', offset, file⟩ := begins
          exact .inr ⟨array', rfl, offset, file, removed⟩

/-- A message that begins is followed from the bytes behind its header on. -/
theorem Tracks.initIncomingMsg (tracks : Tracks w stream) (plain : PlainBuffer w.session)
    (small : w.session.rbufSize ≤ 2 ^ 62) (env : InitEnv)
    (accepts : (w.initIncomingMsg env).2 = some true → w.storedFile = {})
    (undecoded : (w.initIncomingMsg env).2 = some true →
      Undecoded (w.parseRhdr env (w.session.rbuf.getD []))) :
    Tracks (w.initIncomingMsg env).1 (follow (.initIncomingMsg env) w stream) := by
  unfold follow
  rcases initIncomingMsg_cases tracks plain env with ⟨refused, tracks'⟩ |
    ⟨array, accepted, offset, file, removed⟩
  · dsimp only
    rw [if_neg refused]
    exact tracks'
  · dsimp only
    rw [if_pos accepted]
    refine ⟨array, fun _ => ⟨?_, ?_, ?_⟩⟩
    · rw [offset]
      exact removed small (undecoded accepted)
    · rw [offset]
      omega
    · rw [file, accepts accepted, offset]
      rfl

/-! ## set_rfile -/

theorem storedFile_clear (file : File) (process : Process) :
    ((file.clear process).1.desc (file.clear process).2).openFile = {} := by
  simp [File.clear, File.desc, Process.newDescriptor, Process.setDescriptor]

/-- The file that is opened is empty. -/
theorem openFile_openWith {file : File} {process : Process} {flags mode : Int} {reply : OpenReply}
    (empty : (file.desc process).openFile = {}) (truncates : reply.openFile = {}) :
    (file.desc (file.openWith flags mode reply process)).openFile = {} := by
  unfold File.openWith
  split
  · exact empty
  split
  · exact empty
  split
  · exact empty
  split
  · simp [File.desc, Process.setDescriptor, truncates]
  split
  · rename_i fd contents
    have none_ : contents = [] := congrArg OpenFile.contents truncates
    simp [File.desc, Process.setDescriptor, none_]
  · exact empty

theorem Tracks.setRfile (tracks : Tracks w stream) (path : Option Bytes) {reply : OpenReply}
    (replaces : w.session.rpending.initialized = true → w.session.rpending.fileOffset = 0)
    (truncates : reply.openFile = {}) : Tracks (w.setRfile path reply).1 stream := by
  cases path with
  | none => exact tracks.refuse _
  | some path =>
      unfold World.setRfile
      dsimp only
      split
      · exact tracks.refuse _
      split
      · exact tracks.refuse _
      refine tracks.lockIncoming fun _ => ?_
      have empty : w.session.rpending.initialized = true → w.storedFile = {} := by
        intro there
        rw [(tracks.follows there).file, replaces there]
        rfl
      have fresh : w.session.rpending.initialized = true →
          ((if w.incomingLocked.session.rfile.name.isEmpty then
              (w.incomingLocked.session.rfile, w.incomingLocked.process)
            else w.incomingLocked.session.rfile.clear w.incomingLocked.process).1.desc
            (if w.incomingLocked.session.rfile.name.isEmpty then
              (w.incomingLocked.session.rfile, w.incomingLocked.process)
            else w.incomingLocked.session.rfile.clear w.incomingLocked.process).2).openFile =
            {} := by
        intro there
        split
        · exact empty there
        · exact storedFile_clear _ _
      generalize (if w.incomingLocked.session.rfile.name.isEmpty then
          (w.incomingLocked.session.rfile, w.incomingLocked.process)
        else w.incomingLocked.session.rfile.clear w.incomingLocked.process) = cleared at fresh ⊢
      refine Tracks.returnIncoming _ ⟨tracks.array, fun there => ?_⟩
      have held := (tracks.follows there).held
      rw [replaces there] at held
      refine ⟨held, by change (0 : Int) ≤ _; omega, ?_⟩
      have named : ((cleared.1.initFromBuf path).desc cleared.2).openFile = {} := by
        unfold File.desc
        rw [descriptor_initFromBuf]
        exact fresh there
      have opened := @openFile_openWith _ _ File.writeAnew File.ownerWritable _ named truncates
      change ((if _ then _ else _ : Process).descriptors
        (cleared.1.initFromBuf path).descriptor).openFile = {}
      split
      · exact opened
      · exact opened

/-! ## StreamIncomingMsg -/

/-- Bytes are written behind those that are in the file. -/
theorem openFile_storeFile {desc : Descriptor} {front data : Bytes}
    (file : desc.openFile = { contents := front, position := front.length }) :
    (storeFile data desc).openFile =
      { contents := front ++ data, position := (front ++ data).length } := by
  unfold storeFile
  rw [file]
  simp [readMemory_self]

/-- Closing a file leaves what is in it. -/
theorem openFile_close (file : File) (process : Process) (address : Nat) :
    ((file.close process).descriptors address).openFile =
      (process.descriptors address).openFile := by
  unfold File.close
  split
  · rfl
  split
  · rfl
  split
  · rfl
  · by_cases same : address = file.descriptor
    · subst same
      simp [Process.setDescriptor]
    · simp [Process.setDescriptor, Function.update_of_ne same]

/-- Bytes from the front of the read buffer. -/
theorem sliceAt_held {session : TCPSession} {array : Bytes} (has : session.rbuf = some array)
    (low : 0 ≤ session.rbufLen) (high : session.rbufLen ≤ array.length) {count : Nat}
    (within : (count : Int) ≤ session.rbufLen) :
    sliceAt array 0 count = session.held.take count := by
  rw [sliceAt, if_pos (inside_of_le (le_refl _) (by omega) (by omega)), TCPSession.held, has,
    Option.getD_some, List.take_take, min_eq_left (by omega)]
  rfl

/-- The session in which bytes of the body have been written to the file. -/
def streamed (array : Bytes) (count : Nat) (w : World) : World :=
  { w with
    session := { w.session with
      rpending := { w.session.rpending with
        fileOffset := w.session.rpending.fileOffset + count } }
    process := (w.process.setDescriptor w.session.rfile.descriptor
      (storeFile (sliceAt array 0 count))).checked (inside array 0 count) }

/-- The bytes go from the buffer to the file. -/
theorem Follows.streamed (follows : Follows w stream) {array : Bytes}
    (has : w.session.rbuf = some array) (low : 0 ≤ w.session.rbufLen)
    (high : w.session.rbufLen ≤ array.length) (start : 0 ≤ w.session.rpending.fileOffset)
    {count : Nat} (within : (count : Int) ≤ w.session.rbufLen) :
    Follows ((w.streamed array count).shiftRbuf count 0) stream := by
  have length := length_held has low high
  have held := follows.held
  have reached := follows.within
  have offset : ((w.streamed array count).shiftRbuf count 0).session.rpending.fileOffset =
      w.session.rpending.fileOffset + count := by
    rw [rpending_shiftRbuf]
    rfl
  have sum : (w.session.rpending.fileOffset + count).toNat =
      w.session.rpending.fileOffset.toNat + count := by omega
  rw [held, List.length_drop] at length
  constructor
  · have moved := @held_shiftRbuf (w.streamed array count) array has low high count within
    have same : (w.streamed array count).session.held = w.session.held := rfl
    rw [moved, same, held, offset, sum, List.drop_drop]
  · rw [offset]
    omega
  · have front : (stream.take w.session.rpending.fileOffset.toNat).length =
        w.session.rpending.fileOffset.toNat := by
      rw [List.length_take]
      omega
    have written := @openFile_storeFile (w.session.rfile.desc w.process)
      (stream.take w.session.rpending.fileOffset.toNat) (sliceAt array 0 count)
      (by rw [front]; exact follows.file)
    have placed : (w.streamed array count).storedFile =
        (storeFile (sliceAt array 0 count) (w.session.rfile.desc w.process)).openFile := by
      unfold storedFile World.streamed
      simp [File.desc, Process.setDescriptor, Process.checked]
    rw [storedFile_shiftRbuf, placed, written, offset, sum, sliceAt_held has low high within, held,
      ← List.take_add, List.length_take, min_eq_left (by omega)]

theorem Tracks.streamIncomingMsg (tracks : Tracks w stream) (plain : PlainBuffer w.session)
    (reply : WriteReply) : Tracks (w.streamIncomingMsg reply).1 stream := by
  obtain ⟨array, has, length⟩ := tracks.array
  have low := plain.buffer.low
  have high := plain.buffer.high
  have start := plain.buffer.start
  have within := plain.buffer.within
  unfold World.streamIncomingMsg
  rw [has]
  dsimp only
  split
  · exact tracks.refuse _
  split
  · exact tracks.refuse _
  rename_i there
  have there : w.session.rpending.initialized = true := by simpa using there
  refine tracks.lockIncoming fun _ => ?_
  cases reply with
  | failed again reason =>
      exact Tracks.returnIncoming _ (tracks_resetRbuf ⟨array, has, length⟩)
  | accepted count =>
      dsimp only
      -- as much of the body as there is
      have amount : ∃ n : Nat, (n : Int) ≤ w.session.rbufLen ∧
          min count (toSize (if w.incomingLocked.session.rpending.bodyLen -
              w.incomingLocked.session.rpending.fileOffset < w.incomingLocked.session.rbufLen then
            w.incomingLocked.session.rpending.bodyLen - w.incomingLocked.session.rpending.fileOffset
          else w.incomingLocked.session.rbufLen)) = n := by
        refine ⟨_, ?_, rfl⟩
        change ((min count (toSize (if w.session.rpending.bodyLen -
          w.session.rpending.fileOffset < w.session.rbufLen then
            w.session.rpending.bodyLen - w.session.rpending.fileOffset
          else w.session.rbufLen)) : Nat) : Int) ≤ _
        rw [toSize]
        split <;> omega
      obtain ⟨n, most, same⟩ := amount
      rw [same]
      have follows := @Follows.streamed w.incomingLocked stream
        ((tracks.follows there).congr rfl rfl rfl) array has low (by
          change w.session.rbufLen ≤ _
          omega) start n most
      have array' := @array_shiftRbuf (w.incomingLocked.streamed array n) array has length n 0
      change Tracks (if _ then _ else _ : Outcome Int).1 stream
      split
      · refine Tracks.returnIncoming _ ⟨array', fun _ => ?_⟩
        exact follows.congr rfl rfl (openFile_close _ _ _)
      · exact Tracks.returnIncoming _ ⟨array', fun _ => follows⟩

/-! ## Runs -/

/-- One call. -/
theorem Tracks.step (tracks : Tracks w stream) (plain : PlainBuffer w.session) {call : Call}
    (incoming : Incoming call) (modest : Modest call w) (careful : Careful call w) :
    Tracks (World.step call w).1 (follow call w stream) := by
  cases incoming with
  | read reply fresh => exact tracks.read plain modest.1 reply fresh
  | initIncomingMsg env =>
      exact tracks.initIncomingMsg plain modest.1 env (careful.accepts env rfl)
        (careful.undecoded env rfl)
  | streamIncomingMsg reply => exact tracks.streamIncomingMsg plain reply
  | setRfile path reply =>
      exact tracks.setRfile path (careful.replaces path reply rfl)
        (careful.truncates path reply rfl)
  | setStorage storage => exact tracks.setStorage storage

/-- A response with a body of two bytes. -/
def shortText : Bytes :=
  ascii "HTTP/1.1 200 OK\x0d\nContent-Length: 2\x0d\n\x0d\nhi"

/-- It is received. -/
def shortResponse : List Call :=
  [.read { tcp := .received shortText } none, .initIncomingMsg {}]

end World

end IpUtils
