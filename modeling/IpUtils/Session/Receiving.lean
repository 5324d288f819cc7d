import IpUtils.Calls.Basic
import IpUtils.Session.ForeignErrors
import IpUtils.Session.PartialHeader
import IpUtils.Session.ReadBuffer
import IpUtils.Session.Representation

/-! # Receiving a response

A session that reads, and parses as long as there is no message yet, comes to the same
message however the bytes have been cut on their way.
-/

namespace IpUtils

open CLib

namespace MsgHdr

/-- A header that the parser accepts gets the next message id. -/
theorem initFromBuf_of_accepts (env : BufEnv) {window : Bytes} {chunked : ChunkBuf} {hdr : MsgHdr}
    {process : Process} {used : Nat} {http : HTTPFraming} (type : hdr.type = typeHttp)
    (accepted : HTTPFraming.initFromBuf { stale := env.stale, realloc := env.realloc } window
      { obj := hdr.http, error := process.error } chunked =
        { bytesUsed := some used, exec := { obj := http, error := process.error }, chunked }) :
    hdr.initFromBuf env window chunked process =
      { bytesUsed := some used
        hdr := { hdr with http, msgId := process.msgIdHash + 1 }
        process := { process with
          overrun := process.overrun || false, msgIdHash := process.msgIdHash + 1 }
        chunked } := by
  have notBasic : typeHttp ≠ typeBasic := by decide
  rw [initFromBuf, type, if_neg notBasic, if_pos rfl]
  unfold initHttp
  change HTTPFraming.initFromBuf
    { stale := env.stale, defaultPort := ipcommPortNull, realloc := env.realloc } window
    { obj := hdr.http, error := process.error } chunked = _ at accepted
  dsimp only
  rw [accepted]
  rw [type]

/-- The body of an HTTP message is as long as the framing header says. -/
theorem bodyLen_of_typeHttp {hdr : MsgHdr} {http : HTTPFraming} {msgId : UInt16}
    (type : hdr.type = typeHttp) : bodyLen { hdr with http, msgId } = http.msgLen := by
  have notBasic : typeHttp ≠ typeBasic := by decide
  have type' : ({ hdr with http, msgId } : MsgHdr).type = typeHttp := type
  rw [bodyLen, type', if_neg notBasic, if_pos rfl]

end MsgHdr

namespace World

variable {w : World} {held bytes : Bytes}

/-- What one round of the loop gets: the bytes that `read(2)` delivers, the memory behind a
larger buffer, and what the parser gets. -/
structure Arrival where
  bytes : Bytes
  fresh : Bytes
  env : InitEnv

/-- One round: `Read`, and `InitIncomingMsg` unless there is a message. -/
def receive : Machine Arrival World := fun arrival w =>
  let read := w.read { tcp := .received arrival.bytes } (some arrival.fresh)
  if read.2.isNone then (read.1, false)
  else if read.1.isIncomingMsgInitialized then (read.1, true)
  else settle (read.1.initIncomingMsg arrival.env)

/-- The bytes fit the free space of `rbuf_`, `calloc` succeeds, and `rbuf_` is as long as an
array can be. -/
structure Fits (arrival : Arrival) (w : World) : Prop where
  bytes : (arrival.bytes.length : Int) ≤ w.session.rbufSize - w.session.rbufLen
  calloc : arrival.env.calloc = true
  rbufSize : w.session.rbufSize < 2 ^ 63

/-- The read buffer of a session on plain TCP holds bytes. -/
structure Buffered (w : World) (held : Bytes) : Prop where
  array : ∃ array, w.session.rbuf = some array ∧ w.session.rbufSize = array.length ∧
    held <+: array
  rbufLen : w.session.rbufLen = held.length
  room : (held.length : Int) < w.session.rbufSize
  plain : w.session.conn.ssl = false
  calm : w.event = false

/-- No call is under way. -/
structure Idle (w : World) (held : Bytes) : Prop extends Buffered w held where
  free : w.session.mutexes.incoming = false

/-! ## Read -/

/-- Bytes that fit are put behind those that are held. -/
theorem Idle.read (buffered : Idle w held)
    (fits : (bytes.length : Int) ≤ w.session.rbufSize - w.session.rbufLen)
    (small : w.session.rbufSize < 2 ^ 63) (fresh : Bytes) :
    (w.read { tcp := .received bytes } (some fresh)).2.isSome = true ∧
      Idle (w.read { tcp := .received bytes } (some fresh)).1 (held ++ bytes) ∧
      (held ++ bytes).length < 2 ^ 63 ∧
      (w.read { tcp := .received bytes } (some fresh)).1.session.rpending = w.session.rpending ∧
      (w.read { tcp := .received bytes } (some fresh)).1.session.rhdr = w.session.rhdr := by
  obtain ⟨array, has, size, within⟩ := buffered.array
  have rbufLen := buffered.rbufLen
  have room := buffered.room
  have block : (kDefaultBufSize : Int) = 4096 := rfl
  have all : bytes.take (toSize (w.session.rbufSize - w.session.rbufLen)) = bytes := by
    refine List.take_of_length_le ?_
    rw [toSize]
    omega
  have answer : w.incomingLocked.session.conn.read
      (w.incomingLocked.session.rbufSize - w.incomingLocked.session.rbufLen)
      { tcp := .received bytes } w.incomingLocked.process.error =
      { data := bytes, value := bytes.length, eof := bytes.isEmpty, conn := w.session.conn
        error := w.process.error } := by
    change w.session.conn.read (w.session.rbufSize - w.session.rbufLen) { tcp := .received bytes }
      w.process.error = _
    rw [SSLConn.read, buffered.plain, if_neg (by simp), TCPConn.read, all]
  have stored : held ++ bytes <+: storeAt array w.session.rbufLen bytes := by
    rw [rbufLen]
    refine prefix_storeAt within ?_
    omega
  have length := length_storeAt array bytes w.session.rbufLen
  have short : (held ++ bytes).length < 2 ^ 63 := by
    rw [List.length_append]
    omega
  unfold World.read
  rw [has]
  dsimp only
  rw [lockIncoming_of_free buffered.free, answer]
  dsimp only
  rw [if_neg (by
    rw [Bool.not_eq_true]
    exact buffered.calm)]
  unfold keepReceived
  dsimp only [onSession]
  have same : w.incomingLocked.session.rbufLen = w.session.rbufLen := rfl
  have same' : w.incomingLocked.session.rbufSize = w.session.rbufSize := rfl
  rw [same, same']
  by_cases full : w.session.rbufLen + bytes.length = w.session.rbufSize
  · -- the buffer has been filled and is made larger
    rw [if_pos full]
    have grown : (w.session.rbufSize + kDefaultBufSize).toNat =
        (storeAt array w.session.rbufLen bytes).length + kDefaultBufSize := by
      rw [length]
      omega
    cases larger : reallocate (storeAt array w.session.rbufLen bytes)
        (w.session.rbufSize + kDefaultBufSize).toNat (some fresh) with
    | none => cases larger
    | some array' =>
        have size' := length_reallocate larger
        have kept := prefix_reallocate larger (by omega) stored
        refine ⟨rfl, ⟨⟨⟨array', rfl, ?_, kept⟩, ?_, ?_, buffered.plain, buffered.calm⟩, rfl⟩,
          short, rfl, rfl⟩
        · change w.session.rbufSize + kDefaultBufSize = (array'.length : Int)
          omega
        · change w.session.rbufLen + bytes.length = ((held ++ bytes).length : Int)
          rw [List.length_append]
          omega
        · change ((held ++ bytes).length : Int) < w.session.rbufSize + kDefaultBufSize
          rw [List.length_append]
          omega
  · rw [if_neg full]
    refine ⟨rfl, ⟨⟨⟨_, rfl, ?_, stored⟩, ?_, ?_, buffered.plain, buffered.calm⟩, rfl⟩,
      short, rfl, rfl⟩
    · change w.session.rbufSize = ((storeAt array w.session.rbufLen bytes).length : Int)
      omega
    · change w.session.rbufLen + bytes.length = ((held ++ bytes).length : Int)
      rw [List.length_append]
      omega
    · change ((held ++ bytes).length : Int) < w.session.rbufSize
      rw [List.length_append]
      omega

/-! ## InitIncomingMsg -/

section Parse

variable {env : InitEnv}

/-- The bytes that the parser is given. -/
theorem Buffered.window {array : Bytes} (buffered : Buffered w held)
    (small : held.length < 2 ^ 63) (within : held <+: array) :
    readMemory array (toSize w.session.rbufLen) = held := by
  have rbufLen := buffered.rbufLen
  have length := within.length_le
  have count : toSize w.session.rbufLen = held.length := by
    rw [toSize]
    omega
  obtain ⟨rest, rfl⟩ := within
  rw [count, readMemory_append_of_le le_rfl, List.take_length]

/-- While the parser waits for more, nothing is lost. -/
theorem Idle.init_waits (buffered : Idle w held) (small : held.length < 2 ^ 63)
    (type : w.session.rhdr.type = MsgHdr.typeHttp) (waits : ParserWaits held)
    (success : env.calloc = true) :
    (w.initIncomingMsg env).2.isSome = true ∧ Idle (w.initIncomingMsg env).1 held ∧
      (w.initIncomingMsg env).1.session.rpending = w.session.rpending ∧
      (w.initIncomingMsg env).1.session.rhdr.type = MsgHdr.typeHttp := by
  obtain ⟨array, has, size, within⟩ := buffered.array
  unfold initIncomingMsg
  rw [has]
  dsimp only
  by_cases empty : w.session.rbufLen = 0
  · rw [if_pos empty]
    exact ⟨rfl, buffered, rfl, type⟩
  rw [if_neg empty, lockIncoming_of_free buffered.free, success, if_neg (by simp)]
  have window := buffered.window small within
  obtain ⟨unread, quiet⟩ := waits (array.drop (toSize w.session.rbufLen)) env.realloc
    w.session.rhdr.http w.process.error buffered.calm
    { msgBody := callocate kDefaultBufSize true, size := kDefaultBufSize }
  obtain ⟨none_, still⟩ := MsgHdr.initFromBuf_of_waits
    { stale := array.drop (toSize w.session.rbufLen), parameter := env.parameter
      realloc := env.realloc } type unread quiet
  have parsed : w.incomingLocked.parseRhdr env array =
      w.session.rhdr.initFromBuf
        { stale := array.drop (toSize w.session.rbufLen), parameter := env.parameter
          realloc := env.realloc } held
        { msgBody := callocate kDefaultBufSize true, size := kDefaultBufSize } w.process := by
    unfold parseRhdr
    change w.session.rhdr.initFromBuf _ (readMemory array (toSize w.session.rbufLen)) _ _ = _
    rw [window]
    rfl
  have kept := type_initFromBuf
    { stale := array.drop (toSize w.session.rbufLen), parameter := env.parameter
      realloc := env.realloc } held
    { msgBody := callocate kDefaultBufSize true, size := kDefaultBufSize } w.session.rhdr w.process
  rw [parsed, none_]
  dsimp only
  rw [if_neg (by
    rw [Bool.not_eq_true]
    exact still)]
  exact ⟨rfl, ⟨⟨⟨array, has, size, within⟩, buffered.rbufLen, buffered.room, buffered.plain,
    still⟩, rfl⟩, rfl, kept.trans type⟩

/-- Without a decoded body, the header is removed and the message described. -/
theorem takeHeader_blank {chunked : ChunkBuf} (blank : cstr (chunked.msgBody.getD []) = [])
    (rbuf : Bytes) (used : Nat) (w : World) :
    w.takeHeader rbuf used chunked =
      (w.shiftRbuf (toSsize used) 0).onSession fun session =>
        { session with
          rpending := { session.rpending with
            initialized := true
            msgId := session.rhdr.msgId
            hdrLen := toSsize session.rhdr.hdrLen
            bodyLen := toSsize session.rhdr.bodyLen
            bufOffset := 0
            fileOffset := 0
            storage := sessionUseMem } } := by
  unfold takeHeader
  rw [blank]
  simp only [List.length_nil, lt_self_iff_false, ↓reduceIte]

/-- Bytes are removed from the front of the read buffer. -/
theorem Buffered.shift {front behind : Bytes} (buffered : Buffered w (front ++ behind)) :
    Buffered (w.shiftRbuf front.length 0) behind ∧
      (w.shiftRbuf front.length 0).session.rhdr = w.session.rhdr := by
  obtain ⟨array, has, size, within⟩ := buffered.array
  have rbufLen := buffered.rbufLen
  have room := buffered.room
  rw [List.length_append] at rbufLen room
  have moved := prefix_moveAt within
  have length := length_moveAt array 0 front.length behind.length
  unfold shiftRbuf
  rw [has]
  dsimp only
  rw [if_neg (by omega)]
  have count : w.session.rbufLen - ((front.length : Int) + 0) = behind.length := by omega
  rw [count, Int.zero_add]
  refine ⟨⟨⟨_, rfl, ?_, moved⟩, ?_, ?_, buffered.plain, buffered.calm⟩, rfl⟩
  · change w.session.rbufSize = _
    rw [length]
    exact size
  · change w.session.rbufLen - front.length = _
    omega
  · change (behind.length : Int) < w.session.rbufSize
    omega

/-- A header that is there is taken out of the buffer. -/
theorem Idle.init_accepts {header behind : Bytes} {http : HTTPFraming}
    (buffered : Idle w (header ++ behind)) (small : (header ++ behind).length < 2 ^ 63)
    (type : w.session.rhdr.type = MsgHdr.typeHttp) (some_ : header ≠ [])
    (accepts : ∀ (stale : Bytes) (realloc : Realloc) (old : HTTPFraming) (error : ErrorHandler),
      error.event = false → ∀ chunked : ChunkBuf,
        HTTPFraming.initFromBuf { stale, realloc } (header ++ behind) { obj := old, error } chunked =
          { bytesUsed := some header.length, exec := { obj := http, error }, chunked })
    (success : env.calloc = true) :
    (w.initIncomingMsg env).2.isSome = true ∧ Idle (w.initIncomingMsg env).1 behind ∧
      (w.initIncomingMsg env).1.session.rpending.initialized = true ∧
      (w.initIncomingMsg env).1.session.rpending.bodyLen = toSsize http.msgLen ∧
      (w.initIncomingMsg env).1.session.rpending.fileOffset = 0 ∧
      (w.initIncomingMsg env).1.session.rhdr.http = http := by
  obtain ⟨array, has, size, within⟩ := buffered.array
  have rbufLen := buffered.rbufLen
  rw [List.length_append] at rbufLen
  have inhabited := List.length_pos_iff.mpr some_
  have window := buffered.window small within
  have parsed : w.incomingLocked.parseRhdr env array =
      { bytesUsed := some header.length
        hdr := { w.session.rhdr with http, msgId := w.process.msgIdHash + 1 }
        process := { w.process with
          overrun := w.process.overrun || false, msgIdHash := w.process.msgIdHash + 1 }
        chunked := { msgBody := callocate kDefaultBufSize true, size := kDefaultBufSize } } := by
    unfold parseRhdr
    change w.session.rhdr.initFromBuf _ (readMemory array (toSize w.session.rbufLen)) _ _ = _
    rw [window]
    exact MsgHdr.initFromBuf_of_accepts _ type (accepts _ _ _ _ buffered.calm _)
  have taken : Buffered (w.incomingLocked.afterParse (w.incomingLocked.parseRhdr env array))
      (header ++ behind) := by
    rw [parsed]
    exact ⟨⟨array, has, size, within⟩, buffered.rbufLen, buffered.room, buffered.plain,
      buffered.calm⟩
  obtain ⟨shifted, rhdr⟩ := taken.shift
  have exact_ : toSsize header.length = header.length := by
    rw [List.length_append] at small
    exact toSsize_of_small (by omega)
  have unread : (w.incomingLocked.parseRhdr env array).bytesUsed = some header.length := by
    rw [parsed]
  have result : w.initIncomingMsg env =
      ((w.incomingLocked.afterParse (w.incomingLocked.parseRhdr env array)).takeHeader array
        header.length (w.incomingLocked.parseRhdr env array).chunked).returnIncoming true := by
    unfold initIncomingMsg
    rw [has]
    dsimp only
    rw [if_neg (by omega), lockIncoming_of_free buffered.free, success, if_neg (by simp)]
    rw [unread]
    rfl
  rw [result, takeHeader_blank (by rw [parsed]; exact cstr_callocate), exact_]
  have http' : (shiftRbuf header.length 0 (w.incomingLocked.afterParse
      (w.incomingLocked.parseRhdr env array))).session.rhdr =
      { w.session.rhdr with http, msgId := w.process.msgIdHash + 1 } := by
    rw [rhdr]
    unfold afterParse
    rw [parsed]
  generalize shiftRbuf header.length 0 (w.incomingLocked.afterParse
    (w.incomingLocked.parseRhdr env array)) = w' at shifted http' ⊢
  refine ⟨rfl, ⟨⟨shifted.array, shifted.rbufLen, shifted.room, shifted.plain,
    shifted.calm⟩, rfl⟩, rfl, ?_, rfl, ?_⟩
  · have bodyLen : w'.session.rhdr.bodyLen = http.msgLen := by
      rw [http', MsgHdr.bodyLen_of_typeHttp type]
    unfold returnIncoming unlockIncoming onSession
    dsimp only
    rw [bodyLen]
  · change w'.session.rhdr.http = http
    rw [http']

end Parse

/-! ## The loop -/

/-- A response that is on its way: its header and its body. -/
structure Response where
  http : HTTPFraming
  body : Bytes
  built : HTTPFraming.Built http
  response : http.msgType = .response
  safe : HTTPFraming.WireSafe http
  fits : (HTTPFraming.printHdrText false http).length < scratchBufSize
  plain : http.isChunked = false
  /-- `Content-Length`. -/
  length : ∃ msgHdr, http.msgHdr? HTTPFraming.mimeContentLength = some msgHdr ∧
    strtol 10 msgHdr.fieldValue = body.length

namespace Response

variable (response : Response)

/-- The printed header. -/
def header : Bytes :=
  HTTPFraming.printHdr 0 false response.http

/-- The message as it is sent. -/
def text : Bytes :=
  response.header ++ response.body

theorem header_eq : response.header = HTTPFraming.headerText response.http ∧
    (HTTPFraming.headerText response.http).length < scratchBufSize :=
  response.built.printHdr_eq response.safe response.fits

theorem header_ne_nil : response.header ≠ [] := by
  rw [response.header_eq.1]
  unfold HTTPFraming.headerText HTTPFraming.crlf
  simp

/-- The parser takes the header off whatever follows it. -/
theorem accepts (behind stale : Bytes) (realloc : Realloc) (old : HTTPFraming)
    (error : ErrorHandler) (calm : error.event = false) (chunked : ChunkBuf) :
    HTTPFraming.initFromBuf { stale, realloc } (response.header ++ behind) { obj := old, error }
        chunked =
      { bytesUsed := some response.header.length, exec := { obj := response.http, error }, chunked } :=
  HTTPFraming.initFromBuf_printHdr_of_response response.built response.safe response.response
    response.plain response.fits behind stale realloc old calm chunked

/-- The parser waits for more of the header. -/
theorem waits {window : Bytes} (within : window <+: response.header)
    (proper : window ≠ response.header) : ParserWaits window := by
  obtain ⟨printed, short⟩ := response.header_eq
  rw [printed] at within proper
  rcases response.built.kind with ⟨method, listed, uri, msgHdrs, same⟩ |
    ⟨code, nonneg, low, msgHdrs, same⟩
  · have other := response.response
    rw [same] at other
    cases other
  · have safe := response.safe.msgHdrs
    rw [same] at within proper short safe
    intro stale realloc old error calm chunked
    obtain ⟨exec, result, kept⟩ := HTTPFraming.initFromBuf_of_response_part nonneg low safe short
      within proper { stale, realloc } old calm chunked
    rw [result]
    exact ⟨rfl, (congrArg ErrorHandler.event kept).trans calm⟩

/-- A part of the stream that is no proper part of the header has the whole header. -/
theorem header_within {got more rest : Bytes} (stream : got ++ more = response.text ++ rest)
    (beyond : ¬ (got <+: response.header ∧ got ≠ response.header)) :
    ∃ behind, response.header ++ behind = got := by
  have header : response.header <+: got ++ more := by
    rw [stream, text, List.append_assoc]
    exact List.prefix_append _ _
  rcases List.prefix_or_prefix_of_prefix header (List.prefix_append got more) with within | within
  · exact within
  · by_cases same : got = response.header
    · exact ⟨[], by rw [List.append_nil, same]⟩
    · exact absurd ⟨within, same⟩ beyond

theorem msgLen : toSsize response.http.msgLen = response.body.length := by
  obtain ⟨msgHdr, found, value⟩ := response.length
  have most := strtol_le 10 msgHdr.fieldValue
  rw [longMax] at most
  rw [HTTPFraming.msgLen, found]
  dsimp only
  rw [value, toSsize_toSize_of_small (by omega) (by omega)]

end Response

/-- What the session holds when a part of a stream has been received that starts with a
response: a part of the header, or the message with the part of its body and of what
follows that has arrived. -/
inductive Receives (response : Response) (w : World) : Bytes → Prop
  | header {part : Bytes} (idle : Idle w part)
      (type : w.session.rhdr.type = MsgHdr.typeHttp)
      (initialized : w.session.rpending.initialized = false)
      (within : part <+: response.header) (proper : part ≠ response.header) :
      Receives response w part
  | message {behind : Bytes} (idle : Idle w behind)
      (initialized : w.session.rpending.initialized = true)
      (bodyLen : w.session.rpending.bodyLen = response.body.length)
      (fileOffset : w.session.rpending.fileOffset = 0)
      (http : w.session.rhdr.http = response.http) :
      Receives response w (response.header ++ behind)

/-- One round of the loop. -/
theorem Receives.step {response : Response} {got rest : Bytes} {arrival : Arrival}
    (receives : Receives response w got) (fits : Fits arrival w)
    {more : Bytes} (stream : got ++ arrival.bytes ++ more = response.text ++ rest) :
    (receive arrival w).2 = true ∧ Receives response (receive arrival w).1 (got ++ arrival.bytes) := by
  cases receives with
  | header idle type initialized within proper =>
      obtain ⟨isSome, idle', small, rpending, rhdr⟩ := idle.read fits.bytes fits.rbufSize arrival.fresh
      have notYet : (w.read { tcp := .received arrival.bytes }
          (some arrival.fresh)).1.isIncomingMsgInitialized = false := by
        rw [isIncomingMsgInitialized, rpending]
        exact initialized
      have type' : (w.read { tcp := .received arrival.bytes }
          (some arrival.fresh)).1.session.rhdr.type = MsgHdr.typeHttp := by
        rw [rhdr]
        exact type
      unfold receive
      dsimp only
      rw [if_neg (by rw [Option.isNone_eq_false_iff.mpr isSome]; simp), if_neg (by
        rw [notYet]
        simp)]
      by_cases rest_ : got ++ arrival.bytes <+: response.header ∧
          got ++ arrival.bytes ≠ response.header
      · obtain ⟨returned, idle'', rpending', type''⟩ := idle'.init_waits small type'
          (response.waits rest_.1 rest_.2) fits.calloc
        refine ⟨returned, .header idle'' type'' ?_ rest_.1 rest_.2⟩
        change (initIncomingMsg _ _).1.session.rpending.initialized = false
        rw [rpending', rpending]
        exact initialized
      · -- the header is there, with what has come behind it
        obtain ⟨behind, whole⟩ := response.header_within stream rest_
        rw [← whole] at idle' small ⊢
        obtain ⟨returned, idle'', initialized', bodyLen, fileOffset, http⟩ :=
          idle'.init_accepts small type' response.header_ne_nil
            (fun stale realloc old error calm chunked =>
              response.accepts behind stale realloc old error calm chunked) fits.calloc
        exact ⟨returned, .message idle'' initialized' (bodyLen.trans response.msgLen)
          fileOffset http⟩
  | @message behind idle initialized bodyLen fileOffset http =>
      obtain ⟨isSome, idle', -, rpending, rhdr⟩ := idle.read fits.bytes fits.rbufSize arrival.fresh
      have already : (w.read { tcp := .received arrival.bytes }
          (some arrival.fresh)).1.isIncomingMsgInitialized = true := by
        rw [isIncomingMsgInitialized, rpending]
        exact initialized
      unfold receive
      dsimp only
      rw [if_neg (by rw [Option.isNone_eq_false_iff.mpr isSome]; simp), if_pos already,
        List.append_assoc]
      exact ⟨rfl, .message idle' already (by rw [rpending]; exact bodyLen)
        (by rw [rpending]; exact fileOffset) (by rw [rhdr]; exact http)⟩

/-- The rounds of the loop. -/
theorem Receives.run {response : Response} {got rest more : Bytes} {arrivals : List Arrival}
    (receives : Receives response w got) (along : Machine.Along receive Fits arrivals w)
    (stream : got ++ arrivals.flatMap Arrival.bytes ++ more = response.text ++ rest) :
    (Machine.run receive arrivals w).2 = true ∧
      Receives response (Machine.run receive arrivals w).1
        (got ++ arrivals.flatMap Arrival.bytes) := by
  induction arrivals generalizing w got with
  | nil =>
      rw [List.flatMap_nil, List.append_nil]
      exact ⟨rfl, receives⟩
  | cons arrival arrivals ih =>
      rw [List.flatMap_cons, ← List.append_assoc] at stream ⊢
      rw [List.append_assoc (got ++ arrival.bytes)] at stream
      obtain ⟨returned, next⟩ := receives.step along.1 stream
      rw [← List.append_assoc] at stream
      rw [Machine.run_cons_of_returns returned]
      exact ih next (along.2 returned) stream

/-- No error has been raised. -/
theorem Receives.calm {response : Response} {got : Bytes} (receives : Receives response w got) :
    w.event = false := by
  cases receives with
  | header idle => exact idle.calm
  | message idle => exact idle.calm

/-- The message is complete when its last byte has been received. -/
theorem Receives.complete_iff {response : Response} {got : Bytes}
    (receives : Receives response w got) :
    w.isIncomingMsgComplete = true ↔ response.text.length ≤ got.length := by
  unfold isIncomingMsgComplete Response.text
  cases receives with
  | header idle type initialized within proper =>
      have shorter : got.length < response.header.length := by
        refine lt_of_le_of_ne within.length_le ?_
        intro same
        exact proper (within.eq_of_length same)
      rw [initialized, List.length_append]
      simp only [Bool.false_and, Bool.false_eq_true, false_iff]
      omega
  | message idle initialized bodyLen fileOffset http =>
      have rbufLen := idle.rbufLen
      rw [initialized, bodyLen, fileOffset, rbufLen]
      simp only [Bool.true_and, Bool.or_eq_true, decide_eq_true_eq, List.length_append]
      omega

/-- What is behind the header is the body and what follows it. -/
theorem Response.behind_eq {response : Response} {behind more rest : Bytes}
    (stream : response.header ++ behind ++ more = response.text ++ rest)
    (whole : response.text.length ≤ (response.header ++ behind).length) :
    behind = response.body ++ (response.header ++ behind).drop response.text.length := by
  rw [Response.text, List.length_append, List.length_append] at whole
  rw [Response.text, List.append_assoc, List.append_assoc, List.append_cancel_left_eq] at stream
  have body : response.body <+: behind := by
    refine List.prefix_of_prefix_length_le ?_ (List.prefix_append behind more) (by omega)
    rw [stream]
    exact List.prefix_append _ _
  obtain ⟨past, rfl⟩ := body
  rw [Response.text, ← List.append_assoc, List.drop_left]

/-- A session that has just been opened has received nothing. -/
theorem receives_opened (response : Response) {conn : SSLConn} (plain : conn.ssl = false)
    {process : Process} (calm : process.error.event = false) (fresh : Bytes) :
    Receives response (opened MsgHdr.typeHttp conn process fresh) [] := by
  have length : ((List.replicate kDefaultBufSize (0 : UInt8)).length : Int) = kDefaultBufSize := by
    rw [List.length_replicate]
  refine .header ⟨⟨⟨_, rfl, length.symm, List.nil_prefix⟩, rfl, ?_, plain, calm⟩, rfl⟩ rfl rfl
    List.nil_prefix response.header_ne_nil.symm
  change (0 : Int) < kDefaultBufSize
  decide

/-- However a response and what follows it are cut on their way, no error is raised, the
message is complete as soon as its last byte has been received, and then the session has
its status code, its fields and the length of its body, and the read buffer has its body and
what has been received behind it. -/
theorem run_receives (response : Response) {conn : SSLConn} (plain : conn.ssl = false)
    {process : Process} (calm : process.error.event = false) (fresh rest : Bytes)
    {before after : List Arrival}
    (stream : (before ++ after).flatMap Arrival.bytes = response.text ++ rest)
    (along : Machine.Along receive Fits (before ++ after)
      (opened MsgHdr.typeHttp conn process fresh)) :
    let got := before.flatMap Arrival.bytes
    let outcome := Machine.run receive before (opened MsgHdr.typeHttp conn process fresh)
    let session := outcome.1.session
    outcome.2 = true ∧ outcome.1.event = false ∧
      (outcome.1.isIncomingMsgComplete = true ↔ response.text.length ≤ got.length) ∧
      (response.text.length ≤ got.length →
        session.rhdr.http.statusCode = response.http.statusCode ∧
        session.rhdr.http.msgHdrs = response.http.msgHdrs ∧
        session.rpending.bodyLen = response.body.length ∧
        session.rbuf.map (List.take session.rbufLen.toNat) =
          some (response.body ++ got.drop response.text.length)) := by
  intro got outcome session
  rw [List.flatMap_append] at stream
  obtain ⟨returned, receives⟩ := (receives_opened response plain calm fresh).run along.front stream
  refine ⟨returned, receives.calm, receives.complete_iff, ?_⟩
  intro whole
  change Receives response outcome.1 got at receives
  change got ++ after.flatMap Arrival.bytes = _ at stream
  generalize got = got at receives whole stream ⊢
  cases receives with
  | header idle type initialized within proper =>
      have shorter := within.length_le
      rw [Response.text, List.length_append] at whole
      exact absurd (within.eq_of_length (by omega)) proper
  | @message behind idle initialized bodyLen fileOffset http =>
      obtain ⟨array, has, size, within⟩ := idle.array
      refine ⟨congrArg HTTPFraming.statusCode http, congrArg HTTPFraming.msgHdrs http, bodyLen, ?_⟩
      have rbufLen : session.rbufLen.toNat = behind.length := by
        rw [idle.rbufLen]
        rfl
      rw [rbufLen, ← Response.behind_eq stream whole]
      change Option.map _ outcome.1.session.rbuf = _
      rw [has, Option.map_some]
      exact congrArg some (List.prefix_iff_eq_take.mp within).symm

/-- The header of a response with a body of two bytes. -/
def sampleHttp : HTTPFraming :=
  (HTTPFraming.appendField (some (ascii "Content-Length")) (some (ascii "2")) none none
    (HTTPFraming.initResponse 200 0 {}) {}).1

theorem sampleHttp_safe : HTTPFraming.WireSafe sampleHttp where
  uri request := absurd rfl request
  msgHdrs := by
    refine List.forall_mem_cons.mpr ⟨?connection, List.forall_mem_singleton.mpr ?length⟩
    case connection | length =>
      exact
        { fieldName_head := ⟨_, _, rfl, by decide⟩, fieldValue_head := ⟨_, _, rfl, by decide⟩
          fieldName := by decide +kernel, fieldValue := by decide +kernel
          parameters := fun _ listed => nomatch listed }

def sampleResponse : Response where
  http := sampleHttp
  body := ascii "hi"
  built := .appendField (.initResponse (by decide) (by decide) _ _) _ _ _ _ (by decide)
  response := rfl
  safe := sampleHttp_safe
  fits := by decide +kernel
  plain := by decide +kernel
  length := ⟨_, rfl, by decide +kernel⟩

/-- The response in two parts. -/
def sampleArrivals : List Arrival :=
  [{ bytes := sampleResponse.text.take 20, fresh := [], env := {} },
    { bytes := sampleResponse.text.drop 20, fresh := [], env := {} }]

theorem run_receives_sample :
    (Machine.run receive sampleArrivals
      (opened MsgHdr.typeHttp {} {} [])).1.isIncomingMsgComplete = true :=
  (@run_receives sampleResponse {} rfl {} rfl [] [] sampleArrivals [] (by decide +kernel)
    ⟨⟨by decide +kernel, rfl, by decide +kernel⟩,
      fun _ => ⟨⟨by decide +kernel, rfl, by decide +kernel⟩, fun _ => trivial⟩⟩).2.2.1.mpr
    (by decide +kernel)

end World

end IpUtils
