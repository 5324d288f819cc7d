import IpUtils.Session.Queue
import IpUtils.Session.Receiving

/-! # A request or a response on its way

The parser takes a printed response as soon as its last byte is there, and a printed
request only when something stands behind it. A letter is either of them with its body,
and with what the parser makes of its parts. One loop receives both.
-/

namespace IpUtils

open CLib

namespace World

variable {w : World}

/-- A message, and how many bytes behind its header the parser wants to see. -/
structure Letter where
  http : HTTPFraming
  body : Bytes
  needs : Nat
  few : needs ≤ 1
  length : toSsize http.msgLen = body.length
  inhabited : HTTPFraming.printHdr 0 false http ≠ []
  waits : ∀ part, part <+: HTTPFraming.printHdr 0 false http →
    part.length < (HTTPFraming.printHdr 0 false http).length + needs → ParserWaits part
  accepts : ∀ behind : Bytes, needs ≤ behind.length →
    ∀ (stale : Bytes) (realloc : Realloc) (old : HTTPFraming) (error : ErrorHandler),
      error.event = false → ∀ chunked : ChunkBuf,
        HTTPFraming.initFromBuf { stale, realloc } (HTTPFraming.printHdr 0 false http ++ behind)
            { obj := old, error } chunked =
          { bytesUsed := some (HTTPFraming.printHdr 0 false http).length
            exec := { obj := http, error }, chunked }

/-- A request with its body. The place of a key in its query is never where the bytes
that have arrived end. -/
structure Request where
  http : HTTPFraming
  body : Bytes
  built : HTTPFraming.Built http
  request : http.msgType = .request
  safe : HTTPFraming.WireSafe http
  fits : (HTTPFraming.printHdrText false http).length < scratchBufSize
  uncut : ∀ part, part <+: HTTPFraming.printHdr 0 false http →
    HTTPFraming.cutsQueryKey part = false
  length : toSsize http.msgLen = body.length

/-- A request is read when one byte stands behind it. -/
def Letter.ofRequest (request : Request) : Letter where
  http := request.http
  body := request.body
  needs := 1
  few := le_rfl
  length := request.length
  inhabited := by
    rw [(request.built.printHdr_eq request.safe request.fits).1]
    unfold HTTPFraming.headerText HTTPFraming.crlf
    simp
  waits := by
    intro part within _ stale realloc old error calm chunked
    have uncut := request.uncut part within
    obtain ⟨printed, short⟩ := request.built.printHdr_eq request.safe request.fits
    rw [printed] at within
    rcases request.built.kind with ⟨method, listed, uri, msgHdrs, same⟩ | ⟨code, -, -, msgHdrs, same⟩
    · have safe := request.safe
      rw [same] at within short safe
      obtain ⟨unread, event⟩ := HTTPFraming.initFromBuf_of_request_part listed
        (safe.uri (HTTPFraming.requestMethod_ne_null listed)) safe.msgHdrs short within stale
        realloc old calm chunked
      rw [uncut, Bool.false_and] at event
      exact ⟨unread, event⟩
    · have other := request.request
      rw [same] at other
      cases other
  accepts := by
    intro behind some_ stale realloc old error calm chunked
    obtain ⟨next, rest, rfl⟩ := List.exists_cons_of_length_pos some_
    exact HTTPFraming.initFromBuf_printHdr_of_request request.built request.safe request.request
      request.fits next rest stale realloc old calm chunked

/-- A response is read as soon as it is there. -/
def Letter.ofResponse (response : Response) : Letter where
  http := response.http
  body := response.body
  needs := 0
  few := Nat.zero_le 1
  length := response.msgLen
  inhabited := response.header_ne_nil
  waits := fun _ within short =>
    response.waits within fun same => absurd (congrArg List.length same) (Nat.ne_of_lt short)
  accepts := fun behind _ stale realloc old _ calm chunked =>
    response.accepts behind stale realloc old _ calm chunked

namespace Letter

variable (letter : Letter)

/-- The printed header. -/
def header : Bytes :=
  HTTPFraming.printHdr 0 false letter.http

/-- The message as it is sent. -/
def text : Bytes :=
  letter.header ++ letter.body

/-- The message as it is given to the sending session. -/
def out : OutMsg where
  hdr := letter.header
  body := .memory letter.body

theorem buffered_out : letter.out.buffered = letter.text :=
  rfl

/-- Of a stream that starts with the letter either a part of the header has arrived that is
too short for the parser, or the header with enough behind it. -/
theorem arrived {got more rest : Bytes}
    (stream : got ++ more = letter.text ++ rest) :
    (got <+: letter.header ∧ got.length < letter.header.length + letter.needs) ∨
      ∃ behind, got = letter.header ++ behind ∧ letter.needs ≤ behind.length := by
  have few := letter.few
  have header : letter.header <+: got ++ more := by
    rw [stream, text, List.append_assoc]
    exact List.prefix_append _ _
  rcases List.prefix_or_prefix_of_prefix header (List.prefix_append got more) with within | within
  · obtain ⟨behind, rfl⟩ := within
    by_cases enough : letter.needs ≤ behind.length
    · exact Or.inr ⟨behind, rfl, enough⟩
    · have none_ : behind = [] := List.length_eq_zero_iff.mp (by omega)
      rw [none_, List.append_nil]
      exact Or.inl ⟨List.prefix_rfl, by omega⟩
  · by_cases short : got.length < letter.header.length + letter.needs
    · exact Or.inl ⟨within, short⟩
    · have length := within.length_le
      have same : got = letter.header := within.eq_of_length (by omega)
      exact Or.inr ⟨[], by rw [List.append_nil, same], by rw [List.length_nil]; omega⟩

end Letter

/-- What the session holds when a part of a stream has been received that starts with a
letter. -/
inductive Takes (letter : Letter) (w : World) : Bytes → Prop
  | header {part : Bytes} (idle : Idle w part)
      (type : w.session.rhdr.type = MsgHdr.typeHttp)
      (initialized : w.session.rpending.initialized = false)
      (within : part <+: letter.header)
      (short : part.length < letter.header.length + letter.needs) :
      Takes letter w part
  | message {behind : Bytes} (idle : Idle w behind)
      (initialized : w.session.rpending.initialized = true)
      (bodyLen : w.session.rpending.bodyLen = letter.body.length)
      (fileOffset : w.session.rpending.fileOffset = 0)
      (http : w.session.rhdr.http = letter.http)
      (enough : letter.needs ≤ behind.length) :
      Takes letter w (letter.header ++ behind)

namespace Takes

variable {letter : Letter} {got : Bytes}

/-- One round of the loop. -/
theorem step {rest : Bytes} {arrival : Arrival} (takes : Takes letter w got)
    (fits : Fits arrival w) {more : Bytes} (stream : got ++ arrival.bytes ++ more = letter.text ++ rest) :
    (receive arrival w).2 = true ∧ Takes letter (receive arrival w).1 (got ++ arrival.bytes) := by
  cases takes with
  | header idle type initialized within short =>
      obtain ⟨isSome, idle', small, rpending, rhdr⟩ :=
        idle.read fits.bytes fits.rbufSize arrival.fresh
      have notYet : (w.read { tcp := .received arrival.bytes }
          (some arrival.fresh)).1.isIncomingMsgInitialized = false := by
        rw [isIncomingMsgInitialized, rpending]
        exact initialized
      have type' : (w.read { tcp := .received arrival.bytes }
          (some arrival.fresh)).1.session.rhdr.type = MsgHdr.typeHttp := by
        rw [rhdr]
        exact type
      unfold receive
      dsimp only
      rw [if_neg (by rw [Option.isNone_eq_false_iff.mpr isSome]; simp), if_neg (by
        rw [notYet]
        simp)]
      rcases letter.arrived stream with ⟨within', short'⟩ | ⟨behind, whole, enough⟩
      · obtain ⟨returned, idle'', rpending', type''⟩ := idle'.init_waits small type'
          (letter.waits _ within' short') fits.calloc
        refine ⟨returned, .header idle'' type'' ?_ within' short'⟩
        change (initIncomingMsg _ _).1.session.rpending.initialized = false
        rw [rpending', rpending]
        exact initialized
      · rw [whole] at idle' small ⊢
        obtain ⟨returned, idle'', initialized', bodyLen, fileOffset, http⟩ :=
          idle'.init_accepts small type' letter.inhabited (letter.accepts behind enough) fits.calloc
        exact ⟨returned, .message idle'' initialized' (bodyLen.trans letter.length) fileOffset
          http enough⟩
  | @message behind idle initialized bodyLen fileOffset http enough =>
      obtain ⟨isSome, idle', -, rpending, rhdr⟩ := idle.read fits.bytes fits.rbufSize arrival.fresh
      have already : (w.read { tcp := .received arrival.bytes }
          (some arrival.fresh)).1.isIncomingMsgInitialized = true := by
        rw [isIncomingMsgInitialized, rpending]
        exact initialized
      unfold receive
      dsimp only
      rw [if_neg (by rw [Option.isNone_eq_false_iff.mpr isSome]; simp), if_pos already,
        List.append_assoc]
      refine ⟨rfl, .message idle' already (by rw [rpending]; exact bodyLen)
        (by rw [rpending]; exact fileOffset) (by rw [rhdr]; exact http) ?_⟩
      rw [List.length_append]
      omega

theorem calm (takes : Takes letter w got) : w.event = false := by
  cases takes with
  | header idle => exact idle.calm
  | message idle => exact idle.calm

/-- The header has been taken exactly when enough stands behind it. -/
theorem initialized_iff (takes : Takes letter w got) :
    w.isIncomingMsgInitialized = true ↔ letter.header.length + letter.needs ≤ got.length := by
  unfold isIncomingMsgInitialized
  cases takes with
  | header idle type initialized within short =>
      rw [initialized]
      simp only [Bool.false_eq_true, false_iff]
      omega
  | message idle initialized bodyLen fileOffset http enough =>
      rw [initialized, List.length_append]
      simp only [true_iff]
      omega

/-- The message is complete when its last byte and what the parser needs have arrived. -/
theorem complete_iff (takes : Takes letter w got) :
    w.isIncomingMsgComplete = true ↔
      letter.header.length + max letter.needs letter.body.length ≤ got.length := by
  unfold isIncomingMsgComplete
  cases takes with
  | header idle type initialized within short =>
      rw [initialized]
      simp only [Bool.false_and, Bool.false_eq_true, false_iff]
      omega
  | message idle initialized bodyLen fileOffset http enough =>
      have rbufLen := idle.rbufLen
      rw [initialized, bodyLen, fileOffset, rbufLen]
      simp only [Bool.true_and, Bool.or_eq_true, decide_eq_true_eq, List.length_append]
      omega

/-- What a session holds of a letter that is complete. -/
theorem contents {rest more : Bytes} (takes : Takes letter w got)
    (stream : got ++ more = letter.text ++ rest) (complete : w.isIncomingMsgComplete = true) :
    w.session.rhdr.http = letter.http ∧ w.session.rpending.bodyLen = letter.body.length ∧
      w.session.rbuf.map (List.take w.session.rbufLen.toNat) =
        some (letter.body ++ got.drop letter.text.length) := by
  have whole := takes.complete_iff.mp complete
  cases takes with
  | header idle type initialized within short => omega
  | @message behind idle initialized bodyLen fileOffset http enough =>
      obtain ⟨array, has, size, within⟩ := idle.array
      have rbufLen : w.session.rbufLen.toNat = behind.length := by
        rw [idle.rbufLen]
        rfl
      rw [List.length_append] at whole
      have body : letter.body <+: behind := by
        refine List.prefix_of_prefix_length_le ?_ (List.prefix_append behind more) (by omega)
        rw [Letter.text, List.append_assoc, List.append_assoc, List.append_cancel_left_eq] at stream
        rw [stream]
        exact List.prefix_append _ _
      obtain ⟨past, rfl⟩ := body
      refine ⟨http, bodyLen, ?_⟩
      rw [rbufLen, has, Option.map_some, Letter.text, ← List.append_assoc, List.drop_left,
        ← List.prefix_iff_eq_take.mp within]

end Takes

/-- A session that has just been opened has received nothing. -/
theorem takes_opened (letter : Letter) {conn : SSLConn} (plain : conn.ssl = false)
    {process : Process} (calm : process.error.event = false) (fresh : Bytes) :
    Takes letter (opened MsgHdr.typeHttp conn process fresh) [] := by
  have length : ((List.replicate kDefaultBufSize (0 : UInt8)).length : Int) = kDefaultBufSize := by
    rw [List.length_replicate]
  have positive : 0 < letter.header.length := List.length_pos_iff.mpr letter.inhabited
  refine .header ⟨⟨⟨_, rfl, length.symm, List.nil_prefix⟩, rfl, ?_, plain, calm⟩, rfl⟩ rfl rfl
    List.nil_prefix (by rw [List.length_nil]; omega)
  change (0 : Int) < kDefaultBufSize
  decide

end World

end IpUtils
