import IpUtils.Session.ForeignErrors

/-! # The length of a body that is set

`set_body_len` keeps a length in sixteen bits or as the digits of an `int`, and `body_len` reads
it back.
-/

namespace IpUtils

open CLib

namespace CLib

/-- A negative number is read back as it was printed. -/
theorem strtol_negative {value : Nat} (small : (value : Int) ≤ longMax) :
    strtol 10 (45 :: decimal value) = -value := by
  have digits (c : UInt8) (member : c ∈ decimal value) : isdigit c = true :=
    isdigit_of_mem_decimal member
  have noNul : (0 : UInt8) ∉ 45 :: decimal value := by
    rw [List.mem_cons, not_or]
    exact ⟨by decide, fun member => (isdigit_cases (digits 0 member)).1 rfl⟩
  have read := parseNumeral_digits digits
  have plain : cstr (decimal value) = decimal value :=
    cstr_eq_self fun member => noNul (List.mem_cons_of_mem _ member)
  have same : parseNumeral 10 (45 :: decimal value) = (true, value) := by
    have whole : (decimal value).takeWhile (digitValue · < 10) = decimal value :=
      List.takeWhile_eq_self_iff.mpr fun c member => by
        simpa using (isdigit_cases (digits c member)).2.2.2.2
    have noPrefix : skipHexPrefix 10 (decimal value) = decimal value := by
      unfold skipHexPrefix
      split <;> simp
    have front : (45 :: decimal value).dropWhile isspace = 45 :: decimal value :=
      List.dropWhile_cons_of_neg (by decide)
    simp [parseNumeral, cstr_eq_self noNul, front, noPrefix, whole, digitsValue_decimal]
  unfold strtol
  rw [same]
  unfold longMin
  unfold longMax at small
  dsimp only
  omega

/-- An `int` is read back as it was printed. -/
theorem strtol_printInt {value : Int} (lower : -2 ^ 31 ≤ value) (upper : value < 2 ^ 31) :
    strtol 10 (printInt value) = value := by
  unfold printInt
  split
  · rw [strtol_negative (by unfold longMax; omega)]
    omega
  · rw [strtol_decimal (by unfold longMax; omega)]
    omega

theorem zero_not_mem_printInt (value : Int) : (0 : UInt8) ∉ printInt value := by
  have digits (value : Nat) : (0 : UInt8) ∉ decimal value := fun member =>
    (isdigit_cases (isdigit_of_mem_decimal member)).1 rfl
  unfold printInt
  split
  · rw [List.mem_cons, not_or]
    exact ⟨by decide, digits _⟩
  · exact digits _

/-- A length comes back through an `int` if and only if it is one. -/
theorem toSize_toInt_iff {length : Nat} (small : length < 2 ^ 63) :
    toSize (toInt length) = length ↔ length < 2 ^ 31 := by
  unfold toInt toSize
  rw [Int.bmod]
  omega

end CLib

namespace MsgHdr

variable {hdr : MsgHdr} {length : Nat} {error : ErrorHandler}

/-- The length is set without an error and read back. -/
def SetsLength (hdr : MsgHdr) (length : Nat) (error : ErrorHandler) : Prop :=
  (hdr.setBodyLen length error).2.event = false ∧
    (hdr.setBodyLen length error).1.bodyLen = length

/-- The length fits the framing, and there is no `Content-Length` yet. -/
def TakesLength (hdr : MsgHdr) (length : Nat) : Prop :=
  if hdr.type = typeBasic then length < 2 ^ 16
  else length < 2 ^ 31 ∧ hdr.http.msgHdr? HTTPFraming.mimeContentLength = none

theorem setsLength_basic (type : hdr.type = typeBasic) (quiet : error.event = false) :
    SetsLength hdr length error ↔ length < 2 ^ 16 := by
  have back : length.toUInt16.toNat = length % 2 ^ 16 := UInt16.toNat_ofNat'
  simp only [SetsLength, setBodyLen, type, if_true, bodyLen, quiet, true_and, back]
  omega

/-- Without a `Content-Length` the digits of the `int` are appended. -/
theorem setBodyLen_http (type : hdr.type = typeHttp)
    (absent : hdr.http.msgHdr? HTTPFraming.mimeContentLength = none) :
    (hdr.setBodyLen length error).2 = error ∧
      (hdr.setBodyLen length error).1.bodyLen = toSize (toInt length) := by
  have other : ¬hdr.type = typeBasic := by
    rw [type]
    decide
  have name : cstr HTTPFraming.mimeContentLength = HTTPFraming.mimeContentLength := by
    decide +kernel
  have same : equalsNoCase HTTPFraming.mimeContentLength HTTPFraming.mimeContentLength = true := by
    decide +kernel
  have lower : -2 ^ 31 ≤ toInt length := by
    have := @Int.le_bmod length (2 ^ 32) (by decide)
    unfold toInt
    omega
  have upper : toInt length < 2 ^ 31 := by
    have := @Int.bmod_lt length (2 ^ 32) (by decide)
    unfold toInt
    omega
  have appended : hdr.http.appendField (some HTTPFraming.mimeContentLength)
      (some (printInt (toInt length))) none none error =
      ({ hdr.http with
          msgHdrs := hdr.http.msgHdrs ++
            [{ fieldName := HTTPFraming.mimeContentLength
               fieldValue := printInt (toInt length) }] }, error) := by
    simp only [HTTPFraming.appendField, HTTPFraming.appendMsgHdr, name, absent,
      cstr_eq_self (zero_not_mem_printInt _), Option.isSome_none, Bool.false_eq_true, if_false]
  have found : (hdr.http.msgHdrs ++
      ([{ fieldName := HTTPFraming.mimeContentLength
          fieldValue := printInt (toInt length) }] : List Rfc822MsgHdr)).find?
        (fun msgHdr => equalsNoCase msgHdr.fieldName HTTPFraming.mimeContentLength) =
      some ({ fieldName := HTTPFraming.mimeContentLength
              fieldValue := printInt (toInt length) } : Rfc822MsgHdr) := by
    unfold HTTPFraming.msgHdr? at absent
    rw [List.find?_append, absent, Option.none_or]
    exact List.find?_cons_of_pos same
  unfold setBodyLen
  rw [if_neg other, if_pos type, appended]
  refine ⟨rfl, ?_⟩
  rw [bodyLen, if_neg other, if_pos type, HTTPFraming.msgLen, HTTPFraming.msgHdr?, found]
  dsimp only
  rw [strtol_printInt lower upper]

/-- With a `Content-Length` an error is raised. -/
theorem event_setBodyLen (type : hdr.type = typeHttp)
    (present : hdr.http.msgHdr? HTTPFraming.mimeContentLength ≠ none) :
    (hdr.setBodyLen length error).2.event = true := by
  have other : ¬hdr.type = typeBasic := by
    rw [type]
    decide
  have name : cstr HTTPFraming.mimeContentLength = HTTPFraming.mimeContentLength := by
    decide +kernel
  unfold setBodyLen
  rw [if_neg other, if_pos type]
  simp only [HTTPFraming.appendField, HTTPFraming.appendMsgHdr, name,
    Option.isSome_iff_ne_none.mpr present, if_true]
  exact ErrorHandler.event_init ..

theorem setsLength_http (type : hdr.type = typeHttp) (small : length < 2 ^ 63)
    (quiet : error.event = false) :
    SetsLength hdr length error ↔
      length < 2 ^ 31 ∧ hdr.http.msgHdr? HTTPFraming.mimeContentLength = none := by
  by_cases absent : hdr.http.msgHdr? HTTPFraming.mimeContentLength = none
  · obtain ⟨same, read⟩ := @setBodyLen_http hdr length error type absent
    rw [SetsLength, same, read, toSize_toInt_iff small]
    exact ⟨fun sets => ⟨sets.2, absent⟩, fun takes => ⟨quiet, takes.1⟩⟩
  · have raised := @event_setBodyLen hdr length error type absent
    refine ⟨fun sets => ?_, fun takes => absurd takes.2 absent⟩
    exact absurd (raised.symm.trans sets.1) (by decide)

/-- A length that is set is read back if and only if the header takes it. -/
theorem setsLength_iff (typed : hdr.type = typeBasic ∨ hdr.type = typeHttp)
    (small : length < 2 ^ 63) (quiet : error.event = false) :
    SetsLength hdr length error ↔ TakesLength hdr length := by
  unfold TakesLength
  rcases typed with basic | http
  · rw [if_pos basic]
    exact setsLength_basic basic quiet
  · rw [if_neg (by rw [http]; decide)]
    exact setsLength_http http small quiet

theorem bodyLen_lt (hdr : MsgHdr) : hdr.bodyLen < 2 ^ 64 := by
  unfold bodyLen
  split
  · exact hdr.basic.len.toNat_lt.trans (by decide)
  split
  · unfold HTTPFraming.msgLen
    split
    · exact toSize_lt _
    · decide
  · decide

end MsgHdr

namespace World

variable {w : World} {env : InitEnv} {rbuf : Bytes} {used : Nat}

/-- A decoded body has been put into `rbuf_`, without an error, and the message has its length. -/
def MovesBody (length : Nat) (w : World) : Prop :=
  w.process.error.event = false ∧ w.session.rpending.bodyLen = length

/-- A call of `InitIncomingMsg` that parses a header and accepts it. -/
structure Parses (env : InitEnv) (rbuf : Bytes) (used : Nat) (w : World) : Prop where
  has : w.session.rbuf = some rbuf
  bytes : w.session.rbufLen ≠ 0
  free : w.session.mutexes.incoming = false
  calloc : env.calloc = true
  accepted : (w.parseRhdr env rbuf).bytesUsed = some used

theorem Parses.initIncomingMsg_eq (parses : Parses env rbuf used w) :
    w.initIncomingMsg env =
      ((w.incomingLocked.afterParse (w.parseRhdr env rbuf)).takeHeader rbuf used
        (w.parseRhdr env rbuf).chunked).returnIncoming true :=
  initIncomingMsg_of_accepted parses.has parses.bytes parses.free parses.calloc parses.accepted

/-- What becomes of a decoded body: its length goes through the header. -/
theorem takeHeader_decoded (rbuf : Bytes) (used : Nat) {chunked : ChunkBuf}
    (decoded : 0 < (cstr (chunked.msgBody.getD [])).length) (w : World) :
    (w.takeHeader rbuf used chunked).process.error =
        (w.session.rhdr.setBodyLen (cstr (chunked.msgBody.getD [])).length w.process.error).2 ∧
      (w.takeHeader rbuf used chunked).session.rpending.bodyLen =
        toSsize (w.session.rhdr.setBodyLen (cstr (chunked.msgBody.getD [])).length
          w.process.error).1.bodyLen := by
  unfold takeHeader
  dsimp only [onSession]
  rw [if_pos decoded]
  exact ⟨rfl, rfl⟩

theorem toSsize_eq_iff {value length : Nat} (range : value < 2 ^ 64) (small : length < 2 ^ 63) :
    toSsize value = length ↔ value = length := by
  unfold toSsize
  rw [Int.bmod]
  omega

end World

/-- A length that is set on a header of either framing is read back, and the length of a decoded
body becomes that of the message, if and only if it fits the framing and the header has no
`Content-Length`. -/
theorem setBodyLen_bodyLen_iff {hdr : MsgHdr}
    (typed : hdr.type = MsgHdr.typeBasic ∨ hdr.type = MsgHdr.typeHttp) {length : Nat}
    (small : length < 2 ^ 63) {error : ErrorHandler} (quiet : error.event = false) :
    (MsgHdr.SetsLength hdr length error ↔ MsgHdr.TakesLength hdr length) ∧
      ∀ {w : World} {env : InitEnv} {rbuf : Bytes} {used : Nat}, World.Parses env rbuf used w →
        (w.parseRhdr env rbuf).hdr = hdr → (w.parseRhdr env rbuf).process.error = error →
        (cstr ((w.parseRhdr env rbuf).chunked.msgBody.getD [])).length = length → 0 < length →
        (World.MovesBody length (w.initIncomingMsg env).1 ↔ MsgHdr.TakesLength hdr length) := by
  have sets := MsgHdr.setsLength_iff typed small quiet
  refine ⟨sets, fun {w env rbuf used} parses same raised decoded positive => ?_⟩
  have taken := World.takeHeader_decoded rbuf used (decoded ▸ positive)
    (w.incomingLocked.afterParse (w.parseRhdr env rbuf))
  have moves : World.MovesBody length (w.initIncomingMsg env).1 ↔
      MsgHdr.SetsLength hdr length error := by
    rw [parses.initIncomingMsg_eq, World.MovesBody, MsgHdr.SetsLength, ← same, ← raised]
    have range := World.toSsize_eq_iff (MsgHdr.bodyLen_lt
      ((w.parseRhdr env rbuf).hdr.setBodyLen length (w.parseRhdr env rbuf).process.error).1) small
    rw [decoded] at taken
    rw [← range]
    exact and_congr (iff_of_eq (congrArg (·.event = false) taken.1))
      (iff_of_eq (congrArg (· = (length : Int)) taken.2))
  exact moves.trans sets

/-- A session that has received a chunked response. -/
def receivedChunks : World :=
  (((TCPSession.create MsgHdr.typeHttp { connected := true } {}).init true (some [])).1.read
    { tcp := .received
        (ascii "HTTP/1.1 200 OK\r\nTransfer-Encoding: chunked\r\n\r\n5\r\nhello\r\n0\r\n\r\n") }
    none).1

/-- What `InitFromBuf` makes of the response. -/
abbrev parsedChunks : MsgHdr.ParseOutcome :=
  receivedChunks.parseRhdr {} (receivedChunks.session.rbuf.getD [])

theorem receivedChunks_parses :
    World.Parses {} (receivedChunks.session.rbuf.getD []) 59 receivedChunks where
  has := by
    have some : receivedChunks.session.rbuf.isSome = true := by decide +kernel
    rw [← Option.some_get some, Option.getD_some]
  bytes := by decide +kernel
  free := by decide +kernel
  calloc := rfl
  accepted := by decide +kernel

theorem parsedChunks_typed : parsedChunks.hdr.type = MsgHdr.typeHttp := by
  decide +kernel

theorem parsedChunks_quiet : parsedChunks.process.error.event = false := by
  decide +kernel

theorem parsedChunks_body : (cstr (parsedChunks.chunked.msgBody.getD [])).length = 5 := by
  decide +kernel

theorem setBodyLen_bodyLen_iff_sample :
    World.MovesBody 5 (receivedChunks.initIncomingMsg {}).1 ↔ parsedChunks.hdr.TakesLength 5 := by
  refine (setBodyLen_bodyLen_iff (.inr parsedChunks_typed) (by decide) parsedChunks_quiet).2
    receivedChunks_parses (Eq.refl parsedChunks.hdr) ?_ ?_ (by decide)
  · with_reducible exact Eq.refl parsedChunks.process.error
  · with_reducible exact parsedChunks_body

/-- A basic header forgets the seventeenth bit, and an HTTP header that has a `Content-Length`
takes no other. -/
theorem not_setsLength :
    ¬(∀ (hdr : MsgHdr) (length : Nat) (error : ErrorHandler),
      hdr.type = MsgHdr.typeBasic → length < 2 ^ 63 → error.event = false →
        hdr.SetsLength length error) ∧
      ¬(∀ (hdr : MsgHdr) (length : Nat) (error : ErrorHandler),
        hdr.type = MsgHdr.typeHttp → length < 2 ^ 63 → error.event = false →
          hdr.SetsLength length error) := by
  refine ⟨fun always => ?_, fun always => ?_⟩
  · have sets := always { type := MsgHdr.typeBasic } 65536 {} rfl (by decide) rfl
    rw [MsgHdr.setsLength_basic rfl rfl] at sets
    exact absurd sets (by decide)
  · have sets := always { type := MsgHdr.typeHttp } (2 ^ 31) {} rfl (by decide) rfl
    rw [MsgHdr.setsLength_http rfl (by decide) rfl] at sets
    exact absurd sets.1 (by decide)

end IpUtils
