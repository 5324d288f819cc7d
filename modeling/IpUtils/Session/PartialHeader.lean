import IpUtils.HTTP.Cut
import IpUtils.Session.Machine

/-! # A session whose header has only partly arrived

`InitIncomingMsg` leaves the received bytes alone as long as the parser waits for more.
An error would empty the buffer.
-/

namespace IpUtils

open CLib

namespace MsgHdr

/-- The parser waits for more, and so does `MsgHdr`. -/
theorem initFromBuf_of_waits (env : BufEnv) {window : Bytes} {chunked : ChunkBuf} {hdr : MsgHdr}
    {process : Process} (type : hdr.type = typeHttp)
    (unread : (HTTPFraming.initFromBuf { stale := env.stale, realloc := env.realloc } window
      { obj := hdr.http, error := process.error } chunked).bytesUsed = none)
    (quiet : (HTTPFraming.initFromBuf { stale := env.stale, realloc := env.realloc } window
      { obj := hdr.http, error := process.error } chunked).exec.error.event = false) :
    (hdr.initFromBuf env window chunked process).bytesUsed = none ∧
      (hdr.initFromBuf env window chunked process).process.error.event = false := by
  have notBasic : typeHttp ≠ typeBasic := by decide
  rw [initFromBuf, type, if_neg notBasic, if_pos rfl]
  unfold initHttp
  change HTTPFraming.ParseResult.bytesUsed (HTTPFraming.initFromBuf
    { stale := env.stale, defaultPort := ipcommPortNull, realloc := env.realloc } window
    { obj := hdr.http, error := process.error } chunked) = none at unread
  change (HTTPFraming.initFromBuf
    { stale := env.stale, defaultPort := ipcommPortNull, realloc := env.realloc } window
    { obj := hdr.http, error := process.error } chunked).exec.error.event = false at quiet
  dsimp only
  rw [unread]
  dsimp only
  rw [quiet]
  exact ⟨rfl, quiet⟩

end MsgHdr

namespace World

variable {w : World} {window stale : Bytes} {env : InitEnv}

/-- The parser waits for more on a window, whatever stands behind it. -/
def ParserWaits (window : Bytes) : Prop :=
  ∀ (stale : Bytes) (realloc : Realloc) (old : HTTPFraming) (error : ErrorHandler),
    error.event = false → ∀ chunked : ChunkBuf,
    let result := HTTPFraming.initFromBuf { stale, realloc } window { obj := old, error } chunked
    result.bytesUsed = none ∧ result.exec.error.event = false

/-- A session of HTTP framing that is idle and holds received bytes. -/
structure HasReceived (w : World) (window stale : Bytes) : Prop where
  type : w.session.rhdr.type = MsgHdr.typeHttp
  rbuf : w.session.rbuf = some (window ++ stale)
  rbufLen : w.session.rbufLen = window.length
  calm : w.event = false
  free : w.session.mutexes.incoming = false

/-- The session part: nothing is accepted and the buffer stays. -/
theorem initIncomingMsg_waits (has : HasReceived w window stale) (small : window.length < 2 ^ 64)
    (waits : ParserWaits window) (success : env.calloc = true) :
    (w.initIncomingMsg env).2 = some false ∧ (w.initIncomingMsg env).1.event = false ∧
      (w.initIncomingMsg env).1.session.rbuf = w.session.rbuf ∧
      (w.initIncomingMsg env).1.session.rbufLen = w.session.rbufLen := by
  unfold initIncomingMsg
  rw [has.rbuf]
  dsimp only
  by_cases empty : w.session.rbufLen = 0
  · rw [if_pos empty]
    exact ⟨rfl, has.calm, has.rbuf, rfl⟩
  rw [if_neg empty, lockIncoming_of_free has.free, success, if_neg (by simp)]
  have count : toSize w.incomingLocked.session.rbufLen = window.length := by
    change toSize w.session.rbufLen = _
    rw [has.rbufLen, toSize]
    omega
  obtain ⟨none_, quiet⟩ := waits ((window ++ stale).drop window.length) env.realloc
    w.session.rhdr.http w.process.error has.calm
    { msgBody := callocate kDefaultBufSize true, size := kDefaultBufSize }
  obtain ⟨unread, still⟩ := MsgHdr.initFromBuf_of_waits
    { stale := (window ++ stale).drop window.length
      parameter := env.parameter
      realloc := env.realloc } has.type none_ quiet
  have parsed : w.incomingLocked.parseRhdr env (window ++ stale) =
      w.session.rhdr.initFromBuf
        { stale := (window ++ stale).drop window.length
          parameter := env.parameter
          realloc := env.realloc } window
        { msgBody := callocate kDefaultBufSize true, size := kDefaultBufSize } w.process := by
    rw [parseRhdr, count, readMemory_append_of_le le_rfl, List.take_length]
    rfl
  rw [parsed, unread]
  dsimp only
  rw [if_neg (by rw [event, Bool.not_eq_true]; exact still)]
  exact ⟨rfl, still, has.rbuf, rfl⟩

/-- A header that has only partly arrived is never accepted, and it raises no error exactly
when it is not a request that is cut in the last key of its query. -/
theorem partialHeader_waits_iff {http : HTTPFraming} (built : HTTPFraming.Built http)
    (safe : HTTPFraming.WireSafe http)
    (fits : (HTTPFraming.printHdrText false http).length < scratchBufSize)
    (within : window <+: HTTPFraming.printHdr 0 false http)
    (proper : window ≠ HTTPFraming.printHdr 0 false http) :
    (ParserWaits window ∧ ∀ (w : World) (stale : Bytes) (env : InitEnv),
        HasReceived w window stale → env.calloc = true →
          (w.initIncomingMsg env).2 = some false ∧ (w.initIncomingMsg env).1.event = false ∧
            (w.initIncomingMsg env).1.session.rbuf = w.session.rbuf ∧
            (w.initIncomingMsg env).1.session.rbufLen = w.session.rbufLen) ↔
      (http.msgType = .request → HTTPFraming.cutsQueryKey window = false) := by
  obtain ⟨printed, short⟩ := built.printHdr_eq safe fits
  rw [printed] at within proper
  have small : window.length < 2 ^ 64 := by
    have length := within.length_le
    simp only [scratchBufSize] at short
    omega
  have parser : ParserWaits window ↔
      (http.msgType = .request → HTTPFraming.cutsQueryKey window = false) := by
    rcases built.kind with ⟨method, listed, uri, msgHdrs, rfl⟩ | ⟨code, nonneg, low, msgHdrs, rfl⟩
    · have result := HTTPFraming.initFromBuf_of_request_part listed
        (safe.uri (HTTPFraming.requestMethod_ne_null listed)) safe.msgHdrs short within
      constructor
      · intro waits _
        have noEvent : ({} : ErrorHandler).event = false := rfl
        have event := (result [] (fun _ _ => none) {} noEvent ⟨none, 0⟩).2
        rw [(waits [] (fun _ _ => none) {} {} rfl ⟨none, 0⟩).2, List.append_nil, beq_self_eq_true,
          Bool.and_true] at event
        exact event.symm
      · intro whole stale realloc old error noEvent chunked
        obtain ⟨unread, event⟩ := result stale realloc old noEvent chunked
        rw [whole rfl, Bool.false_and] at event
        exact ⟨unread, event⟩
    · refine ⟨fun _ request => (by cases request), fun _ stale realloc old error noEvent chunked => ?_⟩
      obtain ⟨exec, result, same⟩ := HTTPFraming.initFromBuf_of_response_part nonneg low
        safe.msgHdrs short within proper { stale, realloc } old noEvent chunked
      rw [result]
      exact ⟨rfl, (congrArg ErrorHandler.event same).trans noEvent⟩
  rw [← parser]
  exact ⟨And.left, fun waits => ⟨waits, fun w stale env has success =>
    initIncomingMsg_waits has small waits success⟩⟩

/-- The first bytes of the printed request up to a place. -/
def samplePart (count : Nat) : Bytes :=
  (HTTPFraming.printHdr 0 false HTTPFraming.sampleRequest).take count

/-- The request is cut in its URL, in the value of its query and in its field. -/
theorem partialHeader_waits_iff_sample :
    ParserWaits (samplePart 15) ∧ ParserWaits (samplePart 21) ∧ ParserWaits (samplePart 35) :=
  ⟨((partialHeader_waits_iff HTTPFraming.sampleRequest_built HTTPFraming.sampleRequest_safe
      (by decide +kernel) (List.take_prefix 15 _) (by decide +kernel)).mpr
        fun _ => by decide +kernel).1,
    ((partialHeader_waits_iff HTTPFraming.sampleRequest_built HTTPFraming.sampleRequest_safe
      (by decide +kernel) (List.take_prefix 21 _) (by decide +kernel)).mpr
        fun _ => by decide +kernel).1,
    ((partialHeader_waits_iff HTTPFraming.sampleRequest_built HTTPFraming.sampleRequest_safe
      (by decide +kernel) (List.take_prefix 35 _) (by decide +kernel)).mpr
        fun _ => by decide +kernel).1⟩

/-- The query of a request is cut in its only key. -/
theorem partialHeader_fails :
    samplePart 19 = ascii "GET http://h:80/p?q" ∧
      (HTTPFraming.initFromBuf { stale := [], realloc := fun _ _ => none } (samplePart 19)
        { obj := {}, error := {} } ⟨none, 0⟩).exec.error.event = true := by
  decide +kernel

end World

end IpUtils
