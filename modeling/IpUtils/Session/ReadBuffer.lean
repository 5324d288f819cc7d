import IpUtils.HTTP.Bound
import IpUtils.Session.FramingType

/-! # The read buffer

The number of bytes in `rbuf_` stays between 0 and the size of the buffer, whatever the
peer sends, as long as no header announces a body of negative length.
-/

namespace IpUtils

open CLib

namespace World

variable {w : World}

/-- The counters of the read side. -/
structure ReadBuffer (session : TCPSession) : Prop where
  low : 0 ≤ session.rbufLen
  high : session.rbufLen < session.rbufSize
  body : 0 ≤ session.rpending.bodyLen
  start : 0 ≤ session.rpending.fileOffset
  within : session.rpending.fileOffset ≤ session.rpending.bodyLen

/-! ## Announced lengths -/

/-- The length that a header announces is not negative. -/
def NonnegativeLength (http : HTTPFraming) : Prop :=
  ∀ msgHdr, http.msgHdr? HTTPFraming.mimeContentLength = some msgHdr →
    0 ≤ strtol 10 msgHdr.fieldValue

/-- A header that has been parsed announces a length that is not negative, and a decoded
body has a length that an `int` holds. -/
def Announces (outcome : MsgHdr.ParseOutcome) : Prop :=
  (outcome.hdr.type = MsgHdr.typeHttp → NonnegativeLength outcome.hdr.http) ∧
    (cstr (outcome.chunked.msgBody.getD [])).length < 2 ^ 31

/-- A header with a field for the length. -/
theorem announces_of_field {outcome : MsgHdr.ParseOutcome} {msgHdr : Rfc822MsgHdr}
    (found : outcome.hdr.http.msgHdr? HTTPFraming.mimeContentLength = some msgHdr)
    (nonneg : 0 ≤ strtol 10 msgHdr.fieldValue)
    (short : (cstr (outcome.chunked.msgBody.getD [])).length < 2 ^ 31) : Announces outcome := by
  refine ⟨fun _ other same => ?_, short⟩
  rw [found] at same
  exact Option.some.inj same ▸ nonneg

theorem strtol_le (base : Nat) (text : Bytes) : strtol base text ≤ longMax := by
  unfold strtol longMax longMin
  split
  · exact min_le_right _ _
  · rename_i magnitude _
    rw [max_le_iff]
    constructor
    · omega
    · norm_num

theorem toSsize_of_small {value : Nat} (small : value < 2 ^ 63) : toSsize value = value := by
  rw [← toSsize_toSize_of_small (show -2 ^ 63 ≤ (value : Int) by omega) (by omega)]
  congr 1
  rw [toSize]
  omega

/-- A number that an `int` holds is read back from its decimal digits. -/
theorem strtol_printInt {value : Nat} (small : value < 2 ^ 31) :
    strtol 10 (cstr (printInt value)) = value := by
  have digits : printInt value = decimal value := by
    rw [printInt, if_neg (by omega), Int.toNat_natCast]
  have noNul : (0 : UInt8) ∉ decimal value := fun member =>
    (isdigit_cases (isdigit_of_mem_decimal member)).1 rfl
  rw [digits, cstr_eq_self noNul]
  refine strtol_decimal ?_
  rw [longMax]
  omega

/-- A length that is not negative stays so. -/
theorem toSsize_bodyLen {hdr : MsgHdr} (nonneg : hdr.type = MsgHdr.typeHttp →
    NonnegativeLength hdr.http) : 0 ≤ toSsize hdr.bodyLen := by
  have small {value : Nat} (bound : value < 2 ^ 63) : 0 ≤ toSsize value := by
    rw [toSsize_of_small bound]
    exact Int.natCast_nonneg value
  unfold MsgHdr.bodyLen
  split
  · exact small ((UInt16.toNat_lt _).trans (by norm_num))
  · split
    · rename_i type
      unfold HTTPFraming.msgLen
      split
      · rename_i msgHdr found
        have low := nonneg type msgHdr found
        have high := strtol_le 10 msgHdr.fieldValue
        rw [longMax] at high
        rw [toSsize_toSize_of_small (by omega) (by omega)]
        exact low
      · exact small (by norm_num)
    · exact small (by norm_num)

/-- The length of a decoded body is put behind the other fields. -/
theorem nonnegativeLength_setBodyLen {hdr : MsgHdr} {bodyLen : Nat} (small : bodyLen < 2 ^ 31)
    (nonneg : hdr.type = MsgHdr.typeHttp → NonnegativeLength hdr.http) (error : ErrorHandler) :
    (hdr.setBodyLen bodyLen error).1.type = MsgHdr.typeHttp →
      NonnegativeLength (hdr.setBodyLen bodyLen error).1.http := by
  rw [type_setBodyLen]
  intro type msgHdr
  have notBasic : hdr.type ≠ MsgHdr.typeBasic := by
    rw [type]
    decide
  rw [MsgHdr.setBodyLen, if_neg notBasic, if_pos type]
  unfold HTTPFraming.appendField HTTPFraming.appendMsgHdr
  dsimp only
  split
  · exact nonneg type msgHdr
  · intro found
    rw [HTTPFraming.msgHdr?, List.find?_append] at found
    rcases Option.or_eq_some_iff.mp found with old | ⟨-, new⟩
    · exact nonneg type msgHdr old
    · obtain rfl := List.mem_singleton.mp (List.mem_of_find?_eq_some new)
      have value : toInt bodyLen = bodyLen := by
        rw [toInt, Int.bmod_eq_of_le (by omega) (by omega)]
      dsimp only
      rw [value, strtol_printInt small]
      exact Int.natCast_nonneg bodyLen

/-! ## Parts of a call -/

theorem rbufSize_shiftRbuf (len offset : Int) (w : World) :
    (w.shiftRbuf len offset).session.rbufSize = w.session.rbufSize := by
  unfold shiftRbuf
  split <;> rfl

theorem rpending_shiftRbuf (len offset : Int) (w : World) :
    (w.shiftRbuf len offset).session.rpending = w.session.rpending := by
  unfold shiftRbuf
  split <;> rfl

/-- Bytes are removed, and not more than there are. -/
theorem rbufLen_shiftRbuf {len offset : Int} (positive : 0 ≤ len) (front : 0 ≤ offset)
    (within : offset ≤ w.session.rbufLen) :
    0 ≤ (w.shiftRbuf len offset).session.rbufLen ∧
      (w.shiftRbuf len offset).session.rbufLen ≤ w.session.rbufLen := by
  unfold shiftRbuf
  split
  · exact ⟨by change 0 ≤ w.session.rbufLen; omega, le_refl _⟩
  · dsimp only
    split <;> omega

theorem readBuffer_shiftRbuf {len offset : Int} (buffer : ReadBuffer w.session) (positive : 0 ≤ len)
    (front : 0 ≤ offset) (within : offset ≤ w.session.rbufLen) :
    ReadBuffer (w.shiftRbuf len offset).session := by
  obtain ⟨low, less⟩ := rbufLen_shiftRbuf positive front within
  refine ⟨low, ?_, ?_, ?_, ?_⟩
  · rw [rbufSize_shiftRbuf]
    exact less.trans_lt buffer.high
  all_goals rw [rpending_shiftRbuf]
  · exact buffer.body
  · exact buffer.start
  · exact buffer.within

theorem readBuffer_resetRbuf (buffer : ReadBuffer w.session) : ReadBuffer w.resetRbuf.session := by
  unfold resetRbuf
  split
  · exact ⟨buffer.low, buffer.high, buffer.body, buffer.start, buffer.within⟩
  · have size : 0 < w.session.rbufSize := buffer.low.trans_lt buffer.high
    exact ⟨le_refl _, size, le_refl _, le_refl _, le_refl _⟩

/-- What the parser has used of the window, and the body that it has decoded. -/
theorem initFromBuf_used {env : MsgHdr.BufEnv} {window : Bytes} {hdr : MsgHdr} {process : Process}
    {used : Nat} {size : Nat}
    (accepted : (hdr.initFromBuf env window { msgBody := callocate size true, size } process).bytesUsed =
      some used) :
    used ≤ 2 * window.length ∧
      (cstr ((hdr.initFromBuf env window { msgBody := callocate size true, size }
        process).chunked.msgBody.getD [])).length ≤ min window.length used := by
  have empty : cstr ((callocate size true).getD []) = [] := by
    rw [callocate, if_pos rfl, Option.getD_some]
    cases size <;> rfl
  unfold MsgHdr.initFromBuf at accepted ⊢
  by_cases basic : hdr.type = MsgHdr.typeBasic
  · rw [if_pos basic] at accepted ⊢
    unfold MsgHdr.initBasic at accepted ⊢
    by_cases short : window.length < BasicFramingHdr.size
    · rw [if_pos short] at accepted
      cases accepted
    · rw [if_neg short] at accepted ⊢
      cases accepted
      exact ⟨by omega, by rw [empty]; exact Nat.zero_le _⟩
  · rw [if_neg basic] at accepted ⊢
    by_cases http : hdr.type = MsgHdr.typeHttp
    · rw [if_pos http] at accepted ⊢
      unfold MsgHdr.initHttp at accepted ⊢
      have bounded := HTTPFraming.initFromBuf_bounded
        { stale := env.stale, defaultPort := MsgHdr.ipcommPortNull, realloc := env.realloc } window
        { obj := hdr.http, error := process.error } { msgBody := callocate size true, size }
      generalize HTTPFraming.initFromBuf _ _ _ _ = result at accepted bounded ⊢
      dsimp only at accepted ⊢
      cases given : result.bytesUsed with
      | none =>
          rw [given] at accepted
          cases accepted
      | some used' =>
          rw [given] at accepted
          cases accepted
          obtain ⟨most, same | short⟩ := bounded used given
          · refine ⟨most, ?_⟩
            dsimp only
            rw [same, empty]
            exact Nat.zero_le _
          · exact ⟨most, short⟩
    · rw [if_neg http] at accepted ⊢
      cases accepted
      exact ⟨Nat.zero_le _, by rw [empty]; exact Nat.zero_le _⟩

/-- The header is removed from the buffer, or a decoded body put in its place. -/
theorem readBuffer_takeHeader {rbuf : Bytes} {used : Nat} {chunked : ChunkBuf}
    (buffer : ReadBuffer w.session) (small : used < 2 ^ 63)
    (short : (cstr (chunked.msgBody.getD [])).length ≤ used)
    (within : ((cstr (chunked.msgBody.getD [])).length : Int) ≤ w.session.rbufLen)
    (fits : (cstr (chunked.msgBody.getD [])).length < 2 ^ 31)
    (nonneg : w.session.rhdr.type = MsgHdr.typeHttp → NonnegativeLength w.session.rhdr.http) :
    ReadBuffer (w.takeHeader rbuf used chunked).session := by
  unfold takeHeader
  generalize cstr (chunked.msgBody.getD []) = body at short within fits ⊢
  dsimp only [onSession]
  by_cases decoded : 0 < body.length
  · rw [if_pos decoded]
    have exact_ : toSsize (toSize ((used : Int) - body.length)) = (used : Int) - body.length :=
      toSsize_toSize_of_small (by omega) (by omega)
    rw [exact_]
    generalize stored : ({ w with
      session := { w.session with rbuf := some (storeAt rbuf 0 body) }
      process := w.process.checked (inside rbuf 0 body.length) } : World) = placed
    have same : ReadBuffer placed.session ∧ placed.session.rbufLen = w.session.rbufLen ∧
        placed.session.rhdr = w.session.rhdr := by
      rw [← stored]
      exact ⟨⟨buffer.low, buffer.high, buffer.body, buffer.start, buffer.within⟩, rfl, rfl⟩
    have shifted := @readBuffer_shiftRbuf placed ((used : Int) - body.length) body.length
      same.1 (by omega) (by omega) (by rw [same.2.1]; exact within)
    have length := @nonnegativeLength_setBodyLen
      (placed.shiftRbuf ((used : Int) - body.length) body.length).session.rhdr body.length fits
      (by rw [rhdr_shiftRbuf, same.2.2]; exact nonneg)
      (placed.shiftRbuf ((used : Int) - body.length) body.length).process.error
    have announced := toSsize_bodyLen length
    refine ⟨shifted.low, shifted.high, ?_, le_refl _, ?_⟩
    · dsimp only
      exact announced
    · dsimp only
      exact announced
  · rw [if_neg decoded, toSsize_of_small small]
    have shifted := @readBuffer_shiftRbuf w used 0 buffer (by omega) (le_refl _)
      buffer.low
    have length := nonneg
    rw [← rhdr_shiftRbuf (used : Int) 0] at length
    have announced := toSsize_bodyLen length
    refine ⟨shifted.low, shifted.high, ?_, le_refl _, ?_⟩
    · dsimp only
      exact announced
    · dsimp only
      exact announced

/-! ## One call -/

/-- The read buffer of a session on plain TCP. -/
structure PlainBuffer (session : TCPSession) : Prop where
  buffer : ReadBuffer session
  plain : session.conn.ssl = false

/-- A call is not made on an absurdly large buffer, and does not accept a header that
announces a negative length. -/
def Modest (call : Call) (w : World) : Prop :=
  w.session.rbufSize ≤ 2 ^ 62 ∧
    ∀ env, call = .initIncomingMsg env → ∀ rbuf, w.session.rbuf = some rbuf →
      (w.parseRhdr env rbuf).bytesUsed.isSome = true → Announces (w.parseRhdr env rbuf)

/-- The outcome of `read(2)`: the connection stays, and without an error what has been read
fits. -/
theorem read_plain {conn : SSLConn} (plain : conn.ssl = false) {bufLen : Int}
    (positive : 0 ≤ bufLen) (small : bufLen < 2 ^ 63) (reply : SSLConn.NetRead)
    (error : ErrorHandler) :
    (conn.read bufLen reply error).conn = conn ∧
      ((conn.read bufLen reply error).error.event = false →
        0 ≤ (conn.read bufLen reply error).value ∧ (conn.read bufLen reply error).value ≤ bufLen) := by
  rw [SSLConn.read, plain, if_neg (by simp)]
  unfold TCPConn.read
  split
  · refine ⟨rfl, fun _ => ?_⟩
    dsimp only
    have most : toSize bufLen = bufLen.toNat := by
      rw [toSize]
      omega
    rw [List.length_take, most]
    omega
  · split
    · exact ⟨rfl, fun _ => ⟨le_refl _, positive⟩⟩
    · exact ⟨rfl, fun quiet => absurd quiet (by simp [ErrorHandler.event_init])⟩

theorem plainBuffer_resetRbuf (kept : PlainBuffer w.session) :
    PlainBuffer w.resetRbuf.session := by
  refine ⟨readBuffer_resetRbuf kept.buffer, ?_⟩
  unfold resetRbuf
  split
  · exact kept.plain
  · exact kept.plain

theorem plainBuffer_shiftRbuf {len offset : Int} (kept : PlainBuffer w.session) (positive : 0 ≤ len)
    (front : 0 ≤ offset) (within : offset ≤ w.session.rbufLen) :
    PlainBuffer (w.shiftRbuf len offset).session := by
  refine ⟨readBuffer_shiftRbuf kept.buffer positive front within, ?_⟩
  unfold shiftRbuf
  split
  · exact kept.plain
  · exact kept.plain

theorem plainBuffer_returnIncoming {α : Type} (value : α) (kept : PlainBuffer w.session) :
    PlainBuffer (w.returnIncoming value).1.session :=
  ⟨⟨kept.buffer.low, kept.buffer.high, kept.buffer.body, kept.buffer.start, kept.buffer.within⟩,
    kept.plain⟩

theorem plainBuffer_incomingLocked (kept : PlainBuffer w.session) :
    PlainBuffer w.incomingLocked.session :=
  ⟨⟨kept.buffer.low, kept.buffer.high, kept.buffer.body, kept.buffer.start, kept.buffer.within⟩,
    kept.plain⟩

/-- A call that locks the incoming mutex first. -/
theorem plainBuffer_lockIncoming {α : Type} (kept : PlainBuffer w.session)
    {body : World → Outcome α} (inside : PlainBuffer (body w.incomingLocked).1.session) :
    PlainBuffer (w.lockIncoming body).1.session := by
  cases held : w.session.mutexes.incoming with
  | true =>
      rw [lockIncoming_of_held held]
      exact plainBuffer_incomingLocked kept
  | false =>
      rw [lockIncoming_of_free held]
      exact inside

theorem plainBuffer_read (kept : PlainBuffer w.session) (small : w.session.rbufSize ≤ 2 ^ 62)
    (reply : SSLConn.NetRead) (fresh : Option Bytes) :
    PlainBuffer (w.read reply fresh).1.session := by
  unfold read
  split
  · exact kept
  rename_i rbuf some_
  refine plainBuffer_lockIncoming kept ?_
  have locked := plainBuffer_incomingLocked kept
  have high := locked.buffer.high
  have low := locked.buffer.low
  have small' : w.incomingLocked.session.rbufSize ≤ 2 ^ 62 := small
  obtain ⟨same, fits⟩ := read_plain locked.plain
    (show 0 ≤ w.incomingLocked.session.rbufSize - w.incomingLocked.session.rbufLen by omega)
    (by omega) reply w.incomingLocked.process.error
  dsimp only
  generalize w.incomingLocked.session.conn.read
    (w.incomingLocked.session.rbufSize - w.incomingLocked.session.rbufLen) reply
    w.incomingLocked.process.error = received at same fits ⊢
  have conn : received.conn.ssl = false := by
    rw [same]
    exact locked.plain
  split
  · refine plainBuffer_returnIncoming _ (plainBuffer_resetRbuf ?_)
    exact ⟨⟨low, high, locked.buffer.body, locked.buffer.start, locked.buffer.within⟩, conn⟩
  · rename_i quiet
    obtain ⟨positive, most⟩ := fits (by simpa [event] using quiet)
    unfold keepReceived
    dsimp only [onSession]
    split
    · rename_i full
      split
      · -- the buffer is full, and there is no memory
        refine plainBuffer_returnIncoming _ ?_
        have size : 0 < w.incomingLocked.session.rbufSize := low.trans_lt high
        exact ⟨⟨le_refl _, size, le_refl _, le_refl _, le_refl _⟩, conn⟩
      · refine plainBuffer_returnIncoming _ ⟨⟨?_, ?_, locked.buffer.body, locked.buffer.start,
          locked.buffer.within⟩, conn⟩
        · dsimp only
          omega
        · dsimp only
          have grows : (0 : Int) < kDefaultBufSize := by decide
          omega
    · rename_i room
      refine plainBuffer_returnIncoming _ ⟨⟨?_, ?_, locked.buffer.body, locked.buffer.start,
        locked.buffer.within⟩, conn⟩
      · dsimp only
        omega
      · dsimp only
        omega

theorem plainBuffer_initIncomingMsg (kept : PlainBuffer w.session)
    (small : w.session.rbufSize ≤ 2 ^ 62) (env : InitEnv)
    (announces : ∀ rbuf, w.session.rbuf = some rbuf →
      (w.parseRhdr env rbuf).bytesUsed.isSome = true → Announces (w.parseRhdr env rbuf)) :
    PlainBuffer (w.initIncomingMsg env).1.session := by
  unfold initIncomingMsg
  split
  · exact kept
  rename_i rbuf some_
  split
  · exact kept
  refine plainBuffer_lockIncoming kept ?_
  have locked := plainBuffer_incomingLocked kept
  have same : w.incomingLocked.parseRhdr env rbuf = w.parseRhdr env rbuf := rfl
  rw [same]
  split
  · exact locked
  dsimp only
  have parsed : PlainBuffer ({ w.incomingLocked.session with rhdr := (w.parseRhdr env rbuf).hdr }) :=
    ⟨⟨locked.buffer.low, locked.buffer.high, locked.buffer.body, locked.buffer.start,
      locked.buffer.within⟩, locked.plain⟩
  cases accepted : (w.parseRhdr env rbuf).bytesUsed with
  | none =>
      dsimp only
      split
      · exact plainBuffer_returnIncoming _ (plainBuffer_resetRbuf parsed)
      · exact plainBuffer_returnIncoming _ parsed
  | some used =>
      dsimp only
      refine plainBuffer_returnIncoming _ ⟨?_, ?_⟩
      · obtain ⟨nonneg, fits⟩ := announces rbuf some_ (by rw [accepted]; rfl)
        obtain ⟨most, short⟩ := initFromBuf_used accepted
        have high := kept.buffer.high
        have low := kept.buffer.low
        have window : (readMemory rbuf (toSize w.session.rbufLen)).length =
            w.session.rbufLen.toNat := by
          rw [length_readMemory, toSize]
          omega
        rw [window] at most short
        refine readBuffer_takeHeader parsed.buffer (by omega) ?_ ?_ fits nonneg
        · exact short.trans (min_le_right _ _)
        · have body := short.trans (min_le_left _ _)
          change _ ≤ w.session.rbufLen
          change (cstr ((w.parseRhdr env rbuf).chunked.msgBody.getD [])).length ≤ _ at body
          omega
      · have conn : (w.incomingLocked.session.conn).ssl = false := locked.plain
        unfold takeHeader
        dsimp only [onSession]
        split
        · unfold shiftRbuf
          split <;> exact conn
        · unfold shiftRbuf
          split <;> exact conn

theorem plainBuffer_streamIncomingMsg (kept : PlainBuffer w.session) (reply : WriteReply) :
    PlainBuffer (w.streamIncomingMsg reply).1.session := by
  unfold streamIncomingMsg
  split
  · exact kept
  rename_i rbuf some_
  split
  · exact kept
  split
  · exact kept
  refine plainBuffer_lockIncoming kept ?_
  have locked := plainBuffer_incomingLocked kept
  have high := locked.buffer.high
  have low := locked.buffer.low
  have start := locked.buffer.start
  have within := locked.buffer.within
  dsimp only
  split
  · exact plainBuffer_returnIncoming _ (plainBuffer_resetRbuf locked)
  rename_i count
  -- as much of the body as there is
  have amount : ∃ n : Int, 0 ≤ n ∧ n ≤ w.incomingLocked.session.rbufLen ∧
      n ≤ w.incomingLocked.session.rpending.bodyLen - w.incomingLocked.session.rpending.fileOffset ∧
      (if w.incomingLocked.session.rpending.bodyLen - w.incomingLocked.session.rpending.fileOffset <
          w.incomingLocked.session.rbufLen then
        w.incomingLocked.session.rpending.bodyLen - w.incomingLocked.session.rpending.fileOffset
      else w.incomingLocked.session.rbufLen) = n := by
    split
    · exact ⟨_, by omega, by omega, le_refl _, rfl⟩
    · exact ⟨_, by omega, le_refl _, by omega, rfl⟩
  obtain ⟨n, positive, most, left, same⟩ := amount
  rw [same]
  have taken : ((min count (toSize n) : Nat) : Int) ≤ n := by
    rw [toSize]
    omega
  generalize min count (toSize n) = taken' at taken ⊢
  have moved : PlainBuffer ({ w.incomingLocked.session with
      rpending := { w.incomingLocked.session.rpending with
        fileOffset := w.incomingLocked.session.rpending.fileOffset + (taken' : Int) } }) := by
    refine ⟨⟨low, high, locked.buffer.body, ?_, ?_⟩, locked.plain⟩
    · dsimp only
      omega
    · dsimp only
      omega
  have shifted (process : Process) := @plainBuffer_shiftRbuf
    { w.incomingLocked with
      session := { w.incomingLocked.session with
        rpending := { w.incomingLocked.session.rpending with
          fileOffset := w.incomingLocked.session.rpending.fileOffset + (taken' : Int) } }
      process } taken' 0 moved (by omega) (le_refl _) low
  split
  · exact plainBuffer_returnIncoming _ (shifted _)
  · exact plainBuffer_returnIncoming _ (shifted _)

theorem plainBuffer_clearIncomingMsg (kept : PlainBuffer w.session) :
    PlainBuffer w.clearIncomingMsg.1.session := by
  unfold clearIncomingMsg
  split
  · exact kept
  refine plainBuffer_lockIncoming kept ?_
  have locked := plainBuffer_incomingLocked kept
  dsimp only [onSession]
  refine plainBuffer_returnIncoming _ ?_
  split
  · have shifted := plainBuffer_shiftRbuf locked locked.buffer.body (le_refl _) locked.buffer.low
    exact ⟨⟨shifted.buffer.low, shifted.buffer.high, le_refl _, le_refl _, le_refl _⟩, shifted.plain⟩
  · exact ⟨⟨locked.buffer.low, locked.buffer.high, le_refl _, le_refl _, le_refl _⟩, locked.plain⟩

theorem plainBuffer_setRfile (kept : PlainBuffer w.session) (path : Option Bytes)
    (reply : OpenReply) : PlainBuffer (w.setRfile path reply).1.session := by
  unfold setRfile
  split
  · exact kept
  split
  · exact kept
  split
  · exact kept
  refine plainBuffer_lockIncoming kept ?_
  have locked := plainBuffer_incomingLocked kept
  exact plainBuffer_returnIncoming _
    ⟨⟨locked.buffer.low, locked.buffer.high, locked.buffer.body, le_refl _, locked.buffer.body⟩,
      locked.plain⟩

theorem plainBuffer_init (kept : PlainBuffer w.session) (rbuf : Bool) (wbuf : Option Bytes) :
    PlainBuffer (w.init rbuf wbuf).1.session := by
  have buffer := kept.buffer
  unfold init
  split
  · exact kept
  split
  · exact kept
  split
  · exact kept
  · dsimp only
    have room : (0 : Int) < kDefaultBufSize := by decide
    split
    · exact ⟨⟨le_refl _, room, buffer.body, buffer.start, buffer.within⟩, kept.plain⟩
    · exact ⟨⟨le_refl _, room, buffer.body, buffer.start, buffer.within⟩, kept.plain⟩

/-- The step: a modest call keeps the counters. -/
theorem plainBuffer_step (kept : PlainBuffer w.session) {call : Call} (receiving : Receiving call)
    (modest : Modest call w) : PlainBuffer (World.step call w).1.session := by
  cases receiving with
  | init rbuf wbuf => exact plainBuffer_init kept rbuf wbuf
  | read reply fresh => exact plainBuffer_read kept modest.1 reply fresh
  | initIncomingMsg env => exact plainBuffer_initIncomingMsg kept modest.1 env (modest.2 env rfl)
  | streamIncomingMsg reply => exact plainBuffer_streamIncomingMsg kept reply
  | setRfile path reply => exact plainBuffer_setRfile kept path reply
  | setStorage storage =>
      change PlainBuffer (w.setStorage storage).1.session
      unfold setStorage
      refine plainBuffer_lockIncoming kept ?_
      have locked := plainBuffer_incomingLocked kept
      exact plainBuffer_returnIncoming _ ⟨⟨locked.buffer.low, locked.buffer.high, locked.buffer.body,
        locked.buffer.start, locked.buffer.within⟩, locked.plain⟩
  | clearIncomingMsg => exact plainBuffer_clearIncomingMsg kept

/-! ## Whole runs -/

/-- The read buffer never overflows and is never full, and the length of a body is never
negative, in every run in which no accepted header announces a negative length. -/
theorem run_keeps_readBuffer (framingType : UInt8) {conn : SSLConn} (plain : conn.ssl = false)
    (process : Process) (wbuf : Option Bytes) {calls : List Call}
    (along : Machine.Along World.step (fun call w => Receiving call ∧ Modest call w) calls
      ((TCPSession.create framingType conn process).init true wbuf).1) :
    let session := (Machine.run World.step calls
      ((TCPSession.create framingType conn process).init true wbuf).1).1.session
    0 ≤ session.rbufLen ∧ session.rbufLen < session.rbufSize ∧
      (session.rpending.initialized = true → 0 ≤ session.rpending.bodyLen) := by
  intro session
  have begins : PlainBuffer ((TCPSession.create framingType conn process).init true wbuf).1.session := by
    have room : (0 : Int) < kDefaultBufSize := by decide
    unfold init
    simp only [TCPSession.create, callocate, Option.isSome_none, Bool.false_eq_true, ↓reduceIte,
      ne_eq, not_true_eq_false]
    split
    · exact ⟨⟨le_refl _, room, le_refl _, le_refl _, le_refl _⟩, plain⟩
    · exact ⟨⟨le_refl _, room, le_refl _, le_refl _, le_refl _⟩, plain⟩
  have kept : PlainBuffer session := Machine.run_preserves
    (fun call w (kept : PlainBuffer w.session) (made : Receiving call ∧ Modest call w) =>
      plainBuffer_step kept made.1 made.2) begins along
  exact ⟨kept.buffer.low, kept.buffer.high, fun _ => kept.buffer.body⟩

/-- A response with a body of two bytes, and the start of the next one. -/
def bodyAndMore : Bytes :=
  ascii "HTTP/1.1 200 OK\x0d\nContent-Length: 2\x0d\n\x0d\nhiHT"

/-- The session that has received it. -/
def shortBody : World :=
  (World.step (.read { tcp := .received bodyAndMore } none)
    ((TCPSession.create MsgHdr.typeHttp {} {}).init true (some [])).1).1

theorem announces_shortBody {rbuf : Bytes} (has : shortBody.session.rbuf = some rbuf) :
    Announces (shortBody.parseRhdr {} rbuf) := by
  have same : rbuf = shortBody.session.rbuf.getD [] := by rw [has]; rfl
  rw [same]
  exact @announces_of_field _ { fieldName := ascii "Content-Length", fieldValue := ascii "2" }
    (by decide +kernel) (by decide +kernel) (by decide +kernel)

theorem run_keeps_readBuffer_sample :
    let session := (Machine.run World.step
      [.read { tcp := .received bodyAndMore } none, .initIncomingMsg {}, .clearIncomingMsg]
      ((TCPSession.create MsgHdr.typeHttp {} {}).init true (some [])).1).1.session
    0 ≤ session.rbufLen ∧ session.rbufLen < session.rbufSize ∧
      (session.rpending.initialized = true → 0 ≤ session.rpending.bodyLen) := by
  apply run_keeps_readBuffer MsgHdr.typeHttp rfl {} (some [])
  refine ⟨⟨.read _ _, by decide +kernel, fun _ same => nomatch same⟩, fun _ =>
    ⟨⟨.initIncomingMsg _, by decide +kernel, ?_⟩, fun _ =>
      ⟨⟨.clearIncomingMsg, by decide +kernel, fun _ same => nomatch same⟩, fun _ => trivial⟩⟩⟩
  -- the header announces two bytes
  intro env same rbuf has _
  obtain rfl := Call.initIncomingMsg.inj same
  exact announces_shortBody has

/-- A response that announces a body of -5 bytes is received. -/
def negativeBody : List Call :=
  [.read { tcp := .received (ascii "HTTP/1.1 200 OK\x0d\nContent-Length: -5\x0d\n\x0d\n") } none,
    .initIncomingMsg {}]

/-- The length of the body is negative, and clearing the message makes the buffer longer. -/
theorem readBuffer_grows :
    let start := ((TCPSession.create MsgHdr.typeHttp {} {}).init true (some [])).1
    (Machine.run World.step negativeBody start).1.session.rpending.initialized = true ∧
      (Machine.run World.step negativeBody start).1.session.rpending.bodyLen = -5 ∧
      (Machine.run World.step negativeBody start).1.session.rbufLen = 0 ∧
      (Machine.run World.step (negativeBody ++ [.clearIncomingMsg]) start).1.session.rbufLen = 5 := by
  decide +kernel

end World

end IpUtils
