import IpUtils.HTTP.Outcome
import IpUtils.Session.Boxes
import IpUtils.Session.Completeness

/-! # Calling `InitIncomingMsg` again

The loop of a server calls it after every `Read`. Once the header has been taken, what
stands in `rbuf_` is the body, and it is parsed as a header again: with the HTTP framing
`rhdr_` is cleared before the first byte is looked at.
-/

namespace IpUtils

open CLib

/-- What the read side of a session holds of a message. -/
def TCPSession.reading (session : TCPSession) : Option Bytes × Int × MsgHdr × MsgInfo :=
  (session.rbuf, session.rbufLen, session.rhdr, session.rpending)

namespace World

variable {w w' : World}

/-- A call of `InitIncomingMsg` returns, and nothing that it is about has changed. -/
structure Harmless (w : World) (outcome : Outcome Bool) : Prop where
  returns : outcome.2.isSome = true
  held : outcome.1.session.held = w.session.held
  rbufLen : outcome.1.session.rbufLen = w.session.rbufLen
  rhdr : outcome.1.session.rhdr = w.session.rhdr
  rpending : outcome.1.session.rpending = w.session.rpending
  error : outcome.1.process.error = w.process.error

/-- Either `rbuf_` is empty, or a basic header does not fit into what it holds. -/
def LeavesBody (env : InitEnv) (w : World) : Prop :=
  w.session.rbufLen = 0 ∨
    w.session.mutexes.incoming = false ∧ env.calloc = true ∧ w.event = false ∧
      w.session.rhdr.type = MsgHdr.typeBasic ∧ toSize w.session.rbufLen < BasicFramingHdr.size

/-- A call of `InitIncomingMsg` for a message that has begun leaves its body alone. -/
def Sparing (call : Call) (w : World) : Prop :=
  ∀ env, call = .initIncomingMsg env → w.isIncomingMsgInitialized = true → LeavesBody env w

/-! ## What the sending side leaves alone -/

section Sending

theorem reading_lockOutgoing {α : Type} {body : World → Outcome α}
    (kept : ∀ w : World, (body w).1.session.reading = w.session.reading) (w : World) :
    (w.lockOutgoing body).1.session.reading = w.session.reading := by
  cases held : w.session.mutexes.outgoing with
  | true =>
      rw [lockOutgoing_of_held held]
      rfl
  | false =>
      rw [lockOutgoing_of_free held]
      exact kept _

theorem reading_of_inbox (same : w'.inbox = w.inbox) :
    w'.session.reading = w.session.reading := by
  have rbuf : w'.session.rbuf = w.session.rbuf := congrArg Inbox.rbuf same
  have rbufLen : w'.session.rbufLen = w.session.rbufLen := congrArg Inbox.rbufLen same
  have rhdr : w'.session.rhdr = w.session.rhdr := congrArg Inbox.rhdr same
  have rpending : w'.session.rpending = w.session.rpending := congrArg Inbox.rpending same
  rw [TCPSession.reading, rbuf, rbufLen, rhdr, rpending]
  rfl

end Sending

/-! ## What a call does to the message -/

/-- A call ends the message that is received, begins one, or keeps it; only
`InitIncomingMsg` changes the header of a message that it keeps. -/
inductive Handles (call : Call) (w w' : World) : Prop
  | ends (none_ : w'.session.rpending.initialized = false)
  | begins (has : w'.session.rbuf.isSome = true) (start : w'.session.rpending.fileOffset = 0)
      (described : w'.session.rpending.bodyLen = toSsize w'.session.rhdr.bodyLen)
  | keeps (same : w'.session.rpending.initialized = w.session.rpending.initialized)
      (body : w'.session.rpending.bodyLen = w.session.rpending.bodyLen)
      (offset : w.session.rpending.fileOffset ≤ w'.session.rpending.fileOffset ∨
        w'.session.rpending.fileOffset = 0)
      (has : w.session.rbuf.isSome = true → w'.session.rbuf.isSome = true)
      (rhdr : w'.session.rhdr = w.session.rhdr ∨ ∃ env, call = .initIncomingMsg env)

section Handling

variable {call : Call}

theorem Handles.of_reading (same : w'.session.reading = w.session.reading) :
    Handles call w w' := by
  simp only [TCPSession.reading, Prod.mk.injEq] at same
  obtain ⟨rbuf, -, rhdr, rpending⟩ := same
  exact .keeps (by rw [rpending]) (by rw [rpending]) (.inl (le_of_eq (by rw [rpending])))
    (fun has => by rw [rbuf]; exact has) (.inl rhdr)

/-- What comes behind leaves the read side alone. -/
theorem Handles.trans {v : World} (inside : Handles call w v)
    (same : w'.session.reading = v.session.reading) : Handles call w w' := by
  simp only [TCPSession.reading, Prod.mk.injEq] at same
  obtain ⟨rbuf, -, rhdr, rpending⟩ := same
  cases inside with
  | ends none_ => exact .ends (by rw [rpending, none_])
  | begins has start described =>
      exact .begins (by rw [rbuf, has]) (by rw [rpending, start])
        (by rw [rpending, rhdr, described])
  | keeps same body offset has kept =>
      refine .keeps (by rw [rpending, same]) (by rw [rpending, body]) (by rwa [rpending])
        (fun there => by rw [rbuf, has there]) ?_
      rwa [rhdr]

theorem initialized_resetRbuf (has : w.session.rbuf.isSome = true) :
    w.resetRbuf.session.rpending.initialized = false := by
  unfold resetRbuf
  rw [if_neg (by rw [Option.isNone_iff_eq_none, ← Option.not_isSome_iff_eq_none]; simp [has])]

/-- A call that locks the incoming mutex first. -/
theorem Handles.lockIncoming {α : Type} {body : World → Outcome α}
    (inside : Handles call w (body w.incomingLocked).1) :
    Handles call w (w.lockIncoming body).1 := by
  cases held : w.session.mutexes.incoming with
  | true =>
      rw [lockIncoming_of_held held]
      exact .of_reading rfl
  | false =>
      rw [lockIncoming_of_free held]
      exact inside

theorem reading_returnIncoming {α : Type} (value : α) (w : World) :
    (w.returnIncoming value).1.session.reading = w.session.reading :=
  rfl

theorem reading_onProcess (change : Process → Process) (w : World) :
    (w.onProcess change).session.reading = w.session.reading :=
  rfl

theorem handles_init (rbuf : Bool) (wbuf : Option Bytes) (w : World) :
    Handles call w (w.init rbuf wbuf).1 := by
  unfold init
  split
  · exact .of_reading rfl
  split
  · exact .of_reading rfl
  split
  · exact .of_reading rfl
  · dsimp only
    split
    · exact .keeps rfl rfl (.inl (le_refl _)) (fun _ => rfl) (.inl rfl)
    · exact .keeps rfl rfl (.inl (le_refl _)) (fun _ => rfl) (.inl rfl)

theorem handles_read (reply : SSLConn.NetRead) (fresh : Option Bytes) (w : World) :
    Handles call w (w.read reply fresh).1 := by
  unfold read
  split
  · exact .of_reading rfl
  refine .lockIncoming ?_
  dsimp only
  split
  · exact .ends (initialized_resetRbuf rfl)
  · unfold keepReceived
    dsimp only [onSession]
    split
    · split
      · exact .ends (initialized_resetRbuf rfl)
      · exact .keeps rfl rfl (.inl (le_refl _)) (fun _ => rfl) (.inl rfl)
    · exact .keeps rfl rfl (.inl (le_refl _)) (fun _ => rfl) (.inl rfl)

theorem rbuf_shiftRbuf (len offset : Int) (w : World) :
    (w.shiftRbuf len offset).session.rbuf.isSome = w.session.rbuf.isSome := by
  unfold shiftRbuf
  split
  · rfl
  · rename_i some_
    rw [some_]
    rfl

/-- A header that has been taken describes the message. -/
theorem takeHeader_eq (has : w.session.rbuf.isSome = true) (rbuf : Bytes) (used : Nat)
    (chunked : ChunkBuf) :
    ∃ v : World, v.session.rbuf.isSome = true ∧
      w.takeHeader rbuf used chunked = v.onSession fun session =>
        { session with
          rpending := { session.rpending with
            initialized := true
            msgId := session.rhdr.msgId
            hdrLen := toSsize session.rhdr.hdrLen
            bodyLen := toSsize session.rhdr.bodyLen
            bufOffset := 0
            fileOffset := 0
            storage := sessionUseMem } } := by
  unfold takeHeader
  dsimp only
  refine ⟨_, ?_, rfl⟩
  split
  · exact rbuf_shiftRbuf _ _ _
  · exact (rbuf_shiftRbuf _ _ _).trans has

theorem handles_takeHeader (has : w.session.rbuf.isSome = true) (rbuf : Bytes) (used : Nat)
    (chunked : ChunkBuf) (before : World) :
    Handles call before (w.takeHeader rbuf used chunked) := by
  obtain ⟨v, has', same⟩ := takeHeader_eq has rbuf used chunked
  rw [same]
  refine .begins has' rfl ?_
  dsimp only [onSession]

theorem handles_initIncomingMsg (env : InitEnv) (w : World) :
    Handles (.initIncomingMsg env) w (w.initIncomingMsg env).1 := by
  unfold initIncomingMsg
  split
  · exact .of_reading rfl
  rename_i rbuf some_
  split
  · exact .of_reading rfl
  refine .lockIncoming ?_
  split
  · exact .of_reading rfl
  · dsimp only
    have has : w.incomingLocked.session.rbuf.isSome = true := by
      change w.session.rbuf.isSome = true
      rw [some_]
      rfl
    split
    · split
      · exact .ends (initialized_resetRbuf has)
      · exact .keeps rfl rfl (.inl (le_refl _)) id (.inr ⟨env, rfl⟩)
    · refine .trans (handles_takeHeader ?_ _ _ _ _) (reading_returnIncoming true _)
      exact has

theorem handles_streamIncomingMsg (reply : WriteReply) (w : World) :
    Handles call w (w.streamIncomingMsg reply).1 := by
  unfold streamIncomingMsg
  split
  · exact .of_reading rfl
  rename_i rbuf some_
  split
  · exact .of_reading rfl
  split
  · exact .of_reading rfl
  refine .lockIncoming ?_
  have has : w.incomingLocked.session.rbuf.isSome = true := by
    change w.session.rbuf.isSome = true
    rw [some_]
    rfl
  dsimp only
  split
  · exact .ends (initialized_resetRbuf has)
  · rename_i count
    generalize min count _ = taken
    have kept : Handles call w (({ w.incomingLocked with
        session := { w.incomingLocked.session with
          rpending := { w.incomingLocked.session.rpending with
            fileOffset := w.incomingLocked.session.rpending.fileOffset + (taken : Int) } }
        process := (w.incomingLocked.process.setDescriptor w.incomingLocked.session.rfile.descriptor
          (storeFile (sliceAt rbuf 0 taken))).checked (inside rbuf 0 taken) } : World).shiftRbuf
            taken 0) := by
      refine .keeps ?_ ?_ (.inl ?_) (fun _ => ?_) (.inl ?_)
      · rw [rpending_shiftRbuf]
        rfl
      · rw [rpending_shiftRbuf]
        rfl
      · rw [rpending_shiftRbuf]
        exact Int.le_add_of_nonneg_right (Int.natCast_nonneg taken)
      · exact (rbuf_shiftRbuf _ _ _).trans has
      · exact rhdr_shiftRbuf _ _ _
    split
    · exact kept.trans ((reading_returnIncoming 0 _).trans (reading_onProcess _ _))
    · exact kept.trans (reading_returnIncoming 1 _)

theorem handles_clearIncomingMsg (w : World) : Handles call w w.clearIncomingMsg.1 := by
  unfold clearIncomingMsg
  split
  · exact .of_reading rfl
  exact .lockIncoming (.ends rfl)

theorem handles_setRfile (path : Option Bytes) (reply : OpenReply) (w : World) :
    Handles call w (w.setRfile path reply).1 := by
  unfold setRfile
  split
  · exact .of_reading rfl
  split
  · exact .of_reading rfl
  split
  · exact .of_reading rfl
  exact .lockIncoming (.keeps rfl rfl (.inr rfl) id (.inl rfl))

/-- What any call does. -/
theorem handles_step (call : Call) (w : World) : Handles call w (World.step call w).1 := by
  cases call with
  | init rbuf wbuf => exact handles_init rbuf wbuf w
  | read reply fresh => exact handles_read reply fresh w
  | initIncomingMsg env => exact handles_initIncomingMsg env w
  | streamIncomingMsg reply => exact handles_streamIncomingMsg reply w
  | clearIncomingMsg => exact handles_clearIncomingMsg w
  | setRfile path reply => exact handles_setRfile path reply w
  | setStorage storage => exact .lockIncoming (.keeps rfl rfl (.inl (le_refl _)) id (.inl rfl))
  | setRtid rtid => exact .lockIncoming (.of_reading rfl)
  | setConnected connected => exact .lockIncoming (.of_reading (reading_lockOutgoing (fun w => rfl) _))
  | deleteWhdr msgId => exact .of_reading (reading_lockOutgoing (fun w => rfl) _)
  | addMsgBuf framingHdr hdrLen msgBody bodyLen whdr fresh =>
      exact .of_reading (reading_of_inbox (sends_addMsgBuf ..).inbox)
  | addMsgFile framingHdr hdrLen msgBody bodyLen whdr fresh =>
      exact .of_reading (reading_of_inbox (sends_addMsgFile ..).inbox)
  | write replies => exact .of_reading (reading_of_inbox (sends_write replies w).inbox)
  | popOutgoingMsgQueue => exact .of_reading (reading_of_inbox (sends_popOutgoingMsgQueue w).inbox)
  | clearError => exact .of_reading rfl

end Handling

/-! ## Calls that leave the body alone -/

section Again

variable {env : InitEnv} {rbuf : Bytes}

theorem parseRhdr_basic_short (type : w.session.rhdr.type = MsgHdr.typeBasic)
    (short : toSize w.session.rbufLen < BasicFramingHdr.size) (env : InitEnv) (rbuf : Bytes) :
    (w.parseRhdr env rbuf).bytesUsed = none ∧ (w.parseRhdr env rbuf).hdr = w.session.rhdr ∧
      (w.parseRhdr env rbuf).process = w.process := by
  have few : (readMemory rbuf (toSize w.session.rbufLen)).length < BasicFramingHdr.size := by
    rw [length_readMemory]
    exact short
  unfold parseRhdr MsgHdr.initFromBuf
  rw [if_pos type]
  unfold MsgHdr.initBasic
  rw [if_pos few]
  exact ⟨rfl, rfl, rfl⟩

/-- Nothing is parsed, or nothing comes of it. -/
theorem harmless_of_leavesBody (has : w.session.rbuf.isSome = true) (leaves : LeavesBody env w) :
    Harmless w (w.initIncomingMsg env) := by
  obtain ⟨rbuf, some_⟩ := Option.isSome_iff_exists.mp has
  unfold initIncomingMsg
  rw [some_]
  dsimp only
  by_cases none_ : w.session.rbufLen = 0
  · rw [if_pos none_]
    exact ⟨rfl, rfl, rfl, rfl, rfl, rfl⟩
  · obtain ⟨free, calloc, calm, type, short⟩ := leaves.resolve_left none_
    obtain ⟨unread, hdr, process⟩ := @parseRhdr_basic_short w.incomingLocked type short env rbuf
    rw [if_neg none_, lockIncoming_of_free free, calloc]
    simp only [Bool.not_true, Bool.false_eq_true, ↓reduceIte, unread, hdr, process]
    split
    · rename_i raised
      exact absurd (calm.symm.trans raised) (by decide)
    · exact ⟨rfl, rfl, rfl, rfl, rfl, rfl⟩

/-! ## Calls that do not -/

/-- How much `ShiftRbuf` leaves. -/
def leftAfter (rbufLen len offset : Int) : Int :=
  rbufLen - if rbufLen < len + offset then rbufLen - offset else len

theorem leftAfter_shiftRbuf (has : w.session.rbuf.isSome = true) (len offset : Int) :
    (w.shiftRbuf len offset).session.rbufLen = leftAfter w.session.rbufLen len offset := by
  obtain ⟨rbuf, some_⟩ := Option.isSome_iff_exists.mp has
  unfold shiftRbuf
  rw [some_]
  rfl

theorem rbufLen_takeHeader (has : w.session.rbuf.isSome = true) (rbuf : Bytes) (used : Nat)
    (chunked : ChunkBuf) :
    (w.takeHeader rbuf used chunked).session.rbufLen =
      if 0 < (cstr (chunked.msgBody.getD [])).length then
        leftAfter w.session.rbufLen
          (toSsize (toSize (used - (cstr (chunked.msgBody.getD [])).length)))
          (cstr (chunked.msgBody.getD [])).length
      else leftAfter w.session.rbufLen (toSsize used) 0 := by
  generalize count : (cstr (chunked.msgBody.getD [])).length = length
  unfold takeHeader
  dsimp only [onSession]
  rw [count]
  split
  · refine (leftAfter_shiftRbuf ?_ _ _).trans ?_
    · rfl
    · rfl
  · exact leftAfter_shiftRbuf has _ _

theorem toSsize_ne_zero {value : Nat} (positive : 0 < value) (small : value < 2 ^ 64) :
    toSsize value ≠ 0 := by
  intro none_
  have divides := Int.dvd_of_bmod_eq_zero none_
  omega

/-- Bytes that are taken are gone, unless there are none. -/
theorem leftAfter_ne {rbufLen len offset : Int} (some_ : rbufLen ≠ 0)
    (front : offset = 0 ∨ 0 < offset ∧ (0 ≤ rbufLen → offset < rbufLen))
    (taken : 0 ≤ rbufLen → len ≠ 0) : leftAfter rbufLen len offset ≠ rbufLen := by
  unfold leftAfter
  split
  · omega
  · rename_i enough
    by_cases low : 0 ≤ rbufLen
    · have := taken low
      omega
    · omega

/-- What an accepted header has taken of `rbuf_`. -/
theorem parseRhdr_taken {used : Nat}
    (typed : w.session.rhdr.type = MsgHdr.typeBasic ∨ w.session.rhdr.type = MsgHdr.typeHttp)
    (accepted : (w.parseRhdr env rbuf).bytesUsed = some used) :
    0 < used ∧
      ((cstr ((w.parseRhdr env rbuf).chunked.msgBody.getD [])).length = 0 ∨
        (cstr ((w.parseRhdr env rbuf).chunked.msgBody.getD [])).length <
          min (toSize w.session.rbufLen) used) := by
  unfold parseRhdr MsgHdr.initFromBuf at accepted ⊢
  by_cases basic : w.session.rhdr.type = MsgHdr.typeBasic
  · rw [if_pos basic] at accepted ⊢
    unfold MsgHdr.initBasic at accepted ⊢
    split at accepted
    · cases accepted
    · rename_i long
      rw [if_neg long]
      cases accepted
      exact ⟨by decide, .inl (congrArg List.length cstr_callocate)⟩
  · have http := typed.resolve_left basic
    rw [if_neg basic, if_pos http] at accepted ⊢
    unfold MsgHdr.initHttp at accepted ⊢
    have consumes := HTTPFraming.initFromBuf_consumes
      { stale := rbuf.drop (toSize w.session.rbufLen), defaultPort := MsgHdr.ipcommPortNull
        realloc := env.realloc } (readMemory rbuf (toSize w.session.rbufLen))
      { obj := w.session.rhdr.http, error := w.process.error }
      { msgBody := callocate kDefaultBufSize true, size := kDefaultBufSize }
    rw [length_readMemory] at consumes
    generalize HTTPFraming.initFromBuf _ _ _ _ = result at accepted consumes ⊢
    dsimp only at accepted ⊢
    cases given : result.bytesUsed with
    | none =>
        rw [given] at accepted
        cases accepted
    | some used' =>
        rw [given] at accepted
        cases accepted
        obtain ⟨some_, same | short⟩ := consumes _ given
        · refine ⟨some_, .inl ?_⟩
          dsimp only
          rw [same, cstr_callocate]
          rfl
        · exact ⟨some_, .inr short⟩

/-- An accepted header changes how much `rbuf_` holds. -/
theorem rbufLen_accepted {used : Nat}
    (some_ : w.session.rbufLen ≠ 0) (small : w.session.rbufLen < 2 ^ 63)
    (typed : w.session.rhdr.type = MsgHdr.typeBasic ∨ w.session.rhdr.type = MsgHdr.typeHttp)
    (accepted : (w.parseRhdr env rbuf).bytesUsed = some used) {v : World}
    (hasV : v.session.rbuf.isSome = true) (same : v.session.rbufLen = w.session.rbufLen) :
    (v.takeHeader rbuf used (w.parseRhdr env rbuf).chunked).session.rbufLen ≠ w.session.rbufLen := by
  obtain ⟨taken, body⟩ := parseRhdr_taken typed accepted
  obtain ⟨most, -⟩ := initFromBuf_used accepted
  rw [length_readMemory] at most
  rw [rbufLen_takeHeader hasV, same]
  generalize (cstr ((w.parseRhdr env rbuf).chunked.msgBody.getD [])).length = length at body ⊢
  have window : 0 ≤ w.session.rbufLen → toSize w.session.rbufLen = w.session.rbufLen.toNat := by
    intro low
    rw [toSize]
    omega
  split
  · rename_i decoded
    refine leftAfter_ne some_ (.inr ⟨by omega, fun low => ?_⟩) fun low => ?_
    · have := window low
      omega
    · have whole := window low
      have size : toSize ((used : Int) - length) = used - length := by
        rw [toSize]
        omega
      rw [size]
      exact toSsize_ne_zero (by omega) (by omega)
  · refine leftAfter_ne some_ (.inl rfl) fun low => ?_
    have whole := window low
    exact toSsize_ne_zero taken (by omega)

/-- The message that has begun is described, and something is left of it. -/
structure Arriving (w : World) : Prop where
  initialized : w.session.rpending.initialized = true
  has : w.session.rbuf.isSome = true
  described : w.session.rpending.bodyLen = toSsize w.session.rhdr.bodyLen
  left : 0 < w.session.rpending.bodyLen

/-- The header of a message with a body has a framing, and fields if it is HTTP. -/
theorem Arriving.typed (arriving : Arriving w) :
    w.session.rhdr.type = MsgHdr.typeBasic ∨
      w.session.rhdr.type = MsgHdr.typeHttp ∧ w.session.rhdr.http.msgHdrs ≠ [] := by
  have positive : w.session.rhdr.bodyLen ≠ 0 := by
    intro none_
    have left := arriving.left
    rw [arriving.described, none_] at left
    exact absurd left (by decide)
  unfold MsgHdr.bodyLen at positive
  by_cases basic : w.session.rhdr.type = MsgHdr.typeBasic
  · exact .inl basic
  · rw [if_neg basic] at positive
    by_cases http : w.session.rhdr.type = MsgHdr.typeHttp
    · rw [if_pos http] at positive
      refine .inr ⟨http, fun none_ => positive ?_⟩
      simp [HTTPFraming.msgLen, HTTPFraming.msgHdr?, none_]
    · rw [if_neg http] at positive
      exact absurd rfl positive

theorem init_ne (error : ErrorHandler) (realm : Int) (format : String) (args : List FmtArg) :
    error.init realm format args ≠ error := by
  intro same
  have length := congrArg (fun error : ErrorHandler => error.msgs.length) same
  unfold ErrorHandler.init at length
  split at length
  · simp only [List.length_append, List.length_cons, List.length_nil] at length
    omega
  · simp only [List.length_append, List.length_cons, List.length_nil] at length
    omega

/-- A header that is not accepted, without an error: either the bytes are too few for the
basic framing, or the HTTP header is left without fields. -/
theorem parseRhdr_unread (unread : (w.parseRhdr env rbuf).bytesUsed = none)
    (quiet : (w.parseRhdr env rbuf).process.error.event = false) :
    (w.session.rhdr.type = MsgHdr.typeBasic ∧ w.event = false ∧
        toSize w.session.rbufLen < BasicFramingHdr.size) ∨
      w.session.rhdr.type = MsgHdr.typeHttp ∧ (w.parseRhdr env rbuf).hdr.http.msgHdrs = [] := by
  unfold parseRhdr MsgHdr.initFromBuf at unread quiet ⊢
  by_cases basic : w.session.rhdr.type = MsgHdr.typeBasic
  · rw [if_pos basic] at unread quiet
    unfold MsgHdr.initBasic at unread quiet
    split at unread
    · rename_i short
      rw [if_pos short] at quiet
      rw [length_readMemory] at short
      exact .inl ⟨basic, quiet, short⟩
    · cases unread
  · rw [if_neg basic] at unread quiet ⊢
    by_cases http : w.session.rhdr.type = MsgHdr.typeHttp
    · rw [if_pos http] at unread quiet ⊢
      refine .inr ⟨http, ?_⟩
      unfold MsgHdr.initHttp at unread quiet ⊢
      have empty := @HTTPFraming.initFromBuf_unread
        { stale := rbuf.drop (toSize w.session.rbufLen), defaultPort := MsgHdr.ipcommPortNull
          realloc := env.realloc } (readMemory rbuf (toSize w.session.rbufLen))
        { obj := w.session.rhdr.http, error := w.process.error }
        { msgBody := callocate kDefaultBufSize true, size := kDefaultBufSize }
      generalize HTTPFraming.initFromBuf _ _ _ _ = result at unread quiet empty ⊢
      dsimp only at unread quiet ⊢
      cases given : result.bytesUsed with
      | none =>
          rw [given] at quiet
          dsimp only at quiet ⊢
          refine empty given ?_
          split at quiet
          · rw [Process.appendMsg, ErrorHandler.event_appendMsg] at quiet
            cases quiet
          · exact quiet
      | some used =>
          rw [given] at unread
          cases unread
    · rw [if_neg http] at unread
      cases unread

/-- Whatever is parsed of the body changes something. -/
theorem leavesBody_of_harmless (arriving : Arriving w) (small : w.session.rbufLen < 2 ^ 63)
    (harmless : Harmless w (w.initIncomingMsg env)) : LeavesBody env w := by
  by_cases none_ : w.session.rbufLen = 0
  · exact .inl none_
  obtain ⟨rbuf, some_⟩ := Option.isSome_iff_exists.mp arriving.has
  have typed : w.session.rhdr.type = MsgHdr.typeBasic ∨ w.session.rhdr.type = MsgHdr.typeHttp :=
    arriving.typed.imp_right And.left
  unfold initIncomingMsg at harmless
  rw [some_] at harmless
  dsimp only at harmless
  rw [if_neg none_] at harmless
  cases held : w.session.mutexes.incoming with
  | true =>
      rw [lockIncoming_of_held held] at harmless
      exact absurd harmless.returns (by simp)
  | false =>
      rw [lockIncoming_of_free held] at harmless
      cases calloc : env.calloc with
      | false =>
          rw [calloc] at harmless
          exact absurd harmless.error (init_ne _ _ _ _)
      | true =>
          have same : w.incomingLocked.parseRhdr env rbuf = w.parseRhdr env rbuf := rfl
          simp only [calloc, Bool.not_true, Bool.false_eq_true, ↓reduceIte, same] at harmless
          cases parsed : (w.parseRhdr env rbuf).bytesUsed with
          | some used =>
              rw [parsed] at harmless
              dsimp only at harmless
              refine absurd harmless.rbufLen ?_
              exact rbufLen_accepted none_ small typed parsed arriving.has rfl
          | none =>
              rw [parsed] at harmless
              dsimp only at harmless
              split at harmless
              · -- an error resets the message
                have reset := congrArg MsgInfo.initialized harmless.rpending
                rw [arriving.initialized] at reset
                refine absurd (Eq.trans (Eq.symm (initialized_resetRbuf ?_)) reset) (by decide)
                exact arriving.has
              · rename_i calm
                rcases parseRhdr_unread parsed (by simpa [event] using calm) with
                  ⟨basic, quiet, short⟩ | ⟨http, empty⟩
                · exact .inr ⟨held, calloc, quiet, basic, short⟩
                · -- the header has lost its fields
                  have rhdr : (w.parseRhdr env rbuf).hdr = w.session.rhdr := harmless.rhdr
                  rw [rhdr] at empty
                  rcases arriving.typed with basic | ⟨-, fields⟩
                  · exact absurd (basic.symm.trans http) (by decide)
                  · exact absurd empty fields

end Again

/-! ## Whole runs -/

/-- While a message is received there is a buffer, and the place in the file is not
negative. -/
def Placed (w : World) : Prop :=
  w.session.rpending.initialized = true →
    w.session.rbuf.isSome = true ∧ 0 ≤ w.session.rpending.fileOffset

theorem placed_step (call : Call) (placed : Placed w) : Placed (World.step call w).1 := by
  intro begun
  cases handles_step call w with
  | ends none_ => exact absurd (none_.symm.trans begun) (by simp)
  | begins has start described => exact ⟨has, start.ge⟩
  | keeps same body offset has rhdr =>
      obtain ⟨some_, low⟩ := placed (same ▸ begun)
      refine ⟨has some_, ?_⟩
      rcases offset with later | start
      · exact low.trans later
      · exact start.ge

/-- The header is that of the message that is received. -/
def Described (w : World) : Prop :=
  Placed w ∧ (w.session.rpending.initialized = true →
    w.session.rpending.bodyLen = toSsize w.session.rhdr.bodyLen)

theorem described_step (call : Call) (described : Described w) (sparing : Sparing call w) :
    Described (World.step call w).1 := by
  refine ⟨placed_step call described.1, fun begun => ?_⟩
  cases handles_step call w with
  | ends none_ => exact absurd (none_.symm.trans begun) (by simp)
  | begins has start described => exact described
  | keeps same body offset has rhdr =>
      have before : w.session.rpending.initialized = true := same ▸ begun
      have kept : (World.step call w).1.session.rhdr = w.session.rhdr := by
        rcases rhdr with kept | ⟨env, rfl⟩
        · exact kept
        · exact (harmless_of_leavesBody (described.1 before).1 (sparing env rfl before)).rhdr
      rw [body, kept]
      exact described.2 before

variable {framingType : UInt8} {conn : SSLConn} {process : Process} {calls : List Call}

theorem placed_run (calls : List Call) :
    Placed (Machine.run World.step calls (TCPSession.create framingType conn process)).1 :=
  @Machine.run_preserves _ _ World.step (fun _ _ => True) Placed
    (fun call _ placed _ => placed_step call placed) calls _ (fun begun => nomatch begun)
    (Machine.Along.of_forall (fun _ _ => trivial) calls _)

/-- Called for a message that has begun and is not complete, `InitIncomingMsg` does no harm
if it leaves the body alone. In runs in which it has always done so, there is no other
way. -/
theorem run_harmless_iff
    (begun : (Machine.run World.step calls
      (TCPSession.create framingType conn process)).1.isIncomingMsgInitialized = true)
    (incomplete : (Machine.run World.step calls
      (TCPSession.create framingType conn process)).1.isIncomingMsgComplete = false)
    (env : InitEnv) :
    let start := TCPSession.create framingType conn process
    let w := (Machine.run World.step calls start).1
    (LeavesBody env w → Harmless w (w.initIncomingMsg env)) ∧
      (Machine.Along World.step Sparing calls start → w.session.rbufLen < 2 ^ 63 →
        Harmless w (w.initIncomingMsg env) → LeavesBody env w) := by
  dsimp only
  have placed := @placed_run framingType conn process calls begun
  refine ⟨harmless_of_leavesBody placed.1, fun sparing small harmless => ?_⟩
  have described := @Machine.run_preserves _ _ World.step Sparing Described
    (fun call _ described sparing => described_step call described sparing) calls
    (TCPSession.create framingType conn process) ⟨fun begun => (nomatch begun), fun begun => (nomatch begun)⟩
    sparing
  generalize (Machine.run World.step calls (TCPSession.create framingType conn process)).1 = w at *
  have left : 0 < w.session.rpending.bodyLen := by
    unfold isIncomingMsgComplete at incomplete
    unfold isIncomingMsgInitialized at begun
    simp only [begun, Bool.true_and, Bool.or_eq_false_iff, decide_eq_false_iff_not, not_le]
      at incomplete
    have := placed.2
    omega
  exact leavesBody_of_harmless ⟨begun, placed.1, described.2 begun, left⟩ small harmless

/-- The header of a response has been taken, and some of its body comes. -/
def bodyBegins (body : String) : List Call :=
  [.init true (some []),
    .read { tcp := .received (ascii "HTTP/1.1 200 OK\x0d\nContent-Length: 5\x0d\n\x0d\n") } none,
    .initIncomingMsg {}, .read { tcp := .received (ascii body) } none]

/-- The same with the basic framing: three bytes of the body have come. -/
def basicBodyBegins : List Call :=
  [.init true (some []), .read { tcp := .received (List.replicate 10 0) } none,
    .initIncomingMsg { parameter := [1, 0, 0, 0, 7, 0, 0, 0, 5, 0] },
    .read { tcp := .received (ascii "abc") } none]

/-- Nothing of the body has come, or less than a basic header. -/
theorem run_harmless_iff_sample :
    (let w := (Machine.run World.step (bodyBegins "") (TCPSession.create MsgHdr.typeHttp {} {})).1
     Harmless w (w.initIncomingMsg {})) ∧
    (let w := (Machine.run World.step basicBodyBegins
        (TCPSession.create MsgHdr.typeBasic {} {})).1
     w.session.rbufLen = 3 ∧ Harmless w (w.initIncomingMsg {})) :=
  ⟨(@run_harmless_iff MsgHdr.typeHttp {} {} (bodyBegins "") (by decide +kernel) (by decide +kernel)
      {}).1 (.inl (by decide +kernel)),
    by decide +kernel,
    (@run_harmless_iff MsgHdr.typeBasic {} {} basicBodyBegins (by decide +kernel)
      (by decide +kernel) {}).1 (.inr ⟨by decide +kernel, rfl, by decide +kernel, by decide +kernel,
        by decide +kernel⟩)⟩

/-- The first byte of the body is there, and `rhdr_` loses its fields. -/
theorem rhdr_lost :
    let w := (Machine.run World.step (bodyBegins "h") (TCPSession.create MsgHdr.typeHttp {} {})).1
    w.isIncomingMsgInitialized = true ∧ w.isIncomingMsgComplete = false ∧
      w.session.rhdr.bodyLen = 5 ∧ (w.initIncomingMsg {}).1.session.rhdr.bodyLen = 0 ∧
      ¬ Harmless w (w.initIncomingMsg {}) := by
  refine ⟨by decide +kernel, by decide +kernel, by decide +kernel, by decide +kernel,
    fun harmless => ?_⟩
  exact absurd (congrArg MsgHdr.bodyLen harmless.rhdr) (by decide +kernel)

end World

end IpUtils
