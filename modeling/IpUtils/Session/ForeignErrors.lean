import IpUtils.HTTP.Pending
import IpUtils.Session.Alike

/-! # Errors of other sessions

The error that `error.Event()` tells of is global. A call that is made while an event of
another session is pending is compared with the same call without one: which of its
branches test the event, and what is lost there.
-/

namespace IpUtils

open CLib

/-! ## The connection -/

namespace SSLConn

variable (reply : SSLReply) (conn : SSLConn) (error : ErrorHandler)

/-- An error that is pending changes neither the connection nor whether one is raised. -/
theorem shutdown_pending (reply : ShutdownReply) :
    (conn.shutdown reply error).1 = (conn.shutdown reply {}).1 ∧
      (conn.shutdown reply error).2.event = (error.event || (conn.shutdown reply {}).2.event) := by
  have calm : ({} : ErrorHandler).event = false := rfl
  unfold shutdown
  dsimp only
  split_ifs <;> simp [calm]

theorem settle_pending (texts : Texts) :
    (settle texts reply conn error).conn = (settle texts reply conn {}).conn ∧
      (settle texts reply conn error).eof = (settle texts reply conn {}).eof ∧
      (settle texts reply conn error).error.event =
        (error.event || (settle texts reply conn {}).error.event) := by
  have calm : ({} : ErrorHandler).event = false := rfl
  obtain ⟨closed, raised⟩ := shutdown_pending conn error reply.shutdown
  unfold settle settleZero settleNegative
  cases reply.code <;> dsimp only <;> split_ifs <;> simp [calm, closed, raised]

theorem read_pending (bufLen : Int) (reply : NetRead) :
    (conn.read bufLen reply error).data = (conn.read bufLen reply {}).data ∧
      (conn.read bufLen reply error).value = (conn.read bufLen reply {}).value ∧
      (conn.read bufLen reply error).eof = (conn.read bufLen reply {}).eof ∧
      (conn.read bufLen reply error).conn = (conn.read bufLen reply {}).conn ∧
      (conn.read bufLen reply error).error.event =
        (error.event || (conn.read bufLen reply {}).error.event) := by
  have calm : ({} : ErrorHandler).event = false := rfl
  obtain ⟨same, ended, raised⟩ := settle_pending reply.tls conn error readTexts
  unfold read
  split_ifs
  · exact ⟨rfl, rfl, ended, same, raised⟩
  · unfold TCPConn.read
    cases reply.tcp with
    | received bytes => simp [calm]
    | failed again reason => dsimp only; split_ifs <;> simp [calm]

theorem writeLoop_pending (sent left : Bytes) (replies : List WriteReply) :
    (TCPConn.writeLoop conn error sent left replies).data =
        (TCPConn.writeLoop conn {} sent left replies).data ∧
      (TCPConn.writeLoop conn error sent left replies).value =
        (TCPConn.writeLoop conn {} sent left replies).value ∧
      (TCPConn.writeLoop conn error sent left replies).conn =
        (TCPConn.writeLoop conn {} sent left replies).conn ∧
      (TCPConn.writeLoop conn error sent left replies).error.event =
        (error.event || (TCPConn.writeLoop conn {} sent left replies).error.event) := by
  have calm : ({} : ErrorHandler).event = false := rfl
  induction replies generalizing sent left with
  | nil => simp [TCPConn.writeLoop, calm]
  | cons reply replies ih =>
      cases reply with
      | failed again reason =>
          simp only [TCPConn.writeLoop]
          split_ifs <;> simp [calm]
      | accepted count =>
          simp only [TCPConn.writeLoop]
          split_ifs
          · simp [calm]
          · exact ih _ _

theorem write_pending (buf : Bytes) (bufLen : Int) (reply : NetWrite) :
    (conn.write buf bufLen reply error).data = (conn.write buf bufLen reply {}).data ∧
      (conn.write buf bufLen reply error).value = (conn.write buf bufLen reply {}).value ∧
      (conn.write buf bufLen reply error).conn = (conn.write buf bufLen reply {}).conn ∧
      (conn.write buf bufLen reply error).error.event =
        (error.event || (conn.write buf bufLen reply {}).error.event) := by
  have calm : ({} : ErrorHandler).event = false := rfl
  obtain ⟨same, _, raised⟩ := settle_pending reply.tls conn error writeTexts
  unfold write
  split_ifs
  · simp [calm]
  · exact ⟨rfl, rfl, same, raised⟩
  · exact writeLoop_pending conn error [] buf reply.tcp

end SSLConn

namespace World

variable {α : Type}

/-- The buffers of a session, its descriptions of messages and the header it has parsed. -/
structure Holdings where
  rbuf : Option Bytes
  rbufSize : Int
  rbufLen : Int
  rhdr : MsgHdr
  rpending : MsgInfo
  wbuf : Option Bytes
  wbufSize : Int
  wbufLen : Int
  wpending : List MsgInfo
  deriving DecidableEq, Repr

def holdings (w : World) : Holdings :=
  { rbuf := w.session.rbuf, rbufSize := w.session.rbufSize, rbufLen := w.session.rbufLen
    rhdr := w.session.rhdr, rpending := w.session.rpending, wbuf := w.session.wbuf
    wbufSize := w.session.wbufSize, wbufLen := w.session.wbufLen
    wpending := w.session.wpending }

/-- What a caller gets from a call, and what the session holds behind it. -/
def seen (outcome : Outcome α) : Holdings × Option α :=
  (outcome.1.holdings, outcome.2)

/-- The same world with another error pending. -/
def withError (error : ErrorHandler) (w : World) : World :=
  w.onProcess fun process => { process with error }

variable {w : World} {error : ErrorHandler}

theorem withError_alike (error : ErrorHandler) (w : World) : (w.withError error).Alike w :=
  ⟨rfl, ⟨error, w.process.overrun, rfl⟩, rfl⟩

/-- What is seen of the same outcome is the same. -/
theorem SameOutcome.seen {outcome₁ outcome₂ : Outcome α} (same : SameOutcome outcome₁ outcome₂) :
    seen outcome₁ = World.seen outcome₂ := by
  unfold World.seen holdings
  rw [same.world.session, same.value]

theorem event_withError (error : ErrorHandler) (w : World) :
    (w.withError error).event = error.event := rfl

theorem seen_returnIncoming (value : α) (w : World) :
    seen (w.returnIncoming value) = (w.holdings, some value) := rfl

theorem seen_returnOutgoing (value : α) (w : World) :
    seen (w.returnOutgoing value) = (w.holdings, some value) := rfl

theorem holdings_resetRbuf (has : w.session.rbuf.isSome = true) :
    w.resetRbuf.holdings =
      { w.holdings with rbufLen := 0, rhdr := w.session.rhdr.clear, rpending := {} } := by
  unfold resetRbuf
  rw [if_neg (by simpa [Option.isSome_iff_ne_none] using has)]
  rfl

theorem holdings_resetWbuf (has : w.session.wbuf.isSome = true) :
    w.resetWbuf.holdings = { w.holdings with wbufLen := 0, wpending := [] } := by
  unfold resetWbuf
  rw [if_neg (by simpa [Option.isSome_iff_ne_none] using has)]
  rfl

/-! ## Read -/

/-- The answer of the connection when no error is pending. -/
def received (reply : SSLConn.NetRead) (w : World) : Received :=
  w.session.conn.read (w.session.rbufSize - w.session.rbufLen) reply {}

/-- The calls of `Read` that a pending error does not change: it is refused, it never
returns, it fails by itself, or there is nothing in the session, its header included, and
nothing arrives. -/
def ReadSpared (reply : SSLConn.NetRead) (fresh : Option Bytes) (w : World) : Prop :=
  w.session.rbuf = none ∨ w.session.mutexes.incoming = true ∨
    (w.received reply).error.event = true ∨
    (w.session.rbufLen + (w.received reply).value = w.session.rbufSize ∧ fresh = none) ∨
    ((w.received reply).value = 0 ∧ w.session.rbufLen = 0 ∧ w.session.rbufSize ≠ 0 ∧
      w.session.rhdr = w.session.rhdr.clear ∧ w.session.rpending = {})

section Read

variable {rbuf : Bytes} {reply : SSLConn.NetRead} {fresh : Option Bytes}

/-- The world behind the answer of the connection. -/
def answered (rbuf : Bytes) (reply : SSLConn.NetRead) (w : World) : World :=
  w.incomingLocked.onSession fun session =>
    { session with
      conn := (w.received reply).conn
      rbuf := some (storeAt rbuf w.session.rbufLen (w.received reply).data) }

/-- A call of `Read` up to its test of the event. -/
theorem read_tests (has : w.session.rbuf = some rbuf) (free : w.session.mutexes.incoming = false)
    (fresh : Option Bytes) :
    ∃ w₁ : World, w₁.Alike (w.answered rbuf reply) ∧
      w₁.event = (w.event || (w.received reply).error.event) ∧
      (w₁.event = true → ∃ args, w.read reply fresh =
        (w₁.onProcess (Process.appendMsg
          ("TCPSession::Read(): rbuf_ %p, rbuf_len_ %ld, rbuf_size_ %ld, eof %d: " ++
            "clearing rbuf_: ") args)).resetRbuf.returnIncoming (0, (w.received reply).eof)) ∧
      (w₁.event = false → w.read reply fresh =
        w₁.keepReceived (storeAt rbuf w.session.rbufLen (w.received reply).data) fresh
          (w.received reply).value (w.received reply).eof) := by
  obtain ⟨data, value, ended, conn, raised⟩ := SSLConn.read_pending w.session.conn w.process.error
    (w.session.rbufSize - w.session.rbufLen) reply
  unfold read
  rw [has]
  dsimp only
  rw [lockIncoming_of_free free]
  have here : w.incomingLocked.session.conn.read
      (w.incomingLocked.session.rbufSize - w.incomingLocked.session.rbufLen) reply
        w.incomingLocked.process.error =
      w.session.conn.read (w.session.rbufSize - w.session.rbufLen) reply w.process.error := rfl
  rw [here]
  generalize w.session.conn.read (w.session.rbufSize - w.session.rbufLen) reply
    w.process.error = answer at data value ended conn raised
  refine ⟨{ w.incomingLocked with
    session := { w.incomingLocked.session with
      conn := answer.conn, rbuf := some (storeAt rbuf w.session.rbufLen answer.data) }
    process := { w.process with error := answer.error }.checked
      (inside rbuf w.session.rbufLen answer.data.length) }, ?_, ?_, fun event => ?_, fun calm => ?_⟩
  · unfold answered received
    rw [← data, ← conn]
    exact ⟨rfl, ⟨answer.error, _, rfl⟩, rfl⟩
  · exact raised
  · rw [if_pos (by exact event)]
    unfold received
    rw [← ended]
    exact ⟨_, rfl⟩
  · rw [if_neg (by rw [Bool.not_eq_true]; exact calm)]
    unfold received
    rw [← data, ← value, ← ended]
    rfl

/-- What a failing call of `Read` comes to. -/
def dropped (rbuf : Bytes) (reply : SSLConn.NetRead) (w : World) : Outcome (Int × Bool) :=
  (w.answered rbuf reply).resetRbuf.returnIncoming (0, (w.received reply).eof)

/-- What a call of `Read` comes to when there is room for what has arrived. -/
def kept (rbuf : Bytes) (reply : SSLConn.NetRead) (w : World) : Outcome (Int × Bool) :=
  ((w.answered rbuf reply).onSession fun session =>
    { session with rbufLen := session.rbufLen + (w.received reply).value }).returnIncoming
      ((w.received reply).value, (w.received reply).eof)

theorem seen_dropped (rbuf : Bytes) (reply : SSLConn.NetRead) (w : World) :
    seen (w.dropped rbuf reply) =
      ({ w.holdings with
        rbuf := some (storeAt rbuf w.session.rbufLen (w.received reply).data)
        rbufLen := 0
        rhdr := w.session.rhdr.clear
        rpending := {} }, some (0, (w.received reply).eof)) := by
  unfold dropped
  rw [seen_returnIncoming, holdings_resetRbuf rfl]
  rfl

/-- The error that makes a call fail is not among what it leaves. -/
theorem dropped_withError (error : ErrorHandler) (rbuf : Bytes) (reply : SSLConn.NetRead)
    (w : World) : SameOutcome ((w.withError error).dropped rbuf reply) (w.dropped rbuf reply) :=
  (((withError_alike error w).incomingLocked.onSession _).resetRbuf).returnIncoming _

theorem read_fails (has : w.session.rbuf = some rbuf) (free : w.session.mutexes.incoming = false)
    (raised : (w.event || (w.received reply).error.event) = true) :
    SameOutcome (w.read reply fresh) (w.dropped rbuf reply) := by
  obtain ⟨w₁, alike, tests, fails, -⟩ := @read_tests w rbuf reply has free fresh
  obtain ⟨args, failed⟩ := fails (tests.trans raised)
  rw [failed]
  exact ((Alike.of_appendMsg _ args w₁).trans alike).resetRbuf.returnIncoming _

theorem read_noRoom (has : w.session.rbuf = some rbuf) (free : w.session.mutexes.incoming = false)
    (calm : (w.event || (w.received reply).error.event) = false)
    (full : w.session.rbufLen + (w.received reply).value = w.session.rbufSize) :
    SameOutcome (w.read reply none) (w.dropped rbuf reply) := by
  obtain ⟨w₁, alike, tests, -, keeps⟩ := @read_tests w rbuf reply has free none
  rw [keeps (tests.trans calm)]
  unfold keepReceived
  dsimp only [onSession]
  rw [if_pos (by rw [alike.session]; exact full)]
  refine Alike.returnIncoming ?_ _
  refine ((Alike.of_raise ..).resetRbuf).trans ?_
  have forgets := @resetRbuf_forgets w₁ (by rw [alike.session]; rfl)
    (w₁.session.rbufLen + (w.received reply).value) w₁.session.rhdr
  exact forgets ▸ alike.resetRbuf

/-- The buffer has been filled and made larger. -/
theorem seen_read_grows (has : w.session.rbuf = some rbuf)
    (free : w.session.mutexes.incoming = false)
    (calm : (w.event || (w.received reply).error.event) = false)
    (full : w.session.rbufLen + (w.received reply).value = w.session.rbufSize)
    (memory : fresh ≠ none) :
    (seen (w.read reply fresh)).1.rbufSize = w.session.rbufSize + kDefaultBufSize := by
  obtain ⟨w₁, alike, tests, -, keeps⟩ := @read_tests w rbuf reply has free fresh
  obtain ⟨bytes, rfl⟩ := Option.ne_none_iff_exists'.mp memory
  rw [keeps (tests.trans calm)]
  unfold keepReceived
  dsimp only [onSession]
  rw [if_pos (by rw [alike.session]; exact full)]
  change w₁.session.rbufSize + kDefaultBufSize = _
  rw [alike.session]
  rfl

theorem read_room (has : w.session.rbuf = some rbuf) (free : w.session.mutexes.incoming = false)
    (calm : (w.event || (w.received reply).error.event) = false)
    (room : w.session.rbufLen + (w.received reply).value ≠ w.session.rbufSize) :
    SameOutcome (w.read reply fresh) (w.kept rbuf reply) := by
  obtain ⟨w₁, alike, tests, -, keeps⟩ := @read_tests w rbuf reply has free fresh
  rw [keeps (tests.trans calm)]
  unfold keepReceived
  dsimp only [onSession]
  rw [if_neg (by rw [alike.session]; exact room)]
  exact (alike.onSession fun session =>
    { session with rbufLen := session.rbufLen + (w.received reply).value }).returnIncoming _

/-- Nothing is lost when there is nothing. -/
theorem dropped_of_nothing (rbuf : Bytes) (nothing : (w.received reply).value = 0)
    (empty : w.session.rbufLen = 0) (rhdr : w.session.rhdr = w.session.rhdr.clear)
    (rpending : w.session.rpending = {}) :
    SameOutcome (w.dropped rbuf reply) (w.kept rbuf reply) := by
  unfold dropped kept
  rw [nothing]
  have memory : ¬ (w.answered rbuf reply).session.rpending.storage = sessionUseDisc := by
    change ¬ w.session.rpending.storage = sessionUseDisc
    rw [rpending]
    decide
  refine Alike.returnIncoming ⟨?_, ?_, ?_⟩ _
  · unfold resetRbuf
    rw [if_neg (by exact Bool.false_ne_true), if_neg memory]
    unfold answered onSession incomingLocked
    dsimp only [onSession]
    rw [← rhdr, rpending, empty]
    rfl
  · unfold resetRbuf
    rw [if_neg (by exact Bool.false_ne_true), if_neg memory]
    exact .refl _
  · unfold resetRbuf
    rw [if_neg (by exact Bool.false_ne_true), if_neg memory]
    rfl

/-- A spared call leaves the same. -/
theorem read_same (calm : w.event = false) (pending : error.event = true)
    (spared : w.ReadSpared reply fresh) :
    SameOutcome ((w.withError error).read reply fresh) (w.read reply fresh) := by
  have alike := withError_alike error w
  cases has : w.session.rbuf with
  | none =>
      unfold read
      rw [show (w.withError error).session.rbuf = none from has, has]
      exact ⟨alike.refuse _, rfl⟩
  | some rbuf =>
  cases free : w.session.mutexes.incoming with
  | true =>
      unfold read
      rw [show (w.withError error).session.rbuf = some rbuf from has, has]
      dsimp only
      rw [lockIncoming_of_held (by exact free), lockIncoming_of_held (by exact free)]
      exact ⟨alike.incomingLocked, rfl⟩
  | false =>
  have fails : SameOutcome ((w.withError error).read reply fresh) (w.dropped rbuf reply) :=
    (read_fails (w := w.withError error) has free (by
      rw [event_withError, pending, Bool.true_or])).trans (dropped_withError error rbuf reply w)
  refine fails.trans (SameOutcome.symm ?_)
  by_cases raised : (w.received reply).error.event = true
  · exact read_fails has free (by rw [raised, Bool.or_true])
  have quiet : (w.event || (w.received reply).error.event) = false := by
    rw [calm, Bool.false_or]
    exact Bool.not_eq_true _ ▸ raised
  rcases spared with none_ | held | raises | ⟨full, rfl⟩ | ⟨nothing, empty, size, rhdr, rpending⟩
  · rw [has] at none_
    cases none_
  · rw [free] at held
    cases held
  · exact absurd raises raised
  · exact read_noRoom has free quiet full
  · exact (read_room has free quiet (by omega)).trans
      (dropped_of_nothing rbuf nothing empty rhdr rpending).symm

/-- A pending error changes what `Read` does unless the call is spared. -/
theorem read_spared_iff (calm : w.event = false) (pending : error.event = true)
    (reply : SSLConn.NetRead) (fresh : Option Bytes) :
    seen ((w.withError error).read reply fresh) = seen (w.read reply fresh) ↔
      w.ReadSpared reply fresh := by
  refine ⟨fun same => ?_, fun spared => (read_same calm pending spared).seen⟩
  unfold ReadSpared
  cases has : w.session.rbuf with
  | none => exact Or.inl rfl
  | some rbuf =>
  cases free : w.session.mutexes.incoming with
  | true => exact Or.inr (Or.inl rfl)
  | false =>
  by_cases raised : (w.received reply).error.event = true
  · exact Or.inr (Or.inr (Or.inl raised))
  have quiet : (w.event || (w.received reply).error.event) = false := by
    rw [calm, Bool.false_or]
    exact Bool.not_eq_true _ ▸ raised
  have fails : SameOutcome ((w.withError error).read reply fresh) (w.dropped rbuf reply) :=
    (read_fails (w := w.withError error) has free (by
      rw [event_withError, pending, Bool.true_or])).trans (dropped_withError error rbuf reply w)
  rw [fails.seen, seen_dropped] at same
  by_cases full : w.session.rbufLen + (w.received reply).value = w.session.rbufSize
  · by_cases memory : fresh = none
    · exact Or.inr (Or.inr (Or.inr (Or.inl ⟨full, memory⟩)))
    · have grown := seen_read_grows has free quiet full memory
      rw [← same] at grown
      have size : w.session.rbufSize = w.session.rbufSize + kDefaultBufSize := grown
      have positive : (0 : Int) < kDefaultBufSize := by decide
      omega
  · rw [(read_room has free quiet full).seen] at same
    have rbufLen : 0 = w.session.rbufLen + (w.received reply).value :=
      congrArg (fun result => result.1.rbufLen) same
    have value : some ((0 : Int), (w.received reply).eof) =
        some ((w.received reply).value, (w.received reply).eof) := congrArg Prod.snd same
    have rpending : ({} : MsgInfo) = w.session.rpending :=
      congrArg (fun result => result.1.rpending) same
    have rhdr : w.session.rhdr.clear = w.session.rhdr :=
      congrArg (fun result => result.1.rhdr) same
    simp only [Option.some.injEq, Prod.mk.injEq, and_true] at value
    exact Or.inr (Or.inr (Or.inr (Or.inr
      ⟨value.symm, by omega, by omega, rhdr.symm, rpending.symm⟩)))

end Read

/-! ## InitIncomingMsg -/

/-- The calls of `InitIncomingMsg` that a pending error does not change: it is refused, has
nothing to parse or never returns, `calloc` fails, a basic header is complete, or the parser
raises an error by itself. -/
def InitSpared (env : InitEnv) (w : World) : Prop :=
  w.session.rbufLen = 0 ∨ w.session.mutexes.incoming = true ∨ env.calloc = false ∨
    ∀ rbuf, w.session.rbuf = some rbuf →
      (w.session.rhdr.type = MsgHdr.typeBasic ∧
          BasicFramingHdr.size ≤ toSize w.session.rbufLen) ∨
        (w.parseRhdr env rbuf).process.error.event = true

section Init

variable {env : InitEnv} {rbuf : Bytes}

/-- The world with what the parser has left in it. -/
def afterParse (outcome : MsgHdr.ParseOutcome) (w : World) : World :=
  { w with session := { w.session with rhdr := outcome.hdr }, process := outcome.process }

/-- A call that has parsed, and accepted nothing. -/
theorem seen_init_refuses (has : w.session.rbuf = some rbuf) (bytes : w.session.rbufLen ≠ 0)
    (free : w.session.mutexes.incoming = false) (success : env.calloc = true)
    (refused : (w.parseRhdr env rbuf).bytesUsed = none) :
    seen (w.initIncomingMsg env) =
      if (w.parseRhdr env rbuf).process.error.event then
        ({ w.holdings with rbufLen := 0, rhdr := w.session.rhdr.clear, rpending := {} }, some false)
      else ({ w.holdings with rhdr := (w.parseRhdr env rbuf).hdr }, some false) := by
  have parsed : w.incomingLocked.parseRhdr env rbuf = w.parseRhdr env rbuf := rfl
  unfold initIncomingMsg
  rw [has]
  dsimp only
  rw [if_neg bytes, lockIncoming_of_free free, success, parsed, refused]
  simp only [Bool.not_true, Bool.false_eq_true, ↓reduceIte]
  rw [apply_ite seen, seen_returnIncoming, seen_returnIncoming,
    holdings_resetRbuf (by exact Option.isSome_of_eq_some has)]
  rfl

/-- A call that has parsed, and accepted. -/
theorem initIncomingMsg_of_accepted (has : w.session.rbuf = some rbuf)
    (bytes : w.session.rbufLen ≠ 0) (free : w.session.mutexes.incoming = false)
    (success : env.calloc = true) {used : Nat}
    (accepted : (w.parseRhdr env rbuf).bytesUsed = some used) :
    w.initIncomingMsg env =
      ((w.incomingLocked.afterParse (w.parseRhdr env rbuf)).takeHeader rbuf used
        (w.parseRhdr env rbuf).chunked).returnIncoming true := by
  have parsed : w.incomingLocked.parseRhdr env rbuf = w.parseRhdr env rbuf := rfl
  unfold initIncomingMsg
  rw [has]
  dsimp only
  rw [if_neg bytes, lockIncoming_of_free free, success, parsed, accepted]
  dsimp only
  rw [if_neg (by simp)]
  rfl

/-- Without a decoded body, a header is taken out of `rbuf_` without a look at the error. -/
theorem Alike.takeHeader {w₁ w₂ : World} (alike : w₁.Alike w₂) {chunked : ChunkBuf}
    (blank : cstr (chunked.msgBody.getD []) = []) (rbuf : Bytes) (used : Nat) :
    (w₁.takeHeader rbuf used chunked).Alike (w₂.takeHeader rbuf used chunked) := by
  unfold World.takeHeader
  rw [blank]
  simp only [List.length_nil, lt_self_iff_false, ↓reduceIte]
  exact (alike.shiftRbuf ..).onSession _

theorem cstr_callocate : cstr ((callocate kDefaultBufSize true).getD []) = [] := rfl

/-- With an event pending no HTTP header is accepted. -/
theorem parseRhdr_pending (http : w.session.rhdr.type = MsgHdr.typeHttp)
    (pending : w.event = true) (env : InitEnv) (rbuf : Bytes) :
    (w.parseRhdr env rbuf).bytesUsed = none ∧
      (w.parseRhdr env rbuf).process.error.event = true := by
  unfold parseRhdr MsgHdr.initFromBuf
  rw [if_neg (by rw [http]; decide), if_pos http]
  unfold MsgHdr.initHttp
  dsimp only
  obtain ⟨refused, event⟩ := @HTTPFraming.initFromBuf_pending
    { obj := w.session.rhdr.http, error := w.process.error } pending
    { stale := rbuf.drop (toSize w.session.rbufLen), defaultPort := MsgHdr.ipcommPortNull
      realloc := env.realloc }
    (readMemory rbuf (toSize w.session.rbufLen))
    { msgBody := callocate kDefaultBufSize true, size := kDefaultBufSize }
  rw [refused]
  dsimp only
  rw [if_pos event]
  exact ⟨rfl, ErrorHandler.event_appendMsg ..⟩

/-- An error that is raised while an HTTP header is parsed makes the parser refuse it. -/
theorem parseRhdr_of_event (http : w.session.rhdr.type = MsgHdr.typeHttp) {env : InitEnv}
    {rbuf : Bytes} (raised : (w.parseRhdr env rbuf).process.error.event = true) :
    (w.parseRhdr env rbuf).bytesUsed = none := by
  unfold parseRhdr MsgHdr.initFromBuf at raised ⊢
  rw [if_neg (by rw [http]; decide), if_pos http] at raised ⊢
  unfold MsgHdr.initHttp at raised ⊢
  dsimp only at raised ⊢
  split
  · rfl
  · rename_i used accepted
    rw [accepted] at raised
    dsimp only at raised
    have refused := HTTPFraming.initFromBuf_of_event raised
    rw [accepted] at refused
    cases refused

/-- A header that is accepted whatever error is pending. -/
theorem init_accepted_same (has : w.session.rbuf = some rbuf) (bytes : w.session.rbufLen ≠ 0)
    (free : w.session.mutexes.incoming = false) (success : env.calloc = true) {used : Nat}
    (accepted : (w.parseRhdr env rbuf).bytesUsed = some used)
    (accepted' : ((w.withError error).parseRhdr env rbuf).bytesUsed = some used)
    (hdr : ((w.withError error).parseRhdr env rbuf).hdr = (w.parseRhdr env rbuf).hdr)
    (chunked : ((w.withError error).parseRhdr env rbuf).chunked = (w.parseRhdr env rbuf).chunked)
    (process : ((w.withError error).parseRhdr env rbuf).process.Alike
      (w.parseRhdr env rbuf).process)
    (blank : cstr ((w.parseRhdr env rbuf).chunked.msgBody.getD []) = []) :
    SameOutcome ((w.withError error).initIncomingMsg env) (w.initIncomingMsg env) := by
  rw [initIncomingMsg_of_accepted has bytes free success accepted,
    @initIncomingMsg_of_accepted (w.withError error) env rbuf has bytes free success used accepted',
    chunked]
  refine Alike.returnIncoming (Alike.takeHeader ?_ blank rbuf used) _
  refine ⟨?_, process, rfl⟩
  unfold afterParse
  rw [hdr]
  rfl

/-- What a call that is refused with an event comes to. -/
theorem init_refused_same (has : w.session.rbuf = some rbuf) (bytes : w.session.rbufLen ≠ 0)
    (free : w.session.mutexes.incoming = false) (success : env.calloc = true)
    (http : w.session.rhdr.type = MsgHdr.typeHttp)
    (refused : (w.parseRhdr env rbuf).bytesUsed = none)
    (raised : (w.parseRhdr env rbuf).process.error.event = true) :
    SameOutcome (w.initIncomingMsg env)
      (w.incomingLocked.resetRbuf.returnIncoming false) := by
  have parsed : w.incomingLocked.parseRhdr env rbuf = w.parseRhdr env rbuf := rfl
  have process : (w.parseRhdr env rbuf).process.Alike w.process := by
    unfold parseRhdr MsgHdr.initFromBuf at refused ⊢
    rw [if_neg (by rw [http]; decide), if_pos http] at refused ⊢
    unfold MsgHdr.initHttp at refused ⊢
    dsimp only at refused ⊢
    split at refused
    · dsimp only
      split_ifs <;> exact ⟨_, _, rfl⟩
    · cases refused
  unfold initIncomingMsg
  rw [has]
  dsimp only
  rw [if_neg bytes, lockIncoming_of_free free, success, parsed, refused]
  dsimp only
  rw [if_neg (by simp), if_pos (by exact raised)]
  refine Alike.returnIncoming ?_ _
  have forgets := @resetRbuf_forgets w.incomingLocked (by exact Option.isSome_of_eq_some has)
    w.session.rbufLen (w.parseRhdr env rbuf).hdr
  rw [← forgets]
  refine ((Alike.of_appendMsg ..).trans ?_).resetRbuf
  exact ⟨rfl, process, rfl⟩

/-- A framing that is not known raises an error, and what is there is taken for a header. -/
theorem parseRhdr_unknown (basic : ¬ w.session.rhdr.type = MsgHdr.typeBasic)
    (http : ¬ w.session.rhdr.type = MsgHdr.typeHttp) (env : InitEnv) (rbuf : Bytes) :
    (w.parseRhdr env rbuf).bytesUsed = some 0 ∧ (w.parseRhdr env rbuf).hdr = w.session.rhdr ∧
      (w.parseRhdr env rbuf).process.error.event = true ∧
      (w.parseRhdr env rbuf).process.Alike w.process ∧
      (w.parseRhdr env rbuf).chunked =
        { msgBody := callocate kDefaultBufSize true, size := kDefaultBufSize } := by
  unfold parseRhdr MsgHdr.initFromBuf
  rw [if_neg basic, if_neg http]
  exact ⟨rfl, rfl, Process.event_raise .., ⟨_, w.process.overrun, rfl⟩, rfl⟩

/-- A basic header raises nothing: the ten bytes are there, or they are not. -/
theorem parseRhdr_basic (basic : w.session.rhdr.type = MsgHdr.typeBasic) (env : InitEnv)
    (rbuf : Bytes) :
    w.parseRhdr env rbuf =
      let chunked : ChunkBuf := { msgBody := callocate kDefaultBufSize true, size := kDefaultBufSize }
      if toSize w.session.rbufLen < BasicFramingHdr.size then
        { bytesUsed := none, hdr := w.session.rhdr, process := w.process, chunked }
      else
        let basic := BasicFramingHdr.ofBytes (readMemory env.parameter BasicFramingHdr.size)
        { bytesUsed := some BasicFramingHdr.size
          hdr := { w.session.rhdr with basic, msgId := basic.msgId }
          process := w.process, chunked } := by
  unfold parseRhdr MsgHdr.initFromBuf
  rw [if_pos basic]
  unfold MsgHdr.initBasic
  rw [length_readMemory]

/-- A basic header that is complete is taken without a look at the error. -/
theorem init_same_basic (error : ErrorHandler) (has : w.session.rbuf = some rbuf)
    (bytes : w.session.rbufLen ≠ 0) (free : w.session.mutexes.incoming = false)
    (success : env.calloc = true) (basic : w.session.rhdr.type = MsgHdr.typeBasic)
    (long : ¬ toSize w.session.rbufLen < BasicFramingHdr.size) :
    SameOutcome ((w.withError error).initIncomingMsg env) (w.initIncomingMsg env) := by
  have here := parseRhdr_basic basic env rbuf
  have there := @parseRhdr_basic (w.withError error) basic env rbuf
  rw [if_neg long] at here
  rw [if_neg (by exact long)] at there
  refine @init_accepted_same w error env rbuf has bytes free success BasicFramingHdr.size
    ?_ ?_ ?_ ?_ ?_ ?_
  all_goals simp only [here, there]
  · rfl
  · exact (withError_alike error w).process
  · exact cstr_callocate

/-- Without a type of framing nothing is parsed, and an error is raised whether there is one or
not. -/
theorem init_same_unknown (error : ErrorHandler) (has : w.session.rbuf = some rbuf)
    (bytes : w.session.rbufLen ≠ 0) (free : w.session.mutexes.incoming = false)
    (success : env.calloc = true) (basic : w.session.rhdr.type ≠ MsgHdr.typeBasic)
    (http : w.session.rhdr.type ≠ MsgHdr.typeHttp) :
    SameOutcome ((w.withError error).initIncomingMsg env) (w.initIncomingMsg env) := by
  obtain ⟨accepted, hdr, -, process, chunked⟩ := parseRhdr_unknown basic http env rbuf
  obtain ⟨accepted', hdr', -, process', chunked'⟩ :=
    @parseRhdr_unknown (w.withError error) basic http env rbuf
  refine init_accepted_same has bytes free success accepted accepted' (hdr'.trans hdr.symm)
    (chunked'.trans chunked.symm)
    ((process'.trans (withError_alike error w).process).trans process.symm) ?_
  rw [chunked]
  exact cstr_callocate

/-- A spared call leaves the same. -/
theorem init_same (calm : w.event = false) (pending : error.event = true) (spared : w.InitSpared env) :
    SameOutcome ((w.withError error).initIncomingMsg env) (w.initIncomingMsg env) := by
  have alike := withError_alike error w
  cases has : w.session.rbuf with
  | none =>
      unfold initIncomingMsg
      rw [show (w.withError error).session.rbuf = none from has, has]
      exact ⟨alike.refuse _, rfl⟩
  | some rbuf =>
  have has' : (w.withError error).session.rbuf = some rbuf := has
  by_cases bytes : w.session.rbufLen = 0
  · unfold initIncomingMsg
    rw [has', has]
    dsimp only
    rw [if_pos bytes, if_pos (by exact bytes)]
    exact ⟨alike, rfl⟩
  cases free : w.session.mutexes.incoming with
  | true =>
      unfold initIncomingMsg
      rw [has', has]
      dsimp only
      rw [if_neg bytes, if_neg (by exact bytes), lockIncoming_of_held (by exact free),
        lockIncoming_of_held (by exact free)]
      exact ⟨alike.incomingLocked, rfl⟩
  | false =>
  cases success : env.calloc with
  | false =>
      unfold initIncomingMsg
      rw [has', has]
      dsimp only
      rw [if_neg bytes, if_neg (by exact bytes), lockIncoming_of_free (by exact free),
        lockIncoming_of_free (by exact free), success]
      exact ⟨alike.incomingLocked.raise .., rfl⟩
  | true =>
  rcases spared with none_ | held | fails | parses
  · exact absurd none_ bytes
  · rw [free] at held
    cases held
  · rw [success] at fails
    cases fails
  by_cases basic : w.session.rhdr.type = MsgHdr.typeBasic
  · refine init_same_basic error has bytes free success basic fun short => ?_
    rcases parses rbuf has with ⟨-, long⟩ | raised
    · omega
    · rw [parseRhdr_basic basic env rbuf, if_pos short] at raised
      exact Bool.false_ne_true (calm.symm.trans raised)
  by_cases http : w.session.rhdr.type = MsgHdr.typeHttp
  · obtain ⟨refused, event⟩ := @parseRhdr_pending (w.withError error) http pending env rbuf
    have raised : (w.parseRhdr env rbuf).process.error.event = true :=
      (parses rbuf has).resolve_left fun complete => basic complete.1
    refine (@init_refused_same (w.withError error) env rbuf has' bytes free success http refused
      event).trans (SameOutcome.trans ?_
        (init_refused_same has bytes free success http (parseRhdr_of_event http raised) raised).symm)
    exact alike.incomingLocked.resetRbuf.returnIncoming _
  · exact init_same_unknown error has bytes free success basic http

/-- A pending error changes what `InitIncomingMsg` does unless the call is spared. -/
theorem init_spared_iff (calm : w.event = false) (pending : error.event = true) (env : InitEnv) :
    seen ((w.withError error).initIncomingMsg env) = seen (w.initIncomingMsg env) ↔
      w.InitSpared env := by
  refine ⟨fun same => ?_, fun spared => (init_same calm pending spared).seen⟩
  unfold InitSpared
  by_cases bytes : w.session.rbufLen = 0
  · exact Or.inl bytes
  cases free : w.session.mutexes.incoming with
  | true => exact Or.inr (Or.inl rfl)
  | false =>
  cases success : env.calloc with
  | false => exact Or.inr (Or.inr (Or.inl rfl))
  | true =>
  refine Or.inr (Or.inr (Or.inr fun rbuf has => ?_))
  by_contra not
  obtain ⟨incomplete, quiet⟩ := not_or.mp not
  -- with an event pending the bytes are refused and dropped
  obtain ⟨refused, event⟩ : ((w.withError error).parseRhdr env rbuf).bytesUsed = none ∧
      ((w.withError error).parseRhdr env rbuf).process.error.event = true := by
    by_cases basic : w.session.rhdr.type = MsgHdr.typeBasic
    · rw [@parseRhdr_basic (w.withError error) basic env rbuf]
      dsimp only
      rw [if_pos (by
        by_contra long
        exact incomplete ⟨basic, not_lt.mp long⟩)]
      exact ⟨rfl, pending⟩
    · by_cases http : w.session.rhdr.type = MsgHdr.typeHttp
      · exact @parseRhdr_pending (w.withError error) http pending env rbuf
      · exact absurd (parseRhdr_unknown basic http env rbuf).2.2.1 quiet
  rw [@seen_init_refuses (w.withError error) env rbuf has bytes free success refused,
    if_pos event] at same
  cases accepted : (w.parseRhdr env rbuf).bytesUsed with
  | none =>
      rw [seen_init_refuses has bytes free success accepted, if_neg quiet] at same
      exact bytes (congrArg (fun result => result.1.rbufLen) same).symm
  | some used =>
      rw [initIncomingMsg_of_accepted has bytes free success accepted] at same
      have value : some false = some true := congrArg Prod.snd same
      cases value

end Init

/-! ## StreamIncomingMsg and ClearIncomingMsg -/

/-- `StreamIncomingMsg` does not look at the error. -/
theorem Alike.streamIncomingMsg {w₁ w₂ : World} (alike : w₁.Alike w₂) (reply : WriteReply) :
    SameOutcome (w₁.streamIncomingMsg reply) (w₂.streamIncomingMsg reply) := by
  have opened : w₂.session.rfile.isOpen w₁.process = w₂.session.rfile.isOpen w₂.process := by
    unfold File.isOpen
    rw [alike.process.desc]
  unfold World.streamIncomingMsg
  rw [alike.session]
  cases w₂.session.rbuf with
  | none => exact ⟨alike.refuse _, rfl⟩
  | some rbuf =>
  dsimp only
  rw [opened]
  split_ifs
  · exact ⟨alike.refuse _, rfl⟩
  · exact ⟨alike.refuse _, rfl⟩
  refine alike.lockIncoming fun locked => ?_
  rw [locked.session]
  cases reply with
  | failed again reason => exact (locked.raise ..).resetRbuf.returnIncoming _
  | accepted count =>
      dsimp only
      -- the file is closed when the body is complete
      have closes {after₁ after₂ : World} (same : after₁.Alike after₂) :
          SameOutcome
            (if after₁.session.rpending.bodyLen ≤ after₁.session.rpending.fileOffset then
              (after₁.onProcess after₁.session.rfile.close).returnIncoming (0 : Int)
            else after₁.returnIncoming 1)
            (if after₂.session.rpending.bodyLen ≤ after₂.session.rpending.fileOffset then
              (after₂.onProcess after₂.session.rfile.close).returnIncoming (0 : Int)
            else after₂.returnIncoming 1) := by
        rw [same.session]
        split_ifs
        · exact (same.onProcess fun process => process.close _).returnIncoming _
        · exact same.returnIncoming _
      apply closes
      apply Alike.shiftRbuf
      exact ⟨rfl, (locked.process.setDescriptor ..).checked _, locked.wire⟩

/-- `ClearIncomingMsg` does not look at the error. -/
theorem Alike.clearIncomingMsg {w₁ w₂ : World} (alike : w₁.Alike w₂) :
    SameOutcome w₁.clearIncomingMsg w₂.clearIncomingMsg := by
  unfold World.clearIncomingMsg
  rw [alike.session]
  cases w₂.session.rbuf with
  | none => exact ⟨alike.refuse _, rfl⟩
  | some rbuf =>
  refine alike.lockIncoming fun locked => ?_
  dsimp only
  rw [locked.session]
  split_ifs
  · exact ((locked.shiftRbuf ..).onSession _).returnIncoming _
  · obtain ⟨same, process⟩ := locked.process.clear w₂.incomingLocked.session.rfile
    refine Alike.returnIncoming (Alike.onSession ?_ _) _
    exact ⟨by dsimp only; rw [same], process, locked.wire⟩

/-! ## Write -/

/-- What is left of the holdings when `Write` fails. -/
def emptied (w : World) : Holdings :=
  { w.holdings with wbufLen := 0, wpending := [] }

section Send

variable {buf : Bytes} {bufLen : Int} {reply : SSLConn.NetWrite} {failed : World → Outcome Int}
  {next : Int → World → Outcome Int} {value : Int}

/-- A write to the connection that does not return. -/
theorem seen_send_hangs (hangs : (w.session.conn.write buf bufLen reply {}).value = none) :
    seen (w.send buf bufLen reply failed next) = (w.holdings, none) := by
  obtain ⟨-, same, -, -⟩ := SSLConn.write_pending w.session.conn w.process.error buf bufLen reply
  unfold send
  rw [hangs] at same
  dsimp only
  rw [same]
  rfl

/-- A write behind which the event is set. -/
theorem send_fails (returns : (w.session.conn.write buf bufLen reply {}).value = some value)
    (raised : (w.event || (w.session.conn.write buf bufLen reply {}).error.event) = true) :
    ∃ w₁ : World, w₁.holdings = w.holdings ∧ w.send buf bufLen reply failed next = failed w₁ := by
  obtain ⟨-, same, -, event⟩ := SSLConn.write_pending w.session.conn w.process.error buf bufLen reply
  unfold send
  rw [returns] at same
  dsimp only
  rw [same]
  dsimp only
  rw [if_pos (by exact event.trans raised)]
  refine ⟨_, ?_, rfl⟩
  rfl

/-- A write without an event. -/
theorem send_goes (returns : (w.session.conn.write buf bufLen reply {}).value = some value)
    (quiet : (w.event || (w.session.conn.write buf bufLen reply {}).error.event) = false) :
    ∃ error, error.event = false ∧ w.send buf bufLen reply failed next =
      next value
        { session := { w.session with conn := (w.session.conn.write buf bufLen reply {}).conn }
          process := { w.process with error }
          wire := w.wire ++ (w.session.conn.write buf bufLen reply {}).data } := by
  obtain ⟨data, same, conn, event⟩ :=
    SSLConn.write_pending w.session.conn w.process.error buf bufLen reply
  have calm := event.trans quiet
  unfold send
  rw [returns] at same
  dsimp only
  rw [same]
  dsimp only
  rw [if_neg (by rw [Bool.not_eq_true]; exact calm), conn, data]
  exact ⟨_, calm, rfl⟩

/-- A write that does not return raises nothing. -/
theorem write_hangs_quiet {conn : SSLConn} (hangs : (conn.write buf bufLen reply {}).value = none) :
    (conn.write buf bufLen reply {}).error.event = false := by
  unfold SSLConn.write at hangs ⊢
  split at hangs
  · split at hangs
    · cases hangs
    · cases hangs
  · rename_i plain
    rw [if_neg plain]
    unfold TCPConn.write at hangs ⊢
    obtain ⟨more, -, -, -, ⟨error, -⟩ | ⟨-, value, -⟩⟩ :=
      TCPConn.writeLoop_spec conn {} reply.tcp [] buf
    · rw [error]
      rfl
    · rw [value] at hangs
      cases hangs

end Send

/-- The answer to the write of bytes of `wbuf_` when no error is pending. -/
def frontSent (front : MsgInfo) (len : Int) (reply : SSLConn.NetWrite) (w : World) : Sent :=
  w.session.conn.write
    (sliceAt (w.session.wbuf.getD []) front.bufOffset (len - front.bufOffset))
    (len - front.bufOffset) reply {}

section SendFront

variable {front : MsgInfo} {others : List MsgInfo} {len value : Int} {text : String}
  {reply : SSLConn.NetWrite} {next : Int → World → Outcome Int}

theorem seen_sendFront_hangs (hangs : (w.frontSent front len reply).value = none) :
    seen (w.sendFront front len text reply next) = (w.holdings, none) :=
  seen_send_hangs hangs

theorem seen_sendFront_fails (has : w.session.wbuf.isSome = true)
    (returns : (w.frontSent front len reply).value = some value)
    (raised : (w.event || (w.frontSent front len reply).error.event) = true) :
    seen (w.sendFront front len text reply next) = (w.emptied, some 0) ∧
      (w.sendFront front len text reply next).1.event = true := by
  unfold sendFront
  dsimp only
  obtain ⟨w₁, same, fails⟩ := @send_fails
    (w.onProcess (Process.checked
      (inside (w.session.wbuf.getD []) front.bufOffset (len - front.bufOffset)))) _ _ reply
    (fun w =>
      (w.onProcess (Process.appendMsg
        ("TCPSession::Write(): wbuf_ %p, wbuf_len_ %ld, wbuf_size_ %ld" ++ text)
        [.addr "wbuf_", .num w.session.wbufLen, .num w.session.wbufSize, .num len,
          .num front.bufOffset])).resetWbuf.returnOutgoing 0)
    (fun sent w => next sent (w.updateFront fun front =>
      { front with bufOffset := front.bufOffset + sent })) value returns raised
  rw [fails]
  refine ⟨?_, event_resetWbuf (event_onProcess_appendMsg ..)⟩
  rw [seen_returnOutgoing, holdings_resetWbuf]
  · refine Prod.ext ?_ rfl
    change ({ w₁.holdings with wbufLen := 0, wpending := [] } : Holdings) = _
    rw [same]
    rfl
  · have wbuf : w₁.session.wbuf = w.session.wbuf := congrArg Holdings.wbuf same
    change w₁.session.wbuf.isSome = true
    rw [wbuf]
    exact has

theorem sendFront_goes (pending : w.session.wpending = front :: others)
    (returns : (w.frontSent front len reply).value = some value)
    (quiet : (w.event || (w.frontSent front len reply).error.event) = false) :
    ∃ w₁ : World,
      w₁.session = { w.session with
        conn := (w.frontSent front len reply).conn
        wpending := { front with bufOffset := front.bufOffset + value } :: others } ∧
      (∃ error overrun, error.event = false ∧ w₁.process = { w.process with error, overrun }) ∧
      w₁.wire = w.wire ++ (w.frontSent front len reply).data ∧
      w.sendFront front len text reply next = next value w₁ := by
  unfold sendFront
  dsimp only
  obtain ⟨error, calm, goes⟩ := @send_goes
    (w.onProcess (Process.checked
      (inside (w.session.wbuf.getD []) front.bufOffset (len - front.bufOffset)))) _ _ reply
    (fun w =>
      (w.onProcess (Process.appendMsg
        ("TCPSession::Write(): wbuf_ %p, wbuf_len_ %ld, wbuf_size_ %ld" ++ text)
        [.addr "wbuf_", .num w.session.wbufLen, .num w.session.wbufSize, .num len,
          .num front.bufOffset])).resetWbuf.returnOutgoing 0)
    (fun sent w => next sent (w.updateFront fun front =>
      { front with bufOffset := front.bufOffset + sent })) value returns quiet
  refine ⟨_, ?_, ⟨error, (w.process.checked
    (inside (w.session.wbuf.getD []) front.bufOffset (len - front.bufOffset))).overrun, calm, ?_⟩,
    rfl, goes⟩
  · unfold updateFront onSession onProcess
    dsimp only
    rw [pending]
    rfl
  · rfl

end SendFront

/-- The file of the front message is not open, and it does not get open at its place. -/
def NotOpened (file : File) (replies : WriteReplies) (process : Process) : Prop :=
  file.isOpen process = false ∧
    ((file.openWith File.readOnly 0 replies.opening process).error.event = true ∨
      replies.seeking.isSome = true)

/-- The open file that the next piece is read from. -/
def readFrom (file : File) (front : MsgInfo) (replies : WriteReplies) (process : Process) :
    OpenFile :=
  if file.isOpen process then (file.desc process).openFile
  else
    { (file.desc (file.openWith File.readOnly 0 replies.opening process)).openFile with
      position := front.fileOffset.toNat }

/-- The piece that is read from a file. -/
def pieceOf (openFile : OpenFile) (front : MsgInfo) (replies : WriteReplies) : Option Bytes :=
  match replies.reading with
  | .failed => none
  | .delivered atMost =>
      let data := (readFile (readAmount front) atMost openFile).1
      if data.isEmpty then none else some data

/-- The next piece of the file of the front message. -/
def piece (file : File) (front : MsgInfo) (replies : WriteReplies) (process : Process) :
    Option Bytes :=
  pieceOf (readFrom file front replies process) front replies

/-- The file cannot be opened, or sending its next piece raises an error. -/
def FileFails (file : File) (front : MsgInfo) (replies : WriteReplies) (process : Process)
    (conn : SSLConn) : Prop :=
  NotOpened file replies process ∨
    ∃ data, piece file front replies process = some data ∧
      (conn.write data data.length replies.chunk {}).error.event = true

/-- Sending for the front message comes to the same with an error pending: the call never
returns, or fails by itself, with the value that a failing call returns. -/
def FrontSpared (front : MsgInfo) (replies : WriteReplies) (w : World) : Prop :=
  if front.storage = sessionUseMem then
    (w.frontSent front (front.hdrLen + front.bodyLen) replies.front).value = none ∨
      (w.frontSent front (front.hdrLen + front.bodyLen) replies.front).error.event = true
  else if front.bufOffset < front.hdrLen then
    (w.frontSent front front.hdrLen replies.front).value = none ∨
      (w.frontSent front front.hdrLen replies.front).error.event = true ∨
      -- the rest of the header is sent, and the file fails
      ∃ value file more,
        (w.frontSent front front.hdrLen replies.front).value = some value ∧
          front.hdrLen ≤ front.bufOffset + value ∧ w.session.wfiles = file :: more ∧
          FileFails file front replies w.process (w.frontSent front front.hdrLen replies.front).conn
  else
    ∀ file more, w.session.wfiles = file :: more →
      FileFails file front replies w.process w.session.conn ∨
        piece file front replies w.process = none ∨
        file.isOpen w.process = true ∧ ∃ data, piece file front replies w.process = some data ∧
          (w.session.conn.write data data.length replies.chunk {}).value = none

/-- The calls of `Write` that a pending error does not change. -/
def WriteSpared (replies : WriteReplies) (w : World) : Prop :=
  w.session.wbuf = none ∨ w.session.conn.connected = false ∨ w.session.mutexes.outgoing = true ∨
    ∀ front others, w.session.wpending = front :: others → w.FrontSpared front replies

theorem forall_cons_iff {β : Type} {first : β} {rest : List β} {property : β → Prop} :
    (∀ head tail, first :: rest = head :: tail → property head) ↔ property first := by
  constructor
  · exact fun given => given first rest rfl
  · intro holds head tail shape
    obtain ⟨rfl, -⟩ := List.cons.inj shape
    exact holds

section Chunk

variable {file : File} {front : MsgInfo} {others : List MsgInfo} {replies : WriteReplies}
  {sent value : Int} {data : Bytes}

theorem pieceOf_ne_nil {openFile : OpenFile} (some_ : pieceOf openFile front replies = some data) :
    data ≠ [] := by
  unfold pieceOf at some_
  cases reading : replies.reading with
  | failed =>
      rw [reading] at some_
      cases some_
  | delivered atMost =>
      rw [reading] at some_
      dsimp only at some_
      split at some_
      · cases some_
      · rename_i inhabited
        obtain rfl := Option.some.inj some_
        exact fun empty => inhabited (List.isEmpty_iff.mpr empty)

theorem seen_writeChunk_none (has : w.session.wbuf.isSome = true)
    (nothing : pieceOf (file.desc w.process).openFile front replies = none) :
    seen (w.writeChunk file front sent replies) = (w.emptied, some sent) ∧
      (w.writeChunk file front sent replies).1.event = true := by
  unfold pieceOf at nothing
  unfold writeChunk
  cases reading : replies.reading with
  | failed =>
      refine ⟨?_, event_resetWbuf (event_raise_eq ..)⟩
      dsimp only
      rw [seen_returnOutgoing, holdings_resetWbuf (by exact has)]
      rfl
  | delivered atMost =>
      rw [reading] at nothing
      dsimp only at nothing ⊢
      have empty : (readFile (readAmount front) atMost
          (file.desc w.process).openFile).1.isEmpty = true := by
        by_contra inhabited
        rw [if_neg inhabited] at nothing
        cases nothing
      rw [if_pos empty]
      refine ⟨?_, event_resetWbuf (event_raise_eq ..)⟩
      rw [seen_returnOutgoing, holdings_resetWbuf (by exact has)]
      rfl

/-- A piece that is read is offered to the connection. -/
theorem writeChunk_some (some_ : pieceOf (file.desc w.process).openFile front replies = some data) :
    ∃ descriptors overrun, w.writeChunk file front sent replies =
      ({ w with process := { w.process with descriptors, overrun } } : World).send data data.length
        replies.chunk
        (fun w =>
          (w.onProcess (Process.appendMsg
            "TCPSession::Write(): file %s, body_len %ld, file_offset %ld: "
            [.str (file.print w.process), .num front.bodyLen,
              .num front.fileOffset])).resetWbuf.returnOutgoing 0)
        (fun sent w =>
          (w.updateFront fun front =>
            { front with fileOffset := front.fileOffset + sent }).returnOutgoing sent) := by
  unfold pieceOf at some_
  unfold writeChunk
  cases reading : replies.reading with
  | failed =>
      rw [reading] at some_
      cases some_
  | delivered atMost =>
      rw [reading] at some_
      dsimp only at some_ ⊢
      generalize readFile (readAmount front) atMost (file.desc w.process).openFile = result at some_ ⊢
      split at some_
      · cases some_
      · rename_i inhabited
        obtain rfl := Option.some.inj some_
        rw [if_neg inhabited]
        exact ⟨_, _, rfl⟩

theorem seen_writeChunk_hangs
    (some_ : pieceOf (file.desc w.process).openFile front replies = some data)
    (hangs : (w.session.conn.write data data.length replies.chunk {}).value = none) :
    seen (w.writeChunk file front sent replies) = (w.holdings, none) := by
  obtain ⟨descriptors, overrun, offered⟩ := @writeChunk_some w file front replies sent data some_
  rw [offered]
  exact seen_send_hangs hangs

theorem seen_writeChunk_fails (has : w.session.wbuf.isSome = true)
    (some_ : pieceOf (file.desc w.process).openFile front replies = some data)
    (returns : (w.session.conn.write data data.length replies.chunk {}).value = some value)
    (raised : (w.event || (w.session.conn.write data data.length replies.chunk {}).error.event) =
      true) :
    seen (w.writeChunk file front sent replies) = (w.emptied, some 0) := by
  obtain ⟨descriptors, overrun, offered⟩ := @writeChunk_some w file front replies sent data some_
  rw [offered]
  obtain ⟨w₁, same, fails⟩ := @send_fails
    { w with process := { w.process with descriptors, overrun } } data data.length replies.chunk
    (fun w =>
      (w.onProcess (Process.appendMsg
        "TCPSession::Write(): file %s, body_len %ld, file_offset %ld: "
        [.str (file.print w.process), .num front.bodyLen,
          .num front.fileOffset])).resetWbuf.returnOutgoing 0)
    (fun sent w =>
      (w.updateFront fun front =>
        { front with fileOffset := front.fileOffset + sent }).returnOutgoing sent)
    value returns raised
  rw [fails, seen_returnOutgoing, holdings_resetWbuf]
  · refine Prod.ext ?_ rfl
    change ({ w₁.holdings with wbufLen := 0, wpending := [] } : Holdings) = _
    rw [same]
    rfl
  · have wbuf : w₁.session.wbuf = w.session.wbuf := congrArg Holdings.wbuf same
    change w₁.session.wbuf.isSome = true
    rw [wbuf]
    exact has

theorem wpending_writeChunk_goes (pending : w.session.wpending = front :: others)
    (some_ : pieceOf (file.desc w.process).openFile front replies = some data)
    (returns : (w.session.conn.write data data.length replies.chunk {}).value = some value)
    (quiet : (w.event || (w.session.conn.write data data.length replies.chunk {}).error.event) =
      false) :
    (seen (w.writeChunk file front sent replies)).1.wpending ≠ [] := by
  obtain ⟨descriptors, overrun, offered⟩ := @writeChunk_some w file front replies sent data some_
  rw [offered]
  obtain ⟨error, -, goes⟩ := @send_goes
    { w with process := { w.process with descriptors, overrun } } data data.length replies.chunk
    (fun w =>
      (w.onProcess (Process.appendMsg
        "TCPSession::Write(): file %s, body_len %ld, file_offset %ld: "
        [.str (file.print w.process), .num front.bodyLen,
          .num front.fileOffset])).resetWbuf.returnOutgoing 0)
    (fun sent w =>
      (w.updateFront fun front =>
        { front with fileOffset := front.fileOffset + sent }).returnOutgoing sent)
    value returns quiet
  rw [goes]
  rw [seen_returnOutgoing]
  unfold updateFront onSession
  dsimp only [holdings]
  rw [pending]
  exact List.cons_ne_nil _ _

end Chunk

section OpenFile

variable {file : File} {front : MsgInfo} {others : List MsgInfo} {replies : WriteReplies}
  {sent : Int}

theorem openWith_pending (flags mode : Int) (reply : OpenReply) (file : File) (process : Process)
    (error : ErrorHandler) (overrun : Bool) :
    (file.openWith flags mode reply { process with error, overrun }).descriptors =
        (file.openWith flags mode reply process).descriptors ∧
      (error.event = process.error.event →
        (file.openWith flags mode reply { process with error, overrun }).error.event =
          (file.openWith flags mode reply process).error.event) ∧
      (error.event = true →
        (file.openWith flags mode reply { process with error, overrun }).error.event = true) := by
  have same : file.desc { process with error, overrun } = file.desc process := rfl
  unfold File.openWith
  rw [same]
  have raised (text : String) (args : List FmtArg) (realm : Int) :
      (({ process with error, overrun } : Process).raise realm text args).descriptors =
          (process.raise realm text args).descriptors ∧
        (error.event = process.error.event →
          (({ process with error, overrun } : Process).raise realm text args).error.event =
            (process.raise realm text args).error.event) ∧
        (error.event = true →
          (({ process with error, overrun } : Process).raise realm text args).error.event = true) :=
    ⟨rfl, fun _ => (Process.event_raise ..).trans (Process.event_raise ..).symm,
      fun _ => Process.event_raise ..⟩
  split_ifs
  · exact raised ..
  · exact raised ..
  · exact raised ..
  · exact ⟨rfl, id, id⟩
  · cases reply with
    | opened fd contents => exact ⟨rfl, id, id⟩
    | failed reason => exact raised ..

/-- The file does not depend on how many bytes of `wbuf_` have been sent. -/
theorem notOpened_after {process : Process} {error : ErrorHandler} (overrun : Bool)
    (same : error.event = process.error.event) :
    NotOpened file replies { process with error, overrun } ↔ NotOpened file replies process := by
  obtain ⟨-, event, -⟩ := openWith_pending File.readOnly 0 replies.opening file process error overrun
  unfold NotOpened
  rw [event same]
  rfl

theorem piece_after (process : Process) (error : ErrorHandler) (overrun : Bool) (bufOffset : Int) :
    piece file { front with bufOffset } replies { process with error, overrun } =
      piece file front replies process := by
  obtain ⟨descriptors, -, -⟩ := openWith_pending File.readOnly 0 replies.opening file process error
    overrun
  unfold piece readFrom File.desc
  rw [descriptors]
  rfl

theorem seen_writeFile_notOpened (has : w.session.wbuf.isSome = true)
    (not : NotOpened file replies w.process) :
    seen (w.writeFile file front sent replies) = (w.emptied, some 0) ∧
      (w.writeFile file front sent replies).1.event = true := by
  obtain ⟨closed, fails⟩ := not
  unfold writeFile
  rw [closed, if_neg (by simp)]
  dsimp only
  by_cases event : (w.onProcess (file.openWith File.readOnly 0 replies.opening)).event = true
  · rw [if_pos event]
    refine ⟨?_, event_resetWbuf (event_onProcess_appendMsg ..)⟩
    rw [seen_returnOutgoing, holdings_resetWbuf (by exact has)]
    rfl
  · rw [if_neg event]
    obtain ⟨reason, seeking⟩ := Option.isSome_iff_exists.mp (fails.resolve_left event)
    rw [seeking]
    refine ⟨?_, event_resetWbuf (event_raise_eq ..)⟩
    dsimp only
    rw [seen_returnOutgoing, holdings_resetWbuf (by exact has)]
    rfl

/-- A file that is open, or gets open, is read. -/
theorem writeFile_reads (gets : ¬ NotOpened file replies w.process) :
    ∃ process, process.error.event = w.event ∧
      (file.desc process).openFile = readFrom file front replies w.process ∧
      w.writeFile file front sent replies =
        ({ w with process } : World).writeChunk file front sent replies := by
  unfold writeFile readFrom
  cases closed : file.isOpen w.process with
  | true => exact ⟨w.process, rfl, rfl, rfl⟩
  | false =>
      rw [if_neg (by simp), if_neg (by simp)]
      dsimp only
      have opens : ¬ (w.onProcess (file.openWith File.readOnly 0 replies.opening)).event = true :=
        fun event => gets ⟨closed, Or.inl event⟩
      have seeking : replies.seeking = none := by
        by_contra some_
        exact gets ⟨closed, Or.inr (Option.isSome_iff_ne_none.mpr some_)⟩
      rw [if_neg opens, seeking]
      have calm : w.event = false := by
        by_contra raised
        have kept := (openWith_pending File.readOnly 0 replies.opening file w.process w.process.error
          w.process.overrun).2.2 (Bool.not_eq_false _ ▸ raised)
        exact opens kept
      refine ⟨_, ?_, ?_, rfl⟩
      · change (w.onProcess (file.openWith File.readOnly 0 replies.opening)).event = w.event
        rw [calm]
        exact Bool.eq_false_iff.mpr opens
      · unfold File.desc
        rw [Process.descriptors_setDescriptor]
        rfl

/-- The file part of a call without a pending error: the four ways in which it can end. -/
theorem seen_writeFile_calm (calm : w.event = false) (has : w.session.wbuf.isSome = true)
    (pending : w.session.wpending = front :: others) (file : File) (sent : Int)
    (replies : WriteReplies) :
    (seen (w.writeFile file front sent replies) = (w.emptied, some 0) ∧
        FileFails file front replies w.process w.session.conn) ∨
      ¬ FileFails file front replies w.process w.session.conn ∧
        ((seen (w.writeFile file front sent replies) = (w.emptied, some sent) ∧
            piece file front replies w.process = none) ∨
          (seen (w.writeFile file front sent replies) = (w.holdings, none) ∧
            ∃ data, piece file front replies w.process = some data ∧
              (w.session.conn.write data data.length replies.chunk {}).value = none) ∨
          ((seen (w.writeFile file front sent replies)).1.wpending ≠ [] ∧
            ∃ data value, piece file front replies w.process = some data ∧
              (w.session.conn.write data data.length replies.chunk {}).value = some value)) := by
  by_cases not : NotOpened file replies w.process
  · exact Or.inl ⟨(seen_writeFile_notOpened has not).1, Or.inl not⟩
  obtain ⟨process, event, at_, reads⟩ := @writeFile_reads w file front replies sent not
  have calm' : ({ w with process } : World).event = false := event.trans calm
  cases some_ : piece file front replies w.process with
  | none =>
      refine Or.inr ⟨?_, Or.inl ⟨?_, rfl⟩⟩
      · rintro (other | ⟨data, other, -⟩)
        · exact not other
        · rw [some_] at other
          cases other
      · rw [reads, (seen_writeChunk_none (by exact has) (by rw [at_]; exact some_)).1]
        rfl
  | some data =>
      have read : pieceOf (file.desc process).openFile front replies = some data := by
        rw [at_]
        exact some_
      have fails_iff : FileFails file front replies w.process w.session.conn ↔
          (w.session.conn.write data data.length replies.chunk {}).error.event = true := by
        unfold FileFails
        rw [some_]
        simp [not]
      rw [fails_iff, reads]
      cases returns : (w.session.conn.write data data.length replies.chunk {}).value with
      | none =>
          refine Or.inr ⟨?_, Or.inr (Or.inl ⟨seen_writeChunk_hangs read returns, data, rfl, returns⟩)⟩
          rw [write_hangs_quiet returns]
          simp
      | some value =>
          by_cases raised : (w.session.conn.write data data.length replies.chunk {}).error.event = true
          · refine Or.inl ⟨?_, raised⟩
            rw [@seen_writeChunk_fails { w with process } file front replies sent value data has
              read returns (by rw [raised, Bool.or_true])]
            rfl
          · refine Or.inr ⟨raised, Or.inr (Or.inr ⟨?_, data, value, rfl, returns⟩)⟩
            refine @wpending_writeChunk_goes { w with process } file front others replies sent value
              data pending read returns ?_
            rw [calm', Bool.false_or]
            exact Bool.eq_false_iff.mpr raised

/-- The file part of a call with an event pending, when the write of the piece hangs. -/
theorem seen_writeFile_pending_hangs {data : Bytes} (opened : file.isOpen w.process = true)
    (some_ : piece file front replies w.process = some data)
    (hangs : (w.session.conn.write data data.length replies.chunk {}).value = none) :
    seen ((w.withError error).writeFile file front sent replies) = (w.holdings, none) := by
  have opened' : file.isOpen (w.withError error).process = true := opened
  unfold writeFile
  rw [if_pos opened']
  refine @seen_writeChunk_hangs (w.withError error) file front replies sent data ?_ hangs
  unfold piece readFrom at some_
  rw [if_pos opened] at some_
  exact some_

/-- Otherwise it fails. -/
theorem seen_writeFile_pending (raised : error.event = true) (has : w.session.wbuf.isSome = true)
    (answers : ¬ (file.isOpen w.process = true ∧ ∃ data,
      piece file front replies w.process = some data ∧
        (w.session.conn.write data data.length replies.chunk {}).value = none)) :
    seen ((w.withError error).writeFile file front 0 replies) = (w.emptied, some 0) := by
  cases opened : file.isOpen w.process with
  | false =>
      refine (@seen_writeFile_notOpened (w.withError error) file front replies 0 has
        ⟨opened, Or.inl ?_⟩).1
      exact (openWith_pending File.readOnly 0 replies.opening file w.process error
        w.process.overrun).2.2 raised
  | true =>
      have opened' : file.isOpen (w.withError error).process = true := opened
      unfold writeFile
      rw [if_pos opened']
      unfold piece readFrom at answers
      rw [if_pos opened] at answers
      cases some_ : pieceOf (file.desc w.process).openFile front replies with
      | none => exact (@seen_writeChunk_none (w.withError error) file front replies 0 has some_).1
      | some data =>
          cases returns : (w.session.conn.write data data.length replies.chunk {}).value with
          | none => exact absurd ⟨opened, data, some_, returns⟩ answers
          | some value =>
              exact @seen_writeChunk_fails (w.withError error) file front replies 0 value data has
                some_ returns (by rw [event_withError, raised, Bool.true_or])

end OpenFile

section Write

variable {front : MsgInfo} {others : List MsgInfo} {replies : WriteReplies}

theorem wpending_emptied_ne {outcome : Outcome Int} {value : Option Int}
    (kept : (seen outcome).1.wpending ≠ []) : (w.emptied, value) ≠ seen outcome := by
  intro same
  rw [← same] at kept
  exact kept rfl

/-- A message in memory. -/
theorem writeMem_spared_iff (calm : w.event = false) (raised : error.event = true)
    (has : w.session.wbuf.isSome = true) (pending : w.session.wpending = front :: others) :
    seen ((w.withError error).writeMem front replies) = seen (w.writeMem front replies) ↔
      (w.frontSent front (front.hdrLen + front.bodyLen) replies.front).value = none ∨
        (w.frontSent front (front.hdrLen + front.bodyLen) replies.front).error.event = true := by
  unfold writeMem
  cases returns : (w.frontSent front (front.hdrLen + front.bodyLen) replies.front).value with
  | none =>
      rw [seen_sendFront_hangs returns,
        @seen_sendFront_hangs (w.withError error) front _ _ replies.front _ returns]
      exact iff_of_true rfl (Or.inl rfl)
  | some value =>
      rw [(@seen_sendFront_fails (w.withError error) front _ value _ replies.front _ has returns
        (by rw [event_withError, raised, Bool.true_or])).1]
      by_cases fails :
          (w.frontSent front (front.hdrLen + front.bodyLen) replies.front).error.event = true
      · rw [(seen_sendFront_fails has returns (by rw [fails, Bool.or_true])).1]
        exact iff_of_true rfl (Or.inr fails)
      · obtain ⟨w₁, session, -, -, goes⟩ := @sendFront_goes w front others _ value
          ", msg_len %ld, offset %ld: " replies.front (fun sent w => w.returnOutgoing sent) pending
          returns (by rw [calm, Bool.false_or]; exact Bool.eq_false_iff.mpr fails)
        refine iff_of_false (wpending_emptied_ne ?_) (by simp [fails])
        rw [goes]
        change w₁.session.wpending ≠ []
        rw [session]
        exact List.cons_ne_nil _ _

/-- The header of a message on disc, and what is sent behind it. -/
theorem writeDisc_header_spared_iff (calm : w.event = false) (raised : error.event = true)
    (has : w.session.wbuf.isSome = true) (pending : w.session.wpending = front :: others)
    (left : front.bufOffset < front.hdrLen) :
    seen ((w.withError error).writeDisc front replies) = seen (w.writeDisc front replies) ↔
      (w.frontSent front front.hdrLen replies.front).value = none ∨
        (w.frontSent front front.hdrLen replies.front).error.event = true ∨
        ∃ value file more,
          (w.frontSent front front.hdrLen replies.front).value = some value ∧
            front.hdrLen ≤ front.bufOffset + value ∧ w.session.wfiles = file :: more ∧
            FileFails file front replies w.process
              (w.frontSent front front.hdrLen replies.front).conn := by
  obtain ⟨body, continues, ends, opens⟩ := writeDisc_eq front replies w
  obtain ⟨body', -, -, opens'⟩ := writeDisc_eq front replies (w.withError error)
  rw [opens, opens', if_pos left, if_pos left]
  cases returns : (w.frontSent front front.hdrLen replies.front).value with
  | none =>
      rw [seen_sendFront_hangs returns,
        @seen_sendFront_hangs (w.withError error) front _ _ replies.front _ returns]
      exact iff_of_true rfl (Or.inl rfl)
  | some value =>
  rw [(@seen_sendFront_fails (w.withError error) front _ value _ replies.front _ has returns
    (by rw [event_withError, raised, Bool.true_or])).1]
  by_cases fails : (w.frontSent front front.hdrLen replies.front).error.event = true
  · rw [(seen_sendFront_fails has returns (by rw [fails, Bool.or_true])).1]
    exact iff_of_true rfl (Or.inr (Or.inl fails))
  obtain ⟨w₁, session, ⟨after, overrun, quiet, process⟩, -, goes⟩ := @sendFront_goes w front others _
    value ", hdr_len %ld, offset %ld: " replies.front body pending returns
    (by rw [calm, Bool.false_or]; exact Bool.eq_false_iff.mpr fails)
  rw [goes]
  have pending₁ : w₁.session.wpending =
      { front with bufOffset := front.bufOffset + value } :: others := by rw [session]
  have some_ : w₁.session.wpending ≠ [] := by
    rw [pending₁]
    exact List.cons_ne_nil _ _
  have files₁ : w₁.session.wfiles = w.session.wfiles := by rw [session]
  have conn : w₁.session.conn = (w.frontSent front front.hdrLen replies.front).conn := by
    rw [session]
  have condition : (some value = none ∨
      (w.frontSent front front.hdrLen replies.front).error.event = true ∨
      ∃ value' file more, some value = some value' ∧ front.hdrLen ≤ front.bufOffset + value' ∧
        w.session.wfiles = file :: more ∧ FileFails file front replies w.process
          (w.frontSent front front.hdrLen replies.front).conn) ↔
      front.hdrLen ≤ front.bufOffset + value ∧ ∃ file more, w.session.wfiles = file :: more ∧
        FileFails file front replies w.process
          (w.frontSent front front.hdrLen replies.front).conn := by
    simp [fails]
  rw [condition]
  cases files : w.session.wfiles with
  | nil =>
      refine iff_of_false (wpending_emptied_ne ?_) (by simp)
      rw [ends _ _ (Or.inr (files₁.trans files))]
      exact some_
  | cons file more =>
  rw [continues _ _ { front with bufOffset := front.bufOffset + value } others file more pending₁
    (files₁.trans files)]
  by_cases short : front.bufOffset + value < front.hdrLen
  · refine iff_of_false (wpending_emptied_ne ?_) (by intro given; omega)
    rw [if_pos short]
    exact some_
  rw [if_neg short]
  -- the file is the same one, in a process with another error
  have same : FileFails file { front with bufOffset := front.bufOffset + value } replies w₁.process
        w₁.session.conn ↔
      FileFails file front replies w.process
        (w.frontSent front front.hdrLen replies.front).conn := by
    unfold FileFails
    rw [conn, process, notOpened_after overrun (quiet.trans calm.symm), piece_after]
  have whole : (front.hdrLen ≤ front.bufOffset + value ∧ ∃ file' more', file :: more = file' :: more' ∧
      FileFails file' front replies w.process
        (w.frontSent front front.hdrLen replies.front).conn) ↔
      FileFails file front replies w.process
        (w.frontSent front front.hdrLen replies.front).conn := by
    constructor
    · rintro ⟨-, file', more', shape, fails'⟩
      obtain ⟨rfl, -⟩ := List.cons.inj shape
      exact fails'
    · exact fun fails' => ⟨by omega, file, more, rfl, fails'⟩
  rw [whole, ← same]
  have holdings₁ : w₁.emptied = w.emptied := by
    unfold emptied holdings
    rw [session]
  have has₁ : w₁.session.wbuf.isSome = true := by
    rw [session]
    exact has
  have quiet₁ : w₁.event = false := by
    unfold World.event
    rw [process]
    exact quiet
  obtain ⟨result, fails'⟩ | ⟨works, ⟨result, -⟩ | ⟨result, -⟩ | ⟨kept, -⟩⟩ :=
    seen_writeFile_calm quiet₁ has₁ pending₁ file value replies
  · refine iff_of_true ?_ fails'
    rw [result, holdings₁]
    rfl
  · refine iff_of_false (fun equal => ?_) works
    rw [result] at equal
    have zero : some (0 : Int) = some value := congrArg Prod.snd equal
    have := Option.some.inj zero
    omega
  · refine iff_of_false (fun equal => ?_) works
    rw [result] at equal
    have none_ : some (0 : Int) = none := congrArg Prod.snd equal
    cases none_
  · exact iff_of_false (wpending_emptied_ne kept) works

/-- The file of a message on disc, when the header has been sent. -/
theorem writeDisc_file_spared_iff (calm : w.event = false) (raised : error.event = true)
    (has : w.session.wbuf.isSome = true) (pending : w.session.wpending = front :: others)
    (done_ : ¬ front.bufOffset < front.hdrLen) :
    seen ((w.withError error).writeDisc front replies) = seen (w.writeDisc front replies) ↔
      ∀ file more, w.session.wfiles = file :: more →
        FileFails file front replies w.process w.session.conn ∨
          piece file front replies w.process = none ∨
          file.isOpen w.process = true ∧ ∃ data, piece file front replies w.process = some data ∧
            (w.session.conn.write data data.length replies.chunk {}).value = none := by
  obtain ⟨body, continues, ends, opens⟩ := writeDisc_eq front replies w
  obtain ⟨body', continues', ends', opens'⟩ := writeDisc_eq front replies (w.withError error)
  rw [opens, opens', if_neg done_, if_neg done_]
  cases files : w.session.wfiles with
  | nil =>
      refine iff_of_true ?_ nofun
      rw [ends _ _ (Or.inr files), ends' 0 (w.withError error) (Or.inr files)]
      rfl
  | cons file more =>
  rw [continues _ _ front others file more pending files,
    continues' 0 (w.withError error) front others file more pending files, if_neg done_, if_neg done_]
  rw [@forall_cons_iff File file more]
  rcases seen_writeFile_calm calm has pending file 0 replies with
    ⟨result, fails⟩ | ⟨works, ⟨result, nothing⟩ | ⟨result, data, some_, hangs⟩ |
      ⟨kept, data, value, some_, returns⟩⟩
  · refine iff_of_true ?_ (Or.inl fails)
    rw [result]
    refine seen_writeFile_pending raised has ?_
    rintro ⟨opened, data, some_, hangs⟩
    rcases fails with ⟨closed, -⟩ | ⟨data', some', raises⟩
    · rw [opened] at closed
      cases closed
    · obtain rfl := Option.some.inj (some_.symm.trans some')
      rw [write_hangs_quiet hangs] at raises
      cases raises
  · refine iff_of_true ?_ (Or.inr (Or.inl nothing))
    rw [result]
    refine seen_writeFile_pending raised has ?_
    rintro ⟨-, data, some_, -⟩
    rw [nothing] at some_
    cases some_
  · cases opened : file.isOpen w.process with
    | true =>
        refine iff_of_true ?_ (Or.inr (Or.inr ⟨rfl, data, some_, hangs⟩))
        rw [result]
        exact seen_writeFile_pending_hangs opened some_ hangs
    | false =>
        refine iff_of_false (fun same => ?_) ?_
        · rw [result, seen_writeFile_pending raised has (by simp [opened])] at same
          have none_ : some (0 : Int) = none := congrArg Prod.snd same
          cases none_
        · rintro (fails | nothing | ⟨other, -⟩)
          · exact works fails
          · rw [nothing] at some_
            cases some_
          · cases other
  · have answers : ¬ (file.isOpen w.process = true ∧ ∃ data, piece file front replies w.process =
        some data ∧ (w.session.conn.write data data.length replies.chunk {}).value = none) := by
      rintro ⟨-, data', some', hangs⟩
      obtain rfl := Option.some.inj (some_.symm.trans some')
      rw [returns] at hangs
      cases hangs
    rw [seen_writeFile_pending raised has answers]
    refine iff_of_false (wpending_emptied_ne kept) ?_
    rintro (fails | nothing | hangs)
    · exact works fails
    · rw [nothing] at some_
      cases some_
    · exact answers hangs

/-- A call of `Write` that reaches the front message. -/
theorem write_reaches (has : w.session.wbuf.isSome = true)
    (pending : w.session.wpending = front :: others) (connected : w.session.conn.connected = true)
    (free : w.session.mutexes.outgoing = false) :
    w.write replies = if front.storage = sessionUseMem then w.outgoingLocked.writeMem front replies
      else w.outgoingLocked.writeDisc front replies := by
  unfold write
  rw [if_neg (by simpa [Option.isSome_iff_ne_none] using has), pending]
  dsimp only
  rw [if_neg (by rw [connected]; simp), lockOutgoing_of_free free]

/-- A call that returns without an event has reached it. -/
theorem reaches_of_quiet (returned : (w.write replies).2.isSome = true)
    (quiet : (w.write replies).1.event = false) :
    w.session.wbuf.isSome = true ∧ w.session.conn.connected = true ∧
      w.session.mutexes.outgoing = false ∧
      ∃ front others, w.session.wpending = front :: others := by
  unfold write at returned quiet
  cases has : w.session.wbuf with
  | none =>
      rw [if_pos (Option.isNone_iff_eq_none.mpr has), event_refuse] at quiet
      cases quiet
  | some wbuf =>
  rw [if_neg (by rw [has]; simp)] at returned quiet
  cases pending : w.session.wpending with
  | nil =>
      rw [pending, event_refuse] at quiet
      cases quiet
  | cons front others =>
  rw [pending] at returned quiet
  dsimp only at returned quiet
  cases connected : w.session.conn.connected with
  | false =>
      rw [if_pos (by rw [connected]; rfl), event_refuse] at quiet
      cases quiet
  | true =>
  rw [if_neg (by rw [connected]; simp)] at returned
  cases free : w.session.mutexes.outgoing with
  | true =>
      rw [lockOutgoing_of_held free] at returned
      cases returned
  | false => exact ⟨rfl, rfl, rfl, front, others, rfl⟩

/-- A pending error changes what `Write` does unless the call is spared. -/
theorem write_spared_iff (calm : w.event = false) (raised : error.event = true)
    (replies : WriteReplies) :
    seen ((w.withError error).write replies) = seen (w.write replies) ↔ w.WriteSpared replies := by
  unfold WriteSpared
  cases has : w.session.wbuf with
  | none =>
      refine iff_of_true ?_ (Or.inl rfl)
      unfold write
      rw [if_pos (by exact Option.isNone_iff_eq_none.mpr has),
        if_pos (by exact Option.isNone_iff_eq_none.mpr has)]
      rfl
  | some wbuf =>
  have some_ : w.session.wbuf.isSome = true := Option.isSome_of_eq_some has
  have present : ¬ w.session.wbuf.isNone = true := by rw [has]; simp
  cases pending : w.session.wpending with
  | nil =>
      refine iff_of_true ?_ (Or.inr (Or.inr (Or.inr nofun)))
      unfold write
      rw [if_neg present, if_neg (by exact present),
        show (w.withError error).session.wpending = [] from pending, pending]
      rfl
  | cons front others =>
  have pending' : (w.withError error).session.wpending = front :: others := pending
  cases connected : w.session.conn.connected with
  | false =>
      have refused : (!w.session.conn.connected) = true := by rw [connected]; rfl
      refine iff_of_true ?_ (Or.inr (Or.inl rfl))
      unfold write
      rw [if_neg present, if_neg (by exact present), pending, pending']
      dsimp only
      rw [if_pos (by exact refused), if_pos refused]
      rfl
  | true =>
  have ready : ¬ (!w.session.conn.connected) = true := by rw [connected]; simp
  cases free : w.session.mutexes.outgoing with
  | true =>
      refine iff_of_true ?_ (Or.inr (Or.inr (Or.inl rfl)))
      unfold write
      rw [if_neg present, if_neg (by exact present), pending, pending']
      dsimp only
      rw [if_neg (by exact ready), if_neg ready, lockOutgoing_of_held (by exact free),
        lockOutgoing_of_held (by exact free)]
      rfl
  | false =>
  rw [write_reaches some_ pending connected free,
    @write_reaches (w.withError error) front others replies some_ pending connected free]
  simp only [reduceCtorEq, false_or, forall_cons_iff]
  unfold FrontSpared
  split_ifs with memory left
  · exact @writeMem_spared_iff w.outgoingLocked error front others replies calm raised some_ pending
  · exact @writeDisc_header_spared_iff w.outgoingLocked error front others replies calm raised some_
      pending left
  · exact @writeDisc_file_spared_iff w.outgoingLocked error front others replies calm raised some_
      pending left

end Write

end World

end IpUtils
