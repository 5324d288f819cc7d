import IpUtils.Session.Representation

/-! # Messages in memory are delivered

Over plain TCP the bytes that the socket has taken are those of the messages, in the
order in which they were added, however `write(2)` cuts them.
-/

namespace IpUtils

open CLib

/-- The calls on a session whose outgoing messages are all in memory. -/
inductive SendingMemory (w : World) : Call → Prop
  | addMsgBuf (framingHdr : Option Bytes) (body : Bytes) (whdr : MsgHdr) (fresh : Option Bytes) :
      SendingMemory w (.addMsgBuf framingHdr (framingHdr.getD []).length body body.length whdr fresh)
  | write (replies : WriteReplies) : SendingMemory w (.write replies)
  | popOutgoingMsgQueue (sent : w.isOutgoingMsgSent = true) : SendingMemory w .popOutgoingMsgQueue

/-- A message is in memory. -/
def OutMsg.InMemory (msg : OutMsg) : Prop :=
  ∃ bytes, msg.body = .memory bytes

namespace World

variable {w : World} {queue : List OutMsg}

/-- A call of `SSLConn::Write` over plain TCP: it has not returned, it has raised an
error, or it returns how much the socket has taken. -/
theorem send_plain {buf : Bytes} {bufLen : Int} {reply : SSLConn.NetWrite}
    {failed : World → Outcome Int} {next : Int → World → Outcome Int}
    (plain : w.session.conn.ssl = false) (calm : w.event = false) :
    ∃ data, data <+: buf ∧
      (w.send buf bufLen reply failed next = ({ w with wire := w.wire ++ data }, none) ∨
        w.send buf bufLen reply failed next = next data.length { w with wire := w.wire ++ data } ∧
          (data = buf ∨ ¬ TCPConn.Accepting reply.tcp) ∨
        ∃ raised, raised.event = true ∧ ¬ TCPConn.Soft w.session.conn reply.tcp ∧
          w.send buf bufLen reply failed next = failed raised) := by
  have tcp : w.session.conn.write buf bufLen reply w.process.error =
      TCPConn.write buf reply.tcp w.session.conn w.process.error := by
    rw [SSLConn.write, plain]
    rfl
  obtain ⟨within, conn, outcome⟩ := TCPConn.write_spec buf reply.tcp w.session.conn w.process.error
  unfold send
  rw [tcp]
  generalize TCPConn.write buf reply.tcp w.session.conn w.process.error = sent at within conn outcome
  obtain ⟨data, value, conn', error'⟩ := sent
  refine ⟨data, within, ?_⟩
  dsimp only at conn outcome ⊢
  subst conn
  unfold TCPConn.WriteOutcome at outcome
  rcases outcome with ⟨rfl, rfl | ⟨rfl, whole⟩⟩ | ⟨event, rfl, hard⟩
  · exact Or.inl rfl
  · exact Or.inr (Or.inl ⟨if_neg (by rw [Bool.not_eq_true]; exact calm), whole⟩)
  · exact Or.inr (Or.inr ⟨{ w with
        process := { w.process with error := error' }
        wire := w.wire ++ data }, event, hard, if_pos event⟩)

/-- What a call of `Write` does over plain TCP, when there is no error: the socket takes
some of the bytes that it is offered, and the offset of the front message is moved
unless the call has not returned. -/
structure Writes (w : World) (queue : List OutMsg) (front : MsgInfo) (others : List MsgInfo)
    (offered : Bytes) (after : World) (data : Bytes) : Prop where
  taken : data <+: offered
  wire : after.wire = w.wire ++ data
  queued : Queued after.session queue
  conn : after.session.conn = w.session.conn
  offset : (w.session.mutexes.outgoing = false ∧ after.session.mutexes.outgoing = false ∧
      after.session.wpending =
        { front with bufOffset := front.bufOffset + data.length } :: others) ∨
    (after.session.mutexes.outgoing = true ∧ after.session.wpending = front :: others ∧
      (w.session.mutexes.outgoing = true → data = []))

/-- Bytes of `wbuf_` are sent from the offset of the front message on. -/
theorem sendFront_plain {front : MsgInfo} {others : List MsgInfo} {bytes : Bytes} {text : String}
    {reply : SSLConn.NetWrite} {next : Int → World → Outcome Int} {len : Int}
    (plain : w.session.conn.ssl = false) (calm : w.event = false)
    (filled : ∃ rest, Filled w.session (bytes ++ rest)) (length : len = bytes.length)
    (left : 0 ≤ front.bufOffset) (right : front.bufOffset ≤ bytes.length)
    (pending : w.session.wpending = front :: others) :
    ∃ data process, data <+: bytes.drop front.bufOffset.toNat ∧ process.error = w.process.error ∧
      process.descriptors = w.process.descriptors ∧
      (w.sendFront front len text reply next =
          ({ w with process, wire := w.wire ++ data }, none) ∨
        w.sendFront front len text reply next =
          next data.length
            { session := { w.session with
                wpending :=
                  { front with bufOffset := front.bufOffset + data.length } :: others }
              process, wire := w.wire ++ data } ∨
        (w.sendFront front len text reply next).1.event = true ∧
          ¬ TCPConn.Soft w.session.conn reply.tcp) := by
  obtain ⟨rest, full⟩ := filled
  obtain ⟨wbuf, held, -, within⟩ := full.buffer
  have part : bytes <+: wbuf := (List.prefix_append _ _).trans within
  have slice : sliceAt (w.session.wbuf.getD []) front.bufOffset (len - front.bufOffset) =
      bytes.drop front.bufOffset.toNat := by
    rw [held, Option.getD_some, length, sliceAt_of_part part left right]
  unfold sendFront
  dsimp only
  rw [slice]
  generalize inside (w.session.wbuf.getD []) front.bufOffset (len - front.bufOffset) = stays
  obtain ⟨data, taken, hangs | ⟨returns, -⟩ | ⟨raised, event, hard, fails⟩⟩ :=
    @send_plain
    (w.onProcess (Process.checked stays)) (bytes.drop front.bufOffset.toNat)
    (len - front.bufOffset) reply
    (fun w => (w.onProcess (Process.appendMsg
        ("TCPSession::Write(): wbuf_ %p, wbuf_len_ %ld, wbuf_size_ %ld" ++ text)
        [.addr "wbuf_", .num w.session.wbufLen, .num w.session.wbufSize, .num len,
          .num front.bufOffset])).resetWbuf.returnOutgoing 0)
    (fun sent w => next sent (w.updateFront fun front =>
      { front with bufOffset := front.bufOffset + sent })) plain calm
  · exact ⟨data, w.process.checked stays, taken, rfl, rfl, Or.inl hangs⟩
  · refine ⟨data, w.process.checked stays, taken, rfl, rfl, Or.inr (Or.inl (returns.trans ?_))⟩
    have same : (({ w with
        process := w.process.checked stays
        wire := w.wire ++ data } : World)).session.wpending = front :: others := pending
    exact congrArg (next _) (updateFront_cons same fun front =>
      { front with bufOffset := front.bufOffset + (data.length : Int) })
  · refine ⟨data, w.process, taken, rfl, rfl, Or.inr (Or.inr ?_)⟩
    rw [fails]
    exact ⟨event_resetWbuf (event_onProcess_appendMsg ..), hard⟩

/-- The spec of `Write` for a message in memory. -/
theorem write_memory {front : MsgInfo} {others : List MsgInfo} {msg : OutMsg}
    (queued : Queued w.session (msg :: queue)) (memory : msg.InMemory)
    (pending : w.session.wpending = front :: others) (plain : w.session.conn.ssl = false)
    (left : 0 ≤ front.bufOffset) (right : front.bufOffset ≤ msg.buffered.length)
    (calm : w.event = false) (replies : WriteReplies) :
    (w.write replies).1.event = true ∨
      ∃ data, Writes w (msg :: queue) front others (msg.buffered.drop front.bufOffset.toNat)
        (w.write replies).1 data := by
  obtain ⟨wbuf, held, -, -⟩ := queued.filled.buffer
  have some_ : w.session.wbuf.isNone = false := by rw [held]; rfl
  have describes : OutMsg.Describes front msg := by
    have entries := queued.entries
    rw [pending] at entries
    cases entries with
    | cons first _ => exact first
  obtain ⟨hdr, body⟩ := msg
  obtain ⟨bytes, rfl⟩ := memory
  rw [write, some_, if_neg (by simp), pending]
  dsimp only
  split
  · exact Or.inl (event_refuse ..)
  cases lock : w.session.mutexes.outgoing with
  | true =>
      rw [lockOutgoing_of_held lock]
      exact Or.inr ⟨[], List.nil_prefix, (List.append_nil _).symm,
        (sameQueue_mutexes _ _).queued queued, rfl, Or.inr ⟨rfl, pending, fun _ => rfl⟩⟩
  | false =>
      have storage : front.storage = sessionUseMem := describes.storage
      have size : front.hdrLen + front.bodyLen =
          (OutMsg.buffered { hdr, body := .memory bytes }).length := by
        rw [describes.hdrLen, describes.bodyLen]
        simp [OutMsg.buffered, OutMsg.bodyLen]
      have locked : Queued w.outgoingLocked.session ({ hdr, body := .memory bytes } :: queue) :=
        (sameQueue_mutexes _ _).queued queued
      rw [lockOutgoing_of_free lock, if_pos storage, writeMem]
      obtain ⟨data, process, taken, -, -, hangs | returns | ⟨fails, -⟩⟩ :=
        @sendFront_plain w.outgoingLocked front others _ ", msg_len %ld, offset %ld: "
          replies.front (fun sent w => w.returnOutgoing sent) _ plain calm ⟨_, locked.filled⟩ size
          left right pending
      · rw [hangs]
        exact Or.inr ⟨data, taken, rfl,
          ⟨⟨locked.filled.buffer, locked.filled.len⟩, locked.entries, locked.files,
            locked.untouched⟩, rfl,
          Or.inr ⟨rfl, pending, fun isHeld => absurd (lock.symm.trans isHeld) (by simp)⟩⟩
      · rw [returns]
        refine Or.inr ⟨data, taken, rfl,
          ⟨⟨locked.filled.buffer, locked.filled.len⟩, ?_, locked.files, ?_⟩, rfl,
          Or.inl ⟨lock, rfl, rfl⟩⟩
        · have entries := locked.entries
          rw [show w.outgoingLocked.session.wpending = front :: others from pending] at entries
          cases entries with
          | cons first behind =>
              exact .cons ⟨first.storage, first.hdrLen, first.bodyLen⟩ behind
        · have untouched := locked.untouched
          rw [show w.outgoingLocked.session.wpending = front :: others from pending] at untouched
          exact untouched
      · exact Or.inl fails

/-! ## Whole runs -/

/-- The socket has taken `gone` messages and `count` bytes of the next. -/
structure Delivered (w : World) (messages : List OutMsg) (gone count : Nat) : Prop where
  within : gone ≤ messages.length
  queued : Queued w.session (messages.drop gone)
  plain : w.session.conn.ssl = false
  memory : ∀ msg ∈ messages, msg.InMemory
  bounded : count ≤ (((messages.drop gone).take 1).flatMap OutMsg.buffered).length
  wire : w.wire = (messages.take gone).flatMap OutMsg.buffered ++
    (((messages.drop gone).take 1).flatMap OutMsg.buffered).take count
  offset : ∀ front ∈ w.session.wpending.head?, front.fileOffset = 0 ∧ 0 ≤ front.bufOffset ∧
    front.bufOffset ≤ count ∧ (w.session.mutexes.outgoing = false → front.bufOffset = count)

/-- Until an error event, the messages are being delivered. -/
def Delivers (w : World) (messages : List OutMsg) : Prop :=
  w.event = false → ∃ gone count, Delivered w messages gone count

namespace Delivered

variable {messages : List OutMsg} {gone count : Nat}

/-- What the socket has taken is a prefix of all the messages. -/
theorem wire_prefix (delivered : Delivered w messages gone count) :
    w.wire <+: messages.flatMap OutMsg.buffered := by
  rw [delivered.wire]
  refine ((List.prefix_append_right_inj _).mpr (List.take_prefix _ _)).trans ?_
  conv_rhs =>
    rw [← List.take_append_drop gone messages, ← List.take_append_drop 1 (messages.drop gone)]
  rw [List.flatMap_append, List.flatMap_append]
  exact (List.prefix_append_right_inj _).mpr (List.prefix_append _ _)

/-- When the front message counts as sent, all of it has been taken. -/
theorem wire_of_sent (delivered : Delivered w messages gone count)
    (sent : w.isOutgoingMsgSent = true) :
    gone < messages.length ∧ count = (((messages.drop gone).take 1).flatMap OutMsg.buffered).length ∧
      w.wire = (messages.take (gone + 1)).flatMap OutMsg.buffered := by
  have bounded := delivered.bounded
  have entries := delivered.queued.entries
  have offset := delivered.offset
  have wire := delivered.wire
  cases pending : w.session.wpending with
  | nil =>
      rw [isOutgoingMsgSent, pending] at sent
      cases sent
  | cons front others =>
      rw [pending] at entries offset
      cases rest : messages.drop gone with
      | nil =>
          rw [rest] at entries
          cases entries
      | cons msg behind =>
          have fewer : gone < messages.length := by
            have length := congrArg List.length rest
            rw [List.length_drop, List.length_cons] at length
            omega
          have member : msg ∈ messages := List.mem_of_mem_drop (rest ▸ List.mem_cons_self)
          obtain ⟨bytes, memory⟩ := delivered.memory msg member
          rw [rest] at entries bounded wire
          cases entries with
          | cons describes _ =>
              obtain ⟨file, -, most, -⟩ := offset front rfl
              have size : front.hdrLen + front.bodyLen = msg.buffered.length := by
                rw [describes.hdrLen, describes.bodyLen, OutMsg.buffered, OutMsg.bodyLen, memory]
                simp
              rw [isOutgoingMsgSent, pending] at sent
              simp only [Bool.or_eq_true, decide_eq_true_eq] at sent
              simp only [List.take_succ_cons, List.take_zero, List.flatMap_cons, List.flatMap_nil,
                List.append_nil] at bounded wire ⊢
              have whole : count = msg.buffered.length := by omega
              refine ⟨fewer, whole, ?_⟩
              rw [wire, whole, List.take_length]
              have next : messages[gone] = msg := by
                have head := @List.getElem_cons_drop _ messages gone fewer
                rw [rest] at head
                exact (List.cons.inj head).1
              rw [List.take_add_one, List.getElem?_eq_getElem fewer, next]
              simp

/-- A call that has changed nothing of it. -/
theorem of_same {after : World} (delivered : Delivered w messages gone count)
    (same : SameQueue w.session after.session) (quiet : Undisturbed w after)
    (free : after.session.mutexes.outgoing = false → w.session.mutexes.outgoing = false) :
    Delivered after messages gone count where
  within := delivered.within
  queued := same.queued delivered.queued
  plain := quiet.conn ▸ delivered.plain
  memory := delivered.memory
  bounded := delivered.bounded
  wire := quiet.wire.trans delivered.wire
  offset front member := by
    rw [same.wpending] at member
    obtain ⟨file, left, right, exact_⟩ := delivered.offset front member
    exact ⟨file, left, right, fun released => exact_ (free released)⟩

/-- One more message. -/
theorem of_added {after : World} {msg : OutMsg} (delivered : Delivered w messages gone count)
    (memory : msg.InMemory) (queued : Queued after.session (messages.drop gone ++ [msg]))
    (quiet : Undisturbed w after) {info : MsgInfo} (untouched : info.Untouched)
    (pending : after.session.wpending = w.session.wpending ++ [info])
    (was : w.session.mutexes.outgoing = false) :
    Delivered after (messages ++ [msg]) gone count := by
  have bounded := delivered.bounded
  have wire := delivered.wire
  have entries := delivered.queued.entries
  have offset := delivered.offset
  have behind : (messages ++ [msg]).drop gone = messages.drop gone ++ [msg] :=
    List.drop_append_of_le_length delivered.within
  have front : (messages ++ [msg]).take gone = messages.take gone :=
    List.take_append_of_le_length delivered.within
  have all : ∀ other ∈ messages ++ [msg], other.InMemory := by
    intro other member
    rcases List.mem_append.mp member with old | new
    · exact delivered.memory other old
    · exact List.mem_singleton.mp new ▸ memory
  have within : gone ≤ (messages ++ [msg]).length := by
    rw [List.length_append]
    exact Nat.le_add_right_of_le delivered.within
  cases rest : messages.drop gone with
  | nil =>
      rw [rest] at bounded wire entries
      have none_ : count = 0 := by simpa using bounded
      have empty : w.session.wpending = [] := by
        cases was : w.session.wpending with
        | nil => rfl
        | cons first others =>
            rw [was] at entries
            cases entries
      subst none_
      refine ⟨within, behind ▸ queued, quiet.conn ▸ delivered.plain, all, by simp, ?_, ?_⟩
      · rw [quiet.wire, wire, front]
        simp
      · intro first member
        rw [pending, empty] at member
        cases member
        exact ⟨untouched.2, untouched.1.ge, untouched.1.le, fun _ => untouched.1⟩
  | cons next others =>
      rw [rest] at bounded wire entries
      refine ⟨within, behind ▸ queued, quiet.conn ▸ delivered.plain, all, ?_, ?_, ?_⟩
      · rw [behind, rest]
        exact bounded
      · rw [quiet.wire, wire, front, behind, rest]
        rfl
      · intro first member
        rw [pending] at member
        cases was' : w.session.wpending with
        | nil =>
            rw [was'] at entries
            cases entries
        | cons head tail =>
            rw [was'] at member offset
            obtain ⟨file, left, right, exact_⟩ := offset first member
            exact ⟨file, left, right, fun _ => exact_ was⟩

/-- The front message moves on. -/
theorem of_writes {after : World} {front : MsgInfo} {others : List MsgInfo} {msg : OutMsg}
    {behind : List OutMsg} {data : Bytes} (delivered : Delivered w messages gone count)
    (pending : w.session.wpending = front :: others) (rest : messages.drop gone = msg :: behind)
    (writes : Writes w (msg :: behind) front others (msg.buffered.drop front.bufOffset.toNat)
      after data) : ∃ more, Delivered after messages gone more := by
  have bounded := delivered.bounded
  have wire := delivered.wire
  obtain ⟨file, left, right, exact_⟩ := delivered.offset front (by rw [pending]; rfl)
  rw [rest] at bounded wire
  simp only [List.take_succ_cons, List.take_zero, List.flatMap_cons, List.flatMap_nil,
    List.append_nil] at bounded wire
  have stays (offset : Int) (low : 0 ≤ offset) (high : offset ≤ (count + data.length : Nat))
      (free : after.session.mutexes.outgoing = false → offset = (count + data.length : Nat))
      (head : after.session.wpending = { front with bufOffset := offset } :: others)
      (from_ : data = [] ∨ front.bufOffset = count) :
      Delivered after messages gone (count + data.length) := by
    have length : count + data.length ≤ msg.buffered.length := by
      rcases from_ with rfl | here
      · simpa using bounded
      · have taken := writes.taken.length_le
        rw [List.length_drop] at taken
        omega
    refine ⟨delivered.within, rest ▸ writes.queued, writes.conn ▸ delivered.plain,
      delivered.memory, ?_, ?_, ?_⟩
    · rw [rest]
      simpa using length
    · rw [writes.wire, wire, rest, List.append_assoc]
      simp only [List.take_succ_cons, List.take_zero, List.flatMap_cons, List.flatMap_nil,
        List.append_nil]
      rcases from_ with rfl | here
      · simp
      · have taken := writes.taken
        rw [here, Int.toNat_natCast] at taken
        rw [List.take_add, List.prefix_iff_eq_take.mp taken]
        simp
    · intro first member
      rw [head] at member
      cases member
      exact ⟨file, low, high, free⟩
  rcases writes.offset with ⟨was, -, head⟩ | ⟨held, head, still⟩
  · have here := exact_ was
    exact ⟨_, stays (front.bufOffset + data.length) (by omega) (by omega)
      (fun _ => by omega) head (Or.inr here)⟩
  · refine ⟨_, stays front.bufOffset left (by omega)
      (fun released => absurd (held.symm.trans released) (by simp)) head ?_⟩
    cases lock : w.session.mutexes.outgoing with
    | true => exact Or.inl (still lock)
    | false => exact Or.inr (exact_ lock)

end Delivered

variable {messages : List OutMsg}

/-- One call. -/
theorem Delivers.step {call : Call} (delivers : Delivers w messages)
    (sending : SendingMemory w call) (calm : w.event = false) :
    Delivers (World.step call w).1 (messages ++ added call w) := by
  obtain ⟨gone, count, delivered⟩ := delivers calm
  cases sending with
  | addMsgBuf framingHdr body whdr fresh =>
      have adds := adds_addMsgBuf delivered.queued framingHdr body whdr fresh
      change Delivers (w.addMsgBuf _ _ _ _ _ _).1 (messages ++ if
        (w.addMsgBuf framingHdr (framingHdr.getD []).length body body.length whdr fresh).2 =
          some true then [{ hdr := framingHdr.getD [], body := .memory body }] else [])
      generalize w.addMsgBuf framingHdr (framingHdr.getD []).length body body.length whdr fresh =
        outcome at adds
      cases adds with
      | added queued quiet untouched pending was free =>
          rw [if_pos rfl]
          exact fun _ => ⟨gone, count, delivered.of_added ⟨body, rfl⟩ queued quiet untouched pending was⟩
      | refused same event =>
          exact fun noEvent => absurd (event.symm.trans noEvent) (by simp)
      | hung same quiet held still =>
          rw [if_neg (by simp), List.append_nil]
          exact fun _ => ⟨gone, count, delivered.of_same same quiet fun released =>
            absurd (still.symm.trans released) (by simp)⟩
  | write replies =>
      change Delivers (w.write replies).1 (messages ++ [])
      rw [List.append_nil]
      intro noEvent
      have entries := delivered.queued.entries
      cases pending : w.session.wpending with
      | nil =>
          obtain ⟨wbuf, held, -, -⟩ := delivered.queued.filled.buffer
          have refused : (w.write replies).1.event = true := by
            rw [write, held, pending]
            exact event_refuse ..
          exact absurd (refused.symm.trans noEvent) (by simp)
      | cons front others =>
          rw [pending] at entries
          cases rest : messages.drop gone with
          | nil =>
              rw [rest] at entries
              cases entries
          | cons msg behind =>
              obtain ⟨file, left, right, -⟩ := delivered.offset front (by rw [pending]; rfl)
              have bounded := delivered.bounded
              have queued := delivered.queued
              rw [rest] at bounded queued
              simp only [List.take_succ_cons, List.take_zero, List.flatMap_cons, List.flatMap_nil,
                List.append_nil] at bounded
              have member : msg ∈ messages := List.mem_of_mem_drop (rest ▸ List.mem_cons_self)
              rcases write_memory queued (delivered.memory msg member) pending delivered.plain left
                (by omega) calm replies with raised | ⟨data, writes⟩
              · exact absurd (raised.symm.trans noEvent) (by simp)
              · exact ⟨gone, delivered.of_writes pending rest writes⟩
  | popOutgoingMsgQueue sent =>
      change Delivers w.popOutgoingMsgQueue.1 (messages ++ [])
      rw [List.append_nil]
      obtain ⟨fewer, whole, wire⟩ := delivered.wire_of_sent sent
      cases rest : messages.drop gone with
      | nil =>
          rw [List.drop_eq_nil_iff] at rest
          omega
      | cons msg others =>
          have queued := delivered.queued
          rw [rest] at queued
          obtain ⟨⟨-, popped, -, -, conn, tail⟩ | ⟨-, same, quiet, -, still⟩, sameWire⟩ :=
            queued_popOutgoingMsgQueue queued
          · have next : messages.drop (gone + 1) = others := by
              rw [← List.drop_drop, rest]
              rfl
            refine fun _ => ⟨gone + 1, 0, fewer, next ▸ popped, conn ▸ delivered.plain,
              delivered.memory, Nat.zero_le _, ?_, ?_⟩
            · rw [sameWire, wire, List.take_zero, List.append_nil]
            · intro front member
              have untouched := delivered.queued.untouched front
                (tail ▸ List.mem_of_mem_head? member)
              exact ⟨untouched.2, untouched.1.ge, untouched.1.le, fun _ => untouched.1⟩
          · exact fun _ => ⟨gone, count, delivered.of_same same quiet fun released =>
              absurd (still.symm.trans released) (by simp)⟩

/-- As long as no error event is raised, what the socket has taken is a prefix of the
messages one behind the other, and when the front message counts as sent, it and all the
messages that have been removed have been taken whole. -/
theorem run_delivers (framingType : UInt8) {conn : SSLConn} (plain : conn.ssl = false)
    (process : Process) (fresh : Bytes) {calls : List Call}
    (sending : Machine.Along World.step
      (fun call w => SendingMemory w call ∧ w.event = false) calls
      (opened framingType conn process fresh))
    (noEvent : (Machine.run World.step calls (opened framingType conn process fresh)).1.event =
      false) :
    let start := opened framingType conn process fresh
    let reached := (Machine.run World.step calls start).1
    let messages := Machine.trace World.step added calls start
    reached.wire <+: messages.flatMap OutMsg.buffered ∧
      ∃ gone, gone + reached.session.wpending.length = messages.length ∧
        (reached.isOutgoingMsgSent = true →
          reached.wire = (messages.take (gone + 1)).flatMap OutMsg.buffered) := by
  intro start reached messages
  have begins : Delivers start [] := fun _ =>
    ⟨0, 0, le_refl _, queued_opened _ _ _ _, plain, by simp, by simp, rfl, by
      simp [start, opened, TCPSession.create, init, callocate, reallocate, onSession]⟩
  have preserved (call : Call) (w : World) (messages : List OutMsg) (delivers : Delivers w messages)
      (made : SendingMemory w call ∧ w.event = false) :
      Delivers (World.step call w).1 (messages ++ added call w) := delivers.step made.1 made.2
  obtain ⟨gone, count, delivered⟩ := Machine.run_preserves_trace preserved begins sending noEvent
  rw [List.nil_append] at delivered
  refine ⟨delivered.wire_prefix, gone, ?_, fun sent => (delivered.wire_of_sent sent).2.2⟩
  have within : gone ≤ messages.length := delivered.within
  have length : reached.session.wpending.length = (messages.drop gone).length :=
    delivered.queued.entries.length_eq
  rw [List.length_drop] at length
  omega

/-- A message of three bytes is sent in two pieces and counts as sent. -/
theorem run_delivers_one :
    let start := opened MsgHdr.typeHttp { connected := true, blocking := false } {} []
    let calls : List Call :=
      [.addMsgBuf (some (ascii "A")) (1 : Nat) (ascii "bc") (2 : Nat) { type := MsgHdr.typeHttp } none,
        .write { front := { tcp := [.accepted 1, .failed true []] } },
        .write { front := { tcp := [.accepted 2] } }]
    let reached := (Machine.run World.step calls start).1
    let messages := Machine.trace World.step added calls start
    reached.wire <+: messages.flatMap OutMsg.buffered ∧
      ∃ gone, gone + reached.session.wpending.length = messages.length ∧
        (reached.isOutgoingMsgSent = true →
          reached.wire = (messages.take (gone + 1)).flatMap OutMsg.buffered) :=
  run_delivers MsgHdr.typeHttp rfl {} []
    ⟨⟨.addMsgBuf (some (ascii "A")) (ascii "bc") _ _, rfl⟩, fun _ =>
      ⟨⟨.write _, by decide +kernel⟩, fun _ =>
        ⟨⟨.write _, by decide +kernel⟩, fun _ => trivial⟩⟩⟩ (by decide +kernel)

end World

end IpUtils
