import IpUtils.Session.Link

/-! # Two sessions that talk to each other

Both ends of a connection send and receive. Each direction is a link of its own, but the
two links run between the same two sessions, whose calls come in any order.
-/

namespace IpUtils

open CLib World

namespace World

variable {w after : World}

/-- Receiving leaves what is sent alone. -/
theorem outbox_receive (arrival : Arrival) (w : World) :
    (receive arrival w).1.outbox = w.outbox := by
  have read := (gets_read { tcp := .received arrival.bytes } (some arrival.fresh) w).outbox
  unfold receive
  dsimp only
  split
  · exact read
  · split
    · exact read
    · exact (gets_initIncomingMsg arrival.env _).outbox.trans read

/-- A session that waits for a message goes on waiting while only its outgoing side changes. -/
theorem Idle.of_inbox {held : Bytes} (idle : Idle w held) (same : after.inbox = w.inbox)
    (plain : after.session.conn.ssl = false) (calm : after.event = false) : Idle after held := by
  have rbuf : after.session.rbuf = w.session.rbuf := congrArg Inbox.rbuf same
  have rbufSize : after.session.rbufSize = w.session.rbufSize := congrArg Inbox.rbufSize same
  have rbufLen : after.session.rbufLen = w.session.rbufLen := congrArg Inbox.rbufLen same
  have locked : after.session.mutexes.incoming = w.session.mutexes.incoming :=
    congrArg Inbox.locked same
  refine ⟨⟨?_, rbufLen.trans idle.rbufLen, ?_, plain, calm⟩, locked.trans idle.free⟩
  · rw [rbuf, rbufSize]
    exact idle.array
  · rw [rbufSize]
    exact idle.room

/-- A receiving session is on plain TCP. -/
theorem Takes.plain {letter : Letter} {got : Bytes} (takes : Takes letter w got) :
    w.session.conn.ssl = false := by
  cases takes with
  | header idle => exact idle.plain
  | message idle => exact idle.plain

/-- What has been received of a letter stays while only the outgoing side changes. -/
theorem Takes.of_inbox {letter : Letter} {got : Bytes} (takes : Takes letter w got)
    (same : after.inbox = w.inbox) (plain : after.session.conn.ssl = false)
    (calm : after.event = false) : Takes letter after got := by
  have rhdr : after.session.rhdr = w.session.rhdr := congrArg Inbox.rhdr same
  have rpending : after.session.rpending = w.session.rpending := congrArg Inbox.rpending same
  cases takes with
  | header idle type initialized within short =>
      exact .header (idle.of_inbox same plain calm) (by rw [rhdr]; exact type)
        (by rw [rpending]; exact initialized) within short
  | message idle initialized bodyLen fileOffset http enough =>
      exact .message (idle.of_inbox same plain calm) (by rw [rpending]; exact initialized)
        (by rw [rpending]; exact bodyLen) (by rw [rpending]; exact fileOffset)
        (by rw [rhdr]; exact http) enough

/-- What has been sent stays sent while only the incoming side changes. -/
theorem Delivered.of_outbox {messages : List OutMsg} {gone count : Nat}
    (delivered : Delivered w messages gone count) (same : after.outbox = w.outbox)
    (plain : after.session.conn.ssl = false) : Delivered after messages gone count := by
  have queue : SameQueue w.session after.session :=
    ⟨congrArg Outbox.wbuf same, congrArg Outbox.wbufSize same, congrArg Outbox.wbufLen same,
      congrArg Outbox.wpending same, congrArg Outbox.wfiles same⟩
  have locked : after.session.mutexes.outgoing = w.session.mutexes.outgoing :=
    congrArg Outbox.locked same
  have wire : after.wire = w.wire := congrArg Outbox.wire same
  refine ⟨delivered.within, queue.queued delivered.queued, plain, delivered.memory,
    delivered.bounded, wire.trans delivered.wire, fun front member => ?_⟩
  rw [queue.wpending] at member
  rw [locked]
  exact delivered.offset front member

end World

/-- The ends of a connection. -/
inductive Side where
  | left
  | right
  deriving DecidableEq, Repr

namespace Side

def other : Side → Side
  | left => right
  | right => left

/-- There are two sides. -/
theorem eq_or (first second : Side) : first = second ∨ first = second.other := by
  cases first <;> cases second <;> decide

theorem other_ne (side : Side) : side.other ≠ side := by
  cases side <;> decide

theorem other_other (side : Side) : side.other.other = side := by
  cases side <;> rfl

/-- What holds of both sides. -/
theorem forall_iff {p : Side → Prop} : (∀ side, p side) ↔ p .left ∧ p .right :=
  ⟨fun all => ⟨all .left, all .right⟩, fun both side => by cases side; exacts [both.1, both.2]⟩

instance decidableForall {p : Side → Prop} [DecidablePred p] : Decidable (∀ side, p side) :=
  decidable_of_iff _ forall_iff.symm

end Side

/-- Two sessions, and for the direction from each of them what has come out at the other
end. A session sends and receives in threads of their own, so a call that has not returned
keeps it only from going on in the same direction. -/
structure Duplex where
  world : Side → World
  got : Side → Bytes := fun _ => []
  sending : Side → Bool := fun _ => true
  receiving : Side → Bool := fun _ => true

namespace Duplex

/-- The direction from a side. -/
def link (side : Side) (duplex : Duplex) : Link where
  sender := duplex.world side
  receiver := duplex.world side.other
  got := duplex.got side
  sending := duplex.sending side
  receiving := duplex.receiving side

/-- The direction from a side is now a given one. -/
def put (side : Side) (link : Link) (duplex : Duplex) : Duplex where
  world := fun end_ => if end_ = side then link.sender else link.receiver
  got := Function.update duplex.got side link.got
  sending := Function.update duplex.sending side link.sending
  receiving := Function.update duplex.receiving side link.receiving

/-- An event in the direction from a side. -/
def step : Machine (Side × Link.Event) Duplex := fun call duplex =>
  (duplex.put call.1 (Link.step call.2 (duplex.link call.1)).1, true)

/-- The messages that an event has added, each with the side that sends it. -/
def added (call : Side × Link.Event) (duplex : Duplex) : List (Side × OutMsg) :=
  (Link.added call.2 (duplex.link call.1)).map fun msg => (call.1, msg)

/-- The messages of a side. -/
def messagesOf (side : Side) (messages : List (Side × OutMsg)) : List OutMsg :=
  (messages.filter fun msg => msg.1 = side).map Prod.snd

/-- What is asked of an event: what is asked of it in its direction, and that neither side
goes on after an error. -/
structure Admits (call : Side × Link.Event) (duplex : Duplex) : Prop where
  admits : Link.Admits call.2 (duplex.link call.1)
  calm : ∀ side, (duplex.world side).event = false

/-- Two sessions that have just been opened. -/
def opened (conn : Side → SSLConn) (process : Side → Process) (fresh : Side → Bytes) : Duplex where
  world := fun side => World.opened MsgHdr.typeHttp (conn side) (process side) (fresh side)

variable {duplex : Duplex} {link' : Link} {side : Side}

/-- A link that has been put back is there. -/
theorem link_put_self (side : Side) (link' : Link) (duplex : Duplex) :
    (duplex.put side link').link side = link' := by
  unfold Duplex.link put
  dsimp only
  rw [if_pos rfl, if_neg side.other_ne, Function.update_self, Function.update_self,
    Function.update_self]

/-- The link of the other direction gets the two worlds and keeps its bytes. -/
theorem link_put_other (side : Side) (link' : Link) (duplex : Duplex) :
    (duplex.put side link').link side.other =
      { duplex.link side.other with sender := link'.receiver, receiver := link'.sender } := by
  unfold Duplex.link put
  dsimp only
  rw [if_neg side.other_ne, if_pos side.other_other, Function.update_of_ne side.other_ne,
    Function.update_of_ne side.other_ne, Function.update_of_ne side.other_ne]

/-- The sender of a link is the session of its side. -/
theorem world_put_self (side : Side) (link' : Link) (duplex : Duplex) :
    (duplex.put side link').world side = link'.sender :=
  if_pos rfl

/-- The receiver of a link is the session of the other side. -/
theorem world_put_other (side : Side) (link' : Link) (duplex : Duplex) :
    (duplex.put side link').world side.other = link'.receiver :=
  if_neg side.other_ne

/-- The messages of one side, one after the other. -/
theorem messagesOf_append (side : Side) (front behind : List (Side × OutMsg)) :
    messagesOf side (front ++ behind) = messagesOf side front ++ messagesOf side behind := by
  unfold messagesOf
  rw [List.filter_append, List.map_append]

/-- A call adds to the messages of its own side what it adds to the link. -/
theorem messagesOf_added (call : Side × Link.Event) (duplex : Duplex) :
    messagesOf call.1 (added call duplex) = Link.added call.2 (duplex.link call.1) := by
  unfold messagesOf added
  rw [List.filter_eq_self.mpr (by simp)]
  simp

/-- A call adds nothing to the messages of the other side. -/
theorem messagesOf_added_other (call : Side × Link.Event) (duplex : Duplex) :
    messagesOf call.1.other (added call duplex) = [] := by
  unfold messagesOf added
  rw [List.filter_eq_nil_iff.mpr, List.map_nil]
  intro msg member
  obtain ⟨out, -, rfl⟩ := List.mem_map.mp member
  simpa using Ne.symm call.1.other_ne

/-! ## One event -/

/-- What an event in one direction leaves to the other: of the sender what comes in, of the
receiver what goes out. -/
theorem boxes_step {event : Link.Event} {link : Link} (admits : Link.Admits event link) :
    (Link.step event link).1.sender.inbox = link.sender.inbox ∧
      (Link.step event link).1.receiver.outbox = link.receiver.outbox := by
  cases admits with
  | @send call _ sending calm =>
      unfold Link.step
      dsimp only
      split
      · obtain ⟨given, sends⟩ := Link.sends_step sending
        exact ⟨sends.inbox, rfl⟩
      · exact ⟨rfl, rfl⟩
  | @receive count fresh env _ fits =>
      unfold Link.step
      dsimp only
      split
      · exact ⟨rfl, outbox_receive _ _⟩
      · exact ⟨rfl, rfl⟩

/-- A direction whose sender has kept what goes out, and whose receiver what comes in. -/
theorem carries_of_boxes {letter : Letter} {link : Link} {messages : List OutMsg}
    {sender receiver : World} (carries : Link.Carries letter link messages)
    (calm : link.sender.event = false) (opens : Link.Opens letter messages)
    (outbox : sender.outbox = link.sender.outbox) (plain : sender.session.conn.ssl = false)
    (inbox : receiver.inbox = link.receiver.inbox) (plain' : receiver.session.conn.ssl = false)
    (calm' : receiver.event = false) :
    Link.Carries letter { link with sender, receiver } messages := by
  obtain ⟨gone, count, delivered⟩ := carries.delivers calm
  obtain ⟨within, receiving, takes⟩ := carries.carried calm opens
  have wire : sender.wire = link.sender.wire := congrArg Outbox.wire outbox
  refine ⟨fun _ => ⟨gone, count, delivered.of_outbox outbox plain⟩, fun _ _ => ⟨?_, receiving,
    takes.of_inbox inbox plain' calm'⟩⟩
  rw [wire]
  exact within

/-- While there is no error, each side has got a part of what the other's socket has taken,
and holds what it should. -/
def Converses (letters : Side → Letter) (duplex : Duplex) (messages : List (Side × OutMsg)) : Prop :=
  (∀ side, (duplex.world side).event = false) →
    (∀ side, Link.Opens (letters side) (messagesOf side messages)) →
      ∀ side, Link.Carries (letters side) (duplex.link side) (messagesOf side messages)

variable {letters : Side → Letter} {messages : List (Side × OutMsg)}

/-- One call of either side: its own link moves on and the other keeps what it has. -/
theorem Converses.step {call : Side × Link.Event} (converses : Converses letters duplex messages)
    (admits : Admits call duplex) :
    Converses letters (Duplex.step call duplex).1 (messages ++ added call duplex) := by
  intro quiet opens side
  have before (side : Side) : Link.Opens (letters side) (messagesOf side messages) := by
    have all := opens side
    rw [messagesOf_append] at all
    exact Link.opens_of_append all
  have carries := converses admits.calm before
  have moved : Link.Carries (letters call.1) (Link.step call.2 (duplex.link call.1)).1
      (messagesOf call.1 (messages ++ added call duplex)) := by
    rw [messagesOf_append, messagesOf_added]
    exact (carries call.1).step admits.admits
  have calm : (Link.step call.2 (duplex.link call.1)).1.sender.event = false := by
    have quiet' := quiet call.1
    rwa [Duplex.step, world_put_self] at quiet'
  have calm' : (Link.step call.2 (duplex.link call.1)).1.receiver.event = false := by
    have quiet' := quiet call.1.other
    rwa [Duplex.step, world_put_other] at quiet'
  rcases side.eq_or call.1 with rfl | rfl
  · rw [Duplex.step, link_put_self]
    exact moved
  · -- the other direction runs between the same two sessions
    obtain ⟨inbox, outbox⟩ := boxes_step admits.admits
    obtain ⟨gone, count, delivered⟩ := moved.delivers calm
    obtain ⟨-, -, takes⟩ := moved.carried calm (opens call.1)
    have back : (duplex.link call.1.other).receiver = duplex.world call.1 :=
      congrArg duplex.world call.1.other_other
    rw [Duplex.step, link_put_other, messagesOf_append, messagesOf_added_other, List.append_nil]
    exact carries_of_boxes (carries call.1.other) (admits.calm call.1.other)
      (before call.1.other) outbox takes.plain (inbox.trans (congrArg World.inbox back.symm))
      delivered.plain calm

/-! ## Whole runs -/

/-- Both directions, over a whole run. -/
theorem converses_run (letters : Side → Letter) {conn : Side → SSLConn}
    (plain : ∀ side, (conn side).ssl = false) {process : Side → Process}
    (calm : ∀ side, (process side).error.event = false) (fresh : Side → Bytes)
    {events : List (Side × Link.Event)}
    (along : Machine.Along step Admits events (opened conn process fresh)) :
    Converses letters (Machine.run step events (opened conn process fresh)).1
      (Machine.trace step added events (opened conn process fresh)) := by
  have begins : Converses letters (opened conn process fresh) [] := fun _ _ side =>
    @Link.carries_run (letters side) (conn side) (conn side.other) (plain side) (plain side.other)
      (process side) (process side.other) (calm side.other) (fresh side) (fresh side.other) []
      trivial
  have preserved (call : Side × Link.Event) (duplex : Duplex) (messages : List (Side × OutMsg))
      (converses : Converses letters duplex messages) (admits : Admits call duplex) :
      Converses letters (step call duplex).1 (messages ++ added call duplex) :=
    converses.step admits
  have result := Machine.run_preserves_trace preserved begins along
  rwa [List.nil_append] at result

/-- **Conversation.** Two sessions send and receive over one connection, their calls come in
any order and the bytes are cut anywhere. As long as neither raises an error, each side
gets what the other sends as if nothing went the other way: it never hangs, it has the
other's first message complete exactly when all of its bytes have come, and for a request
at least one behind the header, and then its header and body are those that were sent. -/
theorem run_converses (letters : Side → Letter) {conn : Side → SSLConn}
    (plain : ∀ side, (conn side).ssl = false) {process : Side → Process}
    (calm : ∀ side, (process side).error.event = false) (fresh : Side → Bytes)
    {events : List (Side × Link.Event)}
    (along : Machine.Along step Admits events (opened conn process fresh)) :
    let start := opened conn process fresh
    let reached := (Machine.run step events start).1
    let messages := Machine.trace step added events start
    (∀ side, (reached.world side).event = false) →
    (∀ side, Link.Opens (letters side) (messagesOf side messages)) → ∀ side,
      let got := reached.got side
      let receiver := reached.world side.other
      reached.receiving side = true ∧
      got <+: (messagesOf side messages).flatMap OutMsg.buffered ∧
      (receiver.isIncomingMsgComplete = true ↔
        (letters side).header.length + max (letters side).needs (letters side).body.length ≤
          got.length) ∧
      (receiver.isIncomingMsgComplete = true →
        receiver.session.rhdr.http = (letters side).http ∧
        receiver.session.rpending.bodyLen = (letters side).body.length ∧
        receiver.session.rbuf.map (List.take receiver.session.rbufLen.toNat) =
          some ((letters side).body ++ got.drop (letters side).text.length)) ∧
      ((reached.world side).isOutgoingMsgSent = true → (reached.link side).inFlight = [] →
        (receiver.isIncomingMsgComplete = true ↔
          (letters side).needs ≤
            (letters side).body.length + (got.drop (letters side).text.length).length)) := by
  intro start reached messages quiet opens side got receiver
  have carries : Link.Carries (letters side) (reached.link side) (messagesOf side messages) :=
    converses_run letters plain calm fresh along quiet opens side
  obtain ⟨receiving, -, part, complete, contents, sent⟩ := carries.exchanges (quiet side) (opens side)
  exact ⟨receiving, part, complete, contents, sent⟩

/-- The left side asks, and the right side answers before it has seen the end of the request. -/
def sampleCalls : List (Side × Link.Event) :=
  [(.left, .send (.addMsgBuf (some (Letter.ofRequest Link.sampleRequest).header)
      (Letter.ofRequest Link.sampleRequest).header.length [] (0 : Nat)
      { type := MsgHdr.typeHttp } none)),
    (.left, .send (.write { front := { tcp := [.accepted 20, .failed true []] } })),
    (.left, .receive 100 [] {}),
    (.right, .send (.addMsgBuf (some sampleResponse.header) sampleResponse.header.length
      (ascii "hi") (2 : Nat) { type := MsgHdr.typeHttp } none)),
    (.right, .send (.write { front := { tcp := [.accepted 100] } })),
    (.left, .send (.write { front := { tcp := [.accepted 100] } })),
    (.right, .receive 100 [] {})]

def sampleLetters : Side → Letter
  | .left => Letter.ofRequest Link.sampleRequest
  | .right => Letter.ofResponse sampleResponse

/-- Both sides send a response, and the left one has that of the right. -/
theorem run_converses_sample :
    let start := opened (fun _ => { connected := true, blocking := false }) (fun _ => {}) fun _ => []
    ((Machine.run step sampleCalls start).1.world .left).isIncomingMsgComplete = true :=
  ((@run_converses sampleLetters (fun _ => { connected := true, blocking := false })
    (fun _ => rfl) (fun _ => {}) (fun _ => rfl) (fun _ => []) sampleCalls
    ⟨⟨.send (.addMsgBuf (some (Letter.ofRequest Link.sampleRequest).header) [] _ _) rfl,
        by decide +kernel⟩, fun _ =>
      ⟨⟨.send (.write _) (by decide +kernel), by decide +kernel⟩, fun _ =>
      ⟨⟨.receive ⟨by decide +kernel, rfl, by decide +kernel⟩, by decide +kernel⟩, fun _ =>
      ⟨⟨.send (.addMsgBuf (some sampleResponse.header) (ascii "hi") _ _) (by decide +kernel),
        by decide +kernel⟩, fun _ =>
      ⟨⟨.send (.write _) (by decide +kernel), by decide +kernel⟩, fun _ =>
      ⟨⟨.send (.write _) (by decide +kernel), by decide +kernel⟩, fun _ =>
      ⟨⟨.receive ⟨by decide +kernel, rfl, by decide +kernel⟩, by decide +kernel⟩,
        fun _ => trivial⟩⟩⟩⟩⟩⟩⟩
    (by decide +kernel) (by unfold Link.Opens; decide +kernel) .right).2.2.1).mpr
    (by decide +kernel)

end Duplex

end IpUtils
