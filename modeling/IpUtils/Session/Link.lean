import IpUtils.Session.Boxes
import IpUtils.Session.Delivery
import IpUtils.Session.Letters

/-! # Two sessions over one connection

What the socket of one session has taken is what `read(2)` of the other can return, in
any pieces and at any time. The two sessions run in processes of their own, and their
calls come in any order.
-/

namespace IpUtils

open CLib World

/-- The two ends of a connection, and what has come out of it so far. An end whose last
call has not returned makes no other one. -/
structure Link where
  sender : World
  receiver : World
  got : Bytes := []
  sending : Bool := true
  receiving : Bool := true

namespace Link

/-- A call of the sender, or a round of the receiver's loop in which `read(2)` returns at
most `count` of the bytes that are in flight. -/
inductive Event where
  | send (call : Call)
  | receive (count : Nat) (fresh : Bytes) (env : InitEnv)

/-- The bytes in flight. -/
def inFlight (link : Link) : Bytes :=
  link.sender.wire.drop link.got.length

/-- What a round of the receiver gets. -/
def arrival (link : Link) (count : Nat) (fresh : Bytes) (env : InitEnv) : Arrival :=
  { bytes := link.inFlight.take count, fresh, env }

def step : Machine Event Link
  | .send call, link =>
      if link.sending then
        let outcome := World.step call link.sender
        ({ link with sender := outcome.1, sending := outcome.2 }, true)
      else (link, true)
  | .receive count fresh env, link =>
      if link.receiving then
        let arrival := link.arrival count fresh env
        let outcome := World.receive arrival link.receiver
        ({ link with
            receiver := outcome.1
            got := link.got ++ arrival.bytes
            receiving := outcome.2 }, true)
      else (link, true)

/-- The messages that an event has added. -/
def added : Event → Link → List OutMsg
  | .send call, link => if link.sending then World.added call link.sender else []
  | .receive _ _ _, _ => []

/-- What is asked of an event: the sender's messages are in memory and only sent ones are
removed, and the receiver has room. -/
inductive Admits : Event → Link → Prop
  | send {call : Call} {link : Link} (sending : SendingMemory link.sender call)
      (calm : link.sender.event = false) : Admits (.send call) link
  | receive {count : Nat} {fresh : Bytes} {env : InitEnv} {link : Link}
      (fits : Fits (link.arrival count fresh env) link.receiver) :
      Admits (.receive count fresh env) link

/-- Two sessions that have just been opened. -/
def opened (sending receiving : SSLConn) (sender receiver : Process) (fresh fresh' : Bytes) :
    Link where
  sender := World.opened MsgHdr.typeHttp sending sender fresh
  receiver := World.opened MsgHdr.typeHttp receiving receiver fresh'

/-! ## One step -/

/-- A call of the sender. -/
theorem sends_step {w : World} {call : Call} (sending : SendingMemory w call) :
    ∃ given, Sends given w (World.step call w).1 := by
  cases sending with
  | addMsgBuf framingHdr body whdr fresh => exact ⟨_, sends_addMsgBuf ..⟩
  | write replies => exact ⟨_, sends_write replies w⟩
  | popOutgoingMsgQueue sent => exact ⟨_, sends_popOutgoingMsgQueue w⟩

/-- Of the messages that the sender has added, the first is the letter. -/
def Opens (letter : Letter) (messages : List OutMsg) : Prop :=
  ∀ out ∈ messages.head?, out = letter.out

/-- As long as the sender has raised no error and the letter is its first message, the
receiver has got a part of what the sender's socket has taken, and holds what it should. -/
structure Carries (letter : Letter) (link : Link) (messages : List OutMsg) : Prop where
  delivers : Delivers link.sender messages
  carried : link.sender.event = false → Opens letter messages →
    link.got <+: link.sender.wire ∧ link.receiving = true ∧ Takes letter link.receiver link.got

variable {letter : Letter} {link : Link} {messages : List OutMsg}

theorem opens_of_append {more : List OutMsg} (opens : Opens letter (messages ++ more)) :
    Opens letter messages := by
  intro out member
  apply opens out
  cases messages with
  | nil => cases member
  | cons first others => exact member

/-- What is on the wire is a part of a stream that starts with the letter. -/
theorem stream_of_opens {got : Bytes} (opens : Opens letter messages)
    (within : got <+: messages.flatMap OutMsg.buffered) :
    ∃ more rest, got ++ more = letter.text ++ rest := by
  obtain ⟨more, whole⟩ := within
  cases messages with
  | nil =>
      rw [List.flatMap_nil] at whole
      obtain ⟨rfl, -⟩ := List.append_eq_nil_iff.mp whole
      exact ⟨letter.text, [], by simp⟩
  | cons first others =>
      have same : first = letter.out := opens first rfl
      refine ⟨more, others.flatMap OutMsg.buffered, ?_⟩
      rw [whole, same, List.flatMap_cons, Letter.buffered_out]

/-- One event. -/
theorem Carries.step {event : Event} (carries : Carries letter link messages)
    (admits : Admits event link) :
    Carries letter (Link.step event link).1 (messages ++ added event link) := by
  cases admits with
  | @send call _ sending calm =>
      cases free : link.sending with
      | false =>
          have same : Link.step (.send call) link = (link, true) := by simp [Link.step, free]
          have none_ : added (.send call) link = [] := by simp [added, free]
          rw [same, none_, List.append_nil]
          exact carries
      | true =>
          have moved : (Link.step (.send call) link).1 =
              { link with
                sender := (World.step call link.sender).1
                sending := (World.step call link.sender).2 } := by
            simp [Link.step, free]
          have more : added (.send call) link = World.added call link.sender := by
            simp [added, free]
          rw [moved, more]
          refine ⟨carries.delivers.step sending calm, fun quiet opens => ?_⟩
          obtain ⟨within, receiving, takes⟩ := carries.carried calm (opens_of_append opens)
          obtain ⟨given, sends⟩ := sends_step sending
          exact ⟨within.trans sends.wire, receiving, takes⟩
  | @receive count fresh env _ fits =>
      change Carries letter _ (messages ++ [])
      rw [List.append_nil]
      cases free : link.receiving with
      | false =>
          have same : Link.step (.receive count fresh env) link = (link, true) := by
            simp [Link.step, free]
          rw [same]
          exact carries
      | true =>
          have moved : (Link.step (.receive count fresh env) link).1 =
              { link with
                receiver := (World.receive (link.arrival count fresh env) link.receiver).1
                got := link.got ++ (link.arrival count fresh env).bytes
                receiving := (World.receive (link.arrival count fresh env) link.receiver).2 } := by
            simp [Link.step, free]
          rw [moved]
          refine ⟨carries.delivers, fun quiet opens => ?_⟩
          obtain ⟨within, -, takes⟩ := carries.carried quiet opens
          have further : link.got ++ (link.arrival count fresh env).bytes <+: link.sender.wire := by
            obtain ⟨flight, whole⟩ := within
            have inFlight : link.inFlight = flight := by
              rw [Link.inFlight, ← whole, List.drop_left]
            rw [arrival, inFlight, ← whole]
            exact (List.prefix_append_right_inj _).mpr (List.take_prefix _ _)
          obtain ⟨gone, sent, delivered⟩ := carries.delivers quiet
          obtain ⟨more, rest, stream⟩ := stream_of_opens opens
            (further.trans delivered.wire_prefix)
          exact ⟨further, takes.step fits stream⟩

/-- What the receiver has and knows, as long as there is no error. -/
theorem Carries.exchanges (carries : Carries letter link messages)
    (quiet : link.sender.event = false) (opens : Opens letter messages) :
    link.receiving = true ∧ link.receiver.event = false ∧
      link.got <+: messages.flatMap OutMsg.buffered ∧
      (link.receiver.isIncomingMsgComplete = true ↔
        letter.header.length + max letter.needs letter.body.length ≤ link.got.length) ∧
      (link.receiver.isIncomingMsgComplete = true →
        link.receiver.session.rhdr.http = letter.http ∧
        link.receiver.session.rpending.bodyLen = letter.body.length ∧
        link.receiver.session.rbuf.map (List.take link.receiver.session.rbufLen.toNat) =
          some (letter.body ++ link.got.drop letter.text.length)) ∧
      (link.sender.isOutgoingMsgSent = true → link.inFlight = [] →
        (link.receiver.isIncomingMsgComplete = true ↔
          letter.needs ≤ letter.body.length + (link.got.drop letter.text.length).length)) := by
  obtain ⟨within, free, takes⟩ := carries.carried quiet opens
  obtain ⟨gone, sent, delivered⟩ := carries.delivers quiet
  have part := within.trans delivered.wire_prefix
  obtain ⟨more, rest, stream⟩ := stream_of_opens opens part
  refine ⟨free, takes.calm, part, takes.complete_iff, takes.contents stream, fun counted empty => ?_⟩
  obtain ⟨fewer, -, wire⟩ := delivered.wire_of_sent counted
  have all : link.got = link.sender.wire := by
    obtain ⟨flight, whole⟩ := within
    have none_ : flight = [] := by
      rw [← @List.drop_left _ link.got flight, whole]
      exact empty
    rw [← whole, none_, List.append_nil]
  have long : letter.text.length ≤ link.got.length := by
    rw [all, wire]
    cases shape : messages with
    | nil =>
        rw [shape] at fewer
        cases fewer
    | cons first others =>
        have same : first = letter.out := opens first (by rw [shape]; rfl)
        rw [List.take_succ_cons, List.flatMap_cons, same, Letter.buffered_out, List.length_append]
        exact Nat.le_add_right _ _
  rw [takes.complete_iff, List.length_drop]
  rw [Letter.text, List.length_append] at long ⊢
  omega

/-! ## Whole runs -/

/-- What holds of two sessions after any events. -/
theorem carries_run (letter : Letter) {sending receiving : SSLConn} (plain : sending.ssl = false)
    (plain' : receiving.ssl = false) (sender : Process) {receiver : Process}
    (calm : receiver.error.event = false) (fresh fresh' : Bytes) {events : List Event}
    (along : Machine.Along step Admits events
      (opened sending receiving sender receiver fresh fresh')) :
    Carries letter (Machine.run step events (opened sending receiving sender receiver fresh fresh')).1
      (Machine.trace step added events (opened sending receiving sender receiver fresh fresh')) := by
  have delivers : Delivers (opened sending receiving sender receiver fresh fresh').sender [] :=
    fun _ => ⟨0, 0, le_refl _, queued_opened _ _ _ _, plain, by simp, by simp, rfl, by
      simp [opened, World.opened, TCPSession.create, init, callocate, reallocate, onSession]⟩
  have begins : Carries letter (opened sending receiving sender receiver fresh fresh') [] :=
    ⟨delivers, fun _ _ => ⟨List.nil_prefix, rfl, takes_opened letter plain' calm fresh'⟩⟩
  have preserved (event : Event) (link : Link) (messages : List OutMsg)
      (carries : Carries letter link messages) (admits : Admits event link) :
      Carries letter (step event link).1 (messages ++ added event link) := carries.step admits
  have result := Machine.run_preserves_trace preserved begins along
  rwa [List.nil_append] at result

/-- **Exchange.** Whatever the order of the two sessions' calls and however the bytes are
cut on their way, the receiver raises no error and never hangs. It has the sender's first
message complete exactly when all of its bytes have come, and for a request at least one
behind the header; then its header and body are those that were sent. When the sender
counts the message as sent and nothing is in flight, only a missing byte behind a request
can keep the receiver from it. -/
theorem run_exchanges (letter : Letter) {sending receiving : SSLConn}
    (plain : sending.ssl = false) (plain' : receiving.ssl = false) (sender : Process)
    {receiver : Process} (calm : receiver.error.event = false) (fresh fresh' : Bytes)
    {events : List Event}
    (along : Machine.Along step Admits events
      (opened sending receiving sender receiver fresh fresh')) :
    let start := opened sending receiving sender receiver fresh fresh'
    let reached := (Machine.run step events start).1
    let messages := Machine.trace step added events start
    reached.sender.event = false → Opens letter messages →
      reached.receiving = true ∧ reached.receiver.event = false ∧
      reached.got <+: messages.flatMap OutMsg.buffered ∧
      (reached.receiver.isIncomingMsgComplete = true ↔
        letter.header.length + max letter.needs letter.body.length ≤ reached.got.length) ∧
      (reached.receiver.isIncomingMsgComplete = true →
        reached.receiver.session.rhdr.http = letter.http ∧
        reached.receiver.session.rpending.bodyLen = letter.body.length ∧
        reached.receiver.session.rbuf.map
            (List.take reached.receiver.session.rbufLen.toNat) =
          some (letter.body ++ reached.got.drop letter.text.length)) ∧
      (reached.sender.isOutgoingMsgSent = true → reached.inFlight = [] →
        (reached.receiver.isIncomingMsgComplete = true ↔
          letter.needs ≤ letter.body.length + (reached.got.drop letter.text.length).length)) := by
  intro start reached messages quiet opens
  exact (carries_run letter plain plain' sender calm fresh fresh' along).exchanges quiet opens

/-- A response is sent in two pieces and received in three. -/
def sampleEvents : List Event :=
  [.send (.addMsgBuf (some sampleResponse.header) sampleResponse.header.length (ascii "hi")
      (2 : Nat) { type := MsgHdr.typeHttp } none),
    .receive 5 [] {}, .send (.write { front := { tcp := [.accepted 30, .failed true []] } }),
    .receive 20 [] {}, .receive 20 [] {}, .send (.write { front := { tcp := [.accepted 100] } }),
    .receive 100 [] {}]

theorem run_exchanges_sample :
    let start := opened { connected := true, blocking := false } {} {} {} [] []
    (Machine.run step sampleEvents start).1.receiver.isIncomingMsgComplete = true :=
  ((@run_exchanges (Letter.ofResponse sampleResponse) { connected := true, blocking := false } {}
    rfl rfl {} {} rfl [] [] sampleEvents
    ⟨.send (.addMsgBuf (some sampleResponse.header) (ascii "hi") _ _) rfl, fun _ =>
      ⟨.receive ⟨by decide +kernel, rfl, by decide +kernel⟩, fun _ =>
      ⟨.send (.write _) (by decide +kernel), fun _ =>
      ⟨.receive ⟨by decide +kernel, rfl, by decide +kernel⟩, fun _ =>
      ⟨.receive ⟨by decide +kernel, rfl, by decide +kernel⟩, fun _ =>
      ⟨.send (.write _) (by decide +kernel), fun _ =>
      ⟨.receive ⟨by decide +kernel, rfl, by decide +kernel⟩, fun _ => trivial⟩⟩⟩⟩⟩⟩⟩
    (by decide +kernel) (by unfold Opens; decide +kernel)).2.2.2.1).mpr (by decide +kernel)

/-- **A request without a body is not noticed.** While nothing else is sent behind it, the
receiver never takes its header, however long it goes on reading. -/
theorem run_overlooks (request : Request) (bare : request.body = []) {sending receiving : SSLConn}
    (plain : sending.ssl = false) (plain' : receiving.ssl = false) (sender : Process)
    {receiver : Process} (calm : receiver.error.event = false) (fresh fresh' : Bytes)
    {events : List Event}
    (along : Machine.Along step Admits events
      (opened sending receiving sender receiver fresh fresh')) :
    let start := opened sending receiving sender receiver fresh fresh'
    let reached := (Machine.run step events start).1
    let messages := Machine.trace step added events start
    reached.sender.event = false → messages <+: [(Letter.ofRequest request).out] →
      reached.receiver.isIncomingMsgInitialized = false ∧ reached.receiver.event = false ∧
        reached.receiver.session.rbufLen = reached.got.length := by
  intro start reached messages quiet only
  have carries : Carries (Letter.ofRequest request) reached messages :=
    carries_run _ plain plain' sender calm fresh fresh' along
  have opens : Opens (Letter.ofRequest request) messages := by
    intro out member
    exact List.mem_singleton.mp (only.subset (List.mem_of_mem_head? member))
  obtain ⟨within, -, takes⟩ := carries.carried quiet opens
  obtain ⟨gone, sent, delivered⟩ := carries.delivers quiet
  have short : reached.got.length ≤ (Letter.ofRequest request).header.length := by
    have length := (within.trans delivered.wire_prefix).length_le
    refine length.trans ?_
    obtain ⟨others, whole⟩ := only
    have total := congrArg (fun messages => (messages.flatMap OutMsg.buffered).length) whole
    have text : (Letter.ofRequest request).out.buffered =
        (Letter.ofRequest request).header ++ request.body := rfl
    simp only [List.flatMap_append, List.length_append, List.flatMap_cons, List.flatMap_nil,
      List.append_nil, text, bare] at total
    omega
  have needs : (Letter.ofRequest request).needs = 1 := rfl
  have untaken : ¬ reached.receiver.isIncomingMsgInitialized = true := by
    rw [takes.initialized_iff, needs]
    omega
  refine ⟨by simpa using untaken, takes.calm, ?_⟩
  generalize reached.got = got at takes short
  cases takes with
  | header idle => exact idle.rbufLen
  | message idle initialized => exact absurd initialized untaken

/-- `GET http://h:80/p`, without a field. -/
def sampleGet : HTTPFraming :=
  HTTPFraming.initRequest .get
    { scheme := ascii "http", host := ascii "h", port := 80, path := ascii "p" } {}

theorem sampleGet_uncut : ∀ count < 33,
    HTTPFraming.cutsQueryKey ((HTTPFraming.printHdr 0 false sampleGet).take count) = false := by
  decide +kernel

def sampleRequest : Request where
  http := sampleGet
  body := []
  built := .initRequest (by decide) _ _
  request := rfl
  safe :=
    { uri := fun _ =>
        { scheme_ne_nil := by decide, host_ne_nil := by decide, path_ne_nil := by decide
          scheme := by decide +kernel, host := by decide +kernel, path := by decide +kernel
          keys := by decide +kernel, values := by decide +kernel, fragment := by decide +kernel }
      msgHdrs := List.forall_mem_nil _ }
  fits := by decide +kernel
  uncut part within := by
    have length : (HTTPFraming.printHdr 0 false sampleGet).length < 33 := by decide +kernel
    have short := within.length_le
    rw [List.prefix_iff_eq_take.mp within]
    exact sampleGet_uncut _ (by omega)
  length := by decide +kernel

/-- The request is sent whole and received whole. -/
def sampleGetEvents : List Event :=
  [.send (.addMsgBuf (some (Letter.ofRequest sampleRequest).header)
      (Letter.ofRequest sampleRequest).header.length [] (0 : Nat) { type := MsgHdr.typeHttp } none),
    .send (.write { front := { tcp := [.accepted 100] } }), .receive 100 [] {}]

theorem run_overlooks_get :
    let start := opened { connected := true, blocking := false } {} {} {} [] []
    (Machine.run step sampleGetEvents start).1.receiver.isIncomingMsgInitialized = false :=
  (@run_overlooks sampleRequest rfl { connected := true, blocking := false } {} rfl rfl {} {} rfl
    [] [] sampleGetEvents
    ⟨.send (.addMsgBuf (some (Letter.ofRequest sampleRequest).header) [] _ _) rfl, fun _ =>
      ⟨.send (.write _) (by decide +kernel), fun _ =>
      ⟨.receive ⟨by decide +kernel, rfl, by decide +kernel⟩, fun _ => trivial⟩⟩⟩
    (by decide +kernel) (by decide +kernel)).1

end Link

end IpUtils
