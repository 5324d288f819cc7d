import IpUtils.Session.Machine

/-! # The framing type of the read header

`rhdr_` is made with the framing type of the session. Whatever clears it makes it a header
of no type, and nothing gives it the type of the session again.
-/

namespace IpUtils

open CLib

/-- The calls on the read side of a session. -/
inductive Receiving : Call → Prop
  | init (rbuf : Bool) (wbuf : Option Bytes) : Receiving (.init rbuf wbuf)
  | read (reply : SSLConn.NetRead) (fresh : Option Bytes) : Receiving (.read reply fresh)
  | initIncomingMsg (env : InitEnv) : Receiving (.initIncomingMsg env)
  | streamIncomingMsg (reply : WriteReply) : Receiving (.streamIncomingMsg reply)
  | setRfile (path : Option Bytes) (reply : OpenReply) : Receiving (.setRfile path reply)
  | setStorage (storage : UInt8) : Receiving (.setStorage storage)
  | clearIncomingMsg : Receiving .clearIncomingMsg

namespace World

variable {w : World}

/-- The kernel's answer to `Read` is an error, or the buffer is full and cannot be made
larger. -/
def ReadFails (reply : SSLConn.NetRead) (fresh : Option Bytes) (w : World) : Prop :=
  let received := w.session.conn.read (w.session.rbufSize - w.session.rbufLen) reply w.process.error
  received.error.event = true ∨
    w.session.rbufLen + received.value = w.session.rbufSize ∧ fresh = none

/-- The bytes in `rbuf_` are not those of a header. -/
def ParseFails (env : InitEnv) (w : World) : Prop :=
  ∃ rbuf, w.session.rbuf = some rbuf ∧ (w.parseRhdr env rbuf).bytesUsed = none ∧
    (w.parseRhdr env rbuf).process.error.event = true

/-- A call clears `rhdr_`. -/
def Wipes : Call → World → Prop
  | .clearIncomingMsg, w => w.session.rbuf.isSome = true ∧ w.session.mutexes.incoming = false
  | .read reply fresh, w =>
      w.session.rbuf.isSome = true ∧ w.session.mutexes.incoming = false ∧ w.ReadFails reply fresh
  | .initIncomingMsg env, w =>
      w.session.rbufLen ≠ 0 ∧ w.session.mutexes.incoming = false ∧ env.calloc = true ∧
        w.ParseFails env
  | .streamIncomingMsg reply, w =>
      w.session.rbuf.isSome = true ∧ w.session.rfile.isOpen w.process = true ∧
        w.session.rpending.initialized = true ∧ w.session.mutexes.incoming = false ∧
        ∃ again reason, reply = .failed again reason
  | _, _ => False

/-! ## Parts that keep the type -/

theorem type_initFromBuf (env : MsgHdr.BufEnv) (window : Bytes) (chunked : ChunkBuf) (hdr : MsgHdr)
    (process : Process) : (hdr.initFromBuf env window chunked process).hdr.type = hdr.type := by
  unfold MsgHdr.initFromBuf
  split
  · unfold MsgHdr.initBasic
    split <;> rfl
  · split
    · unfold MsgHdr.initHttp
      dsimp only
      split <;> rfl
    · rfl

theorem type_setBodyLen (bodyLen : Nat) (hdr : MsgHdr) (error : ErrorHandler) :
    (hdr.setBodyLen bodyLen error).1.type = hdr.type := by
  unfold MsgHdr.setBodyLen
  split
  · rfl
  · split <;> rfl

@[simp] theorem rhdr_shiftRbuf (len offset : Int) (w : World) :
    (w.shiftRbuf len offset).session.rhdr = w.session.rhdr := by
  unfold shiftRbuf
  split <;> rfl

theorem type_takeHeader (rbuf : Bytes) (used : Nat) (chunked : ChunkBuf) (w : World) :
    (w.takeHeader rbuf used chunked).session.rhdr.type = w.session.rhdr.type := by
  unfold takeHeader
  dsimp only [onSession]
  split
  · rw [type_setBodyLen, rhdr_shiftRbuf]
  · rw [rhdr_shiftRbuf]

theorem type_resetRbuf (some_ : w.session.rbuf.isSome = true) :
    w.resetRbuf.session.rhdr.type = MsgHdr.typeNone := by
  unfold resetRbuf
  rw [if_neg (by rw [Option.isNone_iff_eq_none, ← Option.not_isSome_iff_eq_none]; simp [some_])]
  rfl

/-! ## One call -/

/-- What a call has done to the type of `rhdr_`. -/
def Retypes (wipes : Prop) (w after : World) : Prop :=
  wipes ∧ after.session.rhdr.type = MsgHdr.typeNone ∨
    ¬ wipes ∧ after.session.rhdr.type = w.session.rhdr.type

theorem retypes_read (reply : SSLConn.NetRead) (fresh : Option Bytes) (w : World) :
    Retypes (Wipes (.read reply fresh) w) w (w.read reply fresh).1 := by
  unfold read
  split
  · rename_i none_
    exact Or.inr ⟨fun wipes => absurd wipes.1 (by simp [none_]), rfl⟩
  rename_i rbuf some_
  have has : w.session.rbuf.isSome = true := by rw [some_]; rfl
  cases held : w.session.mutexes.incoming with
  | true =>
      rw [lockIncoming_of_held held]
      exact Or.inr ⟨fun wipes => absurd (held.symm.trans wipes.2.1) (by simp), rfl⟩
  | false =>
      rw [lockIncoming_of_free held]
      dsimp only
      split
      · rename_i raised
        exact Or.inl ⟨⟨has, held, Or.inl raised⟩, type_resetRbuf rfl⟩
      · rename_i calm
        unfold keepReceived
        dsimp only
        split
        · rename_i full
          split
          · rename_i failed
            exact Or.inl ⟨⟨has, held, Or.inr ⟨full, Option.map_eq_none_iff.mp failed⟩⟩,
              type_resetRbuf rfl⟩
          · rename_i grown
            obtain ⟨bytes, given, -⟩ := Option.map_eq_some_iff.mp grown
            refine Or.inr ⟨fun wipes => ?_, rfl⟩
            rcases wipes.2.2 with raised | ⟨-, none_⟩
            · exact calm raised
            · rw [given] at none_
              cases none_
        · rename_i room
          refine Or.inr ⟨fun wipes => ?_, rfl⟩
          rcases wipes.2.2 with raised | ⟨full, -⟩
          · exact calm raised
          · exact room full

theorem retypes_initIncomingMsg (env : InitEnv) (w : World) :
    Retypes (Wipes (.initIncomingMsg env) w) w (w.initIncomingMsg env).1 := by
  unfold initIncomingMsg
  split
  · rename_i none_
    refine Or.inr ⟨fun wipes => ?_, rfl⟩
    obtain ⟨rbuf, some_, -⟩ := wipes.2.2.2
    rw [none_] at some_
    cases some_
  rename_i rbuf some_
  split
  · rename_i empty
    exact Or.inr ⟨fun wipes => wipes.1 empty, rfl⟩
  rename_i inhabited
  cases held : w.session.mutexes.incoming with
  | true =>
      rw [lockIncoming_of_held held]
      exact Or.inr ⟨fun wipes => absurd (held.symm.trans wipes.2.1) (by simp), rfl⟩
  | false =>
      rw [lockIncoming_of_free held]
      have same : w.incomingLocked.parseRhdr env rbuf = w.parseRhdr env rbuf := rfl
      have keeps : (w.parseRhdr env rbuf).hdr.type = w.session.rhdr.type := type_initFromBuf ..
      cases calloc : env.calloc with
      | false => exact Or.inr ⟨fun wipes => absurd (calloc.symm.trans wipes.2.2.1) (by simp), rfl⟩
      | true =>
          simp only [Bool.not_true, Bool.false_eq_true, ↓reduceIte, same]
          split
          · rename_i unread
            split
            · rename_i raised
              exact Or.inl ⟨⟨inhabited, held, calloc, rbuf, some_, unread, raised⟩,
                type_resetRbuf (by simp [onProcess, incomingLocked, onSession, some_])⟩
            · rename_i calm
              refine Or.inr ⟨fun wipes => ?_, keeps⟩
              obtain ⟨other, same', -, raised⟩ := wipes.2.2.2
              obtain rfl := Option.some.inj (some_.symm.trans same')
              exact calm raised
          · rename_i used accepted
            refine Or.inr ⟨fun wipes => ?_, (type_takeHeader ..).trans keeps⟩
            obtain ⟨other, same', unread, -⟩ := wipes.2.2.2
            obtain rfl := Option.some.inj (some_.symm.trans same')
            rw [accepted] at unread
            cases unread

theorem retypes_streamIncomingMsg (reply : WriteReply) (w : World) :
    Retypes (Wipes (.streamIncomingMsg reply) w) w (w.streamIncomingMsg reply).1 := by
  unfold streamIncomingMsg
  split
  · rename_i none_
    exact Or.inr ⟨fun wipes => absurd wipes.1 (by simp [none_]), rfl⟩
  rename_i rbuf some_
  split
  · rename_i closed
    exact Or.inr ⟨fun wipes => by simp [wipes.2.1] at closed, rfl⟩
  rename_i isOpen
  split
  · rename_i fresh
    exact Or.inr ⟨fun wipes => by simp [wipes.2.2.1] at fresh, rfl⟩
  rename_i initialized
  cases held : w.session.mutexes.incoming with
  | true =>
      rw [lockIncoming_of_held held]
      exact Or.inr ⟨fun wipes => absurd (held.symm.trans wipes.2.2.2.1) (by simp), rfl⟩
  | false =>
      rw [lockIncoming_of_free held]
      cases reply with
      | failed again reason =>
          exact Or.inl ⟨⟨by rw [some_]; rfl, by simpa using isOpen, by simpa using initialized, held,
            again, reason, rfl⟩, type_resetRbuf (by simp [raise, onProcess, incomingLocked, onSession, some_])⟩
      | accepted count =>
          refine Or.inr ⟨fun wipes => ?_, ?_⟩
          · obtain ⟨again, reason, same⟩ := wipes.2.2.2.2
            cases same
          · dsimp only
            -- how much of the body there is, and whether it is complete with it
            split
            · split
              · exact congrArg MsgHdr.type (rhdr_shiftRbuf ..)
              · exact congrArg MsgHdr.type (rhdr_shiftRbuf ..)
            · split
              · exact congrArg MsgHdr.type (rhdr_shiftRbuf ..)
              · exact congrArg MsgHdr.type (rhdr_shiftRbuf ..)

theorem retypes_clearIncomingMsg (w : World) :
    Retypes (Wipes .clearIncomingMsg w) w w.clearIncomingMsg.1 := by
  unfold clearIncomingMsg
  split
  · rename_i none_
    exact Or.inr ⟨fun wipes => absurd wipes.1 (by simp [none_]), rfl⟩
  rename_i rbuf some_
  cases held : w.session.mutexes.incoming with
  | true =>
      rw [lockIncoming_of_held held]
      exact Or.inr ⟨fun wipes => absurd (held.symm.trans wipes.2) (by simp), rfl⟩
  | false =>
      rw [lockIncoming_of_free held]
      exact Or.inl ⟨⟨by rw [some_]; rfl, held⟩, rfl⟩

theorem type_init (rbuf : Bool) (wbuf : Option Bytes) (w : World) :
    (w.init rbuf wbuf).1.session.rhdr = w.session.rhdr := by
  unfold init
  split
  · rfl
  split
  · rfl
  split
  · rfl
  · dsimp only
    split <;> rfl

theorem type_setRfile (path : Option Bytes) (reply : OpenReply) (w : World) :
    (w.setRfile path reply).1.session.rhdr = w.session.rhdr := by
  unfold setRfile
  split
  · rfl
  split
  · rfl
  split
  · rfl
  unfold lockIncoming
  dsimp only
  split <;> rfl

/-- A call clears the type of the read header, or leaves it. -/
theorem retypes_step {call : Call} (receiving : Receiving call) (w : World) :
    Retypes (Wipes call w) w (World.step call w).1 := by
  cases receiving with
  | init rbuf wbuf => exact Or.inr ⟨id, congrArg MsgHdr.type (type_init rbuf wbuf w)⟩
  | read reply fresh => exact retypes_read reply fresh w
  | initIncomingMsg env => exact retypes_initIncomingMsg env w
  | streamIncomingMsg reply => exact retypes_streamIncomingMsg reply w
  | setRfile path reply => exact Or.inr ⟨id, congrArg MsgHdr.type (type_setRfile path reply w)⟩
  | setStorage storage =>
      refine Or.inr ⟨id, ?_⟩
      change (w.setStorage storage).1.session.rhdr.type = _
      unfold setStorage lockIncoming
      dsimp only
      split <;> rfl
  | clearIncomingMsg => exact retypes_clearIncomingMsg w

/-! ## Whole runs -/

/-- In every state that a run reaches the read header has a type. -/
def StaysOfType (type : UInt8) (calls : List Call) (w : World) : Prop :=
  ∀ front, front <+: calls → (Machine.run World.step front w).1.session.rhdr.type = type

theorem staysOfType_cons (type : UInt8) (call : Call) (calls : List Call) (w : World) :
    StaysOfType type (call :: calls) w ↔
      w.session.rhdr.type = type ∧ (World.step call w).1.session.rhdr.type = type ∧
        ((World.step call w).2 = true → StaysOfType type calls (World.step call w).1) := by
  constructor
  · intro stays
    refine ⟨stays [] List.nil_prefix, ?_, fun returns front within => ?_⟩
    · have first := stays [call] (by simp)
      simp only [Machine.run] at first
      split at first <;> exact first
    · have longer := stays (call :: front) (by simpa using within)
      rwa [Machine.run_cons_of_returns returns] at longer
  · rintro ⟨start, first, others⟩ front within
    cases front with
    | nil => exact start
    | cons other front =>
        obtain ⟨rfl, behind⟩ := List.cons_prefix_cons.mp within
        by_cases returns : (World.step other w).2 = true
        · rw [Machine.run_cons_of_returns returns]
          exact others returns front behind
        · rw [Machine.run_cons_of_hangs (by simpa using returns)]
          exact first

/-- From a state in which the read header has a type other than none, it keeps the type
throughout a run exactly when no call of the run clears it. -/
theorem staysOfType_iff {type : UInt8} (typed : type ≠ MsgHdr.typeNone) {calls : List Call}
    (receiving : ∀ call ∈ calls, Receiving call) (start : w.session.rhdr.type = type) :
    StaysOfType type calls w ↔
      Machine.Along World.step (fun call w => ¬ Wipes call w) calls w := by
  induction calls generalizing w with
  | nil =>
      refine ⟨fun _ => trivial, fun _ front within => ?_⟩
      rw [List.prefix_nil.mp within]
      exact start
  | cons call calls ih =>
      have others (call : Call) (member : call ∈ calls) : Receiving call :=
        receiving call (List.mem_cons_of_mem _ member)
      rw [staysOfType_cons]
      rcases retypes_step (receiving call List.mem_cons_self) w with ⟨wipes, none_⟩ | ⟨keeps, same⟩
      · exact ⟨fun stays => absurd (stays.2.1.symm.trans none_) typed,
          fun along => absurd wipes along.1⟩
      · have next : (World.step call w).1.session.rhdr.type = type := same.trans start
        exact ⟨fun stays => ⟨keeps, fun returns => (ih others next).mp (stays.2.2 returns)⟩,
          fun along => ⟨start, next, fun returns => (ih others next).mpr (along.2 returns)⟩⟩

/-- A header of no type keeps it. -/
theorem staysOfType_none {calls : List Call} (receiving : ∀ call ∈ calls, Receiving call)
    (start : w.session.rhdr.type = MsgHdr.typeNone) : StaysOfType MsgHdr.typeNone calls w := by
  induction calls generalizing w with
  | nil =>
      intro front within
      rw [List.prefix_nil.mp within]
      exact start
  | cons call calls ih =>
      have next : (World.step call w).1.session.rhdr.type = MsgHdr.typeNone := by
        rcases retypes_step (receiving call List.mem_cons_self) w with ⟨-, none_⟩ | ⟨-, same⟩
        · exact none_
        · exact same.trans start
      exact (staysOfType_cons _ _ _ _).mpr ⟨start, next, fun _ =>
        ih (fun call member => receiving call (List.mem_cons_of_mem _ member)) next⟩

/-- The read header of a new session keeps the framing type of the session exactly when
that is no type at all or no call clears the header. -/
theorem run_keeps_framingType_iff (type : UInt8) (conn : SSLConn) (process : Process)
    {calls : List Call} (receiving : ∀ call ∈ calls, Receiving call) :
    StaysOfType type calls (TCPSession.create type conn process) ↔
      type = MsgHdr.typeNone ∨
        Machine.Along World.step (fun call w => ¬ Wipes call w) calls
          (TCPSession.create type conn process) := by
  by_cases typed : type = MsgHdr.typeNone
  · subst typed
    exact ⟨fun _ => Or.inl rfl, fun _ => staysOfType_none receiving rfl⟩
  · rw [staysOfType_iff typed receiving rfl]
    exact ⟨Or.inr, fun either => either.resolve_left typed⟩

theorem run_keeps_framingType_iff_sample :
    StaysOfType MsgHdr.typeHttp
      [.init true (some []), .read { tcp := .received (ascii "H") } none]
      (TCPSession.create MsgHdr.typeHttp {} {}) := by
  refine (run_keeps_framingType_iff MsgHdr.typeHttp {} {} fun call member => ?_).mpr
    (Or.inr ⟨id, fun _ => ⟨fun wipes => ?_, fun _ => trivial⟩⟩)
  · rcases List.mem_cons.mp member with rfl | member
    · exact .init _ _
    · obtain rfl := List.mem_singleton.mp member
      exact .read _ _
  · rcases wipes.2.2 with raised | ⟨full, -⟩
    · exact absurd raised (by decide +kernel)
    · exact absurd full (by decide +kernel)

/-- Two responses without a body arrive together; the first is received and cleared. -/
def clearsFirst : List Call :=
  let response := ascii "HTTP/1.1 200 OK\x0d\nContent-Length: 0\x0d\n\x0d\n"
  [.init true (some []), .read { tcp := .received (response ++ response) } none,
    .initIncomingMsg {}, .clearIncomingMsg]

/-- The read header has no type then, and `InitIncomingMsg` raises an error on the second
response. -/
theorem framingType_lost :
    (Machine.run World.step clearsFirst
        (TCPSession.create MsgHdr.typeHttp {} {})).1.session.rhdr.type = MsgHdr.typeNone ∧
      (Machine.run World.step clearsFirst (TCPSession.create MsgHdr.typeHttp {} {})).1.event = false ∧
      (Machine.run World.step (clearsFirst ++ [.initIncomingMsg {}])
        (TCPSession.create MsgHdr.typeHttp {} {})).1.event = true := by
  decide +kernel

end World

end IpUtils
