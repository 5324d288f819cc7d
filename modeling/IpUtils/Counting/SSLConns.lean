import IpUtils.Counting.Comms
import IpUtils.Counting.Owners
import IpUtils.Session.Handshake

/-! # Connections that share SSL objects

Any number of `SSLConn` objects. The count of the descriptor decides when an SSL object is
freed, so what matters is which connections at a descriptor hold the object.
-/

namespace IpUtils

/-- `SSLConn`, with what it has from `TCPConn` and the SSL object that it shares. -/
structure SharedSSLConn extends IPComm where
  connected : Bool := false
  listening : Bool := false
  /-- `ssl_`, or `NULL`. -/
  ssl : Option Nat := none
  deriving DecidableEq, Repr

instance : HasDescriptor SharedSSLConn :=
  ⟨fun conn => conn.descriptor⟩

/-- The connections of a process, with the SSL objects. -/
structure SSLConns extends Objects SharedSSLConn where
  /-- The next address at which `SSL_new` makes an object. -/
  nextSsl : Nat := 0
  /-- What `SSL_new` has returned and `SSL_free` has not got back. -/
  exist : Finset Nat := ∅
  /-- The descriptor of the connection for which each object was made. -/
  origin : Nat → Nat := fun _ => 0
  /-- An SSL object has been used or freed that had been freed. -/
  sslMisused : Bool := false

/-- What a program does with a connection; in `Socket` the context is not NULL, and `SSL_new`
may fail. -/
inductive SSLCommand where
  | create (place : Nat)
  | copy (place source : Nat)
  | assign (place source : Nat)
  | clear (place : Nat)
  | destroy (place : Nat)
  | socket (place : Nat) (domain type protocol : Int) (reply : SocketReply)
      (newFailed : Option Bytes)
  deriving DecidableEq, Repr

namespace SSLConns

/-- What is passed to `SSL_free` in front of what the base class does. -/
def passed (conn : SharedSSLConn) (process : Process) : Option Nat :=
  if (conn.desc process).cnt = 1 then conn.ssl else none

/-- Free the SSL object of a connection, if the connection is the last at its descriptor. -/
def freeLast (conn : SharedSSLConn) (conns : SSLConns) : SSLConns :=
  { conns with
    misused := conns.misused || conn.ssl.isSome && (conns.count conn.descriptor).isNone
    exist := (passed conn conns.process).elim conns.exist conns.exist.erase
    sslMisused := conns.sslMisused || (passed conn conns.process).any (· ∉ conns.exist) }

/-- `SSL_get_peer_certificate`, if there is an SSL object. -/
def useSsl (ssl : Option Nat) (conns : SSLConns) : SSLConns :=
  { conns with sslMisused := conns.sslMisused || ssl.any (· ∉ conns.exist) }

/-- `Socket`. -/
def socket (place : Nat) (domain type protocol : Int) (reply : SocketReply)
    (newFailed : Option Bytes) (conns : SSLConns) : SSLConns :=
  let conn := conns.object place
  let (comm, process) := conn.toIPComm.socket domain type protocol reply conns.process
  let conn := { conn with toIPComm := comm }
  let opened (conn : SharedSSLConn) (process : Process) : Objects SharedSSLConn :=
    { conns.touch (conns.object place).descriptor with process }.put place conn
  if process.error.event then
    { conns with toObjects := opened conn (process.appendMsg "SSLConn::Socket(): " []) }
  else
    match newFailed with
    | some reason =>
        { conns with
          toObjects := opened { conn with ssl := none } (process.raise ErrorHandler.EX_SOFTWARE
            "SSLConn::Socket(): SSL_new(3) failed: %s" [.str reason]) }
    | none =>
        { conns with
          toObjects := opened { conn with ssl := some conns.nextSsl } process
          nextSsl := conns.nextSsl + 1
          exist := insert conns.nextSsl conns.exist
          origin := Function.update conns.origin conns.nextSsl conn.descriptor }

/-- One step of a program. A command on a connection that there is not, or that there is
already, does nothing. -/
def step : Machine SSLCommand SSLConns
  | .create place, conns =>
      (if place ∈ conns.live then conns
        else { conns with toObjects := conns.putNew place fun descriptor => { descriptor } }, true)
  | .copy place source, conns =>
      (if place ∈ conns.live ∨ source ∉ conns.live then conns
        else
          let source := conns.object source
          { conns.useSsl source.ssl with
            toObjects := (conns.share source.descriptor).put place source }, true)
  | .assign place source, conns =>
      (if place ∉ conns.live ∨ source ∉ conns.live then conns
        else
          let conn := conns.object place
          let source := conns.object source
          let used := (conns.freeLast conn).useSsl source.ssl
          let released := used.giveUp conn.descriptor (conn.release used.process)
          { used with toObjects := (released.share source.descriptor).put place source }, true)
  | .clear place, conns =>
      (if place ∉ conns.live then conns
        else
          let conn := conns.object place
          let freed := conns.freeLast conn
          let released := freed.giveUp conn.descriptor (conn.release freed.process)
          { freed with toObjects := released.putNew place fun descriptor => { descriptor } }, true)
  | .destroy place, conns =>
      (if place ∉ conns.live then conns
        else
          let conn := conns.object place
          let freed := conns.freeLast conn
          let released := freed.giveUp conn.descriptor (conn.release freed.process)
          { freed with toObjects := released.remove place }, true)
  | .socket place domain type protocol reply newFailed, conns =>
      (if place ∉ conns.live then conns
        else conns.socket place domain type protocol reply newFailed, true)

/-- No connection. -/
def none_ : SSLConns :=
  { object := fun _ => { descriptor := 0 } }

/-- The SSL object of each connection. -/
def holds (conns : SSLConns) (place : Nat) : Option Nat :=
  (conns.object place).ssl

/-- Whatever SSL object a connection has, another has too. -/
def HeldElsewhere (place : Nat) (conns : SSLConns) : Prop :=
  ∀ ssl, conns.holds place = some ssl →
    ∃ other ∈ conns.live, other ≠ place ∧ conns.holds other = some ssl

/-- No connection is assigned to itself. -/
def Lawful : SSLCommand → Prop
  | .assign place source => source ≠ place
  | _ => True

/-- A connection that lets go of an SSL object is alone at its descriptor or another holds the
object too, and in `Socket`, when `SSL_new` is called, another does. -/
def KeepsHold (conns : SSLConns) : SSLCommand → Prop
  | .assign place _ | .clear place | .destroy place =>
      place ∈ conns.live → conns.sharers place = 1 ∨ HeldElsewhere place conns
  | .socket place domain type protocol reply _ =>
      place ∈ conns.live →
        ((conns.object place).toIPComm.socket domain type protocol reply
          conns.process).2.error.event = false → HeldElsewhere place conns
  | _ => True

/-- No SSL object is freed twice or used behind its end, and one that has not been freed was
made under a descriptor that some connection still shares. -/
structure FreesOnce (conns : SSLConns) : Prop where
  once : conns.sslMisused = false
  inTime : ∀ ssl ∈ conns.exist, ∃ place ∈ conns.live, conns.points place = conns.origin ssl

/-- The invariant. -/
structure Frees (conns : SSLConns) : Prop where
  counted : conns.Counted
  owned : Counting.Owned conns.live conns.points conns.holds conns.exist conns.origin
  below : ∀ ssl ∈ conns.exist, ssl < conns.nextSsl
  once : conns.sslMisused = false

variable {conns : SSLConns} {place source : Nat} {conn : SharedSSLConn}

theorem Frees.freesOnce (frees : Frees conns) : FreesOnce conns := by
  refine ⟨frees.once, fun ssl exists_ => ?_⟩
  obtain ⟨place, member, has⟩ := frees.owned.held ssl exists_
  exact ⟨place, member, (frees.owned.made place member ssl has).2.symm⟩

theorem frees_none : Frees none_ :=
  ⟨Objects.Counted.empty _, Counting.Owned.empty _ _ _,
    fun _ member => absurd member (Finset.notMem_empty _), rfl⟩

theorem holds_put (place : Nat) (conn : SharedSSLConn) (objects : Objects SharedSSLConn) (conns : SSLConns) :
    holds { conns with toObjects := objects.put place conn } =
      Function.update (fun other => (objects.object other).ssl) place conn.ssl := by
  funext other
  by_cases same : other = place
  · subst same
    simp [holds, Objects.put]
  · simp [holds, Objects.put, same]

/-- A connection lets go of its SSL object. -/
theorem Frees.freeLast (frees : Frees conns) (member : place ∈ conns.live)
    (kept : conns.sharers place = 1 ∨ HeldElsewhere place conns) :
    Counting.Owned (conns.live.erase place) conns.points conns.holds
        (conns.freeLast (conns.object place)).exist conns.origin ∧
      (conns.freeLast (conns.object place)).sslMisused = false ∧
      (conns.freeLast (conns.object place)).Counted ∧
      ∀ ssl ∈ (conns.freeLast (conns.object place)).exist, ssl < conns.nextSsl := by
  have cnt : ((conns.object place).desc conns.process).cnt = conns.sharers place :=
    frees.counted.cnt member
  have counted : (conns.freeLast (conns.object place)).Counted :=
    frees.counted.look member (conns.object place).ssl.isSome
  by_cases frees_ : ∃ ssl, conns.holds place = some ssl ∧ conns.sharers place = 1
  · obtain ⟨ssl, has, one⟩ := frees_
    have passed : passed (conns.object place) conns.process = some ssl := by
      rw [SSLConns.passed, if_pos (cnt.trans one)]
      exact has
    obtain ⟨exists_, owned⟩ := frees.owned.free member has one
    refine ⟨?_, ?_, counted, ?_⟩
    · simpa only [SSLConns.freeLast, passed, Option.elim_some] using owned
    · simp [SSLConns.freeLast, passed, frees.once, exists_]
    · intro another inside
      simp only [SSLConns.freeLast, passed, Option.elim_some] at inside
      exact frees.below another (Finset.mem_of_mem_erase inside)
  · have passed : passed (conns.object place) conns.process = none := by
      rw [SSLConns.passed]
      split
      · rename_i one
        cases has : (conns.object place).ssl with
        | none => rfl
        | some ssl => exact absurd ⟨ssl, has, cnt.symm.trans one⟩ frees_
      · rfl
    have owned := frees.owned.drop fun ssl has =>
      (kept.resolve_left fun one => frees_ ⟨ssl, has, one⟩) ssl has
    refine ⟨?_, ?_, counted, ?_⟩
    · simpa only [SSLConns.freeLast, passed, Option.elim_none] using owned
    · simp [SSLConns.freeLast, passed, frees.once]
    · simpa only [SSLConns.freeLast, passed, Option.elim_none] using frees.below

/-! ## Commands -/

namespace Frees

theorem create (frees : Frees conns) (place : Nat) : Frees (step (.create place) conns).1 := by
  unfold SSLConns.step
  dsimp only
  split
  · exact frees
  · rename_i absent
    have counted := @Objects.Counted.create _ _ _ place frees.counted absent
      (fun descriptor => ({ descriptor } : SharedSSLConn)) fun _ => rfl
    refine ⟨counted, ?_, frees.below, frees.once⟩
    rw [Objects.putNew, Objects.points_put, holds_put]
    exact @Counting.Owned.join _ _ _ _ _ _ _ _ frees.owned absent
      conns.process.nextDescriptor none (by rintro _ ⟨⟩)

theorem copy (frees : Frees conns) (place source : Nat) :
    Frees (step (.copy place source) conns).1 := by
  unfold SSLConns.step
  dsimp only
  split
  · exact frees
  · rename_i legal
    obtain ⟨absent, there⟩ := not_or.mp legal
    have has := frees.owned.made source (not_not.mp there)
    have counted := @Objects.Counted.copy _ _ _ _ _ frees.counted absent (not_not.mp there)
      (conns.object source) rfl
    refine ⟨counted, ?_, frees.below, ?_⟩
    · rw [Objects.points_put, holds_put]
      exact frees.owned.join absent has
    · cases held : (conns.object source).ssl with
      | none => simp [useSsl, frees.once]
      | some ssl => simp [useSsl, frees.once, (has ssl held).1]

theorem assign (frees : Frees conns) (differs : source ≠ place)
    (kept : place ∈ conns.live → conns.sharers place = 1 ∨ HeldElsewhere place conns) :
    Frees (step (.assign place source) conns).1 := by
  unfold SSLConns.step
  dsimp only
  split
  · exact frees
  · rename_i legal
    obtain ⟨member, there⟩ := not_or.mp legal
    obtain ⟨owned, once, counted, below⟩ := frees.freeLast (not_not.mp member)
      (kept (not_not.mp member))
    have inside : source ∈ conns.live.erase place :=
      Finset.mem_erase.mpr ⟨differs, not_not.mp there⟩
    have has := owned.made source inside
    have assigned := @Objects.Counted.assign _ _ _ _ _ _ counted (not_not.mp member)
      (not_not.mp there) (fun same => absurd same differs)
      (IPComm.drops_release (conns.object place).toIPComm conns.process) (conns.object source) rfl
    refine ⟨assigned, ?_, below, ?_⟩
    · have joined := owned.join (Finset.notMem_erase place conns.live) has
      rw [Finset.insert_erase (not_not.mp member)] at joined
      rw [Objects.points_put, holds_put]
      change Counting.Owned (insert place conns.live) _ _ _ _
      rw [Finset.insert_eq_of_mem (not_not.mp member)]
      exact joined
    · change ((conns.freeLast (conns.object place)).sslMisused || _) = false
      rw [once, Bool.false_or]
      cases held : (conns.object source).ssl with
      | none => rfl
      | some ssl => simpa using (has ssl held).1

theorem clear (frees : Frees conns)
    (kept : place ∈ conns.live → conns.sharers place = 1 ∨ HeldElsewhere place conns) :
    Frees (step (.clear place) conns).1 := by
  unfold SSLConns.step
  dsimp only
  split
  · exact frees
  · rename_i legal
    obtain ⟨owned, once, counted, below⟩ := frees.freeLast (not_not.mp legal)
      (kept (not_not.mp legal))
    have cleared := @Objects.Counted.clear _ _ _ place _ counted (not_not.mp legal)
      (IPComm.drops_release (conns.object place).toIPComm conns.process)
      (fun descriptor => ({ descriptor } : SharedSSLConn)) fun _ => rfl
    refine ⟨cleared, ?_, below, once⟩
    have joined := @Counting.Owned.join _ _ _ _ _ _ _ _ owned (Finset.notMem_erase place conns.live)
      ((conns.object place).release conns.process).nextDescriptor none (by rintro _ ⟨⟩)
    rw [Finset.insert_erase (not_not.mp legal)] at joined
    rw [Objects.putNew, Objects.points_put, holds_put]
    change Counting.Owned (insert place conns.live) _ _ _ _
    rw [Finset.insert_eq_of_mem (not_not.mp legal)]
    exact joined

theorem destroy (frees : Frees conns)
    (kept : place ∈ conns.live → conns.sharers place = 1 ∨ HeldElsewhere place conns) :
    Frees (step (.destroy place) conns).1 := by
  unfold SSLConns.step
  dsimp only
  split
  · exact frees
  · rename_i legal
    obtain ⟨owned, once, counted, below⟩ := frees.freeLast (not_not.mp legal)
      (kept (not_not.mp legal))
    exact ⟨counted.destroy (not_not.mp legal) (IPComm.drops_release _ _), owned, below, once⟩

theorem socket (frees : Frees conns) {domain type protocol : Int} {reply : SocketReply}
    (newFailed : Option Bytes)
    (kept : place ∈ conns.live →
      ((conns.object place).toIPComm.socket domain type protocol reply
        conns.process).2.error.event = false → HeldElsewhere place conns) :
    Frees (step (.socket place domain type protocol reply newFailed) conns).1 := by
  unfold SSLConns.step
  dsimp only
  split
  · exact frees
  · rename_i legal
    have spares := IPComm.spares_socket domain type protocol reply
      (conns.object place).toIPComm conns.process
    replace kept := kept (not_not.mp legal)
    unfold SSLConns.socket
    dsimp only
    generalize (conns.object place).toIPComm.socket domain type protocol reply conns.process =
      after at spares kept ⊢
    obtain ⟨comm, process⟩ := after
    obtain ⟨descriptor, cnt, next⟩ := spares
    dsimp only at descriptor cnt next kept ⊢
    -- the object stays at its descriptor, whatever becomes of its SSL object
    have counted (ssl : Option Nat) (after : Process)
        (cnt : ∀ address, (after.descriptors address).cnt =
          (conns.process.descriptors address).cnt)
        (next : after.nextDescriptor = conns.process.nextDescriptor) :=
      @Objects.Counted.change _ _ _ _ _ frees.counted (not_not.mp legal)
        { conns.object place with toIPComm := comm, ssl } descriptor cnt next
    have member : insert place conns.live = conns.live :=
      Finset.insert_eq_of_mem (not_not.mp legal)
    have inserted : insert place (conns.live.erase place) = conns.live :=
      Finset.insert_erase (not_not.mp legal)
    split
    · refine ⟨counted (conns.object place).ssl _ cnt next, ?_, frees.below, frees.once⟩
      rw [Objects.points_put, holds_put]
      change Counting.Owned (insert place conns.live)
        (Function.update conns.points place comm.descriptor)
        (Function.update conns.holds place (conns.holds place)) _ _
      rw [member, descriptor, Function.update_eq_self]
      change Counting.Owned _ (Function.update conns.points place (conns.points place)) _ _ _
      rw [Function.update_eq_self]
      exact frees.owned
    · rename_i silent
      have dropped := frees.owned.drop (kept (by simpa using silent))
      have vacant := Finset.notMem_erase place conns.live
      split
      · refine ⟨counted none _ cnt next, ?_, frees.below, frees.once⟩
        have joined := @Counting.Owned.join _ _ _ _ _ _ _ _ dropped vacant comm.descriptor none
          (by rintro _ ⟨⟩)
        rw [inserted] at joined
        rw [Objects.points_put, holds_put]
        change Counting.Owned (insert place conns.live) _ _ _ _
        rw [member]
        exact joined
      · have fresh : conns.nextSsl ∉ conns.exist := fun inside =>
          absurd (frees.below _ inside) (lt_irrefl _)
        refine ⟨counted (some conns.nextSsl) _ cnt next, ?_, ?_, frees.once⟩
        · have made := @Counting.Owned.make _ _ _ _ _ _ _ _ _ dropped vacant fresh comm.descriptor
          rw [inserted] at made
          rw [Objects.points_put]
          change Counting.Owned (insert place conns.live) _ (holds { conns with
            toObjects := Objects.put place { conns.object place with
              toIPComm := comm, ssl := some conns.nextSsl }
                { conns.touch (conns.object place).descriptor with process } }) _ _
          rw [member, holds_put]
          exact made
        · intro ssl inside
          rcases Finset.mem_insert.mp inside with rfl | before
          · exact Nat.lt_succ_self _
          · exact Nat.lt_succ_of_lt (frees.below ssl before)

/-- The step. -/
theorem step (frees : Frees conns) {command : SSLCommand} (lawful : Lawful command)
    (kept : KeepsHold conns command) : Frees (SSLConns.step command conns).1 := by
  cases command with
  | create place => exact frees.create place
  | copy place source => exact frees.copy place source
  | assign place source => exact frees.assign lawful kept
  | clear place => exact frees.clear kept
  | destroy place => exact frees.destroy kept
  | socket place domain type protocol reply newFailed => exact frees.socket newFailed kept

end Frees

/-! ## The connection itself -/

/-- The connection of a place as `Connect` and `Accept` find it. The name of the host is not
kept here. -/
def tlsConn (conns : SSLConns) (place : Nat) (hostname : Bytes) : TLSConn Nat where
  fd := ((conns.object place).desc conns.process).fd
  hostname := hostname
  blocking := (conns.object place).blocking
  ssl := conns.holds place

/-- Behind a `Socket` that raises no event the connection has a new SSL object: `Connect` shakes
hands with it, and `Read` and `Write` go through the library. -/
theorem tlsConn_socket {domain type protocol : Int} {reply : SocketReply}
    {newFailed : Option Bytes}
    (quiet : (conns.socket place domain type protocol reply newFailed).process.error.event = false)
    (hostname : Bytes) (connected : Bool) :
    ((conns.socket place domain type protocol reply newFailed).tlsConn place hostname).ssl =
        some conns.nextSsl ∧
      (((conns.socket place domain type protocol reply newFailed).tlsConn place
        hostname).toSSLConn connected).ssl = true := by
  have made : (conns.socket place domain type protocol reply newFailed).holds place =
      some conns.nextSsl := by
    unfold SSLConns.socket at quiet ⊢
    dsimp only at quiet ⊢
    split_ifs at quiet ⊢
    · exact absurd (Process.event_appendMsg ..) (Bool.eq_false_iff.mp quiet)
    · cases newFailed with
      | some reason => exact absurd (Process.event_raise ..) (Bool.eq_false_iff.mp quiet)
      | none =>
          unfold holds Objects.put
          simp
  unfold tlsConn TLSConn.toSSLConn
  rw [made]
  exact ⟨rfl, rfl⟩

/-- A copy is the same connection: it has the number and the SSL object of its source. -/
theorem tlsConn_copy (free : place ∉ conns.live) (there : source ∈ conns.live)
    (hostname : Bytes) :
    (step (.copy place source) conns).1.tlsConn place hostname =
      conns.tlsConn source hostname := by
  have copied : (step (.copy place source) conns).1.object place = conns.object source := by
    unfold step
    simp [free, there, Objects.put]
  unfold tlsConn holds
  rw [copied]
  unfold step
  simp [free, there, Objects.put, Objects.share, IPComm.desc, Process.setDescriptor]

/-! ## Runs -/

/-- Every SSL object is freed once and in time in every run in which whoever lets go of one is
alone at its descriptor or leaves another who holds it. -/
theorem run_freesOnce {commands : List SSLCommand}
    (along : Machine.Along SSLConns.step
      (fun command conns => Lawful command ∧ KeepsHold conns command) commands none_) :
    FreesOnce (Machine.run SSLConns.step commands none_).1 := by
  have frees := @Machine.run_preserves _ _ SSLConns.step
    (fun command conns => Lawful command ∧ KeepsHold conns command) Frees
    (fun _ _ frees both => frees.step both.1 both.2) commands none_ frees_none along
  exact frees.freesOnce

/-- `Socket` with a number and an SSL object. -/
def opens (place : Nat) : SSLCommand :=
  .socket place 2 1 0 (.opened 5 (.got false none) none) none

/-- A connection that is copied behind `Socket`. -/
theorem run_freesOnce_sample :
    FreesOnce (Machine.run SSLConns.step
      [.create 0, opens 0, .copy 1 0, .destroy 0, .clear 1] none_).1 := by
  apply run_freesOnce
  refine ⟨⟨trivial, trivial⟩, fun _ => ⟨⟨trivial, fun _ _ => ?_⟩, fun _ =>
    ⟨⟨trivial, trivial⟩, fun _ => ⟨⟨trivial, fun _ => .inr ?_⟩, fun _ =>
      ⟨⟨trivial, fun _ => .inl ?_⟩, fun _ => trivial⟩⟩⟩⟩⟩
  · have none_ : ((SSLConns.step (.create 0) SSLConns.none_).1.holds 0) = none := by
      decide +kernel
    intro ssl has
    rw [none_] at has
    cases has
  · have both : ∃ other ∈ (Machine.run SSLConns.step [.create 0, opens 0, .copy 1 0] none_).1.live,
        other ≠ 0 ∧ (Machine.run SSLConns.step [.create 0, opens 0, .copy 1 0] none_).1.holds other =
          (Machine.run SSLConns.step [.create 0, opens 0, .copy 1 0] none_).1.holds 0 := by
      decide +kernel
    intro ssl has
    rw [← has]
    exact both
  · decide +kernel

/-- A connection that is copied in front of `Socket`: the copy shares the descriptor and not
the SSL object, so the first destructor finds two at the descriptor and the second no object. -/
theorem run_copied_early :
    Machine.Along SSLConns.step (fun command _ => Lawful command)
        [.create 0, .copy 1 0, opens 0, .destroy 0, .destroy 1] none_ ∧
      ¬FreesOnce (Machine.run SSLConns.step
        [.create 0, .copy 1 0, opens 0, .destroy 0, .destroy 1] none_).1 := by
  refine ⟨⟨trivial, fun _ => ⟨trivial, fun _ => ⟨trivial, fun _ => ⟨trivial, fun _ =>
    ⟨trivial, fun _ => trivial⟩⟩⟩⟩⟩, ?_⟩
  intro frees
  have shares := frees.inTime 0 (by decide +kernel)
  revert shares
  decide +kernel

end SSLConns

end IpUtils
