import IpUtils.Calls.Basic
import IpUtils.Counting.Files

/-! # Connections that share descriptors

Any number of `IPComm` objects that are made, copied, assigned, cleared and destroyed.
-/

namespace IpUtils

/-- `IPComm`: `descriptor` is the address that `descriptor_` holds. -/
structure IPComm where
  descriptor : Nat
  blocking : Bool := true
  openOnExec : Bool := true
  /-- `AF_UNSPEC` is 0. -/
  addressFamily : Int := 0
  dnsNames : List Bytes := []
  deriving DecidableEq, Repr

/-- What `fcntl(2)` says to `F_GETFL` and, where `O_NONBLOCK` is not set, to `F_SETFL`. -/
inductive FlagsReply where
  | getFailed (reason : Bytes)
  | got (nonblocking : Bool) (setFailed : Option Bytes)
  deriving DecidableEq, Repr

/-- What the kernel does in a call of `IPComm::Socket`: it fails, or it hands out a number and
answers the calls of `fcntl(2)`, the last of which may fail. -/
inductive SocketReply where
  | failed (reason : Bytes)
  | opened (fd : Nat) (flags : FlagsReply) (exec : Option Bytes)
  deriving DecidableEq, Repr

namespace IPComm

/-- The descriptor of a connection. -/
def desc (comm : IPComm) (process : Process) : Descriptor :=
  process.descriptors comm.descriptor

/-- `set_fd`. -/
def setFd (fd : Int) (comm : IPComm) (process : Process) : Process :=
  process.setDescriptor comm.descriptor fun desc => { desc with fd }

/-- `Close`. -/
def close (comm : IPComm) (process : Process) : Process :=
  if (comm.desc process).fd > descriptorNull then comm.setFd descriptorNull process else process

/-- Give up a reference to the descriptor; the last one closes it. -/
def release (comm : IPComm) (process : Process) : Process :=
  let process := process.setDescriptor comm.descriptor fun desc => { desc with cnt := desc.cnt - 1 }
  if (comm.desc process).cnt = 0 then
    if (comm.desc process).fd ≠ descriptorNull then comm.close process else process
  else process

/-- `set_socket_blocking` and `set_socket_nonblocking`: the routine tests for `O_NONBLOCK` in
both, and sets a flag of its own when it is through. -/
def setFlags (routine : String) (reply : FlagsReply) (blocking : Bool) (comm : IPComm)
    (process : Process) : IPComm × Process :=
  if (comm.desc process).fd = descriptorNull then
    (comm, process.raise ErrorHandler.EX_SOFTWARE
      ("IPComm::" ++ routine ++ "(): descriptor is NULL") [])
  else
    match reply with
    | .getFailed reason =>
        (comm, process.raise ErrorHandler.EX_IOERR
          ("IPComm::" ++ routine ++ "(): fcntl(F_GETFL): %s") [.str reason])
    | .got false (some reason) =>
        (comm, process.raise ErrorHandler.EX_IOERR
          ("IPComm::" ++ routine ++ "(): fcntl(F_SETFL): %s") [.str reason])
    | .got _ _ => ({ comm with blocking }, process)

/-- `set_socket_blocking`. -/
def setSocketBlocking (reply : FlagsReply) : IPComm → Process → IPComm × Process :=
  setFlags "set_socket_blocking" reply true

/-- `set_socket_nonblocking`. -/
def setSocketNonblocking (reply : FlagsReply) : IPComm → Process → IPComm × Process :=
  setFlags "set_socket_nonblocking" reply false

/-- `set_socket_open_on_exec` and `set_socket_close_on_exec`. -/
def setExec (routine bit : String) (failed : Option Bytes) (openOnExec : Bool)
    (comm : IPComm) (process : Process) : IPComm × Process :=
  if (comm.desc process).fd = descriptorNull then
    (comm, process.raise ErrorHandler.EX_SOFTWARE
      ("IPComm::" ++ routine ++ "(): descriptor is NULL") [])
  else
    match failed with
    | some reason =>
        (comm, process.raise ErrorHandler.EX_IOERR
          ("IPComm::" ++ routine ++ "(): fcntl(%d, F_SETFD, " ++ bit ++ "): %s")
          [.num (comm.desc process).fd, .str reason])
    | none => ({ comm with openOnExec }, process)

/-- `set_socket_open_on_exec`. -/
def setSocketOpenOnExec (failed : Option Bytes) : IPComm → Process → IPComm × Process :=
  setExec "set_socket_open_on_exec" "0" failed true

/-- `set_socket_close_on_exec`. -/
def setSocketCloseOnExec (failed : Option Bytes) : IPComm → Process → IPComm × Process :=
  setExec "set_socket_close_on_exec" "1" failed false

/-- `Socket`. -/
def socket (domain type protocol : Int) (reply : SocketReply) (comm : IPComm)
    (process : Process) : IPComm × Process :=
  match reply with
  | .failed reason =>
      (comm, (comm.setFd (-1) process).raise ErrorHandler.EX_IOERR
        "IPComm::Socket(): socket(%d, %d, %d): %s"
        [.num domain, .num type, .num protocol, .str reason])
  | .opened fd flags exec =>
      let process := comm.setFd fd process
      let (comm, process) :=
        if comm.blocking then comm.setSocketBlocking flags process
        else comm.setSocketNonblocking flags process
      if comm.openOnExec then comm.setSocketOpenOnExec exec process
      else comm.setSocketCloseOnExec exec process

/-! ## Counts -/

variable {comm : IPComm} {process : Process}

/-- What a call does to the counts, the pointer and the number of descriptors: nothing. -/
structure SparesCounts (comm : IPComm) (process : Process) (after : IPComm × Process) : Prop where
  descriptor : after.1.descriptor = comm.descriptor
  cnt : ∀ address, (after.2.descriptors address).cnt = (process.descriptors address).cnt
  next : after.2.nextDescriptor = process.nextDescriptor

theorem spares_setFd (fd : Int) (comm : IPComm) (process : Process) :
    SparesCounts comm process (comm, comm.setFd fd process) := by
  exact ⟨rfl, @Process.cnt_setDescriptor (fun desc => { desc with fd }) (fun _ => rfl) process
    comm.descriptor, rfl⟩

theorem spares_close (comm : IPComm) (process : Process) :
    SparesCounts comm process (comm, comm.close process) := by
  unfold close
  split
  · exact spares_setFd _ _ _
  · exact ⟨rfl, fun _ => rfl, rfl⟩

theorem spares_setFlags (routine : String) (reply : FlagsReply) (blocking : Bool) (comm : IPComm)
    (process : Process) :
    SparesCounts comm process (comm.setFlags routine reply blocking process) := by
  unfold setFlags
  split
  · exact ⟨rfl, fun _ => rfl, rfl⟩
  · split
    · exact ⟨rfl, fun _ => rfl, rfl⟩
    · exact ⟨rfl, fun _ => rfl, rfl⟩
    · exact ⟨rfl, fun _ => rfl, rfl⟩

theorem spares_setExec (routine bit : String) (failed : Option Bytes) (openOnExec : Bool)
    (comm : IPComm) (process : Process) :
    SparesCounts comm process (comm.setExec routine bit failed openOnExec process) := by
  unfold setExec
  split
  · exact ⟨rfl, fun _ => rfl, rfl⟩
  · split
    · exact ⟨rfl, fun _ => rfl, rfl⟩
    · exact ⟨rfl, fun _ => rfl, rfl⟩

theorem SparesCounts.trans {after last : IPComm × Process}
    (first : SparesCounts comm process after) (second : SparesCounts after.1 after.2 last) :
    SparesCounts comm process last :=
  ⟨second.descriptor.trans first.descriptor,
    fun address => (second.cnt address).trans (first.cnt address), second.next.trans first.next⟩

theorem spares_socket (domain type protocol : Int) (reply : SocketReply) (comm : IPComm)
    (process : Process) :
    SparesCounts comm process (comm.socket domain type protocol reply process) := by
  unfold socket
  cases reply with
  | failed reason =>
      obtain ⟨-, cnt, next⟩ := spares_setFd (-1) comm process
      exact ⟨rfl, cnt, next⟩
  | opened fd flags exec =>
      dsimp only
      have flagged : SparesCounts comm process
          (if comm.blocking then comm.setSocketBlocking flags (comm.setFd fd process)
            else comm.setSocketNonblocking flags (comm.setFd fd process)) := by
        apply (spares_setFd fd comm process).trans
        split
        · exact spares_setFlags _ _ _ _ _
        · exact spares_setFlags _ _ _ _ _
      refine flagged.trans ?_
      generalize (if comm.blocking then comm.setSocketBlocking flags (comm.setFd fd process)
        else comm.setSocketNonblocking flags (comm.setFd fd process)) = after
      cases after.1.openOnExec with
      | true => exact spares_setExec _ _ _ _ _ _
      | false => exact spares_setExec _ _ _ _ _ _

/-- What is given up is one count. -/
theorem drops_release (comm : IPComm) (process : Process) :
    Drops comm.descriptor process (comm.release process) := by
  have taken := Drops.setDescriptor process comm.descriptor
  unfold release
  dsimp only
  split
  · split
    · have closed := spares_close comm (process.setDescriptor comm.descriptor fun desc =>
        { desc with cnt := desc.cnt - 1 })
      exact taken.trans closed.cnt closed.next
    · exact taken
  · exact taken

end IPComm

instance : HasDescriptor IPComm :=
  ⟨IPComm.descriptor⟩

/-- The connections of a process. -/
abbrev Comms := Objects IPComm

/-- What a program does with a connection. -/
inductive CommCommand where
  | create (place : Nat) (addressFamily : Int)
  | copy (place source : Nat)
  | assign (place source : Nat)
  | clear (place : Nat)
  | destroy (place : Nat)
  | socket (place : Nat) (domain type protocol : Int) (reply : SocketReply)
  | close (place : Nat)
  deriving DecidableEq, Repr

namespace Comms

/-- One step of a program. A command on a connection that there is not, or that there is
already, does nothing. -/
def step : Machine CommCommand Comms
  | .create place addressFamily, comms =>
      (if place ∈ comms.live then comms
        else comms.putNew place fun descriptor => { descriptor, addressFamily }, true)
  | .copy place source, comms =>
      (if place ∈ comms.live ∨ source ∉ comms.live then comms
        else
          let comm := comms.object source
          (comms.share comm.descriptor).put place comm, true)
  | .assign place source, comms =>
      (if place ∉ comms.live ∨ source ∉ comms.live then comms
        else
          let comm := comms.object place
          let source := comms.object source
          let released := comms.giveUp comm.descriptor (comm.release comms.process)
          (released.share source.descriptor).put place source, true)
  | .clear place, comms =>
      (if place ∉ comms.live then comms
        else
          let comm := comms.object place
          let released := comms.giveUp comm.descriptor (comm.release comms.process)
          released.putNew place fun descriptor => { descriptor }, true)
  | .destroy place, comms =>
      (if place ∉ comms.live then comms
        else
          let comm := comms.object place
          (comms.giveUp comm.descriptor (comm.release comms.process)).remove place, true)
  | .socket place domain type protocol reply, comms =>
      (if place ∉ comms.live then comms
        else
          let (comm, process) :=
            (comms.object place).socket domain type protocol reply comms.process
          { comms.touch (comms.object place).descriptor with process }.put place comm, true)
  | .close place, comms =>
      (if place ∉ comms.live then comms
        else
          let comm := comms.object place
          { comms.touch comm.descriptor with process := comm.close comms.process }.put place comm,
        true)

/-- No connection. -/
def none_ : Comms :=
  { object := fun _ => { descriptor := 0 } }

variable {comms : Comms}

/-- A connection that alone points to its descriptor is not assigned to itself. -/
def SparesItself (command : CommCommand) (comms : Comms) : Prop :=
  ∀ place, command = .assign place place → comms.sharers place ≠ 1

/-- The step. -/
theorem counted_step (counted : comms.Counted) {command : CommCommand}
    (spares : SparesItself command comms) : (Comms.step command comms).1.Counted := by
  cases command with
  | create place addressFamily =>
      unfold Comms.step
      dsimp only
      split
      · exact counted
      · rename_i absent
        exact @Objects.Counted.create _ _ _ place counted absent
          (fun descriptor => { descriptor, addressFamily }) fun _ => rfl
  | copy place source =>
      unfold Comms.step
      dsimp only
      split
      · exact counted
      · rename_i legal
        obtain ⟨absent, there⟩ := not_or.mp legal
        exact counted.copy absent (not_not.mp there) rfl
  | assign place source =>
      unfold Comms.step
      dsimp only
      split
      · exact counted
      · rename_i legal
        obtain ⟨member, there⟩ := not_or.mp legal
        refine counted.assign (not_not.mp member) (not_not.mp there) ?_
          (IPComm.drops_release _ _) rfl
        rintro rfl
        exact spares _ rfl
  | clear place =>
      unfold Comms.step
      dsimp only
      split
      · exact counted
      · rename_i legal
        exact @Objects.Counted.clear _ _ _ place _ counted (not_not.mp legal)
          (IPComm.drops_release _ _) (fun descriptor => { descriptor }) fun _ => rfl
  | destroy place =>
      unfold Comms.step
      dsimp only
      split
      · exact counted
      · rename_i legal
        exact counted.destroy (not_not.mp legal) (IPComm.drops_release _ _)
  | socket place domain type protocol reply =>
      unfold Comms.step
      dsimp only
      split
      · exact counted
      · rename_i legal
        obtain ⟨descriptor, cnt, next⟩ := IPComm.spares_socket domain type protocol reply
          (comms.object place) comms.process
        exact counted.change (not_not.mp legal) descriptor cnt next
  | close place =>
      unfold Comms.step
      dsimp only
      split
      · exact counted
      · rename_i legal
        obtain ⟨-, cnt, next⟩ := IPComm.spares_close (comms.object place) comms.process
        exact counted.change (not_not.mp legal) rfl cnt next

end Comms

/-! ## Runs -/

/-- The counts are exact in every run in which no object that alone points to its descriptor is
assigned to itself. -/
theorem run_countsExact (fileCommands : List FileCommand) (commCommands : List CommCommand) :
    (Machine.Along Files.step Files.SparesItself fileCommands Files.none_ →
      (Machine.run Files.step fileCommands Files.none_).1.CountsExact) ∧
    (Machine.Along Comms.step Comms.SparesItself commCommands Comms.none_ →
      Objects.CountsExact (Machine.run Comms.step commCommands Comms.none_).1) := by
  constructor
  · intro along
    have counted : (Machine.run Files.step fileCommands Files.none_).1.Counted :=
      @Machine.run_preserves _ _ Files.step Files.SparesItself
        (fun files => files.Counted) (fun _ _ counted => Files.counted_step counted) fileCommands
        Files.none_ (Objects.Counted.empty _) along
    exact counted.countsExact
  · intro along
    have counted : (Machine.run Comms.step commCommands Comms.none_).1.Counted :=
      @Machine.run_preserves _ _ Comms.step Comms.SparesItself
        (fun comms => Objects.Counted comms) (fun _ _ counted => Comms.counted_step counted)
        commCommands Comms.none_ (Objects.Counted.empty _) along
    exact counted.countsExact

/-- An object that shares its descriptor with a copy may be assigned to itself. -/
theorem run_countsExact_sample :
    (Machine.run Files.step [.create 0, .copy 1 0, .assign 1 1, .destroy 0, .clear 1]
        Files.none_).1.CountsExact ∧
      Objects.CountsExact (Machine.run Comms.step
        [.create 0 0, .copy 1 0, .assign 1 1, .destroy 0, .clear 1] Comms.none_).1 := by
  constructor
  · apply (run_countsExact _ []).1
    refine ⟨nofun, fun _ => ⟨nofun, fun _ => ⟨?_, fun _ => ⟨nofun, fun _ => ⟨nofun, fun _ =>
      trivial⟩⟩⟩⟩⟩
    rintro place ⟨⟩
    decide +kernel
  · apply (run_countsExact [] _).2
    refine ⟨nofun, fun _ => ⟨nofun, fun _ => ⟨?_, fun _ => ⟨nofun, fun _ => ⟨nofun, fun _ =>
      trivial⟩⟩⟩⟩⟩
    rintro place ⟨⟩
    decide +kernel

/-- An object that alone points to its descriptor deletes it when it is assigned to itself, and
uses it then. -/
theorem not_countsExact_of_self_assign :
    ¬(Machine.run Files.step [.create 0, .assign 0 0] Files.none_).1.CountsExact ∧
      ¬Objects.CountsExact (Machine.run Comms.step [.create 0 0, .assign 0 0] Comms.none_).1 := by
  constructor
  · intro exact
    have safe := exact.safe
    revert safe
    decide +kernel
  · intro exact
    have safe := exact.safe
    revert safe
    decide +kernel

end IpUtils
