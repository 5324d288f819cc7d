import IpUtils.Counting.Comms

/-! # Blocking and non-blocking sockets

A connection keeps a flag of its own that tells whether its socket blocks, and the kernel keeps
`O_NONBLOCK` for every number that it has handed out. All system calls succeed, so that the
kernel hands out one number after the other.
-/

namespace IpUtils

/-- What `accept(2)` does. -/
inductive AcceptReply where
  | failed (again : Bool) (reason : Bytes)
  | accepted (fd : Nat)
  deriving DecidableEq, Repr

namespace IPComm

/-- `AF_INET`. -/
def afInet : Int := 2

/-- `AF_INET6`. -/
def afInet6 : Int := 10

/-- `set_blocking`. -/
def setBlocking (comm : IPComm) : IPComm :=
  { comm with blocking := true }

/-- `set_nonblocking`. -/
def setNonblocking (comm : IPComm) : IPComm :=
  { comm with blocking := false }

/-- The address family of a listening socket is one that `Accept` knows. -/
def canAccept (comm : IPComm) : Bool :=
  comm.addressFamily == afInet || comm.addressFamily == afInet6

/-- `TCPConn::Accept`, into `client`. -/
def accept (reply : AcceptReply) (comm client : IPComm) (process : Process) : IPComm × Process :=
  if comm.canAccept then
    match reply with
    | .failed again reason =>
        (client, process.raise ErrorHandler.EX_IOERR
          (if !comm.blocking && again then
            "TCPConn::Accept(): accept(): %s, " ++
              "Note, Accept() expects the fd to be ready via poll(2)!"
            else "TCPConn::Accept(): accept(): %s") [.str reason])
    | .accepted fd =>
        let client := { client with addressFamily := comm.addressFamily }
        let process := client.setFd fd process
        (if !comm.blocking then client.setNonblocking else client, process)
  else
    (client, process.raise ErrorHandler.EX_SOFTWARE
      "TCPConn::Accept(): unknown address_family: %d." [.num comm.addressFamily])

/-- When all its system calls succeed, `Socket` keeps the number and leaves the flags alone. -/
theorem socket_eq (domain type protocol : Int) (fd : Nat) (comm : IPComm) (process : Process) :
    comm.socket domain type protocol (.opened fd (.got false none) none) process =
      (comm, comm.setFd fd process) := by
  have isOpen (comm : IPComm) : (comm.desc (comm.setFd fd process)).fd ≠ descriptorNull := by
    rw [desc, setFd, Process.descriptors_setDescriptor]
    exact ne_of_gt (lt_of_lt_of_le (by decide) (Int.natCast_nonneg fd))
  have flagged : (if comm.blocking then
        comm.setSocketBlocking (.got false none) (comm.setFd fd process)
      else comm.setSocketNonblocking (.got false none) (comm.setFd fd process)) =
      (comm, comm.setFd fd process) := by
    cases mode : comm.blocking with
    | true => simp [setSocketBlocking, setFlags, isOpen, ← mode]
    | false => simp [setSocketNonblocking, setFlags, isOpen, ← mode]
  unfold socket
  dsimp only
  rw [flagged]
  cases mode : comm.openOnExec with
  | true => simp [setSocketOpenOnExec, setExec, isOpen, ← mode]
  | false => simp [setSocketCloseOnExec, setExec, isOpen, ← mode]

/-- When its system calls succeed, `set_socket_blocking` or `set_socket_nonblocking` sets the
flag of an open connection. -/
theorem setFlags_eq (routine : String) (set blocking : Bool) {comm : IPComm} {process : Process}
    (isOpen : (comm.desc process).fd ≠ descriptorNull) :
    comm.setFlags routine (.got set none) blocking process = ({ comm with blocking }, process) := by
  unfold setFlags
  rw [if_neg isOpen]
  cases set with
  | true => rfl
  | false => rfl

end IPComm

/-- The connections of a process, with the flags that the kernel keeps. -/
structure Sockets extends Objects IPComm where
  /-- `O_NONBLOCK`. -/
  nonblocking : Int → Bool := fun _ => false
  /-- The next number that the kernel hands out. -/
  nextFd : Nat := 3

/-- What a program does with a connection. The client of `Accept` is made for the call. -/
inductive SocketCommand where
  | create (place : Nat) (addressFamily : Int)
  | setBlocking (place : Nat)
  | setNonblocking (place : Nat)
  | socket (place : Nat) (domain type protocol : Int)
  | setSocketBlocking (place : Nat)
  | setSocketNonblocking (place : Nat)
  | accept (place client : Nat)
  deriving DecidableEq, Repr

namespace Sockets

/-- The number of a connection. -/
def fd (sockets : Sockets) (place : Nat) : Int :=
  ((sockets.object place).desc sockets.process).fd

/-- What the kernel keeps when a connection has gone through the flags of a descriptor: where
`O_NONBLOCK` is set, it stays. -/
def setBit (fd : Int) (blocking : Bool) (sockets : Sockets) : Int → Bool :=
  if fd = descriptorNull then sockets.nonblocking
  else Function.update sockets.nonblocking fd (sockets.nonblocking fd || !blocking)

/-- What `fcntl(2)` says about the flags of a connection. -/
def flags (place : Nat) (sockets : Sockets) : FlagsReply :=
  .got (sockets.nonblocking (sockets.fd place)) none

/-- Keep what a call has made of a connection. -/
def keep (place : Nat) (after : IPComm × Process) (sockets : Sockets) : Sockets :=
  { sockets with toObjects := { sockets.toObjects with process := after.2 }.put place after.1 }

/-- One step of a program. A command on a connection that there is not, or that there is
already, does nothing. -/
def step : Machine SocketCommand Sockets
  | .create place addressFamily, sockets =>
      (if place ∈ sockets.live then sockets
        else
          { sockets with
            toObjects := sockets.putNew place fun descriptor => { descriptor, addressFamily } },
        true)
  | .setBlocking place, sockets =>
      (if place ∉ sockets.live then sockets
        else sockets.keep place ((sockets.object place).setBlocking, sockets.process), true)
  | .setNonblocking place, sockets =>
      (if place ∉ sockets.live then sockets
        else sockets.keep place ((sockets.object place).setNonblocking, sockets.process), true)
  | .socket place domain type protocol, sockets =>
      (if place ∉ sockets.live then sockets
        else
          let comm := sockets.object place
          let reply := .opened sockets.nextFd (.got false none) none
          { sockets.keep place (comm.socket domain type protocol reply sockets.process) with
            nonblocking := Function.update sockets.nonblocking sockets.nextFd !comm.blocking
            nextFd := sockets.nextFd + 1 }, true)
  | .setSocketBlocking place, sockets =>
      (if place ∉ sockets.live then sockets
        else
          { sockets.keep place
              ((sockets.object place).setSocketBlocking (sockets.flags place) sockets.process) with
            nonblocking := sockets.setBit (sockets.fd place) true }, true)
  | .setSocketNonblocking place, sockets =>
      (if place ∉ sockets.live then sockets
        else
          { sockets.keep place
              ((sockets.object place).setSocketNonblocking (sockets.flags place) sockets.process) with
            nonblocking := sockets.setBit (sockets.fd place) false }, true)
  | .accept place client, sockets =>
      (if place ∉ sockets.live ∨ client ∈ sockets.live then sockets
        else
          let comm := sockets.object place
          let made : Sockets :=
            { sockets with toObjects := sockets.putNew client fun descriptor => { descriptor } }
          if sockets.fd place = descriptorNull || !comm.canAccept then
            made.keep client (comm.accept (.failed false (ascii "Bad file descriptor"))
              (made.object client) made.process)
          else
            { made.keep client (comm.accept (.accepted sockets.nextFd) (made.object client)
                made.process) with
              nonblocking := Function.update sockets.nonblocking sockets.nextFd false
              nextFd := sockets.nextFd + 1 }, true)

/-- No connection. -/
def none_ : Sockets :=
  { object := fun _ => { descriptor := 0 } }

/-- The flag of every connection with an open descriptor tells what the kernel keeps. -/
def Truthful (sockets : Sockets) : Prop :=
  ∀ place ∈ sockets.live, sockets.fd place ≠ descriptorNull →
    ((sockets.object place).blocking = true ↔ sockets.nonblocking (sockets.fd place) = false)

/-- `set_blocking` and `set_nonblocking` are for connections without a socket. -/
inductive Lawful : SocketCommand → Sockets → Prop
  | create {sockets : Sockets} (place : Nat) (addressFamily : Int) :
      Lawful (.create place addressFamily) sockets
  | setBlocking {sockets : Sockets} {place : Nat} (closed : sockets.fd place = descriptorNull) :
      Lawful (.setBlocking place) sockets
  | setNonblocking {sockets : Sockets} {place : Nat} (closed : sockets.fd place = descriptorNull) :
      Lawful (.setNonblocking place) sockets
  | socket {sockets : Sockets} (place : Nat) (domain type protocol : Int) :
      Lawful (.socket place domain type protocol) sockets
  | setSocketBlocking {sockets : Sockets} (place : Nat) :
      Lawful (.setSocketBlocking place) sockets
  | setSocketNonblocking {sockets : Sockets} (place : Nat) :
      Lawful (.setSocketNonblocking place) sockets
  | accept {sockets : Sockets} (place client : Nat) : Lawful (.accept place client) sockets

/-- A socket that does not block is not made to block, nor does it accept. -/
def KeepsMode : SocketCommand → Sockets → Prop
  | .setSocketBlocking place, sockets =>
      place ∈ sockets.live → sockets.fd place ≠ descriptorNull →
        (sockets.object place).blocking = true
  | .accept place client, sockets =>
      place ∈ sockets.live → client ∉ sockets.live → sockets.fd place ≠ descriptorNull →
        (sockets.object place).canAccept = true → (sockets.object place).blocking = true
  | _, _ => True

/-! ## What a command can do -/

/-- The connections have descriptors and numbers of their own, which have been handed out. -/
structure Apart (sockets : Sockets) : Prop where
  points : ∀ place ∈ sockets.live, ∀ other ∈ sockets.live, place ≠ other →
    (sockets.object place).descriptor ≠ (sockets.object other).descriptor
  made : ∀ place ∈ sockets.live, (sockets.object place).descriptor < sockets.process.nextDescriptor
  numbers : ∀ place ∈ sockets.live, ∀ other ∈ sockets.live, place ≠ other →
    sockets.fd place ≠ descriptorNull → sockets.fd place ≠ sockets.fd other
  handed : ∀ place ∈ sockets.live, sockets.fd place < sockets.nextFd

/-- A command concerns one connection, which keeps its descriptor or gets a new one, and keeps
its number or gets a new one. -/
structure Concerns (place : Nat) (sockets after : Sockets) : Prop where
  live : after.live = insert place sockets.live
  others : ∀ other, other ≠ place → after.object other = sockets.object other
  points : place ∈ sockets.live ∧
      (after.object place).descriptor = (sockets.object place).descriptor ∧
      after.process.nextDescriptor = sockets.process.nextDescriptor ∨
    place ∉ sockets.live ∧ (after.object place).descriptor = sockets.process.nextDescriptor ∧
      after.process.nextDescriptor = sockets.process.nextDescriptor + 1
  descriptors : ∀ address, address ≠ (after.object place).descriptor →
    after.process.descriptors address = sockets.process.descriptors address
  number : after.nextFd = sockets.nextFd ∧
      (after.fd place = descriptorNull ∨
        place ∈ sockets.live ∧ after.fd place = sockets.fd place) ∨
    after.nextFd = sockets.nextFd + 1 ∧ after.fd place = sockets.nextFd
  bits : ∀ number, number ≠ after.fd place → number ≠ descriptorNull →
    after.nonblocking number = sockets.nonblocking number

variable {place : Nat} {sockets after : Sockets}

/-- The other connections keep their descriptor and their number. -/
theorem Concerns.spares (concerns : Concerns place sockets after) (apart : Apart sockets)
    {other : Nat} (there : other ∈ sockets.live) (differs : other ≠ place) :
    (after.object place).descriptor ≠ (sockets.object other).descriptor ∧
      after.fd other = sockets.fd other := by
  have own : (after.object place).descriptor ≠ (sockets.object other).descriptor := by
    rcases concerns.points with ⟨inside, same, -⟩ | ⟨-, fresh, -⟩
    · rw [same]
      exact apart.points place inside other there differs.symm
    · rw [fresh]
      exact Nat.ne_of_gt (apart.made other there)
  refine ⟨own, ?_⟩
  rw [fd, fd, concerns.others other differs, IPComm.desc, IPComm.desc,
    concerns.descriptors _ own.symm]

/-- The number of the connection is no other's. -/
theorem Concerns.number_ne (concerns : Concerns place sockets after) (apart : Apart sockets)
    {other : Nat} (there : other ∈ sockets.live) (differs : other ≠ place)
    (isOpen : after.fd place ≠ descriptorNull) : after.fd place ≠ sockets.fd other := by
  rcases concerns.number with ⟨-, closed | ⟨inside, same⟩⟩ | ⟨-, fresh⟩
  · exact absurd closed isOpen
  · rw [same] at isOpen ⊢
    exact apart.numbers place inside other there differs.symm isOpen
  · have below := apart.handed other there
    omega

theorem Concerns.later (concerns : Concerns place sockets after) :
    sockets.nextFd ≤ after.nextFd ∧
      sockets.process.nextDescriptor ≤ after.process.nextDescriptor := by
  constructor
  · rcases concerns.number with ⟨same, -⟩ | ⟨more, -⟩ <;> omega
  · rcases concerns.points with ⟨-, -, same⟩ | ⟨-, -, more⟩ <;> omega

theorem Concerns.apart (concerns : Concerns place sockets after) (apart : Apart sockets) :
    Apart after := by
  obtain ⟨laterFd, laterDescriptor⟩ := concerns.later
  have cases_ {other : Nat} (there : other ∈ after.live) :
      other = place ∨ other ∈ sockets.live ∧ other ≠ place := by
    rw [concerns.live] at there
    by_cases same : other = place
    · exact .inl same
    · exact .inr ⟨Finset.mem_of_mem_insert_of_ne there same, same⟩
  constructor
  · intro first there second there' differs
    rcases cases_ there with rfl | ⟨inside, other⟩
    · rcases cases_ there' with rfl | ⟨inside', other'⟩
      · exact absurd rfl differs
      · rw [concerns.others second other']
        exact (concerns.spares apart inside' other').1
    · rw [concerns.others first other]
      rcases cases_ there' with rfl | ⟨inside', other'⟩
      · exact (concerns.spares apart inside other).1.symm
      · rw [concerns.others second other']
        exact apart.points first inside second inside' differs
  · intro first there
    rcases cases_ there with rfl | ⟨inside, other⟩
    · rcases concerns.points with ⟨inside, same, -⟩ | ⟨-, fresh, more⟩
      · rw [same]
        exact (apart.made first inside).trans_le laterDescriptor
      · omega
    · rw [concerns.others first other]
      exact (apart.made first inside).trans_le laterDescriptor
  · intro first there second there' differs isOpen
    rcases cases_ there with rfl | ⟨inside, other⟩
    · rcases cases_ there' with rfl | ⟨inside', other'⟩
      · exact absurd rfl differs
      · rw [(concerns.spares apart inside' other').2]
        exact concerns.number_ne apart inside' other' isOpen
    · rw [(concerns.spares apart inside other).2] at isOpen ⊢
      rcases cases_ there' with rfl | ⟨inside', other'⟩
      · intro same
        rw [same] at isOpen
        exact concerns.number_ne apart inside other isOpen same.symm
      · rw [(concerns.spares apart inside' other').2]
        exact apart.numbers first inside second inside' differs isOpen
  · intro first there
    rcases cases_ there with rfl | ⟨inside, other⟩
    · rcases concerns.number with ⟨-, closed | ⟨inside, same⟩⟩ | ⟨more, fresh⟩
      · rw [closed, descriptorNull]
        omega
      · rw [same]
        have := apart.handed first inside
        omega
      · rw [fresh, more]
        omega
    · rw [(concerns.spares apart inside other).2]
      have := apart.handed first inside
      omega

/-- The flags stay truthful if and only if that of the connection is. -/
theorem Concerns.truthful_iff (concerns : Concerns place sockets after) (apart : Apart sockets)
    (truthful : Truthful sockets) :
    Truthful after ↔ (after.fd place ≠ descriptorNull →
      ((after.object place).blocking = true ↔ after.nonblocking (after.fd place) = false)) := by
  constructor
  · exact fun tells => tells place (concerns.live ▸ Finset.mem_insert_self place sockets.live)
  · intro tells other there isOpen
    by_cases same : other = place
    · subst same
      exact tells isOpen
    · rw [concerns.live] at there
      have inside := Finset.mem_of_mem_insert_of_ne there same
      have number := (concerns.spares apart inside same).2
      rw [number] at isOpen ⊢
      rw [concerns.others other same]
      by_cases closed : after.fd place = descriptorNull
      · rw [concerns.bits _ (by rw [closed]; exact isOpen) isOpen]
        exact truthful other inside isOpen
      · rw [concerns.bits _ (concerns.number_ne apart inside same closed).symm isOpen]
        exact truthful other inside isOpen

/-! ## Commands -/

theorem fd_keep (place : Nat) (after : IPComm × Process) (sockets : Sockets) :
    (sockets.keep place after).fd place = (after.2.descriptors after.1.descriptor).fd := by
  simp [fd, keep, Objects.put, IPComm.desc]

/-- What a call makes of a connection, which there is or which has been made for the call. -/
theorem concerns_keep {base : Sockets} (live : insert place base.live = insert place sockets.live)
    (others : ∀ other, other ≠ place → base.object other = sockets.object other)
    {comm : IPComm} {process : Process}
    (points : place ∈ sockets.live ∧ comm.descriptor = (sockets.object place).descriptor ∧
        process.nextDescriptor = sockets.process.nextDescriptor ∨
      place ∉ sockets.live ∧ comm.descriptor = sockets.process.nextDescriptor ∧
        process.nextDescriptor = sockets.process.nextDescriptor + 1)
    (descriptors : ∀ address, address ≠ comm.descriptor →
      process.descriptors address = sockets.process.descriptors address)
    {nonblocking : Int → Bool} {nextFd : Nat}
    (number : nextFd = sockets.nextFd ∧
        ((process.descriptors comm.descriptor).fd = descriptorNull ∨
          place ∈ sockets.live ∧ (process.descriptors comm.descriptor).fd = sockets.fd place) ∨
      nextFd = sockets.nextFd + 1 ∧ (process.descriptors comm.descriptor).fd = sockets.nextFd)
    (bits : ∀ number, number ≠ (process.descriptors comm.descriptor).fd →
      number ≠ descriptorNull → nonblocking number = sockets.nonblocking number) :
    Concerns place sockets { base.keep place (comm, process) with nonblocking, nextFd } := by
  have own : (Function.update base.object place comm) place = comm := Function.update_self ..
  have held : ({ base.keep place (comm, process) with nonblocking, nextFd } : Sockets).fd place =
      (process.descriptors comm.descriptor).fd := fd_keep place (comm, process) base
  have pointer : (Function.update base.object place comm place).descriptor = comm.descriptor :=
    congrArg IPComm.descriptor own
  refine ⟨live, ?_, ?_, ?_, ?_, ?_⟩
  · exact fun other differs => (Function.update_of_ne differs ..).trans (others other differs)
  · exact points.imp (And.imp_right (And.imp_left pointer.trans))
      (And.imp_right (And.imp_left pointer.trans))
  · exact fun address differs =>
      descriptors address fun same => differs (same.trans pointer.symm)
  · rw [held]
    exact number
  · rw [held]
    exact bits

/-- A call that finds the descriptor closed or only looks at it. -/
theorem concerns_flag (inside : place ∈ sockets.live) {comm : IPComm} {process : Process}
    (pointer : comm.descriptor = (sockets.object place).descriptor)
    (next : process.nextDescriptor = sockets.process.nextDescriptor)
    (descriptors : process.descriptors = sockets.process.descriptors)
    {nonblocking : Int → Bool}
    (bits : ∀ number, number ≠ sockets.fd place → number ≠ descriptorNull →
      nonblocking number = sockets.nonblocking number) :
    Concerns place sockets { sockets.keep place (comm, process) with nonblocking } := by
  have same : (process.descriptors comm.descriptor).fd = sockets.fd place := by
    rw [descriptors, pointer]
    rfl
  refine @concerns_keep place sockets sockets rfl (fun _ _ => rfl) comm process
    (.inl ⟨inside, pointer, next⟩) ?_ nonblocking _ (.inl ⟨rfl, .inr ⟨inside, same⟩⟩) ?_
  · exact fun address _ => congrFun descriptors address
  · rw [same]
    exact bits

theorem concerns_socket (inside : place ∈ sockets.live) (domain type protocol : Int) :
    Concerns place sockets (step (.socket place domain type protocol) sockets).1 ∧
      (step (.socket place domain type protocol) sockets).1.fd place = sockets.nextFd := by
  have held : (((sockets.object place).setFd sockets.nextFd sockets.process).descriptors
      (sockets.object place).descriptor).fd = sockets.nextFd := by
    rw [IPComm.setFd, Process.descriptors_setDescriptor]
  unfold step
  dsimp only
  rw [if_neg (not_not.mpr inside), IPComm.socket_eq]
  refine ⟨@concerns_keep place sockets sockets rfl (fun _ _ => rfl) (sockets.object place)
    ((sockets.object place).setFd sockets.nextFd sockets.process) (.inl ⟨inside, rfl, rfl⟩) ?_ _ _
    (.inr ⟨rfl, held⟩) ?_, (fd_keep ..).trans held⟩
  · exact fun address differs => Function.update_of_ne differs ..
  · rw [held]
    exact fun number differs _ => Function.update_of_ne differs ..

theorem setBit_of_ne {number : Int} (differs : number ≠ sockets.fd place) (blocking : Bool) :
    sockets.setBit (sockets.fd place) blocking number = sockets.nonblocking number := by
  unfold setBit
  split
  · rfl
  · exact Function.update_of_ne differs ..

/-- `set_socket_blocking` and `set_socket_nonblocking`. -/
theorem concerns_setFlags (inside : place ∈ sockets.live) (routine : String) (blocking : Bool) :
    Concerns place sockets
      { sockets.keep place ((sockets.object place).setFlags routine (sockets.flags place) blocking
          sockets.process) with
        nonblocking := sockets.setBit (sockets.fd place) blocking } := by
  have bits (number : Int) (differs : number ≠ sockets.fd place) (_ : number ≠ descriptorNull) :=
    setBit_of_ne differs blocking
  by_cases closed : sockets.fd place = descriptorNull
  · have closed : ((sockets.object place).desc sockets.process).fd = descriptorNull := closed
    unfold IPComm.setFlags
    rw [if_pos closed]
    exact @concerns_flag place sockets inside _ (sockets.process.raise ..) rfl rfl rfl _ bits
  · rw [flags, IPComm.setFlags_eq routine _ blocking closed]
    exact @concerns_flag place sockets inside { sockets.object place with blocking }
      sockets.process rfl rfl rfl _ bits

/-- Behind them the flag is right, except where the kernel's bit was set and should be clear. -/
theorem tells_setFlags (routine : String) (blocking : Bool) {after : Sockets}
    (made : after = { sockets.keep place ((sockets.object place).setFlags routine
        (sockets.flags place) blocking sockets.process) with
      nonblocking := sockets.setBit (sockets.fd place) blocking }) :
    (after.fd place ≠ descriptorNull →
      ((after.object place).blocking = true ↔ after.nonblocking (after.fd place) = false)) ↔
      (sockets.fd place ≠ descriptorNull →
        blocking = true → sockets.nonblocking (sockets.fd place) = false) := by
  by_cases closed : sockets.fd place = descriptorNull
  · have still : after.fd place = descriptorNull := by
      have closed' : ((sockets.object place).desc sockets.process).fd = descriptorNull := closed
      rw [made]
      unfold IPComm.setFlags
      rw [if_pos closed']
      exact (fd_keep ..).trans closed
    exact ⟨fun _ isOpen => absurd closed isOpen, fun _ isOpen => absurd still isOpen⟩
  · rw [flags, IPComm.setFlags_eq routine _ blocking closed] at made
    have number : after.fd place = sockets.fd place := by
      rw [made]
      exact fd_keep ..
    have object : after.object place = { sockets.object place with blocking } := by
      rw [made]
      exact Function.update_self ..
    have bit : after.nonblocking (sockets.fd place) =
        (sockets.nonblocking (sockets.fd place) || !blocking) := by
      rw [made]
      exact (congrFun (if_neg closed) _).trans (Function.update_self ..)
    rw [number, object, bit]
    refine imp_congr_right fun _ => ?_
    cases blocking with
    | true => simp
    | false => simp

/-- An object that is made for a call. -/
theorem concerns_putNew (absent : place ∉ sockets.live) {make : Nat → IPComm}
    (makes : ∀ address, (make address).descriptor = address) :
    Concerns place sockets { sockets with toObjects := sockets.putNew place make } ∧
      ({ sockets with toObjects := sockets.putNew place make } : Sockets).fd place =
        descriptorNull := by
  have own : ({ sockets with toObjects := sockets.putNew place make } : Sockets).object place =
      make sockets.process.nextDescriptor := Function.update_self ..
  have closed : ({ sockets with toObjects := sockets.putNew place make } : Sockets).fd place =
      descriptorNull := by
    rw [fd, own, IPComm.desc, makes]
    simp [Objects.putNew, Objects.put, Process.newDescriptor]
  refine ⟨⟨rfl, fun other differs => Function.update_of_ne differs .., .inr ⟨absent, ?_, rfl⟩, ?_,
    .inl ⟨rfl, .inl closed⟩, fun _ _ _ => rfl⟩, closed⟩
  · rw [own, makes]
  · rw [own, makes]
    exact fun address differs => Function.update_of_ne differs ..

/-- A client that `Accept` fails to fill. -/
theorem accept_failed (reason : Bytes) (comm client : IPComm) (process : Process) :
    ∃ realm format args, comm.accept (.failed false reason) client process =
      (client, process.raise realm format args) := by
  unfold IPComm.accept
  split
  · exact ⟨_, _, _, rfl⟩
  · exact ⟨_, _, _, rfl⟩

/-- A client that `Accept` fills blocks if the listening socket does. -/
theorem accept_accepted {comm : IPComm} (can : comm.canAccept = true) (number descriptor : Nat)
    (process : Process) :
    comm.accept (.accepted number) { descriptor } process =
      ({ descriptor, addressFamily := comm.addressFamily, blocking := comm.blocking },
        process.setDescriptor descriptor fun desc => { desc with fd := number }) := by
  unfold IPComm.accept
  rw [if_pos can]
  cases comm.blocking with
  | true => rfl
  | false => rfl

/-- What `Accept` makes of a client that has been made for the call. -/
theorem concerns_accept {client : Nat} (there : place ∈ sockets.live)
    (absent : client ∉ sockets.live) :
    Concerns client sockets (step (.accept place client) sockets).1 ∧
      (((step (.accept place client) sockets).1.fd client ≠ descriptorNull →
        (((step (.accept place client) sockets).1.object client).blocking = true ↔
          (step (.accept place client) sockets).1.nonblocking
            ((step (.accept place client) sockets).1.fd client) = false)) ↔
        KeepsMode (.accept place client) sockets) := by
  have live : insert client (insert client sockets.live) = insert client sockets.live :=
    Finset.insert_idem client sockets.live
  have others (other : Nat) (differs : other ≠ client) :
      ({ sockets with toObjects := sockets.putNew client fun descriptor => { descriptor } } :
        Sockets).object other = sockets.object other := Function.update_of_ne differs ..
  have own : ({ sockets with toObjects := sockets.putNew client fun descriptor => { descriptor } } :
      Sockets).object client = { descriptor := sockets.process.nextDescriptor } :=
    Function.update_self ..
  by_cases refused : sockets.fd place = descriptorNull ∨ (sockets.object place).canAccept = false
  · -- the socket is closed, or of another family
    obtain ⟨realm, format, args, failed⟩ := accept_failed (ascii "Bad file descriptor")
      (sockets.object place) { descriptor := sockets.process.nextDescriptor }
      sockets.process.newDescriptor.2
    have closed : ((sockets.process.newDescriptor.2.raise realm format args).descriptors
        sockets.process.nextDescriptor).fd = descriptorNull := by
      simp [Process.newDescriptor, Process.raise]
    have after : (step (.accept place client) sockets).1 =
        { ({ sockets with toObjects := sockets.putNew client fun descriptor => { descriptor } } :
            Sockets).keep client ({ descriptor := sockets.process.nextDescriptor },
              sockets.process.newDescriptor.2.raise realm format args) with
          nonblocking := sockets.nonblocking, nextFd := sockets.nextFd } := by
      unfold step
      dsimp only
      rw [if_neg (not_or.mpr ⟨not_not.mpr there, absent⟩), if_pos (by simpa using refused), own]
      exact congrArg (keep client · _) failed
    rw [after]
    refine ⟨concerns_keep live others (.inr ⟨absent, rfl, rfl⟩) ?_ (.inl ⟨rfl, .inl closed⟩)
      fun _ _ _ => rfl, fun _ _ _ isOpen can => ?_, fun _ isOpen => ?_⟩
    · exact fun address differs => Function.update_of_ne differs ..
    · rcases refused with none_ | other
      · exact absurd none_ isOpen
      · exact absurd (other.symm.trans can) (by decide)
    · exact absurd ((fd_keep ..).trans closed) isOpen
  · obtain ⟨isOpen, can⟩ := not_or.mp refused
    have can : (sockets.object place).canAccept = true := by simpa using can
    have filled := accept_accepted can sockets.nextFd sockets.process.nextDescriptor
      sockets.process.newDescriptor.2
    have held : ((sockets.process.newDescriptor.2.setDescriptor sockets.process.nextDescriptor
        fun desc => { desc with fd := sockets.nextFd }).descriptors
        sockets.process.nextDescriptor).fd = sockets.nextFd := by
      rw [Process.descriptors_setDescriptor]
    have after : (step (.accept place client) sockets).1 =
        { ({ sockets with toObjects := sockets.putNew client fun descriptor => { descriptor } } :
            Sockets).keep client
              ({ descriptor := sockets.process.nextDescriptor
                 addressFamily := (sockets.object place).addressFamily
                 blocking := (sockets.object place).blocking },
                sockets.process.newDescriptor.2.setDescriptor sockets.process.nextDescriptor
                  fun desc => { desc with fd := sockets.nextFd }) with
          nonblocking := Function.update sockets.nonblocking sockets.nextFd false
          nextFd := sockets.nextFd + 1 } := by
      unfold step
      dsimp only
      rw [if_neg (not_or.mpr ⟨not_not.mpr there, absent⟩), if_neg (by simpa using refused), own]
      exact congrArg (fun filled => ({ keep client filled _ with
        nonblocking := Function.update sockets.nonblocking sockets.nextFd false
        nextFd := sockets.nextFd + 1 } : Sockets)) filled
    have object : (step (.accept place client) sockets).1.object client =
        { descriptor := sockets.process.nextDescriptor
          addressFamily := (sockets.object place).addressFamily
          blocking := (sockets.object place).blocking } := by
      rw [after]
      exact Function.update_self ..
    have number : (step (.accept place client) sockets).1.fd client = sockets.nextFd := by
      rw [after]
      exact (fd_keep ..).trans held
    have clear : (step (.accept place client) sockets).1.nonblocking sockets.nextFd = false := by
      rw [after]
      exact Function.update_self ..
    constructor
    · rw [after]
      refine concerns_keep live others (.inr ⟨absent, rfl, rfl⟩) ?_ (.inr ⟨rfl, held⟩) ?_
      · intro address differs
        exact (Function.update_of_ne differs ..).trans (Function.update_of_ne differs ..)
      · rw [held]
        exact fun number differs _ => Function.update_of_ne differs ..
    · rw [object, number, clear]
      constructor
      · intro tells _ _ _ _
        exact (tells (ne_of_gt (lt_of_lt_of_le (by decide) (Int.natCast_nonneg _)))).mpr rfl
      · intro keeps _
        exact ⟨fun _ => rfl, fun _ => keeps there absent isOpen can⟩

/-! ## Runs -/

/-- What is known of the connections before every command. -/
structure Steady (sockets : Sockets) : Prop where
  apart : Apart sockets
  truthful : Truthful sockets

/-- The step: a lawful command keeps the connections apart, and their flags truthful if and only
if the mode allows it. -/
theorem Steady.step_iff (steady : Steady sockets) {command : SocketCommand}
    (lawful : Lawful command sockets) :
    Apart (step command sockets).1 ∧
      (Truthful (step command sockets).1 ↔ KeepsMode command sockets) := by
  have of_concerns {place : Nat} (concerns : Concerns place sockets (step command sockets).1)
      (tells : ((step command sockets).1.fd place ≠ descriptorNull →
        (((step command sockets).1.object place).blocking = true ↔
          (step command sockets).1.nonblocking ((step command sockets).1.fd place) = false)) ↔
        KeepsMode command sockets) :
      Apart (step command sockets).1 ∧
        (Truthful (step command sockets).1 ↔ KeepsMode command sockets) :=
    ⟨concerns.apart steady.apart,
      (concerns.truthful_iff steady.apart steady.truthful).trans tells⟩
  have of_same (same : (step command sockets).1 = sockets) (keeps : KeepsMode command sockets) :
      Apart (step command sockets).1 ∧
        (Truthful (step command sockets).1 ↔ KeepsMode command sockets) := by
    rw [same]
    exact ⟨steady.apart, fun _ => keeps, fun _ => steady.truthful⟩
  cases lawful with
  | create place addressFamily =>
      by_cases absent : place ∈ sockets.live
      · exact of_same (by simp [step, absent]) trivial
      · have after : (step (.create place addressFamily) sockets).1 =
            { sockets with
              toObjects := sockets.putNew place fun descriptor => { descriptor, addressFamily } } := by
          simp [step, absent]
        obtain ⟨concerns, closed⟩ := @concerns_putNew place sockets absent
          (fun descriptor => { descriptor, addressFamily }) fun _ => rfl
        rw [← after] at concerns closed
        exact of_concerns concerns ⟨fun _ => trivial, fun _ isOpen => absurd closed isOpen⟩
  | @setBlocking _ place closed =>
      by_cases inside : place ∈ sockets.live
      · have after : (step (.setBlocking place) sockets).1 =
            { sockets.keep place ((sockets.object place).setBlocking, sockets.process) with
              nonblocking := sockets.nonblocking } := by
          simp [step, inside, keep]
        have concerns := @concerns_flag place sockets inside (sockets.object place).setBlocking
          sockets.process rfl rfl rfl sockets.nonblocking fun _ _ _ => rfl
        rw [← after] at concerns
        refine of_concerns concerns ⟨fun _ => trivial, fun _ isOpen => absurd ?_ isOpen⟩
        rw [after]
        exact (fd_keep ..).trans closed
      · exact of_same (by simp [step, inside]) trivial
  | @setNonblocking _ place closed =>
      by_cases inside : place ∈ sockets.live
      · have after : (step (.setNonblocking place) sockets).1 =
            { sockets.keep place ((sockets.object place).setNonblocking, sockets.process) with
              nonblocking := sockets.nonblocking } := by
          simp [step, inside, keep]
        have concerns := @concerns_flag place sockets inside (sockets.object place).setNonblocking
          sockets.process rfl rfl rfl sockets.nonblocking fun _ _ _ => rfl
        rw [← after] at concerns
        refine of_concerns concerns ⟨fun _ => trivial, fun _ isOpen => absurd ?_ isOpen⟩
        rw [after]
        exact (fd_keep ..).trans closed
      · exact of_same (by simp [step, inside]) trivial
  | socket place domain type protocol =>
      by_cases inside : place ∈ sockets.live
      · obtain ⟨concerns, number⟩ := concerns_socket inside domain type protocol
        refine of_concerns concerns ⟨fun _ => trivial, fun _ _ => ?_⟩
        rw [number]
        simp [step, inside, IPComm.socket_eq, keep, Objects.put]
      · exact of_same (by simp [step, inside]) trivial
  | setSocketBlocking place =>
      by_cases inside : place ∈ sockets.live
      · have after : (step (.setSocketBlocking place) sockets).1 =
            { sockets.keep place ((sockets.object place).setFlags "set_socket_blocking"
                (sockets.flags place) true sockets.process) with
              nonblocking := sockets.setBit (sockets.fd place) true } := by
          simp only [step, inside, not_true_eq_false, if_false]
          rfl
        have concerns := concerns_setFlags inside "set_socket_blocking" true
        rw [← after] at concerns
        refine of_concerns concerns ((tells_setFlags "set_socket_blocking" true after).trans ?_)
        refine ⟨fun clear _ isOpen => ?_, fun keeps isOpen _ => ?_⟩
        · exact (steady.truthful place inside isOpen).mpr (clear isOpen rfl)
        · exact (steady.truthful place inside isOpen).mp (keeps inside isOpen)
      · exact of_same (by simp [step, inside]) fun there => absurd there inside
  | setSocketNonblocking place =>
      by_cases inside : place ∈ sockets.live
      · have after : (step (.setSocketNonblocking place) sockets).1 =
            { sockets.keep place ((sockets.object place).setFlags "set_socket_nonblocking"
                (sockets.flags place) false sockets.process) with
              nonblocking := sockets.setBit (sockets.fd place) false } := by
          simp only [step, inside, not_true_eq_false, if_false]
          rfl
        have concerns := concerns_setFlags inside "set_socket_nonblocking" false
        rw [← after] at concerns
        refine of_concerns concerns ((tells_setFlags "set_socket_nonblocking" false after).trans ?_)
        exact ⟨fun _ => trivial, fun _ _ blocking => absurd blocking (by decide)⟩
      · exact of_same (by simp [step, inside]) trivial
  | accept place client =>
      by_cases legal : place ∈ sockets.live ∧ client ∉ sockets.live
      · obtain ⟨concerns, tells⟩ := concerns_accept legal.1 legal.2
        exact of_concerns concerns tells
      · refine of_same ?_ fun there absent => absurd ⟨there, absent⟩ legal
        have idle : place ∉ sockets.live ∨ client ∈ sockets.live := by
          by_cases there : place ∈ sockets.live
          · exact .inr (not_not.mp fun absent => legal ⟨there, absent⟩)
          · exact .inl there
        simp only [step, if_pos idle]

theorem steady_none : Steady none_ where
  apart :=
    { points := fun _ there => absurd there (Finset.notMem_empty _)
      made := fun _ there => absurd there (Finset.notMem_empty _)
      numbers := fun _ there => absurd there (Finset.notMem_empty _)
      handed := fun _ there => absurd there (Finset.notMem_empty _) }
  truthful := fun _ there => absurd there (Finset.notMem_empty _)

/-- In every run in which no non-blocking socket is made to block or accepts, the flag of every
connection tells what the kernel keeps. -/
theorem run_truthful {commands : List SocketCommand}
    (along : Machine.Along step (fun command sockets =>
      Lawful command sockets ∧ KeepsMode command sockets) commands none_) :
    Truthful (Machine.run step commands none_).1 := by
  refine (@Machine.run_preserves _ _ step _ Steady ?_ commands none_ steady_none along).truthful
  intro command sockets steady legal
  obtain ⟨apart, truthful⟩ := steady.step_iff legal.1
  exact ⟨apart, truthful.mpr legal.2⟩

/-- A listening socket becomes non-blocking after it has accepted a client. -/
theorem run_truthful_sample :
    Truthful (Machine.run step
      [.create 0 2, .socket 0 2 1 0, .accept 0 1, .setSocketNonblocking 0] none_).1 := by
  apply run_truthful
  refine ⟨⟨.create 0 2, trivial⟩, fun _ => ⟨⟨.socket 0 2 1 0, trivial⟩, fun _ =>
    ⟨⟨.accept 0 1, fun _ _ _ _ => rfl⟩, fun _ => ⟨⟨.setSocketNonblocking 0, trivial⟩, fun _ =>
      trivial⟩⟩⟩⟩

/-- `set_socket_blocking` does not clear `O_NONBLOCK`, and the client of a non-blocking socket
is believed to be non-blocking. -/
theorem not_truthful :
    ¬Truthful (Machine.run step
      [.create 0 2, .setNonblocking 0, .socket 0 2 1 0, .setSocketBlocking 0] none_).1 ∧
    ¬Truthful (Machine.run step
      [.create 0 2, .setNonblocking 0, .socket 0 2 1 0, .accept 0 1] none_).1 := by
  constructor
  · intro truthful
    exact absurd (truthful 0 (by decide) (by decide)) (by decide)
  · intro truthful
    exact absurd (truthful 1 (by decide) (by decide)) (by decide)

end Sockets

end IpUtils
