import IpUtils.Calls.Basic
import IpUtils.Session.Boxes
import IpUtils.Session.Machine

/-! # The descriptors of a session

A session copies the files of the messages that it sends, and its caller may copy the file
of the message that comes in. The copies share descriptors, and count themselves.
-/

namespace IpUtils

open CLib

/-- Each descriptor counts those that point to it, and all of them point to a descriptor
that has been made. -/
structure Process.Tallies (process : Process) (pointers : List Nat) : Prop where
  cnt : ∀ address < process.nextDescriptor,
    (process.descriptors address).cnt = pointers.count address
  made : ∀ address ∈ pointers, address < process.nextDescriptor

namespace Process.Tallies

variable {process after : Process} {pointers : List Nat}

theorem perm (tallies : process.Tallies pointers) {others : List Nat}
    (same : pointers.Perm others) : process.Tallies others where
  cnt := fun address within => by rw [tallies.cnt address within, same.count_eq]
  made := fun address member => tallies.made address (same.mem_iff.mpr member)

theorem of_sameCounts (tallies : process.Tallies pointers) (same : process.SameCounts after) :
    after.Tallies pointers where
  cnt := fun address within => by rw [same.cnt, tallies.cnt address (same.next ▸ within)]
  made := fun address member => same.next ▸ tallies.made address member

/-- What points to a descriptor keeps it. -/
theorem cnt_pos (tallies : process.Tallies pointers) {address : Nat}
    (member : address ∈ pointers) : 0 < (process.descriptors address).cnt := by
  rw [tallies.cnt address (tallies.made address member)]
  exact List.count_pos_iff.mpr member

/-- The copy constructor. -/
theorem share (tallies : process.Tallies pointers) {file : File}
    (member : file.descriptor ∈ pointers) :
    (file.share process).Tallies (file.descriptor :: pointers) where
  cnt := fun address within => by
    have was := tallies.cnt address within
    by_cases same : address = file.descriptor
    · subst same
      simp [File.share, was]
    · rw [List.count_cons_of_ne (Ne.symm same), ← was]
      simp [File.share, Process.setDescriptor, same]
  made := fun address there => by
    rcases List.mem_cons.mp there with rfl | there
    · exact tallies.made _ member
    · exact tallies.made address there

/-- The destructor. -/
theorem release {file : File} (tallies : process.Tallies (file.descriptor :: pointers)) :
    (file.release process).Tallies pointers := by
  have drops := Files.drops_release file process
  refine ⟨fun address within => ?_, fun address there => ?_⟩
  · rw [drops.next] at within
    have was := tallies.cnt address within
    rw [drops.cnt, was]
    by_cases same : address = file.descriptor
    · subst same
      simp
    · simp [List.count_cons_of_ne (Ne.symm same), same]
  · rw [drops.next]
    exact tallies.made address (List.mem_cons_of_mem _ there)

/-- `new Descriptor()`. -/
theorem newDescriptor (tallies : process.Tallies pointers) :
    process.newDescriptor.2.Tallies (process.newDescriptor.1 :: pointers) := by
  have absent : process.nextDescriptor ∉ pointers := fun there =>
    absurd (tallies.made _ there) (Nat.lt_irrefl _)
  refine ⟨fun address within => ?_, fun address there => ?_⟩
  · change address < process.nextDescriptor + 1 at within
    by_cases last : address = process.nextDescriptor
    · subst last
      simp [Process.newDescriptor, Process.setDescriptor, List.count_eq_zero_of_not_mem absent]
    · have was := tallies.cnt address (by omega)
      change _ = List.count address (process.nextDescriptor :: pointers)
      rw [List.count_cons_of_ne (Ne.symm last), ← was]
      simp [Process.newDescriptor, Process.setDescriptor, last]
  · change address < process.nextDescriptor + 1
    rcases List.mem_cons.mp there with rfl | there
    · exact Nat.lt_succ_self _
    · exact Nat.lt_succ_of_lt (tallies.made address there)

theorem clear {file : File} (tallies : process.Tallies (file.descriptor :: pointers)) :
    (file.clear process).2.Tallies ((file.clear process).1.descriptor :: pointers) :=
  newDescriptor (release tallies)

theorem destroyAll {files : List File}
    (tallies : process.Tallies (files.map File.descriptor ++ pointers)) :
    (File.destroyAll files process).Tallies pointers := by
  unfold File.destroyAll
  induction files generalizing process with
  | nil => exact tallies
  | cons file files ih => exact ih (release tallies)

theorem eraseFront {files : List File}
    (tallies : process.Tallies (files.map File.descriptor ++ pointers)) :
    (File.eraseFront files process).2.Tallies
      ((File.eraseFront files process).1.map File.descriptor ++ pointers) := by
  cases files with
  | nil => exact tallies.of_sameCounts ⟨fun _ => rfl, rfl⟩
  | cons file others =>
      cases others with
      | nil => exact release tallies
      | cons next others =>
          -- The object that goes has the name of the second, and its own descriptor.
          exact @release process _ { file with name := next.name, dir := next.dir } tallies

end Process.Tallies

namespace World

variable {w after : World} {pointers : List Nat} {given : Given}

/-- All that points to a descriptor are the files of the session, and what its caller has. -/
def Tallied (pointers : List Nat) (w : World) : Prop :=
  w.process.Tallies
    (w.session.wfiles.map File.descriptor ++ w.session.rfile.descriptor :: pointers)

theorem tallied_append_iff {more : List Nat} :
    w.Tallied (more ++ pointers) ↔
      w.process.Tallies (more ++
        (w.session.wfiles.map File.descriptor ++ w.session.rfile.descriptor :: pointers)) := by
  have same := List.perm_append_comm_assoc
    (w.session.wfiles.map File.descriptor ++ [w.session.rfile.descriptor]) more pointers
  simp only [List.append_assoc, List.cons_append, List.nil_append] at same
  exact ⟨fun tallied => Process.Tallies.perm tallied same, fun tallies => tallies.perm same.symm⟩

theorem Tallied.perm (tallied : w.Tallied pointers) {others : List Nat}
    (same : pointers.Perm others) : w.Tallied others :=
  Process.Tallies.perm tallied ((same.cons _).append_left _)

/-! ## One call -/

/-- Nothing happens to the files. -/
theorem Tallied.of_sameFiles (tallied : w.Tallied pointers)
    (wfiles : after.session.wfiles = w.session.wfiles)
    (descriptor : after.session.rfile.descriptor = w.session.rfile.descriptor)
    (same : w.process.SameCounts after.process) : after.Tallied pointers := by
  unfold Tallied
  rw [wfiles, descriptor]
  exact Process.Tallies.of_sameCounts tallied same

theorem Tallied.sends (tallied : w.Tallied pointers) (sends : Sends given w after)
    (owned : ∀ address ∈ given.descriptors, address ∈ pointers) : after.Tallied pointers := by
  induction sends with
  | refl => exact tallied
  | tail _ move ih =>
      cases move with
      | process same => exact ih.of_sameFiles rfl rfl same
      | session inbox wfiles whdrs =>
          have rfile := congrArg Inbox.rfile inbox
          exact ih.of_sameFiles wfiles (congrArg File.descriptor rfile) ⟨fun _ => rfl, rfl⟩
      | send | archive => exact ih.of_sameFiles rfl rfl ⟨fun _ => rfl, rfl⟩
      | reset => exact Process.Tallies.destroyAll ih
      | eraseFile => exact Process.Tallies.eraseFront ih
      | addFile file member =>
          have shared := Process.Tallies.share ih (List.mem_append_right _
            (List.mem_cons_of_mem _ (owned _ member)))
          refine shared.perm ?_
          rw [List.map_append, List.append_assoc]
          exact List.perm_middle.symm

theorem Tallied.gets (tallied : w.Tallied pointers) (gets : Gets w after) :
    after.Tallied pointers := by
  induction gets with
  | refl => exact tallied
  | tail _ move ih =>
      cases move with
      | process same => exact ih.of_sameFiles rfl rfl same
      | session outbox descriptor =>
          exact ih.of_sameFiles (congrArg Outbox.wfiles outbox) descriptor ⟨fun _ => rfl, rfl⟩
      | clearFile =>
          have first := Process.Tallies.perm ih List.perm_middle
          exact first.clear.perm List.perm_middle.symm

theorem Tallied.init (tallied : w.Tallied pointers) (rbuf : Bool) (wbuf : Option Bytes) :
    (w.init rbuf wbuf).1.Tallied pointers := by
  unfold World.init
  split
  · exact tallied.of_sameFiles rfl rfl ⟨fun _ => rfl, rfl⟩
  · split
    · exact tallied.of_sameFiles rfl rfl ⟨fun _ => rfl, rfl⟩
    · split
      · exact tallied.of_sameFiles rfl rfl ⟨fun _ => rfl, rfl⟩
      · dsimp only
        split
        · exact tallied.of_sameFiles rfl rfl ⟨fun _ => rfl, rfl⟩
        · exact tallied.of_sameFiles rfl rfl ⟨fun _ => rfl, rfl⟩

theorem Tallied.setConnected (tallied : w.Tallied pointers) (connected : Bool) :
    (w.setConnected connected).1.Tallied pointers := by
  unfold World.setConnected lockIncoming
  dsimp only
  split
  · exact tallied.of_sameFiles rfl rfl ⟨fun _ => rfl, rfl⟩
  · unfold lockOutgoing
    dsimp only
    split
    · exact tallied.of_sameFiles rfl rfl ⟨fun _ => rfl, rfl⟩
    · exact tallied.of_sameFiles rfl rfl ⟨fun _ => rfl, rfl⟩

theorem Tallied.deleteWhdr (tallied : w.Tallied pointers) (msgId : UInt16) :
    (w.deleteWhdr msgId).1.Tallied pointers := by
  unfold World.deleteWhdr lockOutgoing
  dsimp only
  split
  · exact tallied.of_sameFiles rfl rfl ⟨fun _ => rfl, rfl⟩
  · exact tallied.of_sameFiles rfl rfl ⟨fun _ => rfl, rfl⟩

/-- The descriptors of the files that a call is given. -/
def handed : Call → List Nat
  | .addMsgFile _ _ msgBody _ _ _ => [msgBody.descriptor]
  | _ => []

/-- A call. -/
theorem Tallied.step (tallied : w.Tallied pointers) {call : Call}
    (owned : handed call ⊆ pointers) : (World.step call w).1.Tallied pointers := by
  have none_ : ∀ address ∈ (∅ : Set Nat), address ∈ pointers := fun _ member => member.elim
  cases call with
  | init rbuf wbuf => exact tallied.init rbuf wbuf
  | read reply fresh => exact tallied.gets (gets_read reply fresh w)
  | initIncomingMsg env => exact tallied.gets (gets_initIncomingMsg env w)
  | streamIncomingMsg reply => exact tallied.gets (gets_streamIncomingMsg reply w)
  | clearIncomingMsg => exact tallied.gets (gets_clearIncomingMsg w)
  | setRfile path reply => exact tallied.gets (gets_setRfile path reply w)
  | setStorage storage => exact tallied.gets (gets_setStorage storage w)
  | setRtid rtid => exact tallied.gets (gets_setRtid rtid w)
  | setConnected connected => exact tallied.setConnected connected
  | deleteWhdr msgId => exact tallied.deleteWhdr msgId
  | addMsgBuf framingHdr hdrLen msgBody bodyLen whdr fresh =>
      exact tallied.sends (sends_addMsgBuf framingHdr hdrLen msgBody bodyLen whdr fresh w) none_
  | addMsgFile framingHdr hdrLen msgBody bodyLen whdr fresh =>
      refine tallied.sends (sends_addMsgFile framingHdr hdrLen msgBody bodyLen whdr fresh w) ?_
      rintro address rfl
      exact owned (List.mem_singleton_self _)
  | write replies => exact tallied.sends (sends_write replies w) none_
  | popOutgoingMsgQueue => exact tallied.sends (sends_popOutgoingMsgQueue w) none_
  | clearError => exact tallied.of_sameFiles rfl rfl ⟨fun _ => rfl, rfl⟩

end World

/-- A session, and the `File` objects that its caller has. -/
structure Sharing where
  held : List File
  world : World

/-- What the caller does, with one of its files or with the session. -/
inductive SharingCall where
  | construct
  | copy (place : Nat)
  | copyRfile
  | initFromBuf (place : Nat) (buf : Bytes)
  | openWith (place : Nat) (flags mode : Int) (reply : OpenReply)
  | close (place : Nat)
  | clear (place : Nat)
  | destroy (place : Nat)
  | session (call : Call)

namespace Sharing

/-- All objects that there are. -/
def files (sharing : Sharing) : List File :=
  sharing.world.session.wfiles ++ sharing.world.session.rfile :: sharing.held

/-- A file of the caller is used, and those that come of it are put in front. -/
def use (place : Nat) (act : File → Process → List File × Process) (sharing : Sharing) :
    Sharing :=
  match sharing.held[place]? with
  | none => sharing
  | some file =>
      { held := (act file sharing.world.process).1 ++ sharing.held.eraseIdx place
        world := sharing.world.onProcess fun process => (act file process).2 }

def step : Machine SharingCall Sharing
  | .construct, sharing =>
      let (file, process) := File.create sharing.world.process
      ({ held := file :: sharing.held, world := { sharing.world with process } }, true)
  | .copy place, sharing =>
      (sharing.use place fun file process => ([file, file], file.share process), true)
  | .copyRfile, sharing =>
      ({ held := sharing.world.session.rfile :: sharing.held
         world := sharing.world.onProcess sharing.world.session.rfile.share }, true)
  | .initFromBuf place buf, sharing =>
      (sharing.use place fun file process => ([file.initFromBuf buf], process), true)
  | .openWith place flags mode reply, sharing =>
      (sharing.use place fun file process => ([file], file.openWith flags mode reply process),
        true)
  | .close place, sharing =>
      (sharing.use place fun file process => ([file], file.close process), true)
  | .clear place, sharing =>
      (sharing.use place fun file process =>
        ([(file.clear process).1], (file.clear process).2), true)
  | .destroy place, sharing =>
      (sharing.use place fun file process => ([], file.release process), true)
  | .session call, sharing =>
      ({ sharing with world := (World.step call sharing.world).1 },
        (World.step call sharing.world).2)

/-- The files that the session is given are the caller's. -/
def Admits : SharingCall → Sharing → Prop
  | .session call, sharing => World.handed call ⊆ sharing.held.map File.descriptor
  | _, _ => True

/-- The members of the session are destroyed. -/
def destroySession (sharing : Sharing) : Process :=
  sharing.world.session.rfile.release
    (File.destroyAll sharing.world.session.wfiles sharing.world.process)

/-- The constructor, in a process in which there are files. -/
def create (framingType : UInt8) (conn : SSLConn) (held : List File) (process : Process) :
    Sharing where
  held := held
  world := TCPSession.create framingType conn process

/-- Every descriptor counts the objects that share it. -/
def Tallied (sharing : Sharing) : Prop :=
  sharing.world.Tallied (sharing.held.map File.descriptor)

variable {sharing : Sharing}

theorem tallied_use (tallied : sharing.Tallied) (place : Nat)
    {act : File → Process → List File × Process}
    (keeps : ∀ (file : File) (process : Process) (pointers : List Nat),
      process.Tallies (file.descriptor :: pointers) →
      (act file process).2.Tallies ((act file process).1.map File.descriptor ++ pointers)) :
    (sharing.use place act).Tallied := by
  unfold use
  split
  · exact tallied
  · rename_i file there
    obtain ⟨within, rfl⟩ := List.getElem?_eq_some_iff.mp there
    have apart := (List.getElem_cons_eraseIdx_perm within).symm.map File.descriptor
    have first := World.Tallied.perm tallied apart
    have front := (@World.tallied_append_iff _ _ [sharing.held[place].descriptor]).mp first
    have used := keeps _ _ _ front
    unfold Tallied
    rw [List.map_append]
    exact World.tallied_append_iff.mpr used

/-- What the caller does keeps the counts. -/
theorem tallied_step {call : SharingCall} (tallied : sharing.Tallied)
    (admits : Admits call sharing) : (step call sharing).1.Tallied := by
  cases call with
  | construct =>
      have made := Process.Tallies.newDescriptor tallied
      exact (@World.tallied_append_iff
        { sharing.world with process := sharing.world.process.newDescriptor.2 } _
        [sharing.world.process.newDescriptor.1]).mpr made
  | copy place =>
      exact tallied_use tallied place fun file process pointers tallies =>
        tallies.share List.mem_cons_self
  | copyRfile =>
      have shared := @Process.Tallies.share _ _ tallied sharing.world.session.rfile
        (List.mem_append_right _ List.mem_cons_self)
      exact (@World.tallied_append_iff
        (sharing.world.onProcess sharing.world.session.rfile.share) _
        [sharing.world.session.rfile.descriptor]).mpr shared
  | initFromBuf place buf =>
      refine tallied_use tallied place fun file process pointers tallies => ?_
      rw [List.map_singleton, World.descriptor_initFromBuf]
      exact tallies
  | openWith place flags mode reply =>
      exact tallied_use tallied place fun file process pointers tallies =>
        tallies.of_sameCounts (World.sameCounts_openWith file flags mode reply process)
  | close place =>
      exact tallied_use tallied place fun file process pointers tallies =>
        tallies.of_sameCounts (World.sameCounts_close file process)
  | clear place =>
      exact tallied_use tallied place fun file process pointers tallies => tallies.clear
  | destroy place =>
      exact tallied_use tallied place fun file process pointers tallies => tallies.release
  | session call => exact World.Tallied.step tallied admits

theorem tallied_create {process : Process} {held : List File}
    (tallies : process.Tallies (held.map File.descriptor)) (framingType : UInt8)
    (conn : SSLConn) : (create framingType conn held process).Tallied :=
  tallies.newDescriptor

/-- Whatever the caller does, every descriptor counts the objects that share it, none of
these has lost its descriptor, and a session that is destroyed leaves the counts of its
caller's files. -/
theorem run_counts_files {framingType : UInt8} {conn : SSLConn} {held : List File}
    {process : Process} {calls : List SharingCall}
    (tallies : process.Tallies (held.map File.descriptor))
    (admits : Machine.Along step Admits calls (create framingType conn held process)) :
    let after := (Machine.run step calls (create framingType conn held process)).1
    (∀ address < after.world.process.nextDescriptor,
      (after.world.process.descriptors address).cnt =
        after.files.countP fun file => file.descriptor == address) ∧
    (∀ file ∈ after.files, 0 < (file.desc after.world.process).cnt) ∧
    after.destroySession.Tallies (after.held.map File.descriptor) := by
  intro after
  have tallied : after.Tallied :=
    Machine.run_preserves (fun _ _ => tallied_step) (tallied_create tallies framingType conn) admits
  have all : after.world.process.Tallies (after.files.map File.descriptor) := by
    unfold files
    rw [List.map_append, List.map_cons]
    exact tallied
  refine ⟨fun address within => ?_, fun file member => ?_, ?_⟩
  · rw [all.cnt address within, List.count, List.countP_map]
    rfl
  · exact all.cnt_pos (List.mem_map_of_mem member)
  · exact Process.Tallies.release (Process.Tallies.destroyAll tallied)

/-- A file is sent, and its caller gives it up at once. -/
def sendingCalls : List SharingCall :=
  [.construct, .initFromBuf 0 (ascii "f"), .openWith 0 File.readOnly 0 (.opened 3 (ascii "abc")),
    .session (.init true (some [])),
    .session (.addMsgFile (some (ascii "H")) 1 { descriptor := 1, name := ascii "f" } 3
      { type := MsgHdr.typeHttp } none),
    .copyRfile, .destroy 1]

theorem run_counts_files_sample :
    let after := (Machine.run step sendingCalls (create MsgHdr.typeHttp {} [] {})).1
    ∀ file ∈ after.files, 0 < (file.desc after.world.process).cnt := by
  have nothing : ({} : Process).Tallies (([] : List File).map File.descriptor) :=
    ⟨fun address within => absurd within (Nat.not_lt_zero address), fun _ member => nomatch member⟩
  have admits : Machine.Along step Admits sendingCalls (create MsgHdr.typeHttp {} [] {}) :=
    ⟨trivial, fun _ => ⟨trivial, fun _ => ⟨trivial, fun _ => ⟨List.nil_subset _, fun _ =>
      ⟨List.Subset.refl [1], fun _ => ⟨trivial, fun _ => ⟨trivial, fun _ => trivial⟩⟩⟩⟩⟩⟩⟩
  exact (run_counts_files nothing admits).2.1

end Sharing

end IpUtils
