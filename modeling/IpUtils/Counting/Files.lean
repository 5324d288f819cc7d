import IpUtils.Calls.Basic
import IpUtils.Counting.Objects
import IpUtils.File.Path

/-! # Files that share descriptors

Any number of `File` objects that are made, copied, assigned, cleared and destroyed, with the
descriptors that they share and the numbers that the kernel has handed out.
-/

namespace IpUtils

open CLib

namespace File

/-- What `Close` passes to `close(2)`. -/
def closing (file : File) (process : Process) : Option Int :=
  if file.name.isEmpty || (file.desc process).fp.isSome || (file.desc process).fd = descriptorNull ||
      file.name = stdin then none
  else some (file.desc process).fd

/-- What is passed to `close(2)` when a reference is given up. -/
def releasing (file : File) (process : Process) : Option Int :=
  let process := process.setDescriptor file.descriptor fun desc => { desc with cnt := desc.cnt - 1 }
  if (file.desc process).cnt = 0 then file.closing process else none

/-- What `open(2)` hands out in a call of `Open`. -/
def opening (reply : OpenReply) (file : File) (process : Process) : Option Int :=
  if (file.desc process).fp.isSome || (file.desc process).fd ≠ descriptorNull ||
      file.name.isEmpty || file.name = stdin then none
  else
    match reply with
    | .opened fd _ => some fd
    | .failed _ => none

end File

instance : HasDescriptor File :=
  ⟨File.descriptor⟩

/-- The files of a process, with the numbers that the kernel has handed out and not got back. -/
structure Files extends Objects File where
  opened : Finset Int := ∅
  /-- A number has been passed to `close(2)` that was not open. -/
  misclosed : Bool := false

/-- What a program does with a file. -/
inductive FileCommand where
  | create (place : Nat)
  | copy (place source : Nat)
  | assign (place source : Nat)
  | clear (place : Nat)
  | destroy (place : Nat)
  | init (place : Nat) (name dir : Option Bytes)
  | openFile (place : Nat) (flags mode : Int) (reply : OpenReply)
  | closeFile (place : Nat)
  deriving DecidableEq, Repr

namespace Files

/-- A call of `close(2)`. -/
def passToClose (fd : Option Int) (files : Files) : Files :=
  match fd with
  | none => files
  | some fd =>
      { files with
        opened := files.opened.erase fd
        misclosed := files.misclosed || fd ∉ files.opened }

/-- Give up the reference of a file; the last one closes it and deletes the descriptor. -/
def release (file : File) (files : Files) : Files :=
  { files.passToClose (file.releasing files.process) with
    toObjects := files.toObjects.giveUp file.descriptor (file.release files.process) }

/-- One step of a program. A command on a file that there is not, or that there is already,
does nothing. -/
def step : Machine FileCommand Files
  | .create place, files =>
      (if place ∈ files.live then files
        else { files with toObjects := files.putNew place fun descriptor => { descriptor } }, true)
  | .copy place source, files =>
      (if place ∈ files.live ∨ source ∉ files.live then files
        else
          let file := files.object source
          { files with toObjects := (files.share file.descriptor).put place file }, true)
  | .assign place source, files =>
      (if place ∉ files.live ∨ source ∉ files.live then files
        else
          let file := files.object source
          -- the name comes first, and the descriptor of the source is read last
          let named := { files.object place with name := file.name, dir := file.dir }
          let released := files.release named
          { released with toObjects := (released.share file.descriptor).put place file }, true)
  | .clear place, files =>
      (if place ∉ files.live then files
        else
          let unnamed := { files.object place with name := [], dir := [] }
          let released := files.release unnamed
          { released with toObjects := released.putNew place fun descriptor => { descriptor } },
        true)
  | .destroy place, files =>
      (if place ∉ files.live then files
        else
          let released := files.release (files.object place)
          { released with toObjects := released.remove place }, true)
  | .init place name dir, files =>
      (if place ∉ files.live then files
        else
          let file := files.object place
          let (initialized, process) := file.init name dir files.process
          { files with
            toObjects := { files.touch file.descriptor with process }.put place initialized }, true)
  | .openFile place flags mode reply, files =>
      (if place ∉ files.live then files
        else
          let file := files.object place
          let process := file.openWith flags mode reply files.process
          { files with
            toObjects := { files.touch file.descriptor with process }.put place file
            opened := match file.opening reply files.process with
              | some fd => insert fd files.opened
              | none => files.opened }, true)
  | .closeFile place, files =>
      (if place ∉ files.live then files
        else
          let file := files.object place
          let process := file.close files.process
          { files.passToClose (file.closing files.process) with
            toObjects := { files.touch file.descriptor with process }.put place file }, true)

/-- No file. -/
def none_ : Files :=
  { object := fun _ => { descriptor := 0 } }

/-! ## Counts -/

variable {files : Files} {file : File} {process : Process} {place : Nat}

/-- Closing a file does not change a count. -/
theorem close_descriptors (file : File) (process : Process) (address : Nat) :
    ((file.close process).descriptors address).cnt = (process.descriptors address).cnt ∧
      (file.close process).nextDescriptor = process.nextDescriptor := by
  unfold File.close
  split
  · exact ⟨rfl, rfl⟩
  split
  · exact ⟨rfl, rfl⟩
  split
  · exact ⟨rfl, rfl⟩
  · exact ⟨Process.cnt_setDescriptor (by intro desc; rfl) _ _ _, rfl⟩

theorem fclose_descriptors (file : File) (process : Process) (address : Nat) :
    ((file.fclose process).descriptors address).cnt = (process.descriptors address).cnt ∧
      (file.fclose process).nextDescriptor = process.nextDescriptor := by
  unfold File.fclose
  split
  · exact ⟨rfl, rfl⟩
  split
  · exact ⟨rfl, rfl⟩
  split
  · exact ⟨rfl, rfl⟩
  · exact ⟨Process.cnt_setDescriptor (by intro desc; rfl) _ _ _, rfl⟩

/-- Neither does opening it. -/
theorem openWith_descriptors (file : File) (flags mode : Int) (reply : OpenReply)
    (process : Process) (address : Nat) :
    ((file.openWith flags mode reply process).descriptors address).cnt =
        (process.descriptors address).cnt ∧
      (file.openWith flags mode reply process).nextDescriptor = process.nextDescriptor := by
  unfold File.openWith
  split
  · exact ⟨rfl, rfl⟩
  split
  · exact ⟨rfl, rfl⟩
  split
  · exact ⟨rfl, rfl⟩
  split
  · exact ⟨Process.cnt_setDescriptor (by intro desc; rfl) _ _ _, rfl⟩
  split
  · exact ⟨Process.cnt_setDescriptor (by intro desc; rfl) _ _ _, rfl⟩
  · exact ⟨rfl, rfl⟩

/-- What is given up is one count. -/
theorem drops_release (file : File) (process : Process) :
    Drops file.descriptor process (file.release process) := by
  have taken := Drops.setDescriptor process file.descriptor
  unfold File.release
  dsimp only
  split
  · split
    · exact taken.trans (fun other => (close_descriptors _ _ other).1) (close_descriptors _ _ 0).2
    · split
      · exact taken.trans (fun other => (fclose_descriptors _ _ other).1) (fclose_descriptors _ _ 0).2
      · exact taken
  · exact taken

theorem descriptor_init (name dir : Option Bytes) (file : File) (process : Process) :
    (file.init name dir process).1.descriptor = file.descriptor ∧
      (file.init name dir process).2.descriptors = process.descriptors ∧
      (file.init name dir process).2.nextDescriptor = process.nextDescriptor := by
  have named : (file.setName name process).1.descriptor = file.descriptor ∧
      (file.setName name process).2.descriptors = process.descriptors ∧
      (file.setName name process).2.nextDescriptor = process.nextDescriptor := by
    unfold File.setName
    split
    · exact ⟨rfl, rfl, rfl⟩
    · split
      · exact ⟨rfl, rfl, rfl⟩
      · dsimp only
        split
        · exact ⟨rfl, rfl, rfl⟩
        · exact ⟨rfl, rfl, rfl⟩
  unfold File.init
  dsimp only
  split
  · exact named
  · exact named

/-- A file that alone points to its descriptor is not assigned to itself. -/
def SparesItself (command : FileCommand) (files : Files) : Prop :=
  ∀ place, command = .assign place place → files.sharers place ≠ 1

/-- The step. -/
theorem counted_step (counted : files.Counted) {command : FileCommand}
    (spares : SparesItself command files) : (Files.step command files).1.Counted := by
  cases command with
  | create place =>
      unfold Files.step
      dsimp only
      split
      · exact counted
      · rename_i absent
        exact @Objects.Counted.create _ _ _ place counted absent (fun descriptor => { descriptor })
          fun _ => rfl
  | copy place source =>
      unfold Files.step
      dsimp only
      split
      · exact counted
      · rename_i legal
        obtain ⟨absent, there⟩ := not_or.mp legal
        exact counted.copy absent (not_not.mp there) rfl
  | assign place source =>
      unfold Files.step
      dsimp only
      split
      · exact counted
      · rename_i legal
        obtain ⟨member, there⟩ := not_or.mp legal
        have drops := drops_release ({ files.object place with
          name := (files.object source).name, dir := (files.object source).dir } : File)
          files.process
        refine counted.assign (not_not.mp member) (not_not.mp there) ?_ drops rfl
        rintro rfl
        exact spares _ rfl
  | clear place =>
      unfold Files.step
      dsimp only
      split
      · exact counted
      · rename_i legal
        have drops := drops_release ({ files.object place with name := [], dir := [] } : File)
          files.process
        exact @Objects.Counted.clear _ _ _ place _ counted (not_not.mp legal) drops
          (fun descriptor => { descriptor }) fun _ => rfl
  | destroy place =>
      unfold Files.step
      dsimp only
      split
      · exact counted
      · rename_i legal
        exact counted.destroy (not_not.mp legal) (drops_release _ _)
  | init place name dir =>
      unfold Files.step
      dsimp only
      split
      · exact counted
      · rename_i legal
        obtain ⟨descriptor, descriptors, next⟩ :=
          descriptor_init name dir (files.object place) files.process
        exact counted.change (not_not.mp legal) descriptor (fun _ => by rw [descriptors]) next
  | openFile place flags mode reply =>
      unfold Files.step
      dsimp only
      split
      · exact counted
      · rename_i legal
        have kept := openWith_descriptors (files.object place) flags mode reply files.process
        exact counted.change (not_not.mp legal) rfl (fun address => (kept address).1) (kept 0).2
  | closeFile place =>
      unfold Files.step
      dsimp only
      split
      · exact counted
      · rename_i legal
        have kept := close_descriptors (files.object place) files.process
        exact counted.change (not_not.mp legal) rfl (fun address => (kept address).1) (kept 0).2

end Files

end IpUtils
