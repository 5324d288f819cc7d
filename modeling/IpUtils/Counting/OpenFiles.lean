import IpUtils.Counting.Files

/-! # Files that close what they open

Whether every number that `open(2)` hands out is passed to `close(2)` once, at the latest by the
last file that refers to it.
-/

namespace IpUtils

namespace Files

/-- The number that a descriptor holds. -/
def number (process : Process) (address : Nat) : Option Int :=
  if (process.descriptors address).fd = descriptorNull then none
  else some (process.descriptors address).fd

/-- A name under which `Close` acts. -/
def Closable (name : Bytes) : Prop := name ≠ [] ∧ name ≠ File.stdin

instance (name : Bytes) : Decidable (Closable name) :=
  inferInstanceAs (Decidable (name ≠ [] ∧ name ≠ File.stdin))

/-- A file is the last one that refers to a number. -/
def LastOpen (place : Nat) (files : Files) : Prop :=
  place ∈ files.live ∧ files.sharers place = 1 ∧ number files.process (files.points place) ≠ none

/-- No file is assigned to itself, only a file with a name other than `stdin` is opened, and
`open(2)` hands out a number that is not in use. -/
def Lawful (files : Files) : FileCommand → Prop
  | .assign place source => source ≠ place
  | .openFile place _ _ reply =>
      Closable (files.object place).name ∧
        ∀ fd contents, reply = .opened fd contents → (fd : Int) ∉ files.opened
  | _ => True

/-- The last file that refers to a number is not cleared, nor destroyed without a name, and it
is assigned one that has a name. -/
def Named (files : Files) : FileCommand → Prop
  | .clear place => ¬LastOpen place files
  | .assign place source => LastOpen place files → Closable (files.object source).name
  | .destroy place => LastOpen place files → Closable (files.object place).name
  | _ => True

/-- `clear`, the assignment and the destructor raise no error. -/
def Quiet (command : FileCommand) (files : Files) : Prop :=
  match command with
  | .clear _ | .assign _ _ | .destroy _ =>
      (Files.step command files).1.process.error = files.process.error
  | _ => True

/-- No number is closed that is not open, and the numbers that are open are those that a file
refers to. -/
structure ClosesOnce (files : Files) : Prop where
  once : files.misclosed = false
  open_ : ∀ fd, fd ∈ files.opened ↔
    ∃ place ∈ files.live, number files.process (files.points place) = some fd

/-- The numbers that are open are those that the descriptors of some files hold, and there are
no streams. -/
structure Tidy (live : Finset Nat) (points : Nat → Nat) (process : Process)
    (opened : Finset Int) : Prop where
  held : Counting.Held live points (number process) opened
  streamless : ∀ address, (process.descriptors address).fp = none

/-- The invariant. -/
structure Closes (files : Files) : Prop where
  counted : files.Counted
  tidy : Tidy files.live files.points files.process files.opened
  once : files.misclosed = false

theorem Closes.closesOnce {files : Files} (closes : Closes files) : ClosesOnce files :=
  ⟨closes.once, closes.tidy.held.exact⟩

theorem closes_none : Closes none_ :=
  ⟨Objects.Counted.empty _, ⟨Counting.Held.empty _ _, fun _ => rfl⟩, rfl⟩

/-! ## What a descriptor holds -/

variable {files : Files} {file : File} {process : Process} {place source address : Nat}

theorem number_setDescriptor (address : Nat) (change : Descriptor → Descriptor)
    (process : Process) :
    number (process.setDescriptor address change) =
      Function.update (number process) address
        (if (change (process.descriptors address)).fd = descriptorNull then none
          else some (change (process.descriptors address)).fd) := by
  funext other
  by_cases same : other = address
  · subst same
    simp [number]
  · simp [number, Process.setDescriptor, same]

/-- A change that keeps the number. -/
theorem number_setDescriptor_of_fd {change : Descriptor → Descriptor}
    (kept : ∀ desc, (change desc).fd = desc.fd) (address : Nat) (process : Process) :
    number (process.setDescriptor address change) = number process := by
  rw [number_setDescriptor, kept]
  exact Function.update_eq_self address (number process)

theorem streamless_setDescriptor (streamless : ∀ address, (process.descriptors address).fp = none)
    {change : Descriptor → Descriptor} (kept : ∀ desc, (change desc).fp = desc.fp)
    (address other : Nat) :
    ((process.setDescriptor address change).descriptors other).fp = none := by
  by_cases same : other = address
  · subst same
    rw [Process.descriptors_setDescriptor, kept, streamless]
  · simp only [Process.setDescriptor, Function.update_of_ne same, streamless]

/-- A count is taken away. -/
def taken (file : File) (process : Process) : Process :=
  process.setDescriptor file.descriptor fun desc => { desc with cnt := desc.cnt - 1 }

theorem number_taken (file : File) (process : Process) :
    number (taken file process) = number process := by
  apply number_setDescriptor_of_fd
  exact fun _ => rfl

theorem streamless_taken (streamless : ∀ address, (process.descriptors address).fp = none)
    (file : File) (address : Nat) : ((taken file process).descriptors address).fp = none := by
  apply streamless_setDescriptor streamless
  exact fun _ => rfl

/-- A file that is not the last to refer to a descriptor leaves it alone. -/
theorem release_of_shared (many : 1 < (file.desc process).cnt) :
    file.release process = taken file process ∧ file.releasing process = none := by
  have left : (file.desc (taken file process)).cnt ≠ 0 := by
    simp only [File.desc, taken, Process.descriptors_setDescriptor] at many ⊢
    omega
  exact ⟨if_neg left, if_neg left⟩

/-- The last one closes it, if it has a name. -/
theorem release_of_last (last : (file.desc process).cnt = 1)
    (streamless : ∀ address, (process.descriptors address).fp = none)
    (named : number process file.descriptor ≠ none → Closable file.name) :
    (file.release process).error = process.error ∧
      (∀ address, ((file.release process).descriptors address).fp = none) ∧
      number (file.release process) = Function.update (number process) file.descriptor none ∧
      file.releasing process = number process file.descriptor := by
  have left : (file.desc (taken file process)).cnt = 0 := by
    simp only [File.desc, taken, Process.descriptors_setDescriptor] at last ⊢
    omega
  have stillStreamless := streamless_taken streamless file
  have same_fd : (file.desc (taken file process)).fd = (process.descriptors file.descriptor).fd := by
    simp [File.desc, taken]
  have stream : (file.desc (taken file process)).fp = none := stillStreamless file.descriptor
  have release_eq : file.release process =
      if (file.desc (taken file process)).fd ≠ descriptorNull then file.close (taken file process)
      else if (file.desc (taken file process)).fp.isSome then file.fclose (taken file process)
      else taken file process := if_pos left
  have releasing_eq : file.releasing process = file.closing (taken file process) := if_pos left
  rw [release_eq, releasing_eq, stream, same_fd]
  by_cases closed : (process.descriptors file.descriptor).fd = descriptorNull
  · have none_ : number process file.descriptor = none := if_pos closed
    rw [if_neg (not_not.mpr closed), if_neg (by simp), none_, number_taken]
    refine ⟨rfl, stillStreamless, ?_, ?_⟩
    · rw [← none_, Function.update_eq_self]
    · simp [File.closing, same_fd, closed]
  · have some_ : number process file.descriptor = some (process.descriptors file.descriptor).fd :=
      if_neg closed
    obtain ⟨nonempty, notStdin⟩ := named (by rw [some_]; exact Option.some_ne_none _)
    have close_eq : file.close (taken file process) =
        (taken file process).setDescriptor file.descriptor fun desc =>
          { desc with fd := descriptorNull } := by
      simp [File.close, stream, same_fd, closed, nonempty, notStdin]
    rw [if_pos closed, close_eq, some_]
    refine ⟨rfl, ?_, ?_, ?_⟩
    · apply streamless_setDescriptor stillStreamless
      exact fun _ => rfl
    · rw [number_setDescriptor, number_taken]
      simp
    · simp [File.closing, stream, same_fd, closed, nonempty, notStdin]

/-- When a reference has been given up, the other files hold what is open. -/
theorem Closes.release (closes : Closes files) (member : place ∈ files.live)
    (same : file.descriptor = files.points place)
    (named : LastOpen place files → Closable file.name) :
    Tidy (files.live.erase place) files.points (file.release files.process)
        (files.release file).opened ∧
      (files.release file).misclosed = false ∧
      (file.release files.process).error = files.process.error := by
  have cnt : (file.desc files.process).cnt = files.sharers place := by
    rw [File.desc, same]
    exact closes.counted.cnt member
  by_cases last : files.sharers place = 1
  · obtain ⟨error, streamless, numbers, releasing⟩ := release_of_last (cnt.trans last)
      closes.tidy.streamless fun some_ => named ⟨member, last, same ▸ some_⟩
    have gone := closes.tidy.held.drop_last member last
    rw [← same, ← numbers] at gone
    rw [Files.release, releasing]
    cases has : number files.process file.descriptor with
    | none =>
        rw [has] at gone
        exact ⟨⟨gone, streamless⟩, closes.once, error⟩
    | some fd =>
        rw [has] at gone
        have open_ : fd ∈ files.opened :=
          (closes.tidy.held.exact fd).mpr ⟨place, member, same ▸ has⟩
        refine ⟨⟨gone, streamless⟩, ?_, error⟩
        simp [passToClose, closes.once, open_]
  · have positive : 0 < files.sharers place := Counting.referents_pos member
    have many : 1 < (file.desc files.process).cnt := by omega
    obtain ⟨released, releasing⟩ := release_of_shared many
    have gone := closes.tidy.held.drop_shared member last
    rw [← number_taken file files.process] at gone
    rw [Files.release, released, releasing]
    exact ⟨⟨gone, streamless_taken closes.tidy.streamless file⟩, closes.once, rfl⟩

/-! ## Steps -/

variable {live : Finset Nat} {points : Nat → Nat} {opened : Finset Int}

/-- A file begins to point where another does. -/
theorem Tidy.share (tidy : Tidy live points process opened) (absent : place ∉ live)
    (there : source ∈ live) :
    Tidy (insert place live) (Function.update points place (points source))
      (process.setDescriptor (points source) fun desc => { desc with cnt := desc.cnt + 1 })
      opened := by
  constructor
  · rw [number_setDescriptor_of_fd]
    · exact tidy.held.copy absent there
    · exact fun _ => rfl
  · apply streamless_setDescriptor tidy.streamless
    exact fun _ => rfl

/-- A file begins with a descriptor of its own. -/
theorem Tidy.anew (tidy : Tidy live points process opened) (absent : place ∉ live)
    (unused : ∀ other ∈ live, points other ≠ process.nextDescriptor) :
    Tidy (insert place live) (Function.update points place process.nextDescriptor)
      process.newDescriptor.2 opened := by
  have numbers := number_setDescriptor process.nextDescriptor (fun _ => {}) process
  have agree (other : Nat) (there : other ∈ live) :
      number process.newDescriptor.2 (points other) = number process (points other) := by
    change number (process.setDescriptor process.nextDescriptor fun _ => {}) _ = _
    rw [numbers, Function.update_of_ne (unused other there)]
  have none_ : number process.newDescriptor.2 process.nextDescriptor = none := by
    change number (process.setDescriptor process.nextDescriptor fun _ => {}) _ = _
    rw [numbers, Function.update_self]
    rfl
  constructor
  · exact (tidy.held.congr (fun _ _ => rfl) agree).create absent none_
  · intro address
    by_cases same : address = process.nextDescriptor
    · subst same
      simp [Process.newDescriptor]
    · simp [Process.newDescriptor, Process.setDescriptor, same, tidy.streamless]

/-- A number is opened. -/
theorem Tidy.openWith (tidy : Tidy live points process opened) (member : place ∈ live)
    (same : file.descriptor = points place) (closable : Closable file.name) (flags mode : Int)
    {reply : OpenReply}
    (fresh : ∀ fd contents, reply = .opened fd contents → (fd : Int) ∉ opened) :
    Tidy live points (file.openWith flags mode reply process)
      (match file.opening reply process with
        | some fd => insert fd opened
        | none => opened) := by
  have stream : (file.desc process).fp = none := tidy.streamless file.descriptor
  by_cases closed : (file.desc process).fd = descriptorNull
  · have none_ : number process (points place) = none := same ▸ if_pos closed
    cases reply with
    | failed reason =>
        have opening : file.opening (.failed reason) process = none := by
          simp [File.opening]
        have openWith : file.openWith flags mode (.failed reason) process =
            process.raise ErrorHandler.EX_IOERR "File::Open(%s, %d, %d) failed: %s"
              [.str file.path, .num flags, .num mode, .str reason] := by
          simp [File.openWith, stream, closed, closable.1, closable.2]
        rw [opening, openWith]
        exact ⟨tidy.held, tidy.streamless⟩
    | opened fd contents =>
        have opening : file.opening (.opened fd contents) process = some (fd : Int) := by
          simp [File.opening, stream, closed, closable.1, closable.2]
        have openWith : file.openWith flags mode (.opened fd contents) process =
            process.setDescriptor file.descriptor fun desc =>
              { desc with fd, openFile := { contents } } := by
          simp [File.openWith, stream, closed, closable.1, closable.2]
        rw [opening, openWith]
        constructor
        · rw [number_setDescriptor, if_neg (by simp [descriptorNull]), same]
          exact tidy.held.open_ member none_ (fresh fd contents rfl)
        · apply streamless_setDescriptor tidy.streamless
          exact fun _ => rfl
  · have opening : file.opening reply process = none := by
      simp [File.opening, closed]
    have openWith : file.openWith flags mode reply process =
        process.raise ErrorHandler.EX_SOFTWARE "File::Open(): fd is not NULL" [] := by
      simp [File.openWith, stream, closed]
    rw [opening, openWith]
    exact ⟨tidy.held, tidy.streamless⟩

/-- A number is closed. -/
theorem Tidy.close (tidy : Tidy live points process opened) (member : place ∈ live)
    (same : file.descriptor = points place) :
    Tidy live points (file.close process) ((file.closing process).elim opened opened.erase) ∧
      ∀ fd, file.closing process = some fd → fd ∈ opened := by
  have stream : (file.desc process).fp = none := tidy.streamless file.descriptor
  by_cases acts : file.name = [] ∨ (file.desc process).fd = descriptorNull ∨
    file.name = File.stdin
  · have closing : file.closing process = none := by
      rcases acts with empty | closed | stdin
      · simp [File.closing, empty]
      · simp [File.closing, closed]
      · simp [File.closing, stdin]
    have close : file.close process = process ∨ file.close process =
        process.raise ErrorHandler.EX_SOFTWARE "File::Close(): name is empty" [] := by
      by_cases empty : file.name = []
      · simp [File.close, empty]
      · have rest := acts.resolve_left empty
        simp [File.close, empty, stream, rest]
    rw [closing]
    refine ⟨?_, fun fd some_ => by cases some_⟩
    rcases close with unchanged | raised
    · rw [unchanged]
      exact tidy
    · rw [raised]
      exact ⟨tidy.held, tidy.streamless⟩
  · obtain ⟨nonempty, rest⟩ := not_or.mp acts
    obtain ⟨open_, notStdin⟩ := not_or.mp rest
    have has : number process (points place) = some (file.desc process).fd := same ▸ if_neg open_
    have closing : file.closing process = some (file.desc process).fd := by
      simp [File.closing, nonempty, stream, open_, notStdin]
    have close : file.close process = process.setDescriptor file.descriptor fun desc =>
        { desc with fd := descriptorNull } := by
      simp [File.close, nonempty, stream, open_, notStdin]
    obtain ⟨inside, shut⟩ := tidy.held.shut member has
    rw [closing, close]
    refine ⟨⟨?_, ?_⟩, ?_⟩
    · rw [number_setDescriptor, if_pos rfl, same]
      exact shut
    · apply streamless_setDescriptor tidy.streamless
      exact fun _ => rfl
    · rintro fd ⟨⟩
      exact inside

/-! ## Commands -/

namespace Closes

theorem create (closes : Closes files) (place : Nat) :
    Closes (Files.step (.create place) files).1 := by
  have counted := @counted_step files closes.counted (.create place) nofun
  revert counted
  unfold Files.step
  dsimp only
  split
  · exact fun _ => closes
  · rename_i absent
    intro counted
    refine ⟨counted, ?_, closes.once⟩
    rw [Objects.putNew, Objects.points_put]
    exact closes.tidy.anew absent closes.counted.unused

theorem copy (closes : Closes files) (place source : Nat) :
    Closes (Files.step (.copy place source) files).1 := by
  have counted := @counted_step files closes.counted (.copy place source) nofun
  revert counted
  unfold Files.step
  dsimp only
  split
  · exact fun _ => closes
  · rename_i legal
    obtain ⟨absent, there⟩ := not_or.mp legal
    intro counted
    refine ⟨counted, ?_, closes.once⟩
    rw [Objects.points_put]
    exact closes.tidy.share absent (not_not.mp there)

theorem assign (closes : Closes files) (differs : source ≠ place)
    (named : LastOpen place files → Closable (files.object source).name) :
    Closes (Files.step (.assign place source) files).1 ∧
      (Files.step (.assign place source) files).1.process.error = files.process.error := by
  have spares : SparesItself (.assign place source) files := by
    rintro _ ⟨⟩
    exact absurd rfl differs
  have counted := counted_step closes.counted spares
  revert counted
  unfold Files.step
  dsimp only
  split
  · exact fun _ => ⟨closes, rfl⟩
  · rename_i legal
    obtain ⟨member, there⟩ := not_or.mp legal
    intro counted
    obtain ⟨tidy, once, error⟩ := @Closes.release _ { files.object place with
      name := (files.object source).name, dir := (files.object source).dir } place closes
      (not_not.mp member) rfl named
    have shared := tidy.share (Finset.notMem_erase place files.live)
      (Finset.mem_erase.mpr ⟨differs, not_not.mp there⟩)
    refine ⟨⟨counted, ?_, once⟩, error⟩
    rw [Objects.points_put]
    change Tidy (insert place files.live) _ _ _
    rw [Finset.insert_erase (not_not.mp member)] at shared
    rw [Finset.insert_eq_of_mem (not_not.mp member)]
    exact shared

theorem clear (closes : Closes files) (named : ¬LastOpen place files) :
    Closes (Files.step (.clear place) files).1 ∧
      (Files.step (.clear place) files).1.process.error = files.process.error := by
  have counted := @counted_step files closes.counted (.clear place) nofun
  revert counted
  unfold Files.step
  dsimp only
  split
  · exact fun _ => ⟨closes, rfl⟩
  · rename_i legal
    intro counted
    have drops := drops_release ({ files.object place with name := [], dir := [] } : File)
      files.process
    have destroyed := closes.counted.destroy (not_not.mp legal) drops
    obtain ⟨tidy, once, error⟩ := @Closes.release _ { files.object place with
      name := [], dir := [] } place closes (not_not.mp legal) rfl fun last => absurd last named
    have renewed := tidy.anew (Finset.notMem_erase place files.live) destroyed.unused
    refine ⟨⟨counted, ?_, once⟩, error⟩
    rw [Objects.putNew, Objects.points_put]
    change Tidy (insert place files.live) _ _ _
    rw [Finset.insert_erase (not_not.mp legal)] at renewed
    rw [Finset.insert_eq_of_mem (not_not.mp legal)]
    exact renewed

theorem destroy (closes : Closes files)
    (named : LastOpen place files → Closable (files.object place).name) :
    Closes (Files.step (.destroy place) files).1 ∧
      (Files.step (.destroy place) files).1.process.error = files.process.error := by
  have counted := @counted_step files closes.counted (.destroy place) nofun
  revert counted
  unfold Files.step
  dsimp only
  split
  · exact fun _ => ⟨closes, rfl⟩
  · rename_i legal
    intro counted
    obtain ⟨tidy, once, error⟩ := closes.release (not_not.mp legal) rfl named
    exact ⟨⟨counted, tidy, once⟩, error⟩

theorem init (closes : Closes files) (place : Nat) (name dir : Option Bytes) :
    Closes (Files.step (.init place name dir) files).1 := by
  have counted := @counted_step files closes.counted (.init place name dir) nofun
  revert counted
  unfold Files.step
  dsimp only
  split
  · exact fun _ => closes
  · rename_i legal
    intro counted
    obtain ⟨descriptor, descriptors, -⟩ :=
      descriptor_init name dir (files.object place) files.process
    have numbers : number ((files.object place).init name dir files.process).2 =
        number files.process := by
      funext address
      rw [number, number, descriptors]
    refine ⟨counted, ?_, closes.once⟩
    rw [Objects.points_put]
    change Tidy (insert place files.live) (Function.update files.points place _) _ _
    rw [Finset.insert_eq_of_mem (not_not.mp legal)]
    refine ⟨?_, ?_⟩
    · change Counting.Held _ _ (number ((files.object place).init name dir files.process).2) _
      rw [numbers]
      change Counting.Held _ (Function.update files.points place
        ((files.object place).init name dir files.process).1.descriptor) _ _
      rw [descriptor]
      change Counting.Held _ (Function.update files.points place (files.points place)) _ _
      rw [Function.update_eq_self]
      exact closes.tidy.held
    · change ∀ address, (((files.object place).init name dir files.process).2.descriptors
        address).fp = none
      rw [descriptors]
      exact closes.tidy.streamless

theorem openFile (closes : Closes files) (closable : Closable (files.object place).name)
    (flags mode : Int) {reply : OpenReply}
    (fresh : ∀ fd contents, reply = .opened fd contents → (fd : Int) ∉ files.opened) :
    Closes (Files.step (.openFile place flags mode reply) files).1 := by
  have counted := @counted_step files closes.counted (.openFile place flags mode reply) nofun
  revert counted
  unfold Files.step
  dsimp only
  split
  · exact fun _ => closes
  · rename_i legal
    intro counted
    have opened := closes.tidy.openWith (not_not.mp legal) rfl closable flags mode fresh
    refine ⟨counted, ?_, closes.once⟩
    rw [Objects.points_put]
    change Tidy (insert place files.live)
      (Function.update files.points place (files.points place)) _ _
    rw [Finset.insert_eq_of_mem (not_not.mp legal), Function.update_eq_self]
    exact opened

theorem closeFile (closes : Closes files) (place : Nat) :
    Closes (Files.step (.closeFile place) files).1 := by
  have counted := @counted_step files closes.counted (.closeFile place) nofun
  revert counted
  unfold Files.step
  dsimp only
  split
  · exact fun _ => closes
  · rename_i legal
    intro counted
    obtain ⟨closed, inside⟩ := closes.tidy.close (not_not.mp legal) rfl
    refine ⟨counted, ?_, ?_⟩
    · rw [Objects.points_put]
      change Tidy (insert place files.live)
        (Function.update files.points place (files.points place)) _ _
      rw [Finset.insert_eq_of_mem (not_not.mp legal), Function.update_eq_self]
      cases closing : (files.object place).closing files.process with
      | none =>
          rw [closing] at closed
          exact closed
      | some fd =>
          rw [closing] at closed
          exact closed
    · cases closing : (files.object place).closing files.process with
      | none => exact closes.once
      | some fd => simp [passToClose, closes.once, inside fd closing]

/-- The step. -/
theorem step (closes : Closes files) {command : FileCommand} (lawful : Lawful files command)
    (named : Named files command) : Closes (Files.step command files).1 := by
  cases command with
  | create place => exact closes.create place
  | copy place source => exact closes.copy place source
  | assign place source => exact (closes.assign lawful named).1
  | clear place => exact (closes.clear named).1
  | destroy place => exact (closes.destroy named).1
  | init place name dir => exact closes.init place name dir
  | openFile place flags mode reply => exact closes.openFile lawful.1 flags mode lawful.2
  | closeFile place => exact closes.closeFile place

theorem quiet (closes : Closes files) {command : FileCommand} (lawful : Lawful files command)
    (named : Named files command) : Quiet command files := by
  cases command with
  | assign place source => exact (closes.assign lawful named).2
  | clear place => exact (closes.clear named).2
  | destroy place => exact (closes.destroy named).2
  | create _ | copy _ _ | init _ _ _ | openFile _ _ _ _ | closeFile _ => trivial

end Closes

/-! ## Runs -/

/-- Every number is closed once and in time, and quietly, in every run in which no file is
cleared, or left without a name, while it is the last one that refers to a number. -/
theorem run_closesOnce {commands : List FileCommand}
    (along : Machine.Along Files.step
      (fun command files => Lawful files command ∧ Named files command) commands none_) :
    ClosesOnce (Machine.run Files.step commands none_).1 ∧
      Machine.Along Files.step Quiet commands none_ := by
  have preserved (command : FileCommand) (files : Files) (closes : Closes files)
      (both : Lawful files command ∧ Named files command) :
      Closes (Files.step command files).1 := closes.step both.1 both.2
  refine ⟨(Machine.run_preserves preserved closes_none along).closesOnce, ?_⟩
  exact Machine.Along.of_invariant preserved
    (fun command files closes both => closes.quiet both.1 both.2) closes_none along

/-- A file is opened, copied, and both are destroyed. -/
def opensOnce : List FileCommand :=
  [.create 0, .init 0 (some (ascii "f")) none, .openFile 0 0 0 (.opened 5 []), .copy 1 0,
    .destroy 0, .destroy 1]

theorem run_closesOnce_sample :
    ClosesOnce (Machine.run Files.step opensOnce none_).1 ∧
      Machine.Along Files.step Quiet opensOnce none_ := by
  apply run_closesOnce
  refine ⟨⟨trivial, trivial⟩, fun _ => ⟨⟨trivial, trivial⟩, fun _ =>
    ⟨⟨⟨by decide +kernel, ?_⟩, trivial⟩, fun _ => ⟨⟨trivial, trivial⟩, fun _ =>
      ⟨⟨trivial, fun _ => ?_⟩, fun _ => ⟨⟨trivial, fun _ => ?_⟩, fun _ => trivial⟩⟩⟩⟩⟩⟩
  · rintro fd contents ⟨⟩
    decide +kernel
  · decide +kernel
  · decide +kernel

/-- A file is opened and cleared. -/
def opensAndClears : List FileCommand :=
  [.create 0, .init 0 (some (ascii "f")) none, .openFile 0 0 0 (.opened 5 []), .clear 0]

/-- `clear` drops the name first, so `Close` refuses: the number stays open and an error is
raised. -/
theorem run_opensAndClears :
    Machine.Along Files.step (fun command files => Lawful files command) opensAndClears none_ ∧
      ¬ClosesOnce (Machine.run Files.step opensAndClears none_).1 ∧
      ¬Machine.Along Files.step Quiet opensAndClears none_ := by
  refine ⟨⟨trivial, fun _ => ⟨trivial, fun _ => ⟨⟨by decide +kernel, ?_⟩, fun _ =>
    ⟨trivial, fun _ => trivial⟩⟩⟩⟩, ?_, ?_⟩
  · rintro fd contents ⟨⟩
    decide +kernel
  · intro closes
    have refers := (closes.open_ 5).mp (by decide +kernel)
    revert refers
    decide +kernel
  · intro quiet
    have error := congrArg ErrorHandler.event ((((quiet.2 rfl).2 rfl).2 rfl).1)
    revert error
    decide +kernel

end Files

end IpUtils
