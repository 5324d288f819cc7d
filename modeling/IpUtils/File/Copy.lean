import IpUtils.File.Path
import IpUtils.Session.Conn

/-! # Copying a file

`Copy` reads a file in pieces and writes every piece behind the others. The kernel answers the
calls of `write(2)` as a schedule says; a loop that goes on for ever never has fuel enough.
-/

namespace IpUtils

open CLib

namespace File

/-- `FILE_CHUNK_SIZE`. -/
def fileChunkSize : Nat := 1024 * 4

/-- `S_IRWXU | S_IRGRP | S_IROTH`. -/
def worldReadable : Int := 484

/-- The file that is written: what it holds, and how often `write(2)` has been called. -/
structure Copying where
  contents : Bytes := []
  calls : Nat := 0
  deriving DecidableEq, Repr

/-- What `write(2)` does in its calls: the number of the call and the bytes offered decide. -/
abbrev Schedule : Type :=
  Nat → Nat → WriteReply

/-- The inner loop, when the last `write(2)` has returned `m`: the bytes from `m` on are offered
next. It ends when nothing is accepted, or with the reason of a failure. -/
def writeChunk (write : Schedule) (chunk : Bytes) : (fuel m : Nat) → Copying →
    Option (Copying × Option Bytes)
  | 0, _, _ => none
  | fuel + 1, m, copying =>
      match write copying.calls (chunk.length - m) with
      | .failed _ reason => some ({ copying with calls := copying.calls + 1 }, some reason)
      | .accepted count =>
          let accepted := min count (chunk.length - m)
          let copying : Copying :=
            { contents := copying.contents ++ (chunk.drop m).take accepted
              calls := copying.calls + 1 }
          if accepted = 0 then some (copying, none) else writeChunk write chunk fuel accepted copying

/-- How the loop over the pieces of a file ends. -/
inductive CopyEnd where
  | copied
  | writeFailed (reason : Bytes) (chunk : Nat)
  | readFailed (reason : Bytes)
  deriving DecidableEq, Repr

/-- The outer loop, over what `read(2)` returns. When the answers have run out it has not
returned. -/
def copyLoop (write : Schedule) (fuel : Nat) : List ReadReply → Copying →
    Option (Copying × CopyEnd)
  | [], _ => none
  | .failed _ reason :: _, copying => some (copying, .readFailed reason)
  | .received bytes :: replies, copying =>
      let chunk := bytes.take fileChunkSize
      if chunk.isEmpty then some (copying, .copied)
      else
        match writeChunk write chunk fuel 0 copying with
        | none => none
        | some (copying, some reason) => some (copying, .writeFailed reason chunk.length)
        | some (copying, none) => copyLoop write fuel replies copying

/-- The name and the directory of the new file, or an error. -/
def initCopy (newname newdir : Option Bytes) (file copy : File) (process : Process) :
    Option File × Process :=
  if (newname.getD []).head?.any (· != 0) then
    let (copy, process) := copy.init newname (some file.dir) process
    (some copy, process)
  else if (newdir.getD []).head?.any (· != 0) then
    let (copy, process) := copy.init (some file.name) newdir process
    (some copy, process)
  else
    (none, process.raise ErrorHandler.EX_SOFTWARE
      "File::Copy(): newname and newdir were NULL." [])

/-- What the kernel does in a call of `Copy`. -/
structure CopyKernel where
  opens : OpenReply
  reads : List ReadReply
  write : Schedule

/-- `Copy`: what the new file holds, if it was written, and the process. It does not look whether
`Open` has failed. -/
def copy (sandbox newname newdir : Option Bytes) (kernel : CopyKernel) (fuel : Nat) (file : File)
    (process : Process) : Option (Option Bytes × Process) :=
  if (file.desc process).fd = descriptorNull then
    some (none, process.raise ErrorHandler.EX_SOFTWARE "File::Copy(): fd is NULL" [])
  else
    let (copy, process) := create process
    match initCopy newname newdir file copy process with
    | (none, process) => some (none, copy.release process)
    | (some copy, process) =>
        let process := copy.openIn sandbox writeAnew worldReadable kernel.opens process
        match copyLoop kernel.write fuel kernel.reads {} with
        | none => none
        | some (copying, .writeFailed reason chunk) =>
            some (some copying.contents, copy.release
              (process.raise ErrorHandler.EX_IOERR "File::Copy(): write(%s,%ld) failed: %s"
                [.str (copy.pathIn sandbox), .num chunk, .str reason]))
        | some (copying, .readFailed reason) =>
            some (some copying.contents, copy.release
              (process.raise ErrorHandler.EX_IOERR "File::Copy(): read(%s) failed: %s"
                [.str (file.pathIn sandbox), .str reason]))
        | some (copying, .copied) => some (some copying.contents, copy.release (copy.close process))

/-! ## The inner loop -/

variable {write : Schedule} {chunk : Bytes} {copying : Copying}

/-- No call of `write(2)` fails, and one that is offered something accepts something and no more
than that. -/
structure Accepts (write : Schedule) (accepted : Nat → Nat → Nat) : Prop where
  accepts : ∀ call offered, write call offered = .accepted (accepted call offered)
  some_ : ∀ call offered, 0 < offered → 0 < accepted call offered
  within : ∀ call offered, accepted call offered ≤ offered

variable {accepted : Nat → Nat → Nat}

theorem Accepts.writeChunk_succ (accepts : Accepts write accepted) (chunk : Bytes) (fuel m : Nat)
    (copying : Copying) :
    writeChunk write chunk (fuel + 1) m copying =
      if accepted copying.calls (chunk.length - m) = 0 then
        some ({ copying with calls := copying.calls + 1 }, none)
      else
        writeChunk write chunk fuel (accepted copying.calls (chunk.length - m))
          { contents := copying.contents ++
              (chunk.drop m).take (accepted copying.calls (chunk.length - m))
            calls := copying.calls + 1 } := by
  have within := accepts.within copying.calls (chunk.length - m)
  simp only [writeChunk, accepts.accepts, Nat.min_eq_left within]
  split
  · rename_i nothing
    rw [nothing, List.take_zero, List.append_nil]
  · rfl

/-- A chunk that is accepted at once is written, and a second call ends the loop. -/
theorem Accepts.writeChunk_whole (accepts : Accepts write accepted) (inhabited : chunk ≠ [])
    (whole : accepted copying.calls chunk.length = chunk.length) (fuel : Nat) :
    writeChunk write chunk (fuel + 2) 0 copying =
      some ({ contents := copying.contents ++ chunk, calls := copying.calls + 2 }, none) := by
  have size : chunk.length ≠ 0 := fun empty => inhabited (List.length_eq_zero_iff.mp empty)
  have nothing : accepted (copying.calls + 1) 0 = 0 :=
    Nat.le_zero.mp (accepts.within (copying.calls + 1) 0)
  rw [accepts.writeChunk_succ, Nat.sub_zero, whole, if_neg size, accepts.writeChunk_succ,
    Nat.sub_self, nothing, if_pos rfl, List.drop_zero, List.take_length]

/-- In the middle of a chunk the loop goes on for ever: what is offered never is the whole
chunk, so that the next count is again in the middle. -/
theorem Accepts.writeChunk_part (accepts : Accepts write accepted) {m : Nat} (positive : 0 < m)
    (part : m < chunk.length) (fuel : Nat) : writeChunk write chunk fuel m copying = none := by
  induction fuel generalizing m copying with
  | zero => rfl
  | succ fuel ih =>
      have some_ := accepts.some_ copying.calls (chunk.length - m) (by omega)
      have within := accepts.within copying.calls (chunk.length - m)
      rw [accepts.writeChunk_succ, if_neg (by omega)]
      exact ih some_ (by omega)

theorem Accepts.writeChunk_hangs (accepts : Accepts write accepted) (inhabited : chunk ≠ [])
    (less : accepted copying.calls chunk.length ≠ chunk.length) (fuel : Nat) :
    writeChunk write chunk fuel 0 copying = none := by
  have size := List.length_pos_iff.mpr inhabited
  have some_ := accepts.some_ copying.calls chunk.length size
  have within := accepts.within copying.calls chunk.length
  cases fuel with
  | zero => rfl
  | succ fuel =>
      rw [accepts.writeChunk_succ, Nat.sub_zero, if_neg (by omega)]
      exact accepts.writeChunk_part some_ (by omega) fuel

/-! ## The outer loop -/

/-- A list of pieces as `read(2)` returns them, with the end of the file. -/
def readsOf (chunks : List Bytes) : List ReadReply :=
  chunks.map .received ++ [.received []]

/-- The pieces that `read(2)` may split a file into. -/
def Pieces (chunks : List Bytes) : Prop :=
  ∀ chunk ∈ chunks, chunk ≠ [] ∧ chunk.length ≤ fileChunkSize

/-- Every chunk is accepted at once: two calls of `write(2)` belong to a chunk. -/
def AtOnce (accepted : Nat → Nat → Nat) (calls : Nat) (chunks : List Bytes) : Prop :=
  ∀ place chunk, chunks[place]? = some chunk →
    accepted (calls + 2 * place) chunk.length = chunk.length

theorem atOnce_cons (calls : Nat) (chunk : Bytes) (chunks : List Bytes) :
    AtOnce accepted calls (chunk :: chunks) ↔
      accepted calls chunk.length = chunk.length ∧ AtOnce accepted (calls + 2) chunks := by
  constructor
  · intro atOnce
    refine ⟨atOnce 0 chunk rfl, fun place other found => ?_⟩
    have later := atOnce (place + 1) other (by simpa using found)
    rwa [show calls + 2 * (place + 1) = calls + 2 + 2 * place by omega] at later
  · rintro ⟨first, others⟩ place other found
    cases place with
    | zero =>
        obtain rfl : chunk = other := by simpa using found
        exact first
    | succ place =>
        have later := others place other (by simpa using found)
        rwa [show calls + 2 + 2 * place = calls + 2 * (place + 1) by omega] at later

theorem copyLoop_cons {chunks : List Bytes} (pieces : Pieces (chunk :: chunks)) (fuel : Nat)
    (copying : Copying) :
    copyLoop write fuel (readsOf (chunk :: chunks)) copying =
      match writeChunk write chunk fuel 0 copying with
      | none => none
      | some (copying, some reason) => some (copying, .writeFailed reason chunk.length)
      | some (copying, none) => copyLoop write fuel (readsOf chunks) copying := by
  obtain ⟨inhabited, fits⟩ := pieces chunk List.mem_cons_self
  have whole : chunk.take fileChunkSize = chunk := List.take_of_length_le fits
  have filled : chunk.isEmpty = false := List.isEmpty_eq_false_iff.mpr inhabited
  simp only [readsOf, List.map_cons, List.cons_append, copyLoop, whole, filled,
    Bool.false_eq_true, ↓reduceIte]

/-- The loop over the pieces writes them all if every one is accepted at once. -/
theorem Accepts.copyLoop_atOnce (accepts : Accepts write accepted) {chunks : List Bytes}
    (pieces : Pieces chunks) (atOnce : AtOnce accepted copying.calls chunks) (fuel : Nat) :
    copyLoop write (fuel + 2) (readsOf chunks) copying =
      some ({ contents := copying.contents ++ chunks.flatten
              calls := copying.calls + 2 * chunks.length }, .copied) := by
  induction chunks generalizing copying with
  | nil => simp [readsOf, copyLoop]
  | cons chunk chunks ih =>
      obtain ⟨first, others⟩ := (atOnce_cons _ _ _).mp atOnce
      have inhabited := (pieces chunk List.mem_cons_self).1
      rw [copyLoop_cons pieces, accepts.writeChunk_whole inhabited first]
      refine (ih (fun other member => pieces other (List.mem_cons_of_mem _ member)) others).trans ?_
      simp only [List.flatten_cons, List.append_assoc, List.length_cons]
      rw [show copying.calls + 2 + 2 * chunks.length = copying.calls + 2 * (chunks.length + 1) by
        omega]

/-- It does not end if one is not. -/
theorem Accepts.copyLoop_hangs (accepts : Accepts write accepted) {chunks : List Bytes}
    (pieces : Pieces chunks) (late : ¬AtOnce accepted copying.calls chunks) (fuel : Nat) :
    copyLoop write fuel (readsOf chunks) copying = none := by
  induction chunks generalizing copying with
  | nil => exact absurd (fun _ _ found => by simp at found) late
  | cons chunk chunks ih =>
      have inhabited := (pieces chunk List.mem_cons_self).1
      rw [copyLoop_cons pieces]
      by_cases first : accepted copying.calls chunk.length = chunk.length
      · have others : ¬AtOnce accepted (copying.calls + 2) chunks :=
          fun others => late ((atOnce_cons _ _ _).mpr ⟨first, others⟩)
        match fuel with
        | 0 => rfl
        | 1 =>
            have size : chunk.length ≠ 0 := fun empty => inhabited (List.length_eq_zero_iff.mp empty)
            rw [accepts.writeChunk_succ, Nat.sub_zero, first, if_neg size]
            rfl
        | fuel + 2 =>
            rw [accepts.writeChunk_whole inhabited first]
            exact ih (fun other member => pieces other (List.mem_cons_of_mem _ member)) others
      · rw [accepts.writeChunk_hangs inhabited first]

/-! ## The whole copy -/

variable {sandbox newname newdir : Option Bytes} {file : File} {process : Process}

/-- A copy can be made: the file is open, and the new one has a name and is opened anew. -/
structure CanCopy (sandbox newname newdir : Option Bytes) (opens : OpenReply) (file copy : File)
    (process before : Process) : Prop where
  isOpen : (file.desc process).fd ≠ descriptorNull
  named : initCopy newname newdir file (create process).1 (create process).2 = (some copy, before)
  calm : (copy.openIn sandbox writeAnew worldReadable opens before).error.event = false

/-- `Copy` returns, without an error, and the new file holds what it should. -/
def Copies (sandbox newname newdir : Option Bytes) (kernel : CopyKernel) (file : File)
    (process : Process) (contents : Bytes) : Prop :=
  ∃ fuel after, file.copy sandbox newname newdir kernel fuel process = some (some contents, after) ∧
    after.error.event = false

/-- A file that has been opened is closed without an error. -/
theorem error_close_of_named (named : file.name.isEmpty = false)
    (unbuffered : (file.desc process).fp = none) :
    (file.close process).error = process.error ∧ (file.desc (file.close process)).fp = none := by
  unfold File.close
  rw [named, unbuffered, if_neg (by simp), if_neg (by simp)]
  split
  · exact ⟨rfl, unbuffered⟩
  · refine ⟨rfl, ?_⟩
    rw [File.desc, Process.descriptors_setDescriptor]
    exact unbuffered

theorem error_release_of_named (named : file.name.isEmpty = false)
    (unbuffered : (file.desc process).fp = none) :
    (file.release process).error = process.error := by
  have dropped : (file.desc (process.setDescriptor file.descriptor fun desc =>
      { desc with cnt := desc.cnt - 1 })).fp = none := by
    rw [File.desc, Process.descriptors_setDescriptor]
    exact unbuffered
  unfold File.release
  dsimp only
  split
  · split
    · exact (error_close_of_named named dropped).1
    · rw [dropped, if_neg (by simp)]
      rfl
  · rfl

/-- `Copy` does what its loop does. -/
theorem CanCopy.copy_eq {opens : OpenReply} {copy : File} {before : Process}
    (can : CanCopy sandbox newname newdir opens file copy process before) (reads : List ReadReply)
    (write : Schedule) (fuel : Nat) {outcome : Option (Copying × CopyEnd)}
    (ran : copyLoop write fuel reads {} = outcome) :
    (outcome = none → file.copy sandbox newname newdir { opens, reads, write } fuel process = none) ∧
      ∀ copying, outcome = some (copying, .copied) →
        ∃ after, after.error.event = false ∧
          file.copy sandbox newname newdir { opens, reads, write } fuel process =
            some (some copying.contents, after) := by
  have named := can.named
  unfold File.copy
  rw [if_neg can.isOpen]
  dsimp only
  rw [named, ran]
  constructor
  · rintro rfl
    rfl
  · rintro copying rfl
    obtain ⟨filled, unbuffered, -, -⟩ := openIn_calm can.calm
    obtain ⟨closed, still⟩ := error_close_of_named filled unbuffered
    refine ⟨_, ?_, rfl⟩
    rw [error_release_of_named filled still, closed]
    exact can.calm

/-- A copy is made if and only if `write(2)` accepts every piece of the file at once; otherwise
`Copy` never returns. -/
theorem copies_iff {opens : OpenReply} {copy : File} {before : Process}
    (can : CanCopy sandbox newname newdir opens file copy process before)
    (accepts : Accepts write accepted) {contents : Bytes} {chunks : List Bytes}
    (pieces : Pieces chunks) (split : chunks.flatten = contents) :
    Copies sandbox newname newdir { opens, reads := readsOf chunks, write } file process contents ↔
      AtOnce accepted 0 chunks := by
  constructor
  · rintro ⟨fuel, after, copied, -⟩
    by_contra late
    have hangs := @Accepts.copyLoop_hangs write {} accepted accepts chunks pieces late fuel
    rw [(can.copy_eq (readsOf chunks) write fuel hangs).1 rfl] at copied
    cases copied
  · intro atOnce
    have ends := @Accepts.copyLoop_atOnce write {} accepted accepts chunks pieces atOnce 0
    obtain ⟨after, calm, copied⟩ := (can.copy_eq (readsOf chunks) write 2 ends).2 _ rfl
    refine ⟨2, after, ?_, calm⟩
    rw [copied, List.nil_append, split]

/-- A file that is open. -/
def opened : Process :=
  ({} : Process).setDescriptor 0 fun desc => { desc with fd := 3 }

theorem canCopy_opened :
    CanCopy none (some (ascii "new")) none (.opened 4 []) { descriptor := 0 }
      { descriptor := 1, name := ascii "new", dir := ascii "/" } { opened with nextDescriptor := 1 }
      (create { opened with nextDescriptor := 1 }).2 where
  isOpen := by decide
  named := by rfl
  calm := by rfl

/-- `write(2)` accepts everything. -/
theorem copies_sample :
    Copies none (some (ascii "new")) none
      { opens := .opened 4 [], reads := readsOf [ascii "ab", ascii "c"], write := fun _ => .accepted }
      { descriptor := 0 } { opened with nextDescriptor := 1 } (ascii "abc") :=
  (copies_iff canCopy_opened
    ⟨fun _ _ => rfl, fun _ _ some_ => some_, fun _ _ => le_refl _⟩
    (by unfold Pieces; decide +kernel) rfl).mpr
    fun _ _ _ => rfl

/-- `write(2)` accepts one of two bytes at first: `Copy` does not return. -/
theorem not_copies_part :
    ¬Copies none (some (ascii "new")) none
      { opens := .opened 4 [], reads := readsOf [ascii "ab"]
        write := fun _ offered => .accepted (min 1 offered) }
      { descriptor := 0 } { opened with nextDescriptor := 1 } (ascii "ab") := by
  rintro ⟨fuel, after, copied, -⟩
  have hangs := @Accepts.copyLoop_hangs (fun _ offered => .accepted (min 1 offered)) {}
    (fun _ offered => min 1 offered) ⟨fun _ _ => rfl, by simp, by simp⟩ [ascii "ab"]
    (by unfold Pieces; decide +kernel) (fun atOnce => absurd (atOnce 0 _ rfl) (by decide)) fuel
  rw [(canCopy_opened.copy_eq _ _ fuel hangs).1 rfl] at copied
  cases copied

end File

end IpUtils
