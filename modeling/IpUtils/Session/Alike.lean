import IpUtils.Session.Incoming
import IpUtils.Session.Outgoing

/-! # Worlds that differ in the error

The error is shared by all sessions. Worlds that agree in everything but the error, and
the record of overruns, are related; what does not test the error keeps the relation.
-/

namespace IpUtils

open CLib

/-- Processes that differ in the error at most, and in the record of overruns. -/
def Process.Alike (process₁ process₂ : Process) : Prop :=
  ∃ error overrun, process₁ = { process₂ with error, overrun }

namespace Process.Alike

variable {process₁ process₂ : Process}

theorem refl (process : Process) : process.Alike process :=
  ⟨process.error, process.overrun, rfl⟩

theorem symm (alike : process₁.Alike process₂) : process₂.Alike process₁ := by
  obtain ⟨error, overrun, rfl⟩ := alike
  exact ⟨process₂.error, process₂.overrun, rfl⟩

theorem trans {process₃ : Process} (first : process₁.Alike process₂)
    (second : process₂.Alike process₃) : process₁.Alike process₃ := by
  obtain ⟨error, overrun, rfl⟩ := first
  obtain ⟨_, _, rfl⟩ := second
  exact ⟨error, overrun, rfl⟩

/-- A descriptor is changed in both. -/
theorem setDescriptor (alike : process₁.Alike process₂) (address : Nat)
    (change : Descriptor → Descriptor) :
    (process₁.setDescriptor address change).Alike (process₂.setDescriptor address change) := by
  obtain ⟨error, overrun, rfl⟩ := alike
  exact ⟨error, overrun, rfl⟩

/-- The record of overruns is left out. -/
theorem checked (alike : process₁.Alike process₂) (inside : Bool) :
    (process₁.checked inside).Alike (process₂.checked inside) := by
  obtain ⟨error, overrun, rfl⟩ := alike
  exact ⟨error, _, rfl⟩

/-- A file has the same descriptor in both. -/
theorem desc (alike : process₁.Alike process₂) (file : File) :
    file.desc process₁ = file.desc process₂ := by
  obtain ⟨error, overrun, rfl⟩ := alike
  rfl

theorem raise (alike : process₁.Alike process₂) (realm : Int) (format : String)
    (args : List FmtArg) :
    (process₁.raise realm format args).Alike (process₂.raise realm format args) := by
  obtain ⟨error, overrun, rfl⟩ := alike
  exact ⟨_, overrun, rfl⟩

/-- A file is closed in both, whatever `close(2)` may add to the error. -/
theorem close (alike : process₁.Alike process₂) (file : File) :
    (file.close process₁).Alike (file.close process₂) := by
  unfold File.close
  rw [alike.desc]
  split_ifs
  · exact alike.raise ..
  · exact alike.raise ..
  · exact alike
  · exact alike.setDescriptor ..

/-- A stream is closed in both. -/
theorem fclose (alike : process₁.Alike process₂) (file : File) :
    (file.fclose process₁).Alike (file.fclose process₂) := by
  unfold File.fclose
  rw [alike.desc]
  split_ifs
  · exact alike.raise ..
  · exact alike.raise ..
  · exact alike
  · exact alike.setDescriptor ..

/-- The destructor of a file closes it in both or in neither. -/
theorem release (alike : process₁.Alike process₂) (file : File) :
    (file.release process₁).Alike (file.release process₂) := by
  have counted := alike.setDescriptor file.descriptor fun desc => { desc with cnt := desc.cnt - 1 }
  unfold File.release
  dsimp only
  rw [counted.desc]
  split_ifs
  · exact counted.close file
  · exact counted.fclose file
  · exact counted
  · exact counted

/-- A file that is cleared gets the same new descriptor. -/
theorem clear (alike : process₁.Alike process₂) (file : File) :
    (file.clear process₁).1 = (file.clear process₂).1 ∧
      (file.clear process₁).2.Alike (file.clear process₂).2 := by
  obtain ⟨error, overrun, same⟩ := alike.release { file with name := [], dir := [] }
  unfold File.clear
  dsimp only
  rw [same]
  exact ⟨rfl, error, overrun, rfl⟩

/-- The files of a queue go, one after the other. -/
theorem destroyAll (alike : process₁.Alike process₂) (files : List File) :
    (File.destroyAll files process₁).Alike (File.destroyAll files process₂) := by
  unfold File.destroyAll
  induction files generalizing process₁ process₂ with
  | nil => exact alike
  | cons file files ih => exact ih (alike.release file)

end Process.Alike

namespace World

variable {α : Type} {w₁ w₂ : World}

/-- Worlds that differ in the error at most, and in the record of overruns. -/
structure Alike (w₁ w₂ : World) : Prop where
  session : w₁.session = w₂.session
  process : w₁.process.Alike w₂.process
  wire : w₁.wire = w₂.wire

/-- Two calls have returned the same and left the same. -/
structure SameOutcome (outcome₁ outcome₂ : Outcome α) : Prop where
  world : outcome₁.1.Alike outcome₂.1
  value : outcome₁.2 = outcome₂.2

namespace SameOutcome

variable {outcome₁ outcome₂ outcome₃ : Outcome α}

theorem symm (same : SameOutcome outcome₁ outcome₂) : SameOutcome outcome₂ outcome₁ :=
  ⟨⟨same.world.session.symm, same.world.process.symm, same.world.wire.symm⟩, same.value.symm⟩

theorem trans (first : SameOutcome outcome₁ outcome₂) (second : SameOutcome outcome₂ outcome₃) :
    SameOutcome outcome₁ outcome₃ :=
  ⟨⟨first.world.session.trans second.world.session,
      first.world.process.trans second.world.process, first.world.wire.trans second.world.wire⟩,
    first.value.trans second.value⟩

end SameOutcome

namespace Alike

theorem refl (w : World) : w.Alike w :=
  ⟨rfl, .refl _, rfl⟩

theorem symm (alike : w₁.Alike w₂) : w₂.Alike w₁ :=
  ⟨alike.session.symm, alike.process.symm, alike.wire.symm⟩

theorem trans {w₃ : World} (first : w₁.Alike w₂) (second : w₂.Alike w₃) : w₁.Alike w₃ :=
  ⟨first.session.trans second.session, first.process.trans second.process,
    first.wire.trans second.wire⟩

/-- A change of the session does not look at the error. -/
theorem onSession (alike : w₁.Alike w₂) (change : TCPSession → TCPSession) :
    (w₁.onSession change).Alike (w₂.onSession change) :=
  ⟨congrArg change alike.session, alike.process, alike.wire⟩

/-- Changes of the process that keep what it has in common. -/
theorem onProcess {change₁ change₂ : Process → Process} (alike : w₁.Alike w₂)
    (same : w₁.process.Alike w₂.process → (change₁ w₁.process).Alike (change₂ w₂.process)) :
    (w₁.onProcess change₁).Alike (w₂.onProcess change₂) :=
  ⟨alike.session, same alike.process, alike.wire⟩

/-- Errors may be added to both. -/
theorem withErrors (alike : w₁.Alike w₂) (error₁ error₂ : Process → ErrorHandler) :
    (w₁.onProcess fun process => { process with error := error₁ process }).Alike
      (w₂.onProcess fun process => { process with error := error₂ process }) := by
  refine alike.onProcess ?_
  rintro ⟨error, overrun, same⟩
  refine ⟨error₁ w₁.process, overrun, ?_⟩
  rw [same]

theorem raise (alike : w₁.Alike w₂) (realm₁ realm₂ : Int) (format₁ format₂ : String)
    (args₁ args₂ : List FmtArg) :
    (w₁.raise realm₁ format₁ args₁).Alike (w₂.raise realm₂ format₂ args₂) :=
  alike.withErrors (fun process => process.error.init realm₁ format₁ args₁) fun process =>
    process.error.init realm₂ format₂ args₂

/-- A call that is refused adds to the error and to nothing else. -/
theorem refuse (alike : w₁.Alike w₂) (format : String) :
    (w₁.refuse format).Alike (w₂.refuse format) :=
  alike.raise ..

/-- An error that is raised is no difference. -/
theorem of_raise (realm : Int) (format : String) (args : List FmtArg) (w : World) :
    (w.raise realm format args).Alike w :=
  ⟨rfl, ⟨_, w.process.overrun, rfl⟩, rfl⟩

/-- A message that is appended is no difference. -/
theorem of_appendMsg (format : String) (args : List FmtArg) (w : World) :
    (w.onProcess (Process.appendMsg format args)).Alike w :=
  ⟨rfl, ⟨_, w.process.overrun, rfl⟩, rfl⟩

/-- The front of the read buffer is removed from both. -/
theorem shiftRbuf (alike : w₁.Alike w₂) (len offset : Int) :
    (w₁.shiftRbuf len offset).Alike (w₂.shiftRbuf len offset) := by
  obtain ⟨error, overrun, same⟩ := alike.process
  unfold World.shiftRbuf
  rw [alike.session]
  cases w₂.session.rbuf with
  | none => exact alike.refuse _
  | some rbuf =>
      dsimp only
      exact ⟨rfl, ⟨error, _, by rw [same]; rfl⟩, alike.wire⟩

/-- The read side is reset in both. -/
theorem resetRbuf (alike : w₁.Alike w₂) : w₁.resetRbuf.Alike w₂.resetRbuf := by
  obtain ⟨same, process⟩ := alike.process.clear w₂.session.rfile
  unfold World.resetRbuf
  rw [alike.session]
  split_ifs
  · exact alike.refuse _
  · exact ⟨by dsimp only; rw [same], process, alike.wire⟩
  · exact ⟨rfl, alike.process, alike.wire⟩

/-- The queue is dropped in both. -/
theorem resetWbuf (alike : w₁.Alike w₂) : w₁.resetWbuf.Alike w₂.resetWbuf := by
  unfold World.resetWbuf
  rw [alike.session]
  split_ifs
  · exact alike.refuse _
  · exact ⟨rfl, alike.process.destroyAll _, alike.wire⟩

/-- Both give the incoming mutex back and return the same. -/
theorem returnIncoming (alike : w₁.Alike w₂) (value : α) :
    SameOutcome (w₁.returnIncoming value) (w₂.returnIncoming value) := by
  refine ⟨?_, rfl⟩
  unfold World.returnIncoming unlockIncoming
  dsimp only
  rw [alike.session]
  exact alike.onSession _

/-- Both give the outgoing mutex back and return the same. -/
theorem returnOutgoing (alike : w₁.Alike w₂) (value : α) :
    SameOutcome (w₁.returnOutgoing value) (w₂.returnOutgoing value) := by
  refine ⟨?_, rfl⟩
  unfold World.returnOutgoing unlockOutgoing
  dsimp only
  rw [alike.session]
  exact alike.onSession _

/-- Both have the incoming mutex. -/
theorem incomingLocked (alike : w₁.Alike w₂) : w₁.incomingLocked.Alike w₂.incomingLocked := by
  unfold World.incomingLocked
  rw [alike.session]
  exact alike.onSession _

/-- Both have the outgoing mutex. -/
theorem outgoingLocked (alike : w₁.Alike w₂) : w₁.outgoingLocked.Alike w₂.outgoingLocked := by
  unfold World.outgoingLocked
  rw [alike.session]
  exact alike.onSession _

/-- Neither gets the mutex, or both do. -/
theorem lockIncoming {body₁ body₂ : World → Outcome α} (alike : w₁.Alike w₂)
    (same : w₁.incomingLocked.Alike w₂.incomingLocked →
      SameOutcome (body₁ w₁.incomingLocked) (body₂ w₂.incomingLocked)) :
    SameOutcome (w₁.lockIncoming body₁) (w₂.lockIncoming body₂) := by
  have locked := alike.incomingLocked
  cases held : w₂.session.mutexes.incoming with
  | true =>
      rw [lockIncoming_of_held held, lockIncoming_of_held (by rw [alike.session]; exact held)]
      exact ⟨locked, rfl⟩
  | false =>
      rw [lockIncoming_of_free held, lockIncoming_of_free (by rw [alike.session]; exact held)]
      exact same locked

/-- Neither gets the mutex, or both do. -/
theorem lockOutgoing {body₁ body₂ : World → Outcome α} (alike : w₁.Alike w₂)
    (same : w₁.outgoingLocked.Alike w₂.outgoingLocked →
      SameOutcome (body₁ w₁.outgoingLocked) (body₂ w₂.outgoingLocked)) :
    SameOutcome (w₁.lockOutgoing body₁) (w₂.lockOutgoing body₂) := by
  have locked := alike.outgoingLocked
  cases held : w₂.session.mutexes.outgoing with
  | true =>
      rw [lockOutgoing_of_held held, lockOutgoing_of_held (by rw [alike.session]; exact held)]
      exact ⟨locked, rfl⟩
  | false =>
      rw [lockOutgoing_of_free held, lockOutgoing_of_free (by rw [alike.session]; exact held)]
      exact same locked

end Alike

/-- How much there was, and its header, are forgotten. -/
theorem resetRbuf_forgets {w : World} (has : w.session.rbuf.isSome = true) (rbufLen : Int)
    (rhdr : MsgHdr) :
    (w.onSession fun session => { session with rbufLen, rhdr }).resetRbuf = w.resetRbuf := by
  have present : ¬ w.session.rbuf.isNone = true := by
    simpa [Option.isSome_iff_ne_none] using has
  unfold resetRbuf
  rw [if_neg present, if_neg (by exact present)]
  rfl

end World

end IpUtils
