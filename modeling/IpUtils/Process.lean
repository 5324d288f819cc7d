import IpUtils.CLib.Memory
import IpUtils.ErrorHandler
import Mathlib.Logic.Function.Basic

/-! # What the objects of a process share

The global error, the counter of message ids and the `Descriptor` objects that `File`
objects point to. A descriptor is named by its address; what the kernel keeps for an
open file stands next to its number.
-/

namespace IpUtils

/-- `DESCRIPTOR_NULL`. -/
def descriptorNull : Int := -1

/-- An open file as the kernel has it. -/
structure OpenFile where
  contents : Bytes := []
  position : Nat := 0
  deriving DecidableEq, Repr

/-- `Descriptor`: the stream is the text that `%p` prints for it. -/
structure Descriptor where
  fd : Int := descriptorNull
  fp : Option Bytes := none
  cnt : Nat := 1
  openFile : OpenFile := {}
  deriving DecidableEq, Repr

/-- The state outside the objects themselves. -/
structure Process where
  error : ErrorHandler := {}
  msgIdHash : UInt16 := 0
  descriptors : Nat → Descriptor := fun _ => {}
  /-- The next address at which a descriptor is made. -/
  nextDescriptor : Nat := 0
  /-- An array has been left. -/
  overrun : Bool := false

namespace Process

/-- `error.Init`. -/
def raise (realm : Int) (format : String) (args : List FmtArg) (process : Process) : Process :=
  { process with error := process.error.init realm format args }

/-- `error.AppendMsg`. -/
def appendMsg (format : String) (args : List FmtArg) (process : Process) : Process :=
  { process with error := process.error.appendMsg format args }

/-- Record whether an access has left its array. -/
def checked (inside : Bool) (process : Process) : Process :=
  { process with overrun := process.overrun || !inside }

/-- Change the descriptor at an address. -/
def setDescriptor (address : Nat) (change : Descriptor → Descriptor) (process : Process) :
    Process :=
  { process with
    descriptors := Function.update process.descriptors address
      (change (process.descriptors address)) }

/-- `new Descriptor()`. -/
def newDescriptor (process : Process) : Nat × Process :=
  (process.nextDescriptor,
    { process.setDescriptor process.nextDescriptor fun _ => {} with
      nextDescriptor := process.nextDescriptor + 1 })

@[simp] theorem error_raise (realm : Int) (format : String) (args : List FmtArg)
    (process : Process) :
    (process.raise realm format args).error = process.error.init realm format args := rfl

@[simp] theorem error_checked (inside : Bool) (process : Process) :
    (process.checked inside).error = process.error := rfl

@[simp] theorem checked_true (process : Process) : process.checked true = process := by
  simp [checked]

@[simp] theorem error_setDescriptor (address : Nat) (change : Descriptor → Descriptor)
    (process : Process) : (process.setDescriptor address change).error = process.error := rfl

theorem event_raise (realm : Int) (format : String) (args : List FmtArg) (process : Process) :
    (process.raise realm format args).error.event = true :=
  ErrorHandler.event_init ..

theorem event_appendMsg (format : String) (args : List FmtArg) (process : Process) :
    (process.appendMsg format args).error.event = true :=
  ErrorHandler.event_appendMsg ..

@[simp] theorem descriptors_setDescriptor (address : Nat) (change : Descriptor → Descriptor)
    (process : Process) :
    (process.setDescriptor address change).descriptors address =
      change (process.descriptors address) :=
  Function.update_self ..

end Process

end IpUtils
