import IpUtils.ErrorHandler
import IpUtils.Scan.Streaming

/-! # The pieces the parsers are made of

A parser of this library walks a pointer through a window of bytes, fills an
object, may raise the global error and copies every token through a scratch array
on the stack. The arrays are not bounds-checked; a store past the end of one is
recorded in `overrun`.
-/

namespace IpUtils

/-- What a parser changes while it runs. -/
structure Exec (ω : Type) where
  obj : ω
  error : ErrorHandler
  /-- A scratch array has been written past its end. -/
  overrun : Bool := false
  deriving DecidableEq, Repr

/-- A parser that fills an object of type `ω`. -/
abbrev Parse (ω : Type) : Type → Type :=
  Scanner UInt8 (Exec ω)

variable {ω α : Type}

namespace Parse

/-- Change the object. -/
def assign (change : ω → ω) : Parse ω Unit :=
  Scanner.update fun exec => { exec with obj := change exec.obj }

/-- Raise an error and stop. -/
def fail (format : String) (args : Nat → List FmtArg) : Parse ω α :=
  Scanner.stopWith fun left exec =>
    { exec with error := exec.error.init ErrorHandler.EX_SOFTWARE format (args left) }

/-- Copy a run of bytes to a scratch array. -/
def copyWhile (capacity : Nat) (test : UInt8 → Bool) : Parse ω Bytes := do
  let text ← Scanner.takeWhile test
  Scanner.update fun exec => { exec with overrun := exec.overrun || capacity < text.length }
  pure text

/-- Store the NUL after the copied bytes and read the array as a C string. -/
def terminate (capacity : Nat) (text : Bytes) : Parse ω Bytes := do
  Scanner.update fun exec => { exec with overrun := exec.overrun || capacity ≤ text.length }
  pure (CLib.cstr text)

/-- Copy a run of bytes, whether or not anything follows it. -/
def word (capacity : Nat) (test : UInt8 → Bool) : Parse ω Bytes := do
  let text ← copyWhile capacity test
  terminate capacity text

/-- Copy a run of bytes that something must follow. -/
def token (capacity : Nat) (test : UInt8 → Bool) : Parse ω Bytes := do
  let text ← copyWhile capacity test
  Scanner.need
  terminate capacity text

/-- Raise an error unless `wanted` is under the pointer. -/
def require (wanted : UInt8) (format : String) (args : Nat → List FmtArg) : Parse ω Unit := do
  let here ← Scanner.current 0
  if here ≠ wanted then fail format args

/-- The check of a delimiter whose message shows the place where it is missing. -/
def expect (wanted : UInt8) (format : String) : Parse ω Unit :=
  require wanted format fun left => [.ptr left, .cnt left]

/-- Step over a byte that must be there, with another one behind it. -/
def expectStep (wanted : UInt8) (format : String) : Parse ω Unit := do
  expect wanted format
  Scanner.step

end Parse

/-! ## What success tells -/

namespace Parse

variable {window rest : Bytes} {exec exec' : Exec ω} {value : Unit}

/-- A test that has passed has read nothing. -/
theorem require_eq_some {wanted : UInt8} {format : String} {args : Nat → List FmtArg}
    (ran : require wanted format args window exec = (some (value, rest), exec')) :
    rest = window ∧ exec' = exec ∧ window.headD 0 = wanted := by
  simp only [require, Scanner.bind_apply, Scanner.current] at ran
  split at ran
  · cases ran
  · rename_i here
    simp only [Scanner.pure_apply, Prod.mk.injEq, Option.some.injEq] at ran
    exact ⟨ran.1.2.symm, ran.2.symm, Decidable.not_not.mp here⟩

/-- Behind the byte that was read at least one is left. -/
theorem expectStep_eq_some {wanted : UInt8} {format : String}
    (ran : expectStep wanted format window exec = (some (value, rest), exec')) :
    rest = window.tail ∧ exec' = exec ∧ rest ≠ [] ∧ window.headD 0 = wanted := by
  obtain ⟨_, between, between', check, move⟩ := Scanner.bind_eq_some ran
  obtain ⟨rfl, rfl, here⟩ := require_eq_some check
  obtain ⟨rfl, rfl, inhabited⟩ := Scanner.step_eq_some move
  exact ⟨rfl, rfl, inhabited, here⟩

/-- What has been copied, whatever the array's size was. -/
theorem copyWhile_eq_some {capacity : Nat} {test : UInt8 → Bool} {text : Bytes}
    (ran : copyWhile capacity test window exec = (some (text, rest), exec')) :
    text = window.takeWhile test ∧ rest = window.dropWhile test ∧
      exec'.obj = exec.obj ∧ exec'.error = exec.error := by
  cases ran
  exact ⟨rfl, rfl, rfl, rfl⟩

/-- A token is kept up to its first NUL, and a byte stands behind it. -/
theorem token_eq_some {capacity : Nat} {test : UInt8 → Bool} {text : Bytes}
    (ran : token capacity test window exec = (some (text, rest), exec')) :
    text = CLib.cstr (window.takeWhile test) ∧ rest = window.dropWhile test ∧ rest ≠ [] ∧
      exec'.obj = exec.obj ∧ exec'.error = exec.error := by
  obtain ⟨copied, between, exec₁, copy, ran⟩ := Scanner.bind_eq_some ran
  obtain ⟨rfl, rfl, sameObj, sameError⟩ := copyWhile_eq_some copy
  obtain ⟨_, between, exec₂, left, ended⟩ := Scanner.bind_eq_some ran
  obtain ⟨rfl, rfl, inhabited⟩ := Scanner.need_eq_some left
  cases ended
  exact ⟨rfl, rfl, inhabited, sameObj, sameError⟩

end Parse

/-! ## Runs on a given window -/

namespace Parse

variable {capacity : Nat} {test : UInt8 → Bool} {window text rest : Bytes} {exec : Exec ω}

/-- A copy that fits its array records no overrun. -/
theorem copyWhile_apply (taken : window.takeWhile test = text)
    (dropped : window.dropWhile test = rest) (fits : text.length ≤ capacity) :
    copyWhile capacity test window exec = (some (text, rest), exec) := by
  have inside : decide (capacity < text.length) = false := decide_eq_false (by omega)
  simp only [copyWhile, Scanner.bind_apply, Scanner.takeWhile, taken, dropped, Scanner.update,
    Scanner.pure_apply, inside, Bool.or_false]

/-- There is a place for the terminating NUL, and no other before it. -/
theorem terminate_apply (noNul : (0 : UInt8) ∉ text) (fits : text.length < capacity) :
    terminate capacity text window exec = (some (text, window), exec) := by
  have inside : decide (capacity ≤ text.length) = false := decide_eq_false (by omega)
  simp only [terminate, Scanner.bind_apply, Scanner.update, Scanner.pure_apply, inside,
    Bool.or_false, CLib.cstr_eq_self noNul]

/-- A word that fits its array. -/
theorem word_apply (taken : window.takeWhile test = text)
    (dropped : window.dropWhile test = rest) (noNul : (0 : UInt8) ∉ text)
    (fits : text.length < capacity) :
    word capacity test window exec = (some (text, rest), exec) := by
  rw [word, Scanner.bind_of_some (copyWhile_apply taken dropped (Nat.le_of_lt fits))]
  exact terminate_apply noNul fits

/-- A token that fits its array, with a byte behind it. -/
theorem token_apply {next : UInt8} (taken : window.takeWhile test = text)
    (dropped : window.dropWhile test = next :: rest) (noNul : (0 : UInt8) ∉ text)
    (fits : text.length < capacity) :
    token capacity test window exec = (some (text, next :: rest), exec) := by
  rw [token, Scanner.bind_of_some (copyWhile_apply taken dropped (Nat.le_of_lt fits))]
  exact terminate_apply noNul fits

/-- A delimiter that is there raises no error. -/
theorem require_cons (wanted : UInt8) (format : String) (args : Nat → List FmtArg) :
    require wanted format args (wanted :: rest) exec = (some ((), wanted :: rest), exec) := by
  simp only [require, Scanner.bind_apply, Scanner.current, List.headD_cons, ne_eq,
    not_true_eq_false, ↓reduceIte, Scanner.pure_apply]

/-- The byte is there and is not stepped over. -/
theorem expect_cons (wanted : UInt8) (format : String) :
    expect wanted format (wanted :: rest) exec = (some ((), wanted :: rest), exec) :=
  require_cons wanted format _

/-- The byte is there and another behind it. -/
theorem expectStep_cons (wanted : UInt8) (format : String) (c : UInt8) :
    expectStep wanted format (wanted :: c :: rest) exec = (some ((), c :: rest), exec) := by
  rw [expectStep, Scanner.bind_of_some (expect_cons wanted format)]
  rfl

/-- A delimiter that is missing raises an error. -/
theorem require_of_ne {wanted : UInt8} (missing : window.headD 0 ≠ wanted) (format : String)
    (args : Nat → List FmtArg) :
    require wanted format args window exec =
      (none, { exec with
        error := exec.error.init ErrorHandler.EX_SOFTWARE format (args window.length) }) := by
  simp only [require, Scanner.bind_apply, Scanner.current, ne_eq, missing, not_false_eq_true,
    ↓reduceIte, fail, Scanner.stopWith]

/-- Another byte raises the error. -/
theorem expect_of_ne {wanted c : UInt8} (other : c ≠ wanted) (format : String) :
    expect wanted format (c :: rest) exec =
      (none, { exec with
        error := exec.error.init ErrorHandler.EX_SOFTWARE format
          [.ptr (rest.length + 1), .cnt (rest.length + 1)] }) :=
  @require_of_ne _ (c :: rest) exec wanted other _ _

end Parse

/-! ## Locality -/

namespace Scanner

/-- An assignment does not look at the window. -/
theorem Local.assign (change : ω → ω) : Local (Parse.assign change) :=
  Local.update _

/-- An error names a place in what is parsed, not in the window. -/
theorem Local.fail (format : String) (args : Nat → List FmtArg) :
    Local (Parse.fail format args : Parse ω α) :=
  Local.stopWith _

/-- Copying looks no further than the first byte that it leaves. -/
theorem Local.copyWhile (capacity : Nat) (test : UInt8 → Bool) :
    Local (Parse.copyWhile capacity test : Parse ω Bytes) :=
  (Local.takeWhile test).bind fun _ => (Local.update _).bind fun _ => Local.pure _

theorem Local.terminate (capacity : Nat) (text : Bytes) :
    Local (Parse.terminate capacity text : Parse ω Bytes) :=
  (Local.update _).bind fun _ => Local.pure _

theorem Local.word (capacity : Nat) (test : UInt8 → Bool) :
    Local (Parse.word capacity test : Parse ω Bytes) :=
  (Local.copyWhile capacity test).bind fun text => Local.terminate capacity text

theorem Local.token (capacity : Nat) (test : UInt8 → Bool) :
    Local (Parse.token capacity test : Parse ω Bytes) :=
  (Local.copyWhile capacity test).bind fun text =>
    Local.need.bind fun _ => Local.terminate capacity text

theorem Local.require (wanted : UInt8) (format : String) (args : Nat → List FmtArg) :
    Local (Parse.require wanted format args : Parse ω Unit) :=
  (Local.current 0).bind fun _ => Local.ite (Local.fail _ _) (Local.pure _)

theorem Local.expect (wanted : UInt8) (format : String) :
    Local (Parse.expect wanted format : Parse ω Unit) :=
  Local.require wanted format _

theorem Local.expectStep (wanted : UInt8) (format : String) :
    Local (Parse.expectStep wanted format : Parse ω Unit) :=
  (Local.expect wanted format).bind fun _ => Local.step

end Scanner

/-! ## Invariants -/

/-- A property of the state that neither an error nor an overrun array ends. -/
structure Robust (inv : Exec ω → Prop) : Prop where
  raise : ∀ exec error, inv exec → error.event = true → inv { exec with error }
  overflow : ∀ exec overrun, inv exec → inv { exec with overrun }

/-- A property of the object alone. -/
theorem Robust.of_obj (property : ω → Prop) : Robust fun exec : Exec ω => property exec.obj where
  raise _ _ holds _ := holds
  overflow _ _ holds := holds

/-- What holds of every error that is an event, as that an event stays raised. -/
theorem Robust.of_error {kept : ErrorHandler → Prop}
    (raised : ∀ error, error.event = true → kept error) :
    Robust fun exec : Exec ω => kept exec.error where
  raise _ _ _ event := raised _ event
  overflow _ _ holds := holds

namespace Scanner

variable {inv : Exec ω → Prop}

/-- An assignment keeps what it is shown to keep. -/
theorem Keeps.assign {change : ω → ω}
    (kept : ∀ exec, inv exec → inv { exec with obj := change exec.obj }) :
    Keeps inv (Parse.assign change) :=
  Keeps.update kept

/-- An error changes nothing else, and the invariant does not look at it. -/
theorem Keeps.fail (robust : Robust inv) (format : String) (args : Nat → List FmtArg) :
    Keeps inv (Parse.fail format args : Parse ω α) :=
  Keeps.stopWith fun _ _ holds => robust.raise _ _ holds (ErrorHandler.event_init _ _ _ _)

/-- An overrun is recorded, and the invariant does not look at it. -/
theorem Keeps.copyWhile (robust : Robust inv) (capacity : Nat) (test : UInt8 → Bool) :
    Keeps inv (Parse.copyWhile capacity test : Parse ω Bytes) :=
  (Keeps.takeWhile test).bind fun _ =>
    (Keeps.update fun _ holds => robust.overflow _ _ holds).bind fun _ => Keeps.pure _

theorem Keeps.terminate (robust : Robust inv) (capacity : Nat) (text : Bytes) :
    Keeps inv (Parse.terminate capacity text : Parse ω Bytes) :=
  (Keeps.update fun _ holds => robust.overflow _ _ holds).bind fun _ => Keeps.pure _

theorem Keeps.word (robust : Robust inv) (capacity : Nat) (test : UInt8 → Bool) :
    Keeps inv (Parse.word capacity test : Parse ω Bytes) :=
  (Keeps.copyWhile robust capacity test).bind fun _ => Keeps.terminate robust capacity _

theorem Keeps.token (robust : Robust inv) (capacity : Nat) (test : UInt8 → Bool) :
    Keeps inv (Parse.token capacity test : Parse ω Bytes) :=
  (Keeps.copyWhile robust capacity test).bind fun _ =>
    Keeps.need.bind fun _ => Keeps.terminate robust capacity _

theorem Keeps.require (robust : Robust inv) (wanted : UInt8) (format : String)
    (args : Nat → List FmtArg) : Keeps inv (Parse.require wanted format args : Parse ω Unit) :=
  (Keeps.current 0).bind fun _ => Keeps.ite (Keeps.fail robust _ _) (Keeps.pure _)

theorem Keeps.expectStep (robust : Robust inv) (wanted : UInt8) (format : String) :
    Keeps inv (Parse.expectStep wanted format : Parse ω Unit) :=
  (Keeps.require robust wanted format _).bind fun _ => Keeps.step

end Scanner

/-! ## Feeding -/

/-- The error is what it was, and no scratch array has overflowed. -/
def Quiet (error : ErrorHandler) (exec : Exec ω) : Prop :=
  exec.error = error ∧ exec.overrun = false

namespace Scanner

variable {error : ErrorHandler} {exec : Exec ω} {next : UInt8}

/-- An assignment is fed nothing. -/
theorem Feeds.assign (change : ω → ω) :
    Feeds (Parse.assign change) [] next exec () { exec with obj := change exec.obj }
      (Quiet error) :=
  Feeds.update _

/-- A token shorter than its scratch array and free of NUL is read as it is. -/
theorem Feeds.token {capacity : Nat} {test : UInt8 → Bool} {text : Bytes}
    (passes : ∀ c ∈ text, test c = true) (fails : test next = false) (noNul : (0 : UInt8) ∉ text)
    (fits : text.length < capacity) (calm : Quiet error exec) :
    Feeds (Parse.token capacity test) text next exec text exec (Quiet error) where
  reads := by
    intro rest
    obtain ⟨taken, dropped⟩ := takeWhile_of_delimited passes fails rest
    exact Parse.token_apply taken dropped noNul fits
  starves := by
    intro window _ front
    obtain ⟨taken, dropped⟩ := takeWhile_of_all fun c member => passes c (front.subset member)
    have inside : window.length ≤ capacity := by
      have := front.length_le
      omega
    refine ⟨exec, ?_, calm⟩
    rw [Parse.token, bind_of_some (Parse.copyWhile_apply taken dropped inside)]
    rfl

/-- A test is fed nothing and wants its byte next. -/
theorem Feeds.expect (wanted : UInt8) (format : String) :
    Feeds (Parse.expect wanted format) [] wanted exec () exec (Quiet error) :=
  Reads.feeds_nil fun _ => Parse.require_cons wanted _ _

/-- A byte that has to be there is fed. -/
theorem Feeds.expectStep {wanted : UInt8} (format : String) (calm : Quiet error exec) :
    Feeds (Parse.expectStep wanted format) [wanted] next exec () exec (Quiet error) :=
  Feeds.bind [] [wanted] (Feeds.expect wanted format) (Feeds.step wanted calm)

end Scanner

end IpUtils
