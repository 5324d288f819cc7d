import IpUtils.CLib.Strings
import IpUtils.Calls.Basic
import Mathlib.Logic.Function.Basic

/-! # The logger

Messages go to several sinks, each with a level of its own. Levels are set one by one,
from the text of a command line option, or moved all at once. A sink whose level has
fallen below zero is off, and moving the levels does not bring it back.

What `warnx` prints on the way is left out.
-/

namespace IpUtils

open CLib

/-- `log_mechanism_type`. -/
inductive Mechanism where
  | null
  | stderr
  | stdout
  | file
  | console
  | syslog
  | script
  deriving DecidableEq, Repr

namespace Mechanism

/-- The mechanisms in the order of their numbers. -/
def all : List Mechanism :=
  [.null, .stderr, .stdout, .file, .console, .syslog, .script]

/-- `get_log_mechanism_name`. -/
def name : Mechanism → Bytes
  | .null => ascii "null"
  | .stderr => ascii "stderr"
  | .stdout => ascii "stdout"
  | .file => ascii "file"
  | .console => ascii "console"
  | .syslog => ascii "syslog"
  | .script => ascii "script"

end Mechanism

namespace Logger

def LOG_NOTICE : Int := 5

def LOG_INFO : Int := 6

def LOG_DEBUG : Int := 7

def LOG_NONE : Int := -1

def MAX_BUF_SIZE : Nat := 1024 * 100

/-- `prioritynames` of `sys/syslog.h`. -/
def priorityNames : List (Bytes × Int) :=
  [(ascii "alert", 1), (ascii "crit", 2), (ascii "debug", 7), (ascii "emerg", 0),
    (ascii "err", 3), (ascii "error", 3), (ascii "info", 6), (ascii "none", 16),
    (ascii "notice", 5), (ascii "panic", 0), (ascii "warn", 4), (ascii "warning", 4)]

def getLogPriority (priorityName : Bytes) : Int :=
  if cstr priorityName = [] then LOG_INFO
  else ((priorityNames.find? fun entry => equalsNoCase entry.1 priorityName).map Prod.snd).getD LOG_INFO

def getLogPriorityName (priority : Int) : Bytes :=
  ((priorityNames.find? fun entry => entry.2 = priority).map Prod.fst).getD (ascii "none")

def getLogMechanismType (mechanismName : Bytes) : Mechanism :=
  if cstr mechanismName = [] then .stderr
  else (Mechanism.all.find? fun mechanism => equalsNoCase mechanism.name mechanismName).getD .stderr

end Logger

open Logger in
/-- `Logger`, and what it has given to each sink. -/
structure Logger where
  procName : Bytes := []
  logFilePath : Bytes := []
  scriptPath : Bytes := []
  mechanisms : Mechanism → Int := fun mechanism =>
    if mechanism = .stderr then LOG_NOTICE else LOG_NONE
  written : Mechanism → List Bytes := fun _ => []

namespace Logger

/-- `set_mechanism_priority(mechanism, priority)`. -/
def setLevel (mechanism : Mechanism) (priority : Int) (logger : Logger) : Logger :=
  { logger with
    mechanisms := Function.update logger.mechanisms mechanism
      (if 0 ≤ priority ∧ priority ≤ LOG_DEBUG then priority else LOG_NONE) }

/-- `clear_mechanism`. -/
def clearMechanism (mechanism : Mechanism) (logger : Logger) : Logger :=
  { logger with mechanisms := Function.update logger.mechanisms mechanism LOG_NONE }

/-- The loops over the mechanisms from 1 on that are not off. -/
def moveLevels (by_ : Int) (logger : Logger) : Logger :=
  { logger with
    mechanisms := fun mechanism =>
      if mechanism ≠ .null ∧ 0 ≤ logger.mechanisms mechanism then logger.mechanisms mechanism + by_
      else logger.mechanisms mechanism }

/-- `DecrementMechanismPriority`. -/
def decrement (logger : Logger) : Logger :=
  logger.moveLevels (-1)

/-- `IncrementMechanismPriority`. -/
def increment (logger : Logger) : Logger :=
  logger.moveLevels 1

/-- What stands in front of a separator, and what stands behind it if it is there. -/
def splitAt (separator : UInt8) (text : Bytes) : Bytes × Option Bytes :=
  (text.takeWhile (· != separator),
    if separator ∈ text then some (text.dropWhile (· != separator)).tail else none)

/-- The parts of an option. -/
structure LogOption where
  mechanism : Mechanism
  argument : Option Bytes
  priorityName : Option Bytes
  deriving DecidableEq, Repr

/-- The text of an option in front of its first `:` and behind it, and the front again in
front of its first `=` and behind it. -/
def readOption (optarg : Bytes) : LogOption where
  mechanism := getLogMechanismType (splitAt 61 (splitAt 58 optarg).1).1
  argument := (splitAt 61 (splitAt 58 optarg).1).2
  priorityName := (splitAt 58 optarg).2

/-- The part of an option behind a `=`. -/
def setArgument (mechanism : Mechanism) (argument : Bytes) (logger : Logger) : Logger :=
  if mechanism = .script then { logger with scriptPath := argument }
  else if mechanism = .file then { logger with logFilePath := argument }
  else logger

/-- An option whose parts have been told apart. -/
def applyOption (option : LogOption) (logger : Logger) : Logger :=
  let argued := option.argument.elim logger fun argument =>
    logger.setArgument option.mechanism argument
  option.priorityName.elim
    (if argued.mechanisms option.mechanism < 0 then argued.setLevel option.mechanism LOG_INFO
      else argued)
    fun priorityName => argued.setLevel option.mechanism (getLogPriority priorityName)

/-- `set_mechanism_priority(optarg)`. A comma ends the process. -/
def setOption (optarg : Bytes) (logger : Logger) : Logger × Bool :=
  if 44 ∈ cstr optarg then (logger, false)
  else (logger.applyOption (readOption (cstr optarg)), true)

/-- A message: its priority, the local time, the text that its format and arguments make,
and whether the files of two sinks can be opened. -/
structure Message where
  priority : Int
  time : Bytes
  text : Bytes
  fileOpens : Bool := true
  consoleOpens : Bool := true
  deriving DecidableEq, Repr

/-- What `msg_buf` holds in the end. -/
def line (message : Message) (logger : Logger) : Bytes :=
  let head := snprintfAppend MAX_BUF_SIZE [] (getLogPriorityName message.priority ++ ascii ": " ++
    cstr logger.procName ++ ascii ": " ++ message.time ++ ascii ": ")
  snprintfAppend MAX_BUF_SIZE (snprintfAppend MAX_BUF_SIZE head (cstr message.text)) [10]

/-- A sink gets the line. -/
def give (mechanism : Mechanism) (text : Bytes) (logger : Logger) : Logger :=
  { logger with
    written := Function.update logger.written mechanism (logger.written mechanism ++ [text]) }

/-- The functions `log_to_stderr` and so on. A file that cannot be opened ends the process,
`syslog(3)` gets the line as its format, and the script is not run. -/
def logTo (mechanism : Mechanism) (message : Message) (text : Bytes) (logger : Logger) :
    Logger × Bool :=
  match mechanism with
  | .null => (logger, true)
  | .stderr => (logger.give .stderr text, true)
  | .stdout => (logger.give .stdout text, true)
  | .file => if message.fileOpens then (logger.give .file text, true) else (logger, false)
  | .console => if message.consoleOpens then (logger.give .console text, true) else (logger, false)
  | .syslog => (logger.give .syslog text, true)
  | .script => (logger, true)

/-- The loop of `Log` over the mechanisms. -/
def logLoop (message : Message) (text : Bytes) : List Mechanism → Logger → Logger × Bool
  | [], logger => (logger, true)
  | mechanism :: others, logger =>
      if message.priority ≤ logger.mechanisms mechanism then
        let outcome := logger.logTo mechanism message text
        if outcome.2 then logLoop message text others outcome.1 else outcome
      else logLoop message text others logger

/-- `Log`. -/
def log (message : Message) (logger : Logger) : Logger × Bool :=
  if Mechanism.all.tail.any fun mechanism => message.priority ≤ logger.mechanisms mechanism then
    logLoop message (logger.line message) Mechanism.all.tail logger
  else (logger, true)

/-- A call on the logger. -/
inductive LogCall where
  | setProcName (procName : Bytes)
  | setLevel (mechanism : Mechanism) (priority : Int)
  | setOption (optarg : Bytes)
  | clearMechanism (mechanism : Mechanism)
  | increment
  | decrement
  | log (message : Message)

/-- One call; the process may end in it. -/
def step : Machine LogCall Logger
  | .setProcName procName, logger => ({ logger with procName := cstr procName }, true)
  | .setLevel mechanism priority, logger => (logger.setLevel mechanism priority, true)
  | .setOption optarg, logger => logger.setOption optarg
  | .clearMechanism mechanism, logger => (logger.clearMechanism mechanism, true)
  | .increment, logger => (logger.increment, true)
  | .decrement, logger => (logger.decrement, true)
  | .log message, logger => logger.log message

/-! ## One sink on its own -/

/-- What a sink is for: it is off or has a level, and has got lines. The name of the process
stands in the lines. -/
structure Sink where
  level : Option Nat
  lines : List Bytes
  procName : Bytes

namespace Sink

/-- The number that stands for the level in the array. -/
def number (sink : Sink) : Int :=
  sink.level.elim LOG_NONE fun level => level

/-- The mechanisms with an output of their own. -/
def writes (mechanism : Mechanism) : Bool :=
  mechanism ∈ [Mechanism.stderr, .stdout, .file, .console, .syslog]

/-- The level that a priority asks for. -/
def ofPriority (priority : Int) : Option Nat :=
  if 0 ≤ priority ∧ priority ≤ LOG_DEBUG then some priority.toNat else none

/-- What an option does to the level of its mechanism. -/
def ofOption (priorityName : Option Bytes) (level : Option Nat) : Option Nat :=
  priorityName.elim (if level.isNone then some 6 else level) fun priorityName =>
    ofPriority (getLogPriority priorityName)

/-- One call, as far as it concerns the sink of a mechanism. -/
def step (mechanism : Mechanism) (call : LogCall) (sink : Sink) : Sink :=
  match call with
  | .setProcName procName => { sink with procName := cstr procName }
  | .setLevel other priority =>
      if other = mechanism then { sink with level := ofPriority priority } else sink
  | .setOption optarg =>
      let option := readOption (cstr optarg)
      if option.mechanism = mechanism then
        { sink with level := ofOption option.priorityName sink.level }
      else sink
  | .clearMechanism other => if other = mechanism then { sink with level := none } else sink
  | .increment => { sink with level := sink.level.map (· + 1) }
  | .decrement =>
      { sink with level := sink.level.bind fun level => if level = 0 then none else some (level - 1) }
  | .log message =>
      if writes mechanism ∧ message.priority ≤ sink.number then
        { sink with lines := sink.lines ++ [Logger.line message { procName := sink.procName }] }
      else sink

end Sink

/-- The logger's array and outputs say of a mechanism what its sink says. -/
structure Shows (mechanism : Mechanism) (logger : Logger) (sink : Sink) : Prop where
  level : logger.mechanisms mechanism = sink.number
  lines : logger.written mechanism = sink.lines
  procName : logger.procName = sink.procName

variable {mechanism : Mechanism} {logger : Logger} {sink : Sink}

theorem number_ofPriority (priority : Int) :
    (if 0 ≤ priority ∧ priority ≤ LOG_DEBUG then priority else LOG_NONE) =
      (Sink.ofPriority priority).elim LOG_NONE fun level => (level : Int) := by
  unfold Sink.ofPriority
  split
  · rename_i inside
    exact (Int.toNat_of_nonneg inside.1).symm
  · rfl

theorem Shows.setLevel (shows_ : Shows mechanism logger sink) (other : Mechanism) (priority : Int) :
    Shows mechanism (logger.setLevel other priority)
      (if other = mechanism then { sink with level := Sink.ofPriority priority } else sink) := by
  by_cases same : other = mechanism
  · subst same
    rw [if_pos rfl]
    refine ⟨?_, shows_.lines, shows_.procName⟩
    rw [Logger.setLevel, Sink.number, ← number_ofPriority]
    exact Function.update_self _ _ _
  · rw [if_neg same]
    refine ⟨?_, shows_.lines, shows_.procName⟩
    rw [Logger.setLevel, ← shows_.level]
    exact Function.update_of_ne (Ne.symm same) _ _

/-- Only the line that is logged matters, not the other fields. -/
theorem line_congr {logger' : Logger} (message : Message)
    (same : logger.procName = logger'.procName) : logger.line message = logger'.line message := by
  rw [line, line, same]

/-- What one sink's own function gives to the sinks. -/
theorem logTo_spec (mechanism : Mechanism) (message : Message) (text : Bytes) (logger : Logger)
    (lives : (logger.logTo mechanism message text).2 = true) :
    (logger.logTo mechanism message text).1 =
      if Sink.writes mechanism then logger.give mechanism text else logger := by
  cases mechanism with
  | null | stderr | stdout | syslog | script => rfl
  | file | console =>
      rw [logTo] at lives ⊢
      split at lives
      · rename_i opens
        rw [if_pos opens]
        rfl
      · cases lives

theorem give_of_ne {mechanism other : Mechanism} (apart : mechanism ≠ other) (text : Bytes)
    (logger : Logger) : (logger.give other text).written mechanism = logger.written mechanism :=
  Function.update_of_ne apart _ _

theorem give_self (mechanism : Mechanism) (text : Bytes) (logger : Logger) :
    (logger.give mechanism text).written mechanism = logger.written mechanism ++ [text] :=
  Function.update_self _ _ _

/-- The loop gives the line to every sink of the list whose level is high enough. -/
theorem logLoop_spec {message : Message} {text : Bytes} (mechanism : Mechanism) :
    ∀ {mechanisms : List Mechanism} {logger : Logger}, mechanisms.Nodup →
      (logLoop message text mechanisms logger).2 = true →
        (logLoop message text mechanisms logger).1.mechanisms = logger.mechanisms ∧
        (logLoop message text mechanisms logger).1.procName = logger.procName ∧
        (logLoop message text mechanisms logger).1.written mechanism =
          logger.written mechanism ++
            if mechanism ∈ mechanisms ∧ Sink.writes mechanism = true ∧
              message.priority ≤ logger.mechanisms mechanism then [text] else [] := by
  intro mechanisms
  induction mechanisms with
  | nil =>
      intro logger _ _
      exact ⟨rfl, rfl, by simp [logLoop]⟩
  | cons first others ih =>
      intro logger nodup lives
      obtain ⟨fresh, nodup'⟩ := List.nodup_cons.mp nodup
      rw [logLoop] at lives ⊢
      by_cases high : message.priority ≤ logger.mechanisms first
      · rw [if_pos high] at lives ⊢
        dsimp only at lives ⊢
        cases alive : (logger.logTo first message text).2 with
        | false =>
            rw [alive, if_neg (by simp), alive] at lives
            cases lives
        | true =>
            rw [alive, if_pos rfl] at lives
            rw [if_pos rfl]
            have given := logTo_spec first message text logger alive
            obtain ⟨levels, procName, written⟩ := ih nodup' lives
            have same : (logger.logTo first message text).1.mechanisms = logger.mechanisms ∧
                (logger.logTo first message text).1.procName = logger.procName := by
              rw [given]
              split <;> exact ⟨rfl, rfl⟩
            refine ⟨levels.trans same.1, procName.trans same.2, ?_⟩
            rw [written, same.1, given]
            by_cases here : mechanism = first
            · subst here
              simp only [fresh, high, false_and, if_false, List.append_nil, List.mem_cons,
                true_or, and_true, true_and]
              split
              · exact give_self _ _ _
              · exact (List.append_nil _).symm
            · simp only [List.mem_cons, here, false_or]
              congr 1
              split
              · exact give_of_ne here _ _
              · rfl
      · rw [if_neg high] at lives ⊢
        obtain ⟨levels, procName, written⟩ := ih nodup' lives
        refine ⟨levels, procName, ?_⟩
        rw [written]
        congr 2
        by_cases here : mechanism = first
        · subst here
          simp [fresh, high]
        · simp [here]

/-- `Log` gives the line to every sink whose level is high enough. -/
theorem log_spec {message : Message} (mechanism : Mechanism)
    (lives : (logger.log message).2 = true) :
    (logger.log message).1.mechanisms = logger.mechanisms ∧
      (logger.log message).1.procName = logger.procName ∧
      (logger.log message).1.written mechanism =
        logger.written mechanism ++
          if Sink.writes mechanism = true ∧ message.priority ≤ logger.mechanisms mechanism then
            [logger.line message] else [] := by
  have listed : Sink.writes mechanism = true → mechanism ∈ Mechanism.all.tail := by
    cases mechanism <;> decide
  unfold log at lives ⊢
  split at lives
  · rename_i some_
    rw [if_pos some_]
    obtain ⟨levels, procName, written⟩ := logLoop_spec mechanism (by decide) lives
    refine ⟨levels, procName, written.trans ?_⟩
    congr 2
    exact propext ⟨fun all => all.2, fun both => ⟨listed both.1, both⟩⟩
  · rename_i none_
    rw [if_neg none_]
    refine ⟨rfl, rfl, ?_⟩
    rw [if_neg, List.append_nil]
    rintro ⟨writes, high⟩
    refine none_ (List.any_eq_true.mpr ⟨mechanism, listed writes, ?_⟩)
    simpa using high

theorem Shows.setArgument (shows_ : Shows mechanism logger sink) (other : Mechanism)
    (argument : Bytes) : Shows mechanism (logger.setArgument other argument) sink := by
  unfold Logger.setArgument
  split
  · exact ⟨shows_.level, shows_.lines, shows_.procName⟩
  · split
    · exact ⟨shows_.level, shows_.lines, shows_.procName⟩
    · exact shows_

/-- An option sets the level of its mechanism, unless it names no priority and the mechanism
has a level. -/
theorem Shows.applyOption (shows_ : Shows mechanism logger sink) (option : LogOption) :
    Shows mechanism (logger.applyOption option)
      (if option.mechanism = mechanism then
        { sink with level := Sink.ofOption option.priorityName sink.level } else sink) := by
  have argued : Shows mechanism (option.argument.elim logger fun argument =>
      logger.setArgument option.mechanism argument) sink := by
    cases option.argument with
    | none => exact shows_
    | some argument => exact shows_.setArgument _ _
  unfold Logger.applyOption
  dsimp only
  generalize (option.argument.elim logger fun argument =>
    logger.setArgument option.mechanism argument) = logger' at argued
  cases option.priorityName with
  | some priorityName => exact argued.setLevel _ _
  | none =>
      dsimp only [Option.elim_none, Sink.ofOption]
      have info := argued.setLevel option.mechanism LOG_INFO
      by_cases same : option.mechanism = mechanism
      · rw [if_pos same] at info ⊢
        rw [same] at info ⊢
        rw [argued.level]
        cases known : sink.level with
        | none =>
            rw [if_pos (by simp [Sink.number, known, LOG_NONE])]
            exact info
        | some level =>
            rw [if_neg (by simp [Sink.number, known])]
            refine ⟨argued.level.trans ?_, argued.lines, argued.procName⟩
            simp [Sink.number, known]
      · rw [if_neg same] at info ⊢
        split
        · exact info
        · exact argued

theorem setOption_eq {optarg : Bytes} (lives : (logger.setOption optarg).2 = true) :
    44 ∉ cstr optarg ∧ (logger.setOption optarg).1 = logger.applyOption (readOption (cstr optarg)) := by
  unfold Logger.setOption at lives ⊢
  split at lives
  · cases lives
  · rename_i noComma
    rw [if_neg noComma]
    exact ⟨noComma, rfl⟩

/-- One call on the logger is one call on the sink of each mechanism. -/
theorem Shows.step {call : LogCall} (shows_ : Shows mechanism logger sink)
    (real : mechanism ≠ .null) (lives : (Logger.step call logger).2 = true) :
    Shows mechanism (Logger.step call logger).1 (sink.step mechanism call) := by
  have level := shows_.level
  have lines := shows_.lines
  have procName := shows_.procName
  cases call with
  | setProcName name => exact ⟨level, lines, rfl⟩
  | setLevel other priority => exact shows_.setLevel other priority
  | clearMechanism other =>
      change Shows mechanism (logger.clearMechanism other)
        (if other = mechanism then { sink with level := none } else sink)
      by_cases same : other = mechanism
      · subst same
        rw [if_pos rfl]
        exact ⟨Function.update_self _ _ _, lines, procName⟩
      · rw [if_neg same]
        exact ⟨(Function.update_of_ne (Ne.symm same) _ _).trans level, lines, procName⟩
  | increment =>
      refine ⟨?_, lines, procName⟩
      change (if mechanism ≠ .null ∧ 0 ≤ logger.mechanisms mechanism then
        logger.mechanisms mechanism + 1 else logger.mechanisms mechanism) = _
      rw [level]
      cases known : sink.level with
      | none => simp [Sink.number, Sink.step, known, LOG_NONE]
      | some level => simp [Sink.number, Sink.step, known, real]
  | decrement =>
      refine ⟨?_, lines, procName⟩
      change (if mechanism ≠ .null ∧ 0 ≤ logger.mechanisms mechanism then
        logger.mechanisms mechanism + -1 else logger.mechanisms mechanism) = _
      rw [level]
      cases known : sink.level with
      | none => simp [Sink.number, Sink.step, known, LOG_NONE]
      | some level =>
          by_cases zero : level = 0
          · simp [Sink.number, Sink.step, known, real, zero, LOG_NONE]
          · simp only [Sink.number, Sink.step, known, Option.elim_some, Option.bind_some,
              if_neg zero]
            rw [if_pos ⟨real, by omega⟩]
            omega
  | log message =>
      obtain ⟨levels, name, written⟩ := log_spec mechanism lives
      have text : logger.line message = Logger.line message { procName := sink.procName } :=
        line_congr message procName
      change Shows mechanism (logger.log message).1
        (if Sink.writes mechanism ∧ message.priority ≤ sink.number then
          { sink with lines := sink.lines ++
              [Logger.line message { procName := sink.procName }] } else sink)
      rw [level, text, lines] at written
      by_cases both : Sink.writes mechanism = true ∧ message.priority ≤ sink.number
      · rw [if_pos both] at written ⊢
        exact ⟨(congrFun levels mechanism).trans level, written, name.trans procName⟩
      · rw [if_neg both, List.append_nil] at written
        rw [if_neg both]
        exact ⟨(congrFun levels mechanism).trans level, written, name.trans procName⟩
  | setOption optarg =>
      have applied := shows_.applyOption (readOption (cstr optarg))
      rw [← (setOption_eq lives).2] at applied
      exact applied

theorem shows_run (real : mechanism ≠ .null) {calls : List LogCall}
    (shows_ : Shows mechanism logger sink)
    (lives : (Machine.run Logger.step calls logger).2 = true) :
    Shows mechanism (Machine.run Logger.step calls logger).1
      (calls.foldl (fun sink call => sink.step mechanism call) sink) := by
  induction calls generalizing logger sink with
  | nil => exact shows_
  | cons call calls ih =>
      cases alive : (Logger.step call logger).2 with
      | false =>
          rw [Machine.run_cons_of_hangs alive] at lives
          cases lives
      | true =>
          rw [Machine.run_cons_of_returns alive] at lives ⊢
          exact ih (shows_.step real alive) lives

/-- A `-v`. -/
def LogCall.raises : LogCall → Bool
  | .increment => true
  | _ => false

/-- No level is set above `LOG_DEBUG`. -/
theorem Sink.ofPriority_le {priority : Int} {level : Nat}
    (some_ : ofPriority priority = some level) : (level : Int) ≤ LOG_DEBUG := by
  unfold ofPriority at some_
  split at some_
  · obtain rfl := Option.some.inj some_
    omega
  · cases some_

/-- An option without a level leaves the one that there is. -/
theorem Sink.ofOption_le {bound : Int} (debug : LOG_DEBUG ≤ bound)
    {priorityName : Option Bytes} {level : Option Nat} {number : Nat}
    (known : ∀ before, level = some before → (before : Int) ≤ bound)
    (some_ : ofOption priorityName level = some number) : (number : Int) ≤ bound := by
  unfold ofOption at some_
  cases priorityName with
  | some priorityName => exact Int.le_trans (ofPriority_le some_) debug
  | none =>
      rw [Option.elim_none] at some_
      split_ifs at some_
      · obtain rfl := Option.some.inj some_
        exact Int.le_trans (by decide) debug
      · exact known number some_

/-- A level grows by one at a time, and is set to `LOG_DEBUG` at most. -/
theorem Sink.number_step_le {bound : Int} (debug : LOG_DEBUG ≤ bound) (low : sink.number ≤ bound)
    (call : LogCall) :
    (sink.step mechanism call).number ≤ bound + if call.raises then 1 else 0 := by
  have off : LOG_NONE ≤ bound := by
    unfold LOG_NONE LOG_DEBUG at *
    omega
  have set {level : Option Nat} (small : ∀ number, level = some number → (number : Int) ≤ bound) :
      (Sink.number { sink with level }) ≤ bound := by
    cases level with
    | none => exact off
    | some number => exact small number rfl
  have known (number : Nat) (level : sink.level = some number) : (number : Int) ≤ bound := by
    unfold Sink.number at low
    rw [level] at low
    exact low
  have still {call : LogCall} (calm : call.raises = false)
      (same : (sink.step mechanism call).number ≤ bound) :
      (sink.step mechanism call).number ≤ bound + if call.raises then 1 else 0 := by
    rw [calm, if_neg Bool.false_ne_true]
    omega
  cases call with
  | increment =>
      change (Sink.number { sink with level := sink.level.map (· + 1) }) ≤ bound + 1
      cases level : sink.level with
      | none =>
          change LOG_NONE ≤ bound + 1
          omega
      | some number =>
          have small := known number level
          change ((number + 1 : Nat) : Int) ≤ bound + 1
          omega
  | setProcName name => exact still rfl (set known)
  | clearMechanism other =>
      refine still rfl ?_
      unfold Sink.step
      dsimp only
      split_ifs
      · exact off
      · exact low
  | setLevel other priority =>
      refine still rfl ?_
      unfold Sink.step
      dsimp only
      split_ifs
      · exact set fun number some_ => Int.le_trans (ofPriority_le some_) debug
      · exact low
  | setOption optarg =>
      refine still rfl ?_
      unfold Sink.step
      dsimp only
      split_ifs
      · exact set fun number some_ => ofOption_le debug known some_
      · exact low
  | decrement =>
      refine still rfl ?_
      refine set fun number some_ => ?_
      cases level : sink.level with
      | none =>
          rw [level] at some_
          cases some_
      | some before =>
          have small := known before level
          rw [level, Option.bind_some] at some_
          split_ifs at some_
          obtain rfl := Option.some.inj some_
          omega
  | log message =>
      refine still rfl ?_
      unfold Sink.step
      dsimp only
      split_ifs
      · exact low
      · exact low

theorem Sink.number_foldl_le {bound : Int} (debug : LOG_DEBUG ≤ bound) (low : sink.number ≤ bound)
    (calls : List LogCall) :
    (calls.foldl (fun sink call => sink.step mechanism call) sink).number ≤
      bound + calls.countP LogCall.raises := by
  induction calls generalizing sink bound with
  | nil => simpa using low
  | cons call calls ih =>
      have next := @number_step_le mechanism sink bound debug low call
      have later := @ih _ (bound + if call.raises then 1 else 0) (by split_ifs <;> omega) next
      rw [List.foldl_cons, List.countP_cons]
      cases raises : call.raises with
      | true =>
          rw [raises, if_pos rfl] at later
          rw [if_pos rfl]
          omega
      | false =>
          rw [raises, if_neg Bool.false_ne_true] at later
          rw [if_neg Bool.false_ne_true]
          omega

/-- **One sink on its own.** In every run in which the process lives, each mechanism has the
level and has got the lines of a sink that knows nothing of the others: what one sink gets
does not depend on the levels of the others. A level exceeds `LOG_DEBUG` and the level before
the run by the number of `-v` at most, so that it is an `int` for less than 2^31 - 8 of them.
The mechanism `null` is left out: no loop reaches it. -/
theorem run_shows (real : mechanism ≠ .null) {calls : List LogCall}
    (shows_ : Shows mechanism logger sink)
    (lives : (Machine.run Logger.step calls logger).2 = true) :
    Shows mechanism (Machine.run Logger.step calls logger).1
        (calls.foldl (fun sink call => sink.step mechanism call) sink) ∧
      (Machine.run Logger.step calls logger).1.mechanisms mechanism ≤
        max LOG_DEBUG (logger.mechanisms mechanism) + calls.countP LogCall.raises := by
  have same := shows_run real shows_ lives
  refine ⟨same, ?_⟩
  rw [same.level, shows_.level]
  exact Sink.number_foldl_le (Int.le_max_left _ _) (Int.le_max_right _ _) calls

/-- Standard error at level 5 gets the first message and not the second. -/
theorem run_shows_stderr :
    Shows .stderr
      (Machine.run Logger.step
        [.log { priority := 5, time := [], text := ascii "a" }, .decrement,
          .log { priority := 5, time := [], text := ascii "b" }] {}).1
      ([LogCall.log { priority := 5, time := [], text := ascii "a" }, .decrement,
          .log { priority := 5, time := [], text := ascii "b" }].foldl
        (fun sink call => sink.step .stderr call) ⟨some 5, [], []⟩) :=
  (run_shows (by decide) ⟨rfl, rfl, rfl⟩ (by decide +kernel)).1

/-! ## Verbosity -/

/-- By how much a call moves the levels. -/
def LogCall.move : LogCall → Int
  | .increment => 1
  | .decrement => -1
  | _ => 0

/-- By how much calls move the levels together. -/
def total : List LogCall → Int
  | [] => 0
  | call :: calls => call.move + total calls

theorem total_le (calls : List LogCall) : total calls ≤ calls.countP LogCall.raises := by
  induction calls with
  | nil => exact Int.le_refl _
  | cons call calls ih =>
      have one : call.move ≤ if call.raises then 1 else 0 := by
        cases call <;> simp [LogCall.move, LogCall.raises]
      rw [total, List.countP_cons]
      cases raises : call.raises with
      | true =>
          rw [raises, if_pos rfl] at one
          rw [if_pos rfl]
          omega
      | false =>
          rw [raises, if_neg Bool.false_ne_true] at one
          rw [if_neg Bool.false_ne_true]
          omega

/-- The calls of a command line with `-v` and `-q`, and messages. -/
def LogCall.Moves : LogCall → Prop
  | .increment | .decrement | .log _ | .setProcName _ => True
  | _ => False

theorem level_step {call : LogCall} (moves : call.Moves) {level : Nat}
    (known : sink.level = some level) :
    (sink.step mechanism call).level =
      if 0 ≤ level + call.move then some (level + call.move).toNat else none := by
  have stays (same : (sink.step mechanism call).level = sink.level) (still : call.move = 0) :
      (sink.step mechanism call).level =
        if 0 ≤ level + call.move then some (level + call.move).toNat else none := by
    rw [same, known, still, if_pos (by omega), Int.add_zero, Int.toNat_natCast]
  cases call with
  | increment =>
      change sink.level.map (· + 1) = if 0 ≤ (level : Int) + 1 then some (level + 1 : Int).toNat else none
      rw [known, if_pos (by omega)]
      rfl
  | decrement =>
      change (sink.level.bind fun level => if level = 0 then none else some (level - 1)) =
        if 0 ≤ (level : Int) + -1 then some (level + -1 : Int).toNat else none
      rw [known, Option.bind_some]
      by_cases zero : level = 0
      · rw [if_pos zero, if_neg (by omega)]
      · have less : (level + -1 : Int).toNat = level - 1 := by omega
        rw [if_neg zero, if_pos (by omega), less]
  | log message =>
      refine stays ?_ rfl
      unfold Sink.step
      dsimp only
      split <;> rfl
  | setProcName name => exact stays rfl rfl
  | setLevel | setOption | clearMechanism => cases moves

theorem level_step_none {call : LogCall} (moves : call.Moves) (off : sink.level = none) :
    (sink.step mechanism call).level = none := by
  cases call with
  | increment | decrement => simp [Sink.step, off]
  | log message =>
      unfold Sink.step
      dsimp only
      split <;> exact off
  | setProcName name => exact off
  | setLevel | setOption | clearMechanism => cases moves

/-- A level that is off stays off. -/
theorem level_foldl_none {calls : List LogCall} (moves : ∀ call ∈ calls, call.Moves)
    (off : sink.level = none) :
    (calls.foldl (fun sink call => sink.step mechanism call) sink).level = none := by
  induction calls generalizing sink with
  | nil => exact off
  | cons call calls ih =>
      obtain ⟨first, others⟩ := List.forall_mem_cons.mp moves
      exact ih others (level_step_none first off)

/-- The level is the sum of all moves, unless it has fallen below zero on the way. -/
theorem level_foldl {calls : List LogCall} (moves : ∀ call ∈ calls, call.Moves) {level : Nat}
    (known : sink.level = some level) :
    (calls.foldl (fun sink call => sink.step mechanism call) sink).level =
      if ∀ count ≤ calls.length, 0 ≤ level + total (calls.take count) then
        some (level + total calls).toNat
      else none := by
  induction calls generalizing sink level with
  | nil =>
      have stays : ∀ count ≤ ([] : List LogCall).length,
          0 ≤ (level : Int) + total (([] : List LogCall).take count) := by
        intro count _
        rw [List.take_nil, total]
        omega
      rw [if_pos stays, List.foldl_nil, known, total, Int.add_zero, Int.toNat_natCast]
  | cons call calls ih =>
      obtain ⟨first, others⟩ := List.forall_mem_cons.mp moves
      have next := @level_step mechanism sink call first level known
      rw [List.foldl_cons]
      by_cases above : 0 ≤ level + call.move
      · rw [if_pos above] at next
        have moved : ((level + call.move).toNat : Int) = level + call.move :=
          Int.toNat_of_nonneg above
        have prefixes : (∀ count ≤ calls.length, 0 ≤ ((level + call.move).toNat : Int) +
            total (calls.take count)) ↔
            ∀ count ≤ (call :: calls).length,
              0 ≤ level + total ((call :: calls).take count) := by
          rw [moved]
          constructor
          · intro later count within
            cases count with
            | zero =>
                rw [List.take_zero, total]
                omega
            | succ count =>
                have sum := later count (Nat.le_of_succ_le_succ within)
                rw [List.take_succ_cons, total]
                omega
          · intro all count within
            have sum := all (count + 1) (Nat.succ_le_succ within)
            rw [List.take_succ_cons, total] at sum
            omega
        rw [ih others next, if_congr prefixes rfl rfl, moved, total, Int.add_assoc]
      · rw [if_neg above] at next
        have falls : ¬ ∀ count ≤ (call :: calls).length,
            0 ≤ level + total ((call :: calls).take count) := by
          intro all
          have sum := all 1 (Nat.succ_le_succ (Nat.zero_le _))
          rw [List.take_succ_cons, List.take_zero, total, total, Int.add_zero] at sum
          exact above sum
        rw [if_neg falls, level_foldl_none others next]

/-- **Verbosity.** After any `-v`, `-q` and messages the level of a mechanism is the one it
started from with all of them counted, unless it was below zero on the way: then it is off,
however many `-v` have followed. It is an `int` as long as that level and the number of `-v`
do not make 2^31 together. -/
theorem run_verbosity (real : mechanism ≠ .null) {level : Nat}
    (start : logger.mechanisms mechanism = level) {calls : List LogCall}
    (moves : ∀ call ∈ calls, call.Moves)
    (lives : (Machine.run Logger.step calls logger).2 = true) :
    (Machine.run Logger.step calls logger).1.mechanisms mechanism =
        (if ∀ count ≤ calls.length, 0 ≤ level + total (calls.take count) then
          level + total calls
        else LOG_NONE) ∧
      (Machine.run Logger.step calls logger).1.mechanisms mechanism ≤
        level + calls.countP LogCall.raises := by
  have shows_ : Shows mechanism logger ⟨some level, logger.written mechanism, logger.procName⟩ :=
    ⟨start, rfl, rfl⟩
  have moved : (Machine.run Logger.step calls logger).1.mechanisms mechanism =
      if ∀ count ≤ calls.length, 0 ≤ level + total (calls.take count) then
        level + total calls
      else LOG_NONE := by
    rw [(shows_run real shows_ lives).level, Sink.number, level_foldl moves rfl]
    split
    · rename_i above
      have total := above calls.length (le_refl _)
      rw [List.take_length] at total
      exact Int.toNat_of_nonneg total
    · rfl
  refine ⟨moved, ?_⟩
  have raised := total_le calls
  rw [moved]
  unfold LOG_NONE
  split_ifs <;> omega

/-- Six `-q` turn standard error off, and six `-v` behind them do not help. -/
theorem run_verbosity_off :
    (Machine.run Logger.step (List.replicate 6 .decrement ++ List.replicate 6 .increment)
      {}).1.mechanisms .stderr = LOG_NONE := by
  have level := @run_verbosity .stderr {} (by decide) 5 rfl
    (List.replicate 6 .decrement ++ List.replicate 6 .increment)
    (by simp [LogCall.Moves]) (by decide +kernel)
  rw [level.1, if_neg]
  intro all
  exact absurd (all 6 (by decide)) (by decide +kernel)

/-! ## Options -/

/-- The text that an option has in the documentation: `file=/etc/messages:notice`. -/
def optionText (mechanism : Mechanism) (path : Bytes) (priority : Int) : Bytes :=
  mechanism.name ++ 61 :: (path ++ 58 :: getLogPriorityName priority)

/-- The path that a mechanism has been given. -/
def path (mechanism : Mechanism) (logger : Logger) : Bytes :=
  if mechanism = .script then logger.scriptPath else logger.logFilePath

theorem getLogPriority_name : ∀ level : Fin 8,
    getLogPriority (getLogPriorityName level.val) = level.val ∧
      (∀ c ∈ getLogPriorityName level.val, c ≠ 0 ∧ c ≠ 44) := by
  decide +kernel

theorem getLogMechanismType_name : ∀ mechanism ∈ Mechanism.all,
    getLogMechanismType mechanism.name = mechanism ∧
      ∀ c ∈ mechanism.name, c ≠ 0 ∧ c ≠ 44 ∧ c ≠ 58 ∧ c ≠ 61 := by
  decide +kernel

theorem splitAt_of_apart {separator : UInt8} {front : Bytes} (apart : ∀ c ∈ front, c ≠ separator)
    (behind : Bytes) : splitAt separator (front ++ separator :: behind) = (front, some behind) := by
  have all : ∀ c ∈ front, (c != separator) = true := fun c member => by simpa using apart c member
  unfold splitAt
  rw [if_pos (by simp), List.takeWhile_append_of_pos all, List.dropWhile_append_of_pos all,
    List.takeWhile_cons_of_neg (by simp), List.dropWhile_cons_of_neg (by simp), List.append_nil,
    List.tail_cons]

/-- The path of an option is kept, whatever the level. -/
theorem path_applyOption {mechanism : Mechanism}
    (takes : mechanism = .file ∨ mechanism = .script) {option : LogOption} {argument : Bytes}
    (type : option.mechanism = mechanism) (given : option.argument = some argument) :
    (logger.applyOption option).path mechanism = argument := by
  have kept (logger : Logger) (priority : Int) :
      (logger.setLevel option.mechanism priority).path mechanism = logger.path mechanism := rfl
  have set : (logger.setArgument option.mechanism argument).path mechanism = argument := by
    rcases takes with file | script
    · rw [type, file]
      rfl
    · rw [type, script]
      rfl
  unfold applyOption
  rw [given, Option.elim_some]
  cases option.priorityName with
  | some priorityName => exact (kept _ _).trans set
  | none =>
      dsimp only [Option.elim_none]
      split
      · exact (kept _ _).trans set
      · exact set

theorem mechanisms_applyOption {mechanism : Mechanism} {option : LogOption}
    {priorityName : Bytes} {level : Fin 8} (type : option.mechanism = mechanism)
    (given : option.priorityName = some priorityName)
    (priority : getLogPriority priorityName = level.val) :
    (logger.applyOption option).mechanisms mechanism = level.val := by
  have inside : 0 ≤ (level.val : Int) ∧ (level.val : Int) ≤ LOG_DEBUG := by
    have bound := level.isLt
    exact ⟨by omega, by rw [LOG_DEBUG]; omega⟩
  unfold applyOption
  rw [given, Option.elim_some, priority, type, setLevel, if_pos inside]
  exact Function.update_self _ _ _

section OptionText

variable {mechanism : Mechanism} {level : Fin 8} {name : Bytes}

theorem plain_name (mechanism : Mechanism) :
    ∀ c ∈ mechanism.name, c ≠ 0 ∧ c ≠ 44 ∧ c ≠ 58 ∧ c ≠ 61 :=
  (getLogMechanismType_name mechanism (by cases mechanism <;> decide)).2

theorem cstr_optionText (noNul : (0 : UInt8) ∉ name) :
    cstr (optionText mechanism name level.val) = optionText mechanism name level.val := by
  apply cstr_eq_self
  simp only [optionText, List.mem_append, List.mem_cons, not_or]
  exact ⟨fun member => (plain_name mechanism 0 member).1 rfl, by decide, noNul, by decide,
    fun member => ((getLogPriority_name level).2 0 member).1 rfl⟩

theorem comma_mem_optionText : 44 ∈ optionText mechanism name level.val ↔ 44 ∈ name := by
  simp only [optionText, List.mem_append, List.mem_cons]
  constructor
  · rintro (member | impossible | member | impossible | member)
    · exact absurd rfl (plain_name mechanism 44 member).2.1
    · exact absurd impossible (by decide)
    · exact member
    · exact absurd impossible (by decide)
    · exact absurd rfl ((getLogPriority_name level).2 44 member).2
  · exact fun member => Or.inr (Or.inr (Or.inl member))

/-- What stands in front of the first colon. -/
theorem splitAt_optionText : (splitAt 58 (optionText mechanism name level.val)).1 =
    mechanism.name ++ 61 :: name.takeWhile (· != 58) := by
  have all : ∀ c ∈ mechanism.name ++ [61], (c != 58) = true := by
    intro c member
    rcases List.mem_append.mp member with inside | inside
    · simpa using (plain_name mechanism c inside).2.2.1
    · rw [List.mem_singleton.mp inside]
      decide
  have shape : optionText mechanism name level.val =
      (mechanism.name ++ [61]) ++ (name ++ 58 :: getLogPriorityName level.val) := by
    simp [optionText]
  have ends : (58 :: getLogPriorityName level.val).takeWhile (· != 58) = [] := by simp
  change (optionText mechanism name level.val).takeWhile (· != 58) = _
  rw [shape, List.takeWhile_append_of_pos all, List.takeWhile_append]
  split
  · rename_i full
    rw [ends, List.append_nil, List.takeWhile_eq_self_iff.mpr (List.takeWhile_eq_self_iff.mp
      ((List.takeWhile_prefix _).eq_of_length full))]
    simp
  · simp

theorem readOption_optionText :
    (readOption (optionText mechanism name level.val)).mechanism = mechanism ∧
      (readOption (optionText mechanism name level.val)).argument =
        some (name.takeWhile (· != 58)) := by
  have type := (getLogMechanismType_name mechanism (by cases mechanism <;> decide)).1
  have split := splitAt_of_apart (fun c member => (plain_name mechanism c member).2.2.2)
    (name.takeWhile (· != 58))
  unfold readOption
  rw [splitAt_optionText, split]
  exact ⟨type, rfl⟩

theorem priorityName_optionText (noColon : 58 ∉ name) :
    (readOption (optionText mechanism name level.val)).priorityName =
      some (getLogPriorityName level.val) := by
  have apart : ∀ c ∈ mechanism.name ++ 61 :: name, c ≠ 58 := by
    intro c member colon
    subst colon
    simp only [List.mem_append, List.mem_cons] at member
    rcases member with inside | impossible | inside
    · exact (plain_name mechanism 58 inside).2.2.1 rfl
    · exact absurd impossible (by decide)
    · exact noColon inside
  have shape : optionText mechanism name level.val =
      (mechanism.name ++ 61 :: name) ++ 58 :: getLogPriorityName level.val := by
    simp [optionText]
  rw [readOption, shape, splitAt_of_apart apart]

/-- Without a comma the option is applied as it stands. -/
theorem setOption_optionText (noNul : (0 : UInt8) ∉ name) (noComma : 44 ∉ name)
    (logger : Logger) :
    logger.setOption (optionText mechanism name level.val) =
      (logger.applyOption (readOption (optionText mechanism name level.val)), true) := by
  rw [setOption, cstr_optionText noNul, if_neg (by rwa [comma_mem_optionText])]

/-- The path is cut at its first colon. -/
theorem path_setOption (takes : mechanism = .file ∨ mechanism = .script)
    (noNul : (0 : UInt8) ∉ name) (noComma : 44 ∉ name) (logger : Logger) :
    (logger.setOption (optionText mechanism name level.val)).1.path mechanism =
      name.takeWhile (· != 58) := by
  rw [setOption_optionText noNul noComma]
  exact path_applyOption takes readOption_optionText.1 readOption_optionText.2

end OptionText

/-- **Options.** An option that names a file, written with the names of its mechanism and its
level, is read back exactly when the path has neither a comma, which ends the process, nor a
colon, behind which the rest of the path counts as the name of the level. -/
theorem setOption_readsBack_iff {mechanism : Mechanism}
    (takes : mechanism = .file ∨ mechanism = .script) (level : Fin 8) {name : Bytes}
    (noNul : (0 : UInt8) ∉ name) (logger : Logger) :
    ((logger.setOption (optionText mechanism name level.val)).2 = true ∧
        (logger.setOption (optionText mechanism name level.val)).1.mechanisms mechanism =
          level.val ∧
        (logger.setOption (optionText mechanism name level.val)).1.path mechanism = name) ↔
      44 ∉ name ∧ 58 ∉ name := by
  constructor
  · rintro ⟨lives, -, same⟩
    have noComma : 44 ∉ name := by
      have alive := (setOption_eq lives).1
      rwa [cstr_optionText noNul, comma_mem_optionText] at alive
    refine ⟨noComma, fun colon => ?_⟩
    rw [path_setOption takes noNul noComma] at same
    have all := List.takeWhile_eq_self_iff.mp same 58 colon
    exact absurd all (by decide)
  · rintro ⟨noComma, noColon⟩
    have live := @setOption_optionText mechanism level name noNul noComma logger
    refine ⟨congrArg Prod.snd live, ?_, ?_⟩
    · rw [live]
      exact mechanisms_applyOption readOption_optionText.1 (priorityName_optionText noColon)
        (getLogPriority_name level).1
    · rw [path_setOption takes noNul noComma]
      exact List.takeWhile_eq_self_iff.mpr fun c member => by
        simpa using fun colon : c = 58 => noColon (colon ▸ member)

/-- A path without a colon is read back. With one the log goes to the part in front of it, at
level `info`. -/
theorem setOption_readsBack_colon :
    (((setOption (optionText .file (ascii "/etc/messages") 5) {}).2 = true) ∧
      (setOption (optionText .file (ascii "/etc/messages") 5) {}).1.mechanisms .file = 5 ∧
      (setOption (optionText .file (ascii "/etc/messages") 5) {}).1.path .file =
        ascii "/etc/messages") ∧
    ¬ (((setOption (optionText .file (ascii "C:log") 5) {}).2 = true) ∧
      (setOption (optionText .file (ascii "C:log") 5) {}).1.mechanisms .file = 5 ∧
      (setOption (optionText .file (ascii "C:log") 5) {}).1.path .file = ascii "C:log") := by
  refine ⟨(@setOption_readsBack_iff .file (Or.inl rfl) 5 (ascii "/etc/messages")
    (by decide +kernel) {}).mpr ⟨by decide +kernel, by decide +kernel⟩, ?_⟩
  have exactly := @setOption_readsBack_iff .file (Or.inl rfl) 5 (ascii "C:log")
    (by decide +kernel) {}
  intro reads
  exact (exactly.mp reads).2 (by decide +kernel)

end Logger

end IpUtils
