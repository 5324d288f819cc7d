import IpUtils.HTTP.FieldNames

/-! # One field from one line

`ParseMsgHdr` walks to the next delimiter, wherever it is, and skips white space of any kind. The
field ends with its line if and only if every scan finds in the line what it looks for.
-/

namespace IpUtils

open CLib Scanner

/-! ## Scans over a text and what stands behind it -/

section Scans

variable {test : UInt8 → Bool} {text rest : Bytes}

/-- A scan that stops in the text does not look behind it. -/
theorem scan_stops_inside (stops : text.dropWhile test ≠ []) :
    (text ++ rest).takeWhile test = text.takeWhile test ∧
      (text ++ rest).dropWhile test = text.dropWhile test ++ rest := by
  have some_ : (text.dropWhile test).isEmpty = false := List.isEmpty_eq_false_iff.mpr stops
  have shorter : ¬(text.takeWhile test).length = text.length := by
    intro all
    have parts := congrArg List.length (List.takeWhile_append_dropWhile (p := test) (l := text))
    have positive : 0 < (text.dropWhile test).length := List.length_pos_iff.mpr stops
    rw [List.length_append] at parts
    omega
  exact ⟨by rw [List.takeWhile_append, if_neg shorter], by rw [List.dropWhile_append, some_]; rfl⟩

/-- A scan that does not stop in the text goes on behind it. -/
theorem scan_runs_on (passes : text.dropWhile test = []) :
    (text ++ rest).dropWhile test = rest.dropWhile test := by
  rw [List.dropWhile_append, passes]
  rfl

/-- A scan that stops at the byte behind the text. -/
theorem scan_stops_behind {c : UInt8} (fails : test c = false) :
    (text ++ c :: rest).takeWhile test = text.takeWhile test ∧
      (text ++ c :: rest).dropWhile test = text.dropWhile test ++ c :: rest := by
  by_cases stops : text.dropWhile test = []
  · have all := List.dropWhile_eq_nil_iff.mp stops
    obtain ⟨taken, dropped⟩ := takeWhile_of_delimited all fails rest
    rw [taken, dropped, stops, (takeWhile_of_all all).1]
    exact ⟨rfl, rfl⟩
  · exact scan_stops_inside stops

end Scans

/-! ## Steps with something behind them -/

section Runs

variable {ω : Type} {test : UInt8 → Bool} {window : Bytes}

/-- A token of any length in front of something. -/
theorem token_run {capacity : Nat} (left : window.dropWhile test ≠ []) (exec : Exec ω) :
    ∃ overrun, Parse.token capacity test window exec =
      (some (cstr (window.takeWhile test), window.dropWhile test), { exec with overrun }) := by
  have some_ : (window.dropWhile test).isEmpty = false := List.isEmpty_eq_false_iff.mpr left
  refine ⟨exec.overrun || capacity < (window.takeWhile test).length ||
    capacity ≤ (window.takeWhile test).length, ?_⟩
  simp only [Parse.token, Parse.copyWhile, Parse.terminate, bind_apply, Scanner.takeWhile,
    Scanner.update, Scanner.pure_apply, Scanner.need, some_, Bool.false_eq_true, if_false]

theorem step_run (left : window.tail ≠ []) (exec : Exec ω) :
    Scanner.step window exec = (some ((), window.tail), exec) := by
  have some_ : window.tail.isEmpty = false := List.isEmpty_eq_false_iff.mpr left
  simp only [Scanner.step, Scanner.advance, bind_apply, Scanner.need, some_, Bool.false_eq_true,
    if_false]

theorem skip_run (left : window.dropWhile test ≠ []) (exec : Exec ω) :
    Scanner.skip test window exec = (some ((), window.dropWhile test), exec) := by
  have some_ : (window.dropWhile test).isEmpty = false := List.isEmpty_eq_false_iff.mpr left
  simp only [Scanner.skip, Scanner.skipWhile, bind_apply, Scanner.need, some_, Bool.false_eq_true,
    if_false]

end Runs

namespace HTTPFraming

/-! ## The walk over a line -/

theorem behindParameter_eq (text : Bytes) :
    behindParameter text = ((valueAt text).dropWhile isValueByte).dropWhile isBlank := rfl

theorem length_behindParameter {text : Bytes} (inhabited : text ≠ []) :
    (behindParameter text).length < text.length := by
  have suffix : behindParameter text <:+ text.tail := by
    refine (List.dropWhile_suffix _).trans ?_
    refine (List.dropWhile_suffix _).trans ?_
    refine (List.dropWhile_suffix _).trans ?_
    refine (List.tail_suffix _).trans ?_
    exact (List.dropWhile_suffix _).trans (List.dropWhile_suffix _)
  have inner := suffix.length_le
  have positive := List.length_pos_iff.mpr inhabited
  rw [List.length_tail] at inner
  omega

/-- Every parameter has a `=` and a value in the text, up to a carriage return. -/
def parametersStay (text : Bytes) : Bool :=
  if _ : text = [] then true
  else if atLineEnd text then true
  else if (valueAt text).isEmpty then false
  else parametersStay (behindParameter text)
termination_by text.length
decreasing_by exact length_behindParameter ‹_›

/-- The line is refused at its first byte, or it has a colon, a value behind the colon, and a `=`
and a value behind every semicolon. -/
def staysInLine (line : Bytes) : Bool :=
  isspace (line.headD 13) ||
    (!(fieldValueAt line).isEmpty &&
      parametersStay ((fieldValueAt line).dropWhile isValueByte))

/-! ## Parameters with something behind them -/

variable {window rest : Bytes} {exec exec' : Exec HTTPFraming}

theorem ne_nil_of_dropWhile {test : UInt8 → Bool} {text : Bytes} (left : text.dropWhile test ≠ []) :
    text ≠ [] :=
  fun empty => left (by rw [empty]; rfl)

theorem ne_nil_of_tail {text : Bytes} (left : text.tail ≠ []) : text ≠ [] :=
  fun empty => left (by rw [empty]; rfl)

/-- A parameter with something behind it is read. -/
theorem parseParameter_run (left : behindParameter window ≠ [])
    (parameters : List Rfc822Parameter) (exec : Exec HTTPFraming) :
    ∃ overrun, parseParameter parameters window exec =
      (some (parameters ++ [parameterAt window], behindParameter window), { exec with overrun }) := by
  have behindValue := ne_nil_of_dropWhile left
  have value := ne_nil_of_dropWhile behindValue
  have behindEquals := ne_nil_of_dropWhile value
  have equals := ne_nil_of_tail behindEquals
  have key := ne_nil_of_dropWhile equals
  have semicolon := ne_nil_of_dropWhile key
  obtain ⟨first, keyRead⟩ := token_run equals exec
  obtain ⟨second, valueRead⟩ := token_run behindValue { exec with overrun := first }
  refine ⟨second, ?_⟩
  rw [parseParameter, bind_of_some (step_run semicolon exec), bind_of_some (skip_run key exec),
    bind_of_some keyRead, bind_of_some (step_run behindEquals _),
    bind_of_some (skip_run value _), bind_of_some valueRead, bind_of_some (skip_run left _)]
  rfl

/-! ## Lines that the walk stays in -/

/-- The strings of a field stand in the line. -/
structure MadeOf (line : Bytes) (msgHdr : Rfc822MsgHdr) : Prop where
  fieldName : msgHdr.fieldName <:+: line
  fieldValue : msgHdr.fieldValue <:+: line
  parameters : ∀ param ∈ msgHdr.parameters, param.key <:+: line ∧ param.value <:+: line

/-- The field is read from the line and its end alone, or nothing is read. -/
def OneLine (line rest : Bytes) (exec : Exec HTTPFraming) : Prop :=
  match parseMsgHdr (line ++ 13 :: 10 :: rest) exec with
  | (some (_, left), exec') => left = rest ∧ ∃ msgHdr, MadeOf line msgHdr ∧
      exec'.obj = { exec.obj with msgHdrs := exec.obj.msgHdrs ++ [msgHdr] }
  | (none, exec') => exec'.obj.msgHdrs = exec.obj.msgHdrs

/-- A field that is read from its line leaves the bytes behind it. -/
theorem OneLine.left_eq {line left : Bytes} {value : Unit} (one : OneLine line rest exec)
    (read : (parseMsgHdr (line ++ 13 :: 10 :: rest) exec).1 = some (value, left)) : left = rest := by
  unfold OneLine at one
  rcases ran : parseMsgHdr (line ++ 13 :: 10 :: rest) exec with ⟨none_ | ⟨value, taken⟩, exec'⟩
  · rw [ran] at read
    cases read
  · rw [ran] at one read
    cases read
    exact one.1

theorem cstr_takeWhile_inside {test : UInt8 → Bool} {text line : Bytes} (suffix : text <:+ line) :
    cstr (text.takeWhile test) <:+: line :=
  ((List.takeWhile_prefix _).trans (List.takeWhile_prefix test)).isInfix.trans suffix.isInfix

variable {text line : Bytes}

theorem keyAt_suffix (text : Bytes) : keyAt text <:+ text :=
  (List.dropWhile_suffix _).trans (List.tail_suffix _)

theorem valueAt_suffix (text : Bytes) : valueAt text <:+ text :=
  (List.dropWhile_suffix _).trans ((List.tail_suffix _).trans
    ((List.dropWhile_suffix _).trans (keyAt_suffix text)))

theorem behindParameter_suffix (text : Bytes) : behindParameter text <:+ text :=
  (List.dropWhile_suffix _).trans ((List.dropWhile_suffix _).trans (valueAt_suffix text))

theorem tail_append_of_ne_nil {text : Bytes} (inhabited : text ≠ []) (rest : Bytes) :
    (text ++ rest).tail = text.tail ++ rest :=
  List.tail_append_of_ne_nil inhabited

/-- A parameter that stays in its line is read from it. -/
theorem parameter_inside (stays : valueAt text ≠ []) (rest : Bytes) :
    parameterAt (text ++ 13 :: rest) = parameterAt text ∧
      behindParameter (text ++ 13 :: rest) = behindParameter text ++ 13 :: rest := by
  have behindEquals := ne_nil_of_dropWhile stays
  have equals := ne_nil_of_tail behindEquals
  have key := ne_nil_of_dropWhile equals
  have semicolon := ne_nil_of_tail (ne_nil_of_dropWhile key)
  have keySame : keyAt (text ++ 13 :: rest) = keyAt text ++ 13 :: rest := by
    rw [keyAt, tail_append_of_ne_nil semicolon, (scan_stops_inside key).2]
    rfl
  have valueSame : valueAt (text ++ 13 :: rest) = valueAt text ++ 13 :: rest := by
    rw [valueAt, keySame, (scan_stops_inside equals).2, tail_append_of_ne_nil equals,
      (scan_stops_inside stays).2]
    rfl
  refine ⟨?_, ?_⟩
  · rw [parameterAt, keySame, valueSame, (scan_stops_inside equals).1,
      (scan_stops_behind (by decide)).1]
    rfl
  · rw [behindParameter_eq, valueSame, (scan_stops_behind (by decide)).2,
      (scan_stops_behind (by decide)).2]
    rfl

/-- The loop over the parameters ends at a carriage return in the text or behind it. -/
theorem parameters_inside (stays : parametersStay text = true) (suffix : text <:+ line)
    {parameters parameters' : List Rfc822Parameter}
    (ran : Scanner.loop atLineEnd parseParameter parameters (text ++ 13 :: rest) exec =
      (some (parameters', window), exec')) :
    (∃ behind, window = behind ++ 13 :: rest ∧ behind <:+ line ∧ atLineEnd (behind ++ 13 :: rest)) ∧
      exec'.obj = exec.obj ∧
      ∀ param ∈ parameters', param ∈ parameters ∨ param.key <:+: line ∧ param.value <:+: line := by
  induction size : text.length using Nat.strongRecOn generalizing text parameters exec with
  | ind size ih =>
      rw [loop_apply] at ran
      split at ran
      · rename_i ended
        cases ran
        exact ⟨⟨text, rfl, suffix, ended⟩, rfl, fun param member => .inl member⟩
      · rename_i goesOn
        rw [parametersStay] at stays
        have inhabited : text ≠ [] := by
          rintro rfl
          exact goesOn rfl
        have notEnded : ¬atLineEnd text = true := by
          obtain ⟨c, more, rfl⟩ := List.exists_cons_of_ne_nil inhabited
          exact goesOn
        rw [dif_neg inhabited, if_neg notEnded] at stays
        split at stays
        · cases stays
        · rename_i value
          have value : valueAt text ≠ [] := by simpa using value
          obtain ⟨same, behindSame⟩ := parameter_inside value rest
          rcases round : parseParameter parameters (text ++ 13 :: rest) exec with
            ⟨none_ | ⟨between, left⟩, exec₁⟩
          · rw [round] at ran
            cases ran
          · rw [round] at ran
            obtain ⟨rfl, rfl, unchanged⟩ := parseParameter_eq_some round
            rw [same, behindSame] at ran
            dsimp only at ran
            split at ran
            · obtain ⟨place, after, params⟩ := ih _ (size ▸ length_behindParameter inhabited) stays
                ((behindParameter_suffix text).trans suffix) ran rfl
              refine ⟨place, after.trans unchanged, fun param member => ?_⟩
              rcases params param member with before | inside
              · rcases List.mem_append.mp before with before | here
                · exact .inl before
                · rw [List.mem_singleton] at here
                  subst here
                  exact .inr ⟨cstr_takeWhile_inside ((keyAt_suffix text).trans suffix),
                    cstr_takeWhile_inside ((valueAt_suffix text).trans suffix)⟩
              · exact .inr inside
            · cases ran

/-! ## A field of a line -/

/-- When nothing is read, nothing is stored. -/
theorem stops_parseMsgHdr (obj : HTTPFraming) :
    StopsIn (fun exec : Exec HTTPFraming => exec.obj = obj) parseMsgHdr := by
  have robust : Robust fun exec : Exec HTTPFraming => exec.obj = obj := Robust.of_obj (· = obj)
  have continuation : Keeps (fun exec : Exec HTTPFraming => exec.obj = obj) refuseContinuation :=
    (Keeps.current 0).bind fun _ => Keeps.ite (Keeps.fail robust _ _) (Keeps.pure _)
  refine .bind Keeps.need fun _ => .bind continuation fun _ => ?_
  refine .bind (Keeps.token robust _ _) fun _ => .bind Keeps.step fun _ => ?_
  refine .bind (Keeps.skip _) fun _ => .bind (Keeps.token robust _ _) fun _ => ?_
  refine .bind (Keeps.loop (keeps_parseParameter obj) []) fun _ => .bind Keeps.step fun _ => ?_
  refine .bind (Keeps.require robust _ _ _) fun _ => .bind Keeps.advance fun _ => ?_
  intro window exec holds stopped
  cases stopped

/-- No carriage return and line feed stand in the line. -/
def NoLineEnd (line : Bytes) : Prop :=
  ¬[13, 10] <:+: line

/-- A field that stays in its line is read from it. -/
theorem oneLine_of_stays (noLineEnd : NoLineEnd line) (stays : staysInLine line = true)
    (rest : Bytes) (exec : Exec HTTPFraming) : OneLine line rest exec := by
  unfold OneLine
  rcases ran : parseMsgHdr (line ++ 13 :: 10 :: rest) exec with ⟨none_ | ⟨value, left⟩, exec'⟩
  · have kept := stops_parseMsgHdr exec.obj _ exec rfl (by rw [ran])
    rw [ran] at kept
    exact congrArg HTTPFraming.msgHdrs kept
  · obtain ⟨noSpace, parameters, end_, exec₁, exec₂, loop_, same, newline, rfl, stored⟩ :=
      parseMsgHdr_eq_some ran
    have first : (line ++ 13 :: 10 :: rest).headD 0 = line.headD 13 := by
      cases line <;> rfl
    rw [first] at noSpace
    rw [staysInLine, noSpace, Bool.false_or, Bool.and_eq_true] at stays
    have value : fieldValueAt line ≠ [] := by simpa using stays.1
    have behindColon := ne_nil_of_dropWhile value
    have colon := ne_nil_of_tail behindColon
    have nameSame := (@scan_stops_inside isNameByte line (13 :: 10 :: rest) colon)
    have valueSame : fieldValueAt (line ++ 13 :: 10 :: rest) =
        fieldValueAt line ++ 13 :: 10 :: rest := by
      rw [fieldValueAt, nameSame.2, tail_append_of_ne_nil colon, (scan_stops_inside value).2]
      rfl
    have suffix : fieldValueAt line <:+ line :=
      (List.dropWhile_suffix _).trans ((List.tail_suffix _).trans (List.dropWhile_suffix _))
    have scanned := @scan_stops_behind isValueByte (fieldValueAt line) (10 :: rest) 13 (by decide)
    rw [valueSame, scanned.2] at loop_
    obtain ⟨⟨behind, rfl, behindSuffix, atEnd⟩, unchanged, params⟩ :=
      parameters_inside stays.2 ((List.dropWhile_suffix _).trans suffix) loop_
    -- a carriage return in the line has no line feed behind it
    have ended : behind = [] := by
      rcases behind with _ | ⟨c, _ | ⟨d, more⟩⟩
      · rfl
      · have other : ¬(13 : UInt8) = 10 := by decide
        exact absurd newline other
      · have cr : c = 13 := by simpa [atLineEnd] using atEnd
        have lf : d = 10 := newline
        subst cr lf
        have inside : [13, 10] <:+: (13 :: 10 :: more : Bytes) :=
          (List.prefix_append [13, 10] more).isInfix
        exact absurd (inside.trans behindSuffix.isInfix) noLineEnd
    subst ended
    rw [unchanged, same] at stored
    refine ⟨rfl, _, ⟨?_, ?_, ?_⟩, stored⟩
    · rw [nameAt, nameSame.1]
      exact cstr_takeWhile_inside List.suffix_rfl
    · rw [valueSame, scanned.1]
      exact cstr_takeWhile_inside suffix
    · exact fun param member => (params param member).resolve_left List.not_mem_nil

/-! ## Lines that the walk leaves -/

/-- A line that completes every field. -/
def completing : Bytes :=
  [58, 61, 120, 13, 10]

/-- A walk that leaves the line ends with the next one. -/
theorem behindParameter_leaves (inhabited : text ≠ []) (leaves : valueAt text = []) :
    behindParameter (text ++ 13 :: 10 :: completing) = [13, 10] := by
  have keySame : keyAt (text ++ 13 :: 10 :: completing) =
      (text.tail ++ 13 :: 10 :: completing).dropWhile isspace := by
    rw [keyAt, tail_append_of_ne_nil inhabited]
  rw [behindParameter_eq, valueAt, keySame]
  by_cases key : keyAt text = []
  · rw [scan_runs_on key]
    decide +kernel
  rw [(scan_stops_inside key).2]
  by_cases equals : (keyAt text).dropWhile isKeyByte = []
  · change ((((keyAt text ++ _).dropWhile isKeyByte).tail.dropWhile isspace).dropWhile
      isValueByte).dropWhile isBlank = _
    rw [scan_runs_on equals]
    decide +kernel
  · change ((((keyAt text ++ _).dropWhile isKeyByte).tail.dropWhile isspace).dropWhile
      isValueByte).dropWhile isBlank = _
    rw [(scan_stops_inside equals).2, tail_append_of_ne_nil equals, scan_runs_on leaves]
    decide +kernel

theorem fieldValueAt_leaves (leaves : fieldValueAt line = []) :
    (fieldValueAt (line ++ 13 :: 10 :: completing)).dropWhile isValueByte = [13, 10] := by
  by_cases colon : line.dropWhile isNameByte = []
  · rw [fieldValueAt, scan_runs_on colon]
    decide +kernel
  · rw [fieldValueAt, (scan_stops_inside colon).2, tail_append_of_ne_nil colon, scan_runs_on leaves]
    decide +kernel

/-- The loop goes on into the completing line and ends there. -/
theorem parameters_leave (leaves : parametersStay text = false)
    (parameters : List Rfc822Parameter) (exec : Exec HTTPFraming) :
    ∃ parameters' exec', Scanner.loop atLineEnd parseParameter parameters
      (text ++ 13 :: 10 :: completing) exec = (some (parameters', [13, 10]), exec') := by
  induction size : text.length using Nat.strongRecOn generalizing text parameters exec with
  | ind size ih =>
      rw [parametersStay] at leaves
      split at leaves
      · cases leaves
      rename_i inhabited
      split at leaves
      · cases leaves
      rename_i notEnded
      have goesOn : ¬atLineEnd (text ++ 13 :: 10 :: completing) = true := by
        obtain ⟨c, more, rfl⟩ := List.exists_cons_of_ne_nil inhabited
        exact notEnded
      rw [loop_apply, if_neg goesOn]
      split at leaves
      · rename_i value
        have value : valueAt text = [] := by simpa using value
        have behind := behindParameter_leaves inhabited value
        obtain ⟨overrun, round⟩ := parseParameter_run
          (show behindParameter (text ++ 13 :: 10 :: completing) ≠ [] by rw [behind]; decide)
          parameters exec
        rw [round, behind]
        refine ⟨parameters ++ [parameterAt (text ++ 13 :: 10 :: completing)], { exec with overrun }, ?_⟩
        have shorter : ([13, 10] : Bytes).length < (text ++ 13 :: 10 :: completing).length := by
          simp only [List.length_append, List.length_cons, completing, List.length_nil]
          omega
        dsimp only
        rw [if_pos shorter, loop_apply]
        rfl
      · rename_i value
        have value : valueAt text ≠ [] := by simpa using value
        obtain ⟨-, behind⟩ := parameter_inside value (10 :: completing)
        obtain ⟨overrun, round⟩ := parseParameter_run
          (show behindParameter (text ++ 13 :: 10 :: completing) ≠ [] by rw [behind]; simp)
          parameters exec
        have shorter := length_behindParameter inhabited
        rw [round, behind]
        dsimp only
        rw [if_pos (by simp only [List.length_append]; omega)]
        exact ih _ (size ▸ shorter) leaves _ _ rfl

/-- A field whose parameters end at the end of the text is stored. -/
theorem parseMsgHdr_run (noSpace : isspace (window.headD 0) = false)
    (ends : ∀ exec, ∃ parameters exec', Scanner.loop atLineEnd parseParameter []
      ((fieldValueAt window).dropWhile isValueByte) exec = (some (parameters, [13, 10]), exec'))
    (exec : Exec HTTPFraming) :
    ∃ exec', parseMsgHdr window exec = (some ((), []), exec') := by
  have behindValue : (fieldValueAt window).dropWhile isValueByte ≠ [] := by
    intro empty
    obtain ⟨parameters, exec', ran⟩ := ends exec
    rw [empty, loop_apply] at ran
    cases ran
  have value := ne_nil_of_dropWhile behindValue
  have behindColon := ne_nil_of_dropWhile value
  have colon := ne_nil_of_tail behindColon
  have inhabited : window.isEmpty = false :=
    List.isEmpty_eq_false_iff.mpr (ne_nil_of_dropWhile colon)
  have here : Scanner.need window exec = (some ((), window), exec) := by
    rw [Scanner.need, inhabited]
    rfl
  have first : refuseContinuation window exec = (some ((), window), exec) := by
    simp only [refuseContinuation, bind_apply, Scanner.current, noSpace, Bool.false_eq_true,
      if_false, Scanner.pure_apply]
  obtain ⟨one, nameRead⟩ := token_run colon exec
  have skipped : Scanner.skip isspace (window.dropWhile isNameByte).tail
      { exec with overrun := one } = (some ((), fieldValueAt window), { exec with overrun := one }) :=
    skip_run value _
  obtain ⟨two, valueRead⟩ := token_run behindValue { exec with overrun := one }
  obtain ⟨parameters, exec', loop_⟩ := ends { exec with overrun := two }
  rw [parseMsgHdr, bind_of_some here, bind_of_some first, bind_of_some nameRead,
    bind_of_some (step_run behindColon _), bind_of_some skipped, bind_of_some valueRead,
    bind_of_some loop_]
  exact ⟨_, rfl⟩

/-- A field that leaves its line takes the next one, too. -/
theorem not_oneLine_of_leaves (leaves : staysInLine line = false) (exec : Exec HTTPFraming) :
    ¬OneLine line completing exec := by
  rw [staysInLine, Bool.or_eq_false_iff] at leaves
  have noSpace : isspace ((line ++ 13 :: 10 :: completing).headD 0) = false := by
    have first : (line ++ 13 :: 10 :: completing).headD 0 = line.headD 13 := by
      cases line <;> rfl
    rw [first]
    exact leaves.1
  have toNext (exec : Exec HTTPFraming) : ∃ parameters exec',
      Scanner.loop atLineEnd parseParameter []
        ((fieldValueAt (line ++ 13 :: 10 :: completing)).dropWhile isValueByte) exec =
        (some (parameters, [13, 10]), exec') := by
    by_cases value : fieldValueAt line = []
    · rw [fieldValueAt_leaves value, loop_apply]
      exact ⟨[], exec, rfl⟩
    · have stays : parametersStay ((fieldValueAt line).dropWhile isValueByte) = false := by
        simpa [value] using leaves.2
      have colon := ne_nil_of_tail (ne_nil_of_dropWhile value)
      have same : fieldValueAt (line ++ 13 :: 10 :: completing) =
          fieldValueAt line ++ 13 :: 10 :: completing := by
        rw [fieldValueAt, (scan_stops_inside colon).2, tail_append_of_ne_nil colon,
          (scan_stops_inside value).2]
        rfl
      rw [same, (scan_stops_behind (by decide)).2]
      exact parameters_leave stays [] exec
  obtain ⟨exec', ran⟩ := parseMsgHdr_run noSpace toNext exec
  unfold OneLine
  rw [ran]
  exact fun taken => absurd taken.1 (by decide)

/-- A field is read from its line alone, whatever stands behind it, if and only if every scan stays
in the line. -/
theorem parseMsgHdr_oneLine_iff (noLineEnd : NoLineEnd line) (exec : Exec HTTPFraming) :
    (∀ rest, OneLine line rest exec) ↔ staysInLine line = true := by
  refine ⟨fun always => ?_, fun stays rest => oneLine_of_stays noLineEnd stays rest exec⟩
  by_contra leaves
  exact not_oneLine_of_leaves (Bool.eq_false_iff.mpr leaves) exec (always completing)

theorem parseMsgHdr_oneLine_iff_sample :
    (∀ rest, OneLine (ascii "A: b; c=d") rest { obj := {}, error := {} }) ↔
      staysInLine (ascii "A: b; c=d") = true :=
  parseMsgHdr_oneLine_iff (by unfold NoLineEnd; decide +kernel) { obj := {}, error := {} }

/-- A field without a value takes the next field for its value, and a parameter without a `=`
takes its key from there. -/
theorem field_swallows_next :
    (NoLineEnd (ascii "A:") ∧
        ¬OneLine (ascii "A:") (ascii "B: c\r\n\r\n") { obj := {}, error := {} }) ∧
      NoLineEnd (ascii "A: b; c") ∧
        ¬OneLine (ascii "A: b; c") (ascii "D: e=f\r\n\r\n") { obj := {}, error := {} } := by
  unfold NoLineEnd
  refine ⟨⟨by decide +kernel, fun stays => ?_⟩, by decide +kernel, fun stays => ?_⟩
  · have read : (parseMsgHdr (ascii "A:" ++ 13 :: 10 :: ascii "B: c\r\n\r\n")
        { obj := {}, error := {} }).1 = some ((), ascii "\r\n") := by decide +kernel
    exact absurd (stays.left_eq read) (by decide +kernel)
  · have read : (parseMsgHdr (ascii "A: b; c" ++ 13 :: 10 :: ascii "D: e=f\r\n\r\n")
        { obj := {}, error := {} }).1 = some ((), ascii "\r\n") := by decide +kernel
    exact absurd (stays.left_eq read) (by decide +kernel)

end HTTPFraming

end IpUtils
