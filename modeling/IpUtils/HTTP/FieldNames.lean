import IpUtils.Calls.Basic
import IpUtils.HTTP.Window
import IpUtils.URL.Taint

/-! # The names of header fields

`AppendMsgHdr` and `set_connection` look for a field of the same name before they add one.
`ParseMsgHdr` adds every field that the text of a header brings.
-/

namespace IpUtils

open CLib Scanner

/-! ## Rounds of a loop -/

namespace Scanner

variable {τ σ α κ : Type}

/-- The texts at which the rounds of a loop begin, and the one at which it halts. -/
def rounds (halt : List τ → Bool) (next : List τ → List τ) (text : List τ) :
    List (List τ) × List τ :=
  if halt text then ([], text)
  else if (next text).length < text.length then
    (text :: (rounds halt next (next text)).1, (rounds halt next (next text)).2)
  else ([], text)
termination_by text.length

/-- A loop that succeeds has run through these rounds. -/
theorem loop_rounds {halt : List τ → Bool} {body : α → Scanner τ σ α} {next : List τ → List τ}
    {achieved : σ → List κ} {yields : List τ → List κ}
    (round : ∀ value window state value' rest state',
      body value window state = (some (value', rest), state') →
        rest = next window ∧ achieved state' = achieved state ++ yields window)
    {value value' : α} {window rest : List τ} {state state' : σ}
    (ran : loop halt body value window state = (some (value', rest), state')) :
    rest = (rounds halt next window).2 ∧
      achieved state' = achieved state ++ (rounds halt next window).1.flatMap yields := by
  induction size : window.length using Nat.strongRecOn generalizing value window state with
  | ind size ih =>
      rw [loop_apply] at ran
      rw [rounds]
      by_cases halts : halt window = true
      · rw [if_pos halts] at ran ⊢
        cases ran
        exact ⟨rfl, (List.append_nil _).symm⟩
      rw [if_neg halts] at ran ⊢
      cases outcome : body value window state with
      | mk reply between =>
          rw [outcome] at ran
          cases reply with
          | none => cases ran
          | some delivered =>
              obtain ⟨stands, yields_⟩ := round _ _ _ _ _ _ outcome
              dsimp only at ran
              split at ran
              · rename_i shorter
                rw [stands] at ran shorter
                rw [if_pos shorter]
                obtain ⟨place, all⟩ := ih _ (size ▸ shorter) ran rfl
                refine ⟨place, ?_⟩
                rw [all, yields_, List.append_assoc, List.flatMap_cons]
              · cases ran

end Scanner

namespace HTTPFraming

/-! ## The fields of a text -/

/-- The text from the value of a field on. -/
def fieldValueAt (text : Bytes) : Bytes :=
  (text.dropWhile isNameByte).tail.dropWhile isspace

/-- The text from the key of a parameter on. -/
def keyAt (text : Bytes) : Bytes :=
  text.tail.dropWhile isspace

/-- The text from the value of a parameter on. -/
def valueAt (text : Bytes) : Bytes :=
  ((keyAt text).dropWhile isKeyByte).tail.dropWhile isspace

/-- What stands behind a parameter of a field. -/
def behindParameter (text : Bytes) : Bytes :=
  let key := (text.tail.dropWhile isspace).dropWhile isKeyByte
  ((key.tail.dropWhile isspace).dropWhile isValueByte).dropWhile isBlank

/-- What stands behind a field. -/
def behindField (text : Bytes) : Bytes :=
  let value := ((text.dropWhile isNameByte).tail.dropWhile isspace).dropWhile isValueByte
  (rounds atLineEnd behindParameter value).2.tail.tail

/-- The name of the field that a text begins with. -/
def nameAt (text : Bytes) : Bytes :=
  cstr (text.takeWhile isNameByte)

/-- The name and the value of the field that a text begins with. -/
def entryAt (text : Bytes) : Bytes × Bytes :=
  (nameAt text, cstr (((text.dropWhile isNameByte).tail.dropWhile isspace).takeWhile isValueByte))

/-- The names and the values of the fields up to the empty line. -/
def fieldEntries (text : Bytes) : List (Bytes × Bytes) :=
  (rounds atLineEnd behindField text).1.map entryAt

/-- The names and the values of the fields of a message. -/
def entries (http : HTTPFraming) : List (Bytes × Bytes) :=
  http.msgHdrs.map fun msgHdr => (msgHdr.fieldName, msgHdr.fieldValue)

/-- The names of the fields up to the empty line. -/
def fieldNames (text : Bytes) : List Bytes :=
  (rounds atLineEnd behindField text).1.map nameAt

/-- The names of the fields of a message. -/
def names (http : HTTPFraming) : List Bytes :=
  http.msgHdrs.map Rfc822MsgHdr.fieldName

/-- The parameter that a text begins with. -/
def parameterAt (text : Bytes) : Rfc822Parameter :=
  { key := cstr ((keyAt text).takeWhile isKeyByte)
    value := cstr ((valueAt text).takeWhile isValueByte) }

variable {window rest : Bytes} {exec exec' : Exec HTTPFraming}

theorem parseParameter_eq_some {parameters parameters' : List Rfc822Parameter}
    (ran : parseParameter parameters window exec = (some (parameters', rest), exec')) :
    parameters' = parameters ++ [parameterAt window] ∧ rest = behindParameter window ∧
      exec'.obj = exec.obj := by
  obtain ⟨_, window₁, exec₁, semicolon, ran₁⟩ := bind_eq_some ran
  obtain ⟨rfl, rfl, -⟩ := step_eq_some semicolon
  obtain ⟨_, window₂, exec₂, blank, ran₂⟩ := bind_eq_some ran₁
  obtain ⟨rfl, rfl, -⟩ := skip_eq_some blank
  obtain ⟨key, window₃, exec₃, taken, ran₃⟩ := bind_eq_some ran₂
  obtain ⟨rfl, rfl, -, same₃, -⟩ := Parse.token_eq_some taken
  obtain ⟨_, window₄, exec₄, equals, ran₄⟩ := bind_eq_some ran₃
  obtain ⟨rfl, rfl, -⟩ := step_eq_some equals
  obtain ⟨_, window₅, exec₅, blank, ran₅⟩ := bind_eq_some ran₄
  obtain ⟨rfl, rfl, -⟩ := skip_eq_some blank
  obtain ⟨value, window₆, exec₆, taken, ran₆⟩ := bind_eq_some ran₅
  obtain ⟨rfl, rfl, -, same₆, -⟩ := Parse.token_eq_some taken
  obtain ⟨_, window₇, exec₇, blank, ended⟩ := bind_eq_some ran₆
  obtain ⟨rfl, rfl, -⟩ := skip_eq_some blank
  cases ended
  exact ⟨rfl, rfl, same₆.trans same₃⟩

theorem keeps_parseParameter (obj : HTTPFraming) (parameters : List Rfc822Parameter) :
    Keeps (fun exec : Exec HTTPFraming => exec.obj = obj) (parseParameter parameters) := by
  have robust : Robust fun exec : Exec HTTPFraming => exec.obj = obj := Robust.of_obj (· = obj)
  exact Keeps.step.bind fun _ => (Keeps.skip _).bind fun _ =>
    (Keeps.token robust _ _).bind fun _ => Keeps.step.bind fun _ =>
      (Keeps.skip _).bind fun _ => (Keeps.token robust _ _).bind fun _ =>
        (Keeps.skip _).bind fun _ => Keeps.pure _

/-- What `ParseMsgHdr` has read when it has stored a field. -/
theorem parseMsgHdr_eq_some {value : Unit}
    (ran : parseMsgHdr window exec = (some (value, rest), exec')) :
    isspace (window.headD 0) = false ∧ ∃ parameters left exec₁ exec₂,
      Scanner.loop atLineEnd parseParameter [] ((fieldValueAt window).dropWhile isValueByte) exec₁ =
        (some (parameters, left), exec₂) ∧
      exec₁.obj = exec.obj ∧ left.tail.headD 0 = 10 ∧ rest = left.tail.tail ∧
      exec'.obj = { exec₂.obj with
        msgHdrs := exec₂.obj.msgHdrs ++
          [{ fieldName := nameAt window
             fieldValue := cstr ((fieldValueAt window).takeWhile isValueByte)
             parameters }] } := by
  obtain ⟨_, window₁, exec₁, here, ran₁⟩ := bind_eq_some ran
  obtain ⟨rfl, rfl, -⟩ := need_eq_some here
  obtain ⟨_, window₂, exec₂, first, ran₂⟩ := bind_eq_some ran₁
  have same₂ : isspace (window₁.headD 0) = false ∧ window₂ = window₁ ∧ exec₂ = exec₁ := by
    obtain ⟨_, window₃, exec₃, current, ended⟩ := bind_eq_some first
    cases current
    split at ended
    · cases ended
    · rename_i noSpace
      cases ended
      exact ⟨Bool.eq_false_iff.mpr noSpace, rfl, rfl⟩
  obtain ⟨noSpace, rfl, rfl⟩ := same₂
  obtain ⟨name, window₃, exec₃, taken, ran₃⟩ := bind_eq_some ran₂
  obtain ⟨rfl, rfl, -, same₃, -⟩ := Parse.token_eq_some taken
  obtain ⟨_, window₄, exec₄, colon, ran₄⟩ := bind_eq_some ran₃
  obtain ⟨rfl, rfl, -⟩ := step_eq_some colon
  obtain ⟨_, window₅, exec₅, blank, ran₅⟩ := bind_eq_some ran₄
  obtain ⟨rfl, rfl, -⟩ := skip_eq_some blank
  obtain ⟨fieldValue, window₆, exec₆, taken, ran₆⟩ := bind_eq_some ran₅
  obtain ⟨rfl, rfl, -, same₆, -⟩ := Parse.token_eq_some taken
  obtain ⟨parameters, window₇, exec₇, loop_, ran₇⟩ := bind_eq_some ran₆
  obtain ⟨_, window₈, exec₈, cr, ran₈⟩ := bind_eq_some ran₇
  obtain ⟨rfl, rfl, -⟩ := step_eq_some cr
  obtain ⟨_, window₉, exec₉, lf, ran₉⟩ := bind_eq_some ran₈
  obtain ⟨rfl, rfl, newline⟩ := Parse.require_eq_some lf
  obtain ⟨_, window₁₀, exec₁₀, moved, stored⟩ := bind_eq_some ran₉
  obtain ⟨rfl, rfl⟩ := advance_eq_some moved
  obtain ⟨rfl, rfl⟩ := update_eq_some stored
  exact ⟨noSpace, parameters, _, _, _, loop_, same₆.trans same₃, newline, rfl, rfl⟩

/-- A field is stored with the name and the value that it has in the text. -/
theorem parseMsgHdr_stands {value : Unit}
    (ran : parseMsgHdr window exec = (some (value, rest), exec')) :
    rest = behindField window ∧ entries exec'.obj = entries exec.obj ++ [entryAt window] := by
  obtain ⟨-, parameters, left, exec₁, exec₂, loop_, same, -, rfl, stored⟩ := parseMsgHdr_eq_some ran
  have place := (@loop_rounds _ _ _ Unit atLineEnd parseParameter behindParameter (fun _ => [])
    (fun _ => []) (fun _ _ _ _ _ _ ran => ⟨(parseParameter_eq_some ran).2.1, rfl⟩)
    _ _ _ _ _ _ loop_).1
  -- the parameters leave the fields alone
  have kept : Keeps (fun exec : Exec HTTPFraming => exec.obj = exec₁.obj)
      (Scanner.loop atLineEnd parseParameter []) := Keeps.loop (keeps_parseParameter exec₁.obj) []
  have unchanged := kept ((fieldValueAt window).dropWhile isValueByte) exec₁ rfl
  rw [loop_] at unchanged
  refine ⟨by rw [place]; rfl, ?_⟩
  rw [stored, show exec₂.obj = exec₁.obj from unchanged, same]
  simp [entries, entryAt, nameAt, fieldValueAt]

/-- The loop over the fields stores them as they are in the text. -/
theorem entries_parseMsgHdrs {value : Unit}
    (ran : parseMsgHdrs window exec = (some (value, rest), exec')) :
    entries exec'.obj = entries exec.obj ++ fieldEntries window := by
  have all := (@loop_rounds _ _ _ _ atLineEnd
    (fun _ => parseMsgHdr >>= fun _ => Scanner.need) behindField
    (fun exec : Exec HTTPFraming => entries exec.obj) (fun text => [entryAt text]) ?_
    _ _ _ _ _ _ ran).2
  · rw [all, fieldEntries, List.map_eq_flatMap]
  · intro _ window exec _ rest exec' ran
    obtain ⟨_, between, exec₁, field, here⟩ := bind_eq_some ran
    obtain ⟨rfl, rfl, -⟩ := need_eq_some here
    exact parseMsgHdr_stands field

theorem names_eq (http : HTTPFraming) : names http = (entries http).map Prod.fst := by
  simp [names, entries]

/-- And so under the names in the text. -/
theorem names_parseMsgHdrs {value : Unit}
    (ran : parseMsgHdrs window exec = (some (value, rest), exec')) :
    names exec'.obj = names exec.obj ++ fieldNames window := by
  rw [names_eq, entries_parseMsgHdrs ran, List.map_append, ← names_eq, fieldEntries,
    List.map_map]
  rfl

/-! ## Where the fields begin -/

/-- What stands behind the first line end. -/
def behindLine (text : Bytes) : Bytes :=
  (text.dropWhile (· != 13)).drop 2

/-- What stands behind a URL. -/
def behindUrl (stale text : Bytes) : Bytes :=
  let path := URL.behindPart 47 URL.isPathWordByte (URL.behindPart 58 isdigit
    ((URL.behindScheme stale text).dropWhile URL.isHostByte))
  URL.behindPart URL.kFragmentStart URL.isFragmentByte
    (URL.behindPart URL.kQueryStart URL.isQueryWordByte path)

/-- The fields of a request or a response. -/
def fieldsText (stale buf : Bytes) : Bytes :=
  let window := buf.dropWhile isspace
  if startsRequest window then behindLine (behindUrl stale (uriBytes window))
  else behindLine window

/-- The names that the text of a header brings. -/
def namesBrought (stale buf : Bytes) : List Bytes :=
  fieldNames (fieldsText stale buf)

/-- A parser that reads no carriage return. -/
def InLine {α : Type} (parser : Parse HTTPFraming α) : Prop :=
  ∀ window exec value rest exec', parser window exec = (some (value, rest), exec') →
    ∃ consumed, window = consumed ++ rest ∧ ∀ c ∈ consumed, (c != 13) = true

theorem InLine.bind {α β : Type} {first : Parse HTTPFraming α} {next : α → Parse HTTPFraming β}
    (head : InLine first) (tail : ∀ value, InLine (next value)) : InLine (first >>= next) := by
  intro window exec value rest exec' ran
  obtain ⟨middle, between, exec₁, start, finish⟩ := bind_eq_some ran
  obtain ⟨front, rfl, plain⟩ := head _ _ _ _ _ start
  obtain ⟨behind, rfl, plain'⟩ := tail _ _ _ _ _ _ finish
  refine ⟨front ++ behind, (List.append_assoc ..).symm, fun c member => ?_⟩
  rcases List.mem_append.mp member with inFront | inBehind
  · exact plain c inFront
  · exact plain' c inBehind

theorem InLine.of_same {α : Type} {parser : Parse HTTPFraming α}
    (stays : ∀ window exec value rest exec',
      parser window exec = (some (value, rest), exec') → rest = window) : InLine parser := by
  intro window exec value rest exec' ran
  exact ⟨[], (stays _ _ _ _ _ ran).symm, fun _ member => nomatch member⟩

theorem InLine.token {test : UInt8 → Bool} (plain : test 13 = false) :
    InLine (Parse.token scratchBufSize test : Parse HTTPFraming Bytes) := by
  intro window exec value rest exec' ran
  obtain ⟨-, rfl, -⟩ := Parse.token_eq_some ran
  refine ⟨window.takeWhile test, List.takeWhile_append_dropWhile.symm, fun c member => ?_⟩
  have passes := List.mem_takeWhile_imp member
  rw [bne_iff_ne]
  rintro rfl
  rw [plain] at passes
  cases passes

theorem InLine.expectStep {wanted : UInt8} (plain : (wanted != 13) = true) (there : wanted ≠ 0)
    (format : String) : InLine (Parse.expectStep wanted format : Parse HTTPFraming Unit) := by
  intro window exec value rest exec' ran
  obtain ⟨rfl, -, -, here⟩ := Parse.expectStep_eq_some ran
  cases window with
  | nil => exact absurd here.symm there
  | cons c rest =>
      obtain rfl := here
      exact ⟨[c], rfl, by simpa using plain⟩

theorem inLine_number : InLine (Parse.number : Parse HTTPFraming Int) :=
  (InLine.token (by decide)).bind fun _ => InLine.of_same fun _ _ _ _ _ ran => by cases ran; rfl

/-- There is no carriage return in `HTTP/`. -/
theorem plain_keyword (starts : startsWithNoCase kHTTPSlash window = true) :
    ∀ c ∈ window.take kHTTPSlash.length, (c != 13) = true := by
  intro c member
  have all : ∀ d ∈ kHTTPSlash.map tolower, (d != 13) = true := by decide +kernel
  rw [startsWithNoCase, beq_iff_eq] at starts
  have lower := all (tolower c) (by rw [← starts]; exact List.mem_map_of_mem member)
  rw [bne_iff_ne] at lower ⊢
  rintro rfl
  exact lower (by decide)

theorem inLine_keyword : InLine (Parse.keyword kHTTPSlash (pure ()) Scanner.stop) := by
  intro window exec value rest exec' ran
  simp only [Parse.keyword, bind_apply, Scanner.lookahead] at ran
  split at ran
  · rename_i starts
    obtain ⟨_, between, exec₁, moved, ended⟩ := bind_eq_some ran
    obtain ⟨rfl, rfl, -⟩ := advanceBy_eq_some moved
    cases ended
    exact ⟨window.take kHTTPSlash.length, (List.take_append_drop _ _).symm, plain_keyword starts⟩
  · cases ran

theorem inLine_parseVersion (dot unknown : String) : InLine (parseVersion dot unknown) := by
  have assign (change : HTTPFraming → HTTPFraming) : InLine (Parse.assign change) :=
    InLine.of_same fun _ _ _ _ _ ran => (update_eq_some ran).1
  refine inLine_keyword.bind fun _ => inLine_number.bind fun major => (assign _).bind fun _ =>
    (InLine.expectStep (by decide) (by decide) _).bind fun _ => inLine_number.bind fun minor =>
      (assign _).bind fun _ => InLine.of_same ?_
  intro window exec value rest exec' ran
  unfold checkVersion at ran
  split at ran
  · cases ran
    rfl
  · cases ran

/-- Behind a part without a carriage return, a line end is found where it is. -/
theorem behindLine_of_inLine {consumed rest : Bytes} (plain : ∀ c ∈ consumed, (c != 13) = true)
    (cr : rest.headD 0 = 13) : behindLine (consumed ++ rest) = rest.tail.tail := by
  cases rest with
  | nil => exact absurd cr (by decide)
  | cons c rest =>
      obtain rfl := cr
      rw [behindLine, (takeWhile_of_delimited plain (by decide) rest).2]
      cases rest <;> rfl

theorem parseRequestVersion_stands {value : Unit}
    (ran : parseRequestVersion window exec = (some (value, rest), exec')) :
    rest = behindLine window := by
  obtain ⟨_, window₁, exec₁, here, ran₁⟩ := bind_eq_some ran
  obtain ⟨rfl, rfl, -⟩ := need_eq_some here
  obtain ⟨_, window₂, exec₂, space, ran₂⟩ := bind_eq_some ran₁
  obtain ⟨_, window₃, exec₃, version, ran₃⟩ := bind_eq_some ran₂
  obtain ⟨_, window₄, exec₄, cr, lf⟩ := bind_eq_some ran₃
  obtain ⟨front, rfl, plain⟩ := InLine.expectStep (by decide) (by decide) _ _ _ _ _ _ space
  obtain ⟨digits, rfl, plain'⟩ := inLine_parseVersion _ _ _ _ _ _ _ version
  obtain ⟨rfl, rfl, -, isCr⟩ := Parse.expectStep_eq_some cr
  obtain ⟨rfl, rfl, -, -⟩ := Parse.expectStep_eq_some lf
  rw [← List.append_assoc, behindLine_of_inLine _ isCr]
  intro c member
  rcases List.mem_append.mp member with inFront | inDigits
  · exact plain c inFront
  · exact plain' c inDigits

/-- A status line up to its carriage return. -/
def statusFront : Parse HTTPFraming Unit := do
  parseVersion (responseExpected "'.', got char: %s")
    "HTTPFraming::ParseResponseHdr(): TODO(aka) received unknown HTTP header version: %d.%d"
  Parse.expectStep 32 (responseExpected "SP, got char: %s")
  let statusCode ← Parse.number
  Parse.assign (setStatusCode statusCode)
  Parse.expectStep 32 (responseExpected "SP, got char: %s")
  let _ ← Parse.token scratchBufSize isPhraseByte
  pure ()

theorem parseStatusLine_eq :
    parseStatusLine = statusFront >>= fun _ =>
      Parse.expectStep 13 (responseExpected "'\r', got: %s") >>= fun _ =>
        Parse.expectStep 10 (responseExpected "'\n', got: %s") := by
  simp only [parseStatusLine, statusFront, bind_assoc, pure_bind]

theorem inLine_statusFront : InLine statusFront := by
  have assign (change : HTTPFraming → HTTPFraming) : InLine (Parse.assign change) :=
    InLine.of_same fun _ _ _ _ _ ran => (update_eq_some ran).1
  have ended : InLine (pure () : Parse HTTPFraming Unit) :=
    InLine.of_same fun _ _ _ _ _ ran => by cases ran; rfl
  exact (inLine_parseVersion _ _).bind fun _ =>
    (InLine.expectStep (by decide) (by decide) _).bind fun _ => inLine_number.bind fun _ =>
      (assign _).bind fun _ => (InLine.expectStep (by decide) (by decide) _).bind fun _ =>
        (InLine.token (by decide)).bind fun _ => ended

theorem parseStatusLine_stands {value : Unit}
    (ran : parseStatusLine window exec = (some (value, rest), exec')) :
    rest = behindLine window := by
  rw [parseStatusLine_eq] at ran
  obtain ⟨_, window₁, exec₁, start, ran₁⟩ := bind_eq_some ran
  obtain ⟨_, window₂, exec₂, cr, lf⟩ := bind_eq_some ran₁
  obtain ⟨front, rfl, plain⟩ := inLine_statusFront _ _ _ _ _ start
  obtain ⟨rfl, rfl, -, isCr⟩ := Parse.expectStep_eq_some cr
  obtain ⟨rfl, rfl, -, -⟩ := Parse.expectStep_eq_some lf
  exact (behindLine_of_inLine plain isCr).symm

/-- A part of a URL ends where it should. -/
theorem whenAt_stands {introduction : UInt8} {test : UInt8 → Bool} {part : Parse URL Unit}
    {window rest : Bytes} {exec exec' : Exec URL} {value : Unit}
    (inner : ∀ window exec rest exec', part window exec = (some ((), rest), exec') →
      rest = window.dropWhile test)
    (ran : URL.whenAt introduction part (pure ()) window exec = (some (value, rest), exec')) :
    rest = URL.behindPart introduction test window := by
  rw [URL.whenAt_run] at ran
  unfold URL.behindPart
  split at ran
  · rename_i head
    rw [if_pos head]
    split at ran
    · cases ran
    · exact inner _ _ _ _ ran
  · rename_i head
    rw [if_neg head]
    cases ran
    rfl

theorem parseHierarchy_stands {defaultPort : UInt16} {window rest : Bytes} {exec exec' : Exec URL}
    {value : Unit}
    (ran : URL.parseHierarchy defaultPort window exec = (some (value, rest), exec')) :
    rest = URL.behindPart URL.kFragmentStart URL.isFragmentByte
      (URL.behindPart URL.kQueryStart URL.isQueryWordByte
        (URL.behindPart 47 URL.isPathWordByte (URL.behindPart 58 isdigit
          (window.dropWhile URL.isHostByte)))) := by
  obtain ⟨_, window₁, exec₁, host, ran₁⟩ := bind_eq_some ran
  obtain ⟨_, window₂, exec₂, port, ran₂⟩ := bind_eq_some ran₁
  obtain ⟨_, window₃, exec₃, path, ran₃⟩ := bind_eq_some ran₂
  obtain ⟨_, window₄, exec₄, query, fragment⟩ := bind_eq_some ran₃
  obtain rfl := URL.walks_parseHost.stands _ _ _ (by rw [host])
  obtain rfl := (URL.walks_parsePort defaultPort).stands _ _ _ (by rw [port])
  obtain rfl := URL.walks_parsePath.stands _ _ _ (by rw [path])
  have query_ := @whenAt_stands _ URL.isQueryWordByte _ _ _ _ _ _ (fun _ _ _ _ ran => by
    cases ran
    rfl) query
  rw [← query_]
  exact @whenAt_stands _ URL.isFragmentByte _ _ _ _ _ _ (fun _ _ _ _ ran => by
    cases ran
    rfl) fragment

theorem parseParts_stands {defaultPort : UInt16} {stale window rest : Bytes}
    {exec exec' : Exec URL} {value : Unit}
    (ran : URL.parseParts defaultPort (URL.schemeAhead (window ++ stale)) window exec =
      (some (value, rest), exec')) : rest = behindUrl stale window := by
  unfold behindUrl URL.behindScheme
  unfold URL.parseParts at ran
  split at ran
  · rename_i ahead
    obtain ⟨_, window₁, exec₁, scheme, ran₁⟩ := bind_eq_some ran
    obtain rfl := URL.walks_parseScheme.stands _ _ _ (by rw [scheme])
    rw [if_pos ahead]
    exact parseHierarchy_stands ran₁
  · rename_i none_
    rw [if_neg none_]
    exact parseHierarchy_stands ran

/-! ## The outcome -/

/-- The list is empty, or it has the names that the text brings. -/
def Brings (stale buf : Bytes) (http : HTTPFraming) : Prop :=
  http.msgHdrs = [] ∨ names http = namesBrought stale buf

theorem robust_empty : Robust fun exec : Exec HTTPFraming => exec.obj.msgHdrs = [] :=
  Robust.of_obj fun http : HTTPFraming => http.msgHdrs = []

/-- One part behind another that stores no field: what is stored is what the second stores. -/
theorem hdrs_bind {α β : Type} {first : Parse HTTPFraming α} {next : α → Parse HTTPFraming β}
    (kept : Keeps (fun exec => exec.obj.msgHdrs = []) first) (clean : exec.obj.msgHdrs = []) :
    ((first >>= next) window exec).2.obj.msgHdrs = [] ∨
      ∃ value rest exec', first window exec = (some (value, rest), exec') ∧
        exec'.obj.msgHdrs = [] ∧ (first >>= next) window exec = next value rest exec' := by
  have after := kept window exec clean
  rw [bind_apply]
  cases outcome : first window exec with
  | mk reply exec' =>
      rw [outcome] at after
      cases reply with
      | none => exact .inl after
      | some delivered => exact .inr ⟨delivered.1, delivered.2, exec', rfl, after, rfl⟩

theorem keeps_parseMethodFrom (methods : List HTTPMethod) :
    Keeps (fun exec : Exec HTTPFraming => exec.obj.msgHdrs = []) (parseMethodFrom methods) :=
  parseMethodFrom_keeps robust_empty (fun _ _ holds => holds) methods

theorem keeps_onUri {α : Type} (body : Parse URL α) :
    Keeps (fun exec : Exec HTTPFraming => exec.obj.msgHdrs = []) (onUri body) := by
  refine @Keeps.zoom _ _ _ _ _ (fun _ => True) _ _ _ ?_ ?_ ?_
  · exact fun _ _ _ => trivial
  · exact fun _ _ => trivial
  · exact fun _ _ holds _ => holds

theorem keeps_parseRequestVersion :
    Keeps (fun exec : Exec HTTPFraming => exec.obj.msgHdrs = []) parseRequestVersion :=
  parseRequestVersion_keeps robust_empty fun _ _ _ holds => holds

theorem keeps_parseStatusLine :
    Keeps (fun exec : Exec HTTPFraming => exec.obj.msgHdrs = []) parseStatusLine :=
  parseStatusLine_keeps robust_empty fun _ _ _ _ holds => holds

/-- The fields of a request, and its end. -/
theorem names_parseRequestFields (clean : exec.obj.msgHdrs = []) :
    (parseRequestFields window exec).2.obj.msgHdrs = [] ∨
      names (parseRequestFields window exec).2.obj = fieldNames window := by
  unfold parseRequestFields Scanner.onStop
  cases outcome : (parseMsgHdrs >>= fun _ =>
      Parse.expectStep 13 (requestExpected "'\r', got: %s") >>= fun _ =>
        Parse.expectStep 10 (requestExpected "'\n', got: %s")) window exec with
  | mk reply exec' =>
      cases reply with
      | none => exact .inl rfl
      | some delivered =>
          right
          obtain ⟨_, window₁, exec₁, fields, ran₁⟩ := bind_eq_some outcome
          obtain ⟨_, window₂, exec₂, cr, lf⟩ := bind_eq_some ran₁
          obtain ⟨rfl, rfl, -⟩ := Parse.expectStep_eq_some cr
          obtain ⟨-, rfl, -⟩ := Parse.expectStep_eq_some lf
          have all := names_parseMsgHdrs fields
          have none_ : names exec.obj = [] := by rw [names, clean, List.map_nil]
          rw [none_, List.nil_append] at all
          exact all

theorem names_parseRequestHdr {stale : Bytes} {defaultPort : UInt16}
    (trimmed : window.dropWhile isspace = window) (clean : exec.obj.msgHdrs = []) :
    (parseRequestHdr stale defaultPort window exec).2.obj.msgHdrs = [] ∨
      names (parseRequestHdr stale defaultPort window exec).2.obj =
        fieldNames (behindLine (behindUrl stale (uriBytes window))) := by
  have robust := robust_empty
  rw [parseRequestHdr_apply trimmed]
  split
  · exact .inl clean
  rw [parseMethod_bind_parseAfterMethod]
  have start : Keeps (fun exec : Exec HTTPFraming => exec.obj.msgHdrs = []) parseBeforeUri :=
    (keeps_parseMethodFrom _).bind fun _ => (Keeps.expectStep robust _ _).bind fun _ =>
      keeps_onUri _
  rcases hdrs_bind start clean with none_ | ⟨_, window₁, exec₁, before, clean₁, same⟩
  · exact .inl none_
  obtain ⟨rfl, -, -⟩ := parseBeforeUri_eq_some before
  rw [same]
  generalize uriBytes window = text
  rw [bind_of_some (show Scanner.lookahead (fun window => URL.schemeAhead (window ++ stale)) text
    exec₁ = (some (URL.schemeAhead (text ++ stale), text), exec₁) from rfl), parseFromUri]
  rcases hdrs_bind (keeps_onUri _) clean₁ with none_ | ⟨_, window₂, exec₂, uri, clean₂, same₂⟩
  · exact .inl none_
  obtain ⟨url, parsed, -⟩ := zoom_eq_some uri
  obtain rfl := parseParts_stands parsed
  rw [same₂]
  rcases hdrs_bind keeps_parseRequestVersion clean₂ with none_ | ⟨_, window₃, exec₃, line, clean₃, same₃⟩
  · exact .inl none_
  obtain rfl := parseRequestVersion_stands line
  rw [same₃]
  have fields := @names_parseRequestFields (behindLine (behindUrl stale text)) exec₃ clean₃
  rw [bind_apply]
  cases outcome : parseRequestFields (behindLine (behindUrl stale text)) exec₃ with
  | mk reply exec₄ =>
      rw [outcome] at fields
      cases reply with
      | none => exact fields
      | some delivered => exact fields

theorem names_parseResponseHeader (trimmed : window.dropWhile isspace = window)
    (clean : exec.obj.msgHdrs = []) :
    (parseResponseHeader window exec).2.obj.msgHdrs = [] ∨
      names (parseResponseHeader window exec).2.obj = fieldNames (behindLine window) := by
  have robust := robust_empty
  rw [parseResponseHeader, bind_of_some (show Scanner.skipWhile isspace window exec =
    (some ((), window.dropWhile isspace), exec) from rfl), trimmed]
  rcases hdrs_bind keeps_parseStatusLine clean with none_ | ⟨_, window₁, exec₁, line, clean₁, same⟩
  · exact .inl none_
  obtain rfl := parseStatusLine_stands line
  rw [same, bind_apply]
  unfold Scanner.onStop
  cases outcome : parseMsgHdrs (behindLine window) exec₁ with
  | mk reply exec₂ =>
      cases reply with
      | none => exact .inl rfl
      | some delivered =>
          have all := names_parseMsgHdrs outcome
          have none_ : names exec₁.obj = [] := by rw [names, clean₁, List.map_nil]
          rw [none_, List.nil_append] at all
          -- the empty line leaves them alone, or they are cleared
          dsimp only
          have kept : Keeps (fun exec : Exec HTTPFraming => names exec.obj = names exec₂.obj)
              (Scanner.step >>= fun _ =>
                Parse.expect 10 (responseExpected "'\n', got: %s") >>= fun _ =>
                  Parse.assign (fun http : HTTPFraming => { http with msgType := .response }) >>=
                    fun _ => Scanner.advance) := by
            have robust : Robust fun exec : Exec HTTPFraming => names exec.obj = names exec₂.obj :=
              Robust.of_obj fun http : HTTPFraming => names http = names exec₂.obj
            exact Keeps.step.bind fun _ => (Keeps.require robust _ _ _).bind fun _ =>
              Keeps.bind (Keeps.assign fun _ holds => holds) fun _ => Keeps.advance
          have after := kept delivered.2 exec₂ rfl
          unfold parseEmptyLine Scanner.onStop
          cases ended : (Scanner.step >>= fun _ =>
              Parse.expect 10 (responseExpected "'\n', got: %s") >>= fun _ =>
                Parse.assign (fun http : HTTPFraming => { http with msgType := .response }) >>=
                  fun _ => Scanner.advance) delivered.2 exec₂ with
          | mk reply' exec₃ =>
              rw [ended] at after
              cases reply' with
              | none => exact .inl rfl
              | some _ => exact .inr (after.trans all)

/-- A chunked body changes no field, or all are cleared. -/
theorem hdrs_finishResponse (env : ParseEnv) (used : Nat) (rest : Bytes) (exec : Exec HTTPFraming)
    (chunked : ChunkBuf) :
    (finishResponse env used rest exec chunked).exec.obj = exec.obj ∨
      (finishResponse env used rest exec chunked).exec.obj.msgHdrs = [] := by
  unfold finishResponse
  split
  · exact .inl rfl
  split
  · exact .inr rfl
  split
  · exact .inr rfl
  · exact .inl rfl

/-- `InitFromBuf` stores the fields of the text, or none. -/
theorem brings_initFromBuf (env : ParseEnv) (buf : Bytes) (exec : Exec HTTPFraming)
    (chunked : ChunkBuf) : Brings env.stale buf (initFromBuf env buf exec chunked).exec.obj := by
  have trimmed : (buf.dropWhile isspace).dropWhile isspace = buf.dropWhile isspace :=
    List.dropWhile_idempotent _ _
  unfold initFromBuf
  dsimp only
  split
  · -- what the parser of the start line stores
    have started : Brings env.stale buf (parseStartLine env (buf.dropWhile isspace)
        { exec with obj := clear exec.obj } chunked).exec.obj := by
      unfold Brings namesBrought fieldsText
      dsimp only
      cases starts : startsRequest (buf.dropWhile isspace) with
      | true =>
          rw [parseStartLine_of_request starts, if_pos rfl]
          exact names_parseRequestHdr trimmed rfl
      | false =>
          rw [parseStartLine_of_response starts, if_neg Bool.false_ne_true]
          have header := @names_parseResponseHeader (buf.dropWhile isspace)
            { exec with obj := clear exec.obj } trimmed rfl
          unfold parseResponseHdr
          cases outcome : parseResponseHeader (buf.dropWhile isspace)
              { exec with obj := clear exec.obj } with
          | mk reply exec₁ =>
              rw [outcome] at header
              cases reply with
              | none => exact header
              | some delivered =>
                  dsimp only
                  rcases hdrs_finishResponse env _ delivered.2 exec₁ chunked with same | none_
                  · rw [same]
                    exact header
                  · exact .inl none_
    split
    · exact started
    · exact started
  · split
    · exact .inl rfl
    · exact .inl rfl

/-! ## Unique names -/

/-- No two fields have names that are equal ignoring case. -/
def Unique (names : List Bytes) : Prop :=
  names.Pairwise fun first second => equalsNoCase first second = false

instance (names : List Bytes) : Decidable (Unique names) :=
  inferInstanceAs (Decidable (names.Pairwise fun first second => equalsNoCase first second = false))

theorem equalsNoCase_comm (first second : Bytes) :
    equalsNoCase first second = equalsNoCase second first := by
  rw [equalsNoCase, equalsNoCase, Bool.beq_comm]

theorem equalsNoCase_trans {first second third : Bytes} (left : equalsNoCase first second = true)
    (right : equalsNoCase second third = true) : equalsNoCase first third = true := by
  rw [equalsNoCase, beq_iff_eq] at left right ⊢
  exact left.trans right

/-- With unique names, the order of the fields does not matter for a search. -/
theorem find?_perm {first second : List Rfc822MsgHdr} (perm : first.Perm second)
    (unique : Unique (first.map Rfc822MsgHdr.fieldName)) (fieldName : Bytes) :
    (first.find? fun msgHdr => equalsNoCase msgHdr.fieldName fieldName) =
      second.find? fun msgHdr => equalsNoCase msgHdr.fieldName fieldName := by
  induction perm with
  | nil => rfl
  | cons msgHdr perm ih =>
      rw [List.find?_cons, List.find?_cons]
      rw [ih (List.pairwise_cons.mp unique).2]
  | swap one other rest =>
      have differs : equalsNoCase other.fieldName one.fieldName = false :=
        (List.pairwise_cons.mp unique).1 _ (List.mem_cons_self ..)
      simp only [List.find?_cons]
      by_cases found : equalsNoCase other.fieldName fieldName = true
      · by_cases found' : equalsNoCase one.fieldName fieldName = true
        · rw [equalsNoCase_comm] at found'
          rw [equalsNoCase_trans found found'] at differs
          cases differs
        · simp [found, found']
      · simp [found]
  | trans left right ihLeft ihRight =>
      have between := (List.Perm.map Rfc822MsgHdr.fieldName left).pairwise unique
        fun apart => by rwa [equalsNoCase_comm]
      rw [ihLeft unique, ihRight between]

/-! ## Runs -/

/-- A call that writes the list of fields. -/
inductive HdrCall where
  | initRequest (method : HTTPMethod) (uri : URL)
  | initResponse (code connection : Int)
  | initFromBuf (env : ParseEnv) (buf : Bytes) (chunked : ChunkBuf)
  | appendMsgHdr (msgHdr : Rfc822MsgHdr)
  | appendField (fieldName fieldValue key value : Option Bytes)
  | setConnection (connection : Int)

/-- What `AppendMsgHdr` leaves behind. -/
def stored (outcome : HTTPFraming × ErrorHandler) (exec : Exec HTTPFraming) : Exec HTTPFraming :=
  { exec with obj := outcome.1, error := outcome.2 }

/-- Make a call. -/
def write : Machine HdrCall (Exec HTTPFraming)
  | .initRequest method uri, exec => ({ exec with obj := initRequest method uri exec.obj }, true)
  | .initResponse code connection, exec =>
      ({ exec with obj := initResponse code connection exec.obj }, true)
  | .initFromBuf env buf chunked, exec => ((initFromBuf env buf exec chunked).exec, true)
  | .appendMsgHdr msgHdr, exec => (stored (appendMsgHdr msgHdr exec.obj exec.error) exec, true)
  | .appendField fieldName fieldValue key value, exec =>
      (stored (appendField fieldName fieldValue key value exec.obj exec.error) exec, true)
  | .setConnection connection, exec =>
      ({ exec with obj := setConnection connection exec.obj }, true)

/-- A buffer that is parsed does not bring two fields of one name. -/
def Distinct (call : HdrCall) : Prop :=
  ∀ env buf chunked, call = .initFromBuf env buf chunked → Unique (namesBrought env.stale buf)

/-- The names are unique, the accessors do not depend on the order of the fields, and a field
that is refused is not stored. -/
structure WellNamed (http : HTTPFraming) : Prop where
  unique : Unique (names http)
  lookups : ∀ msgHdrs, msgHdrs.Perm http.msgHdrs → ∀ fieldName,
    ({ http with msgHdrs } : HTTPFraming).msgHdr? fieldName = http.msgHdr? fieldName
  accessors : ∀ msgHdrs, msgHdrs.Perm http.msgHdrs →
    ({ http with msgHdrs } : HTTPFraming).msgLen = http.msgLen ∧
      ({ http with msgHdrs } : HTTPFraming).contentType = http.contentType ∧
      ({ http with msgHdrs } : HTTPFraming).transferEncoding = http.transferEncoding
  refusedMsgHdr : ∀ msgHdr error, (appendMsgHdr msgHdr http error).2 ≠ error →
    (appendMsgHdr msgHdr http error).1 = http
  refusedField : ∀ fieldName fieldValue key value error,
    (appendField fieldName fieldValue key value http error).2 ≠ error →
      (appendField fieldName fieldValue key value http error).1 = http

theorem refused_appendMsgHdr {msgHdr : Rfc822MsgHdr} {http : HTTPFraming} {error : ErrorHandler}
    (refused : (appendMsgHdr msgHdr http error).2 ≠ error) :
    (appendMsgHdr msgHdr http error).1 = http := by
  unfold appendMsgHdr at refused ⊢
  split
  · rfl
  · rename_i absent
    rw [if_neg absent] at refused
    exact absurd rfl refused

theorem refused_appendField {fieldName fieldValue key value : Option Bytes} {http : HTTPFraming}
    {error : ErrorHandler}
    (refused : (appendField fieldName fieldValue key value http error).2 ≠ error) :
    (appendField fieldName fieldValue key value http error).1 = http := by
  cases fieldName with
  | none => rfl
  | some fieldName =>
      cases fieldValue with
      | none => rfl
      | some fieldValue => exact refused_appendMsgHdr refused

/-- Unique names are all that is needed. -/
theorem wellNamed_of_unique {http : HTTPFraming} (unique : Unique (names http)) :
    WellNamed http := by
  have lookups (msgHdrs : List Rfc822MsgHdr) (perm : msgHdrs.Perm http.msgHdrs)
      (fieldName : Bytes) :
      ({ http with msgHdrs } : HTTPFraming).msgHdr? fieldName = http.msgHdr? fieldName :=
    (find?_perm perm.symm unique fieldName).symm
  refine ⟨unique, lookups, fun msgHdrs perm => ⟨?_, ?_, ?_⟩, fun _ _ => refused_appendMsgHdr,
    fun _ _ _ _ _ => refused_appendField⟩
  · rw [msgLen, msgLen, lookups msgHdrs perm]
  · rw [contentType, contentType, lookups msgHdrs perm]
  · rw [transferEncoding, transferEncoding, lookups msgHdrs perm]

/-- A name that is not there yet. -/
theorem unique_append {names : List Bytes} (unique : Unique names) {fieldName : Bytes}
    (absent : ∀ name ∈ names, equalsNoCase name fieldName = false) :
    Unique (names ++ [fieldName]) := by
  refine List.pairwise_append.mpr ⟨unique, List.pairwise_singleton _ _, ?_⟩
  intro name member other last
  rw [List.mem_singleton] at last
  rw [last]
  exact absent name member

theorem unique_appendMsgHdr {http : HTTPFraming} (unique : Unique (names http))
    (msgHdr : Rfc822MsgHdr) (error : ErrorHandler) :
    Unique (names (appendMsgHdr msgHdr http error).1) := by
  unfold appendMsgHdr
  split
  · exact unique
  · rename_i absent
    have none_ : http.msgHdr? msgHdr.fieldName = none := by simpa using absent
    rw [names, List.map_append]
    refine unique_append unique fun name member => ?_
    obtain ⟨other, inList, rfl⟩ := List.mem_map.mp member
    have differs := List.find?_eq_none.mp none_ other inList
    simpa using differs

theorem unique_appendField {http : HTTPFraming} (unique : Unique (names http))
    (fieldName fieldValue key value : Option Bytes) (error : ErrorHandler) :
    Unique (names (appendField fieldName fieldValue key value http error).1) := by
  cases fieldName with
  | none => exact unique
  | some fieldName =>
      cases fieldValue with
      | none => exact unique
      | some fieldValue => exact unique_appendMsgHdr unique _ error

/-- A value that is replaced keeps the names; without the name there is nothing to replace. -/
theorem replaceValue_cases (fieldName value : Bytes) (msgHdrs : List Rfc822MsgHdr) :
    (∃ replaced, replaceValue fieldName value msgHdrs = some replaced ∧
        replaced.map Rfc822MsgHdr.fieldName = msgHdrs.map Rfc822MsgHdr.fieldName) ∨
      (replaceValue fieldName value msgHdrs = none ∧
        ∀ name ∈ msgHdrs.map Rfc822MsgHdr.fieldName, equalsNoCase name fieldName = false) := by
  induction msgHdrs with
  | nil => exact .inr ⟨rfl, fun _ member => nomatch member⟩
  | cons msgHdr rest ih =>
      by_cases found : equalsNoCase msgHdr.fieldName fieldName = true
      · exact .inl ⟨{ msgHdr with fieldValue := value } :: rest,
          by rw [replaceValue, if_pos found], rfl⟩
      · rw [replaceValue, if_neg found]
        rcases ih with ⟨replaced, same, kept⟩ | ⟨none_, absent⟩
        · exact .inl ⟨msgHdr :: replaced, by rw [same]; rfl, by simp [kept]⟩
        · refine .inr ⟨by rw [none_]; rfl, fun name member => ?_⟩
          rcases List.mem_cons.mp member with rfl | inRest
          · simpa using found
          · exact absent name inRest

theorem unique_setConnection {http : HTTPFraming} (unique : Unique (names http))
    (connection : Int) : Unique (names (setConnection connection http)) := by
  unfold setConnection
  rcases replaceValue_cases httpFramingConnection (connectionValue connection) http.msgHdrs with
    ⟨replaced, same, kept⟩ | ⟨none_, absent⟩
  · rw [same]
    dsimp only [names]
    rw [kept]
    exact unique
  · rw [none_]
    dsimp only [names]
    rw [List.map_append]
    exact unique_append unique absent

/-- The step: only a buffer with two fields of one name gives two fields of one name. -/
theorem unique_write {exec : Exec HTTPFraming} (unique : Unique (names exec.obj)) {call : HdrCall}
    (distinct : Distinct call) : Unique (names (write call exec).1.obj) := by
  cases call with
  | initRequest method uri => exact List.Pairwise.nil
  | initResponse code connection =>
      exact @unique_setConnection (setStatusCode code { clear exec.obj with msgType := .response })
        List.Pairwise.nil connection
  | initFromBuf env buf chunked =>
      change Unique (names (initFromBuf env buf exec chunked).exec.obj)
      rcases brings_initFromBuf env buf exec chunked with none_ | brought
      · rw [names, none_]
        exact List.Pairwise.nil
      · rw [brought]
        exact distinct env buf chunked rfl
  | appendMsgHdr msgHdr => exact unique_appendMsgHdr unique msgHdr exec.error
  | appendField fieldName fieldValue key value =>
      exact unique_appendField unique fieldName fieldValue key value exec.error
  | setConnection connection => exact unique_setConnection unique connection

/-- A new object, whatever error there is. -/
def created (error : ErrorHandler) : Exec HTTPFraming :=
  { obj := {}, error }

/-- The names stay unique in every run that parses no buffer with two fields of one name. -/
theorem run_wellNamed (error : ErrorHandler) {calls : List HdrCall}
    (along : Machine.Along write (fun call _ => Distinct call) calls (created error)) :
    WellNamed (Machine.run write calls (created error)).1.obj := by
  apply wellNamed_of_unique
  refine @Machine.run_preserves _ _ write _ (fun exec => Unique (names exec.obj)) ?_ calls _
    List.Pairwise.nil along
  intro call exec unique distinct
  exact unique_write unique distinct

/-- A response that announces two lengths. -/
def twoLengths : Bytes :=
  ascii "HTTP/1.1 200 OK\x0d\nContent-Length: 1\x0d\ncontent-length: 2\x0d\n\x0d\n"

/-- A buffer with nothing behind it. -/
def parseAlone (buf : Bytes) : HdrCall :=
  .initFromBuf { stale := [], realloc := fun _ _ => none } buf { msgBody := none, size := 0 }

/-- Both are stored, and which one counts depends on their order. -/
theorem initFromBuf_twice :
    let http := (Machine.run write [parseAlone twoLengths] (created {})).1.obj
    names http = [ascii "Content-Length", ascii "content-length"] ∧ ¬Unique (names http) ∧
      http.msgLen = 1 ∧
      ({ http with msgHdrs := http.msgHdrs.reverse } : HTTPFraming).msgLen = 2 := by
  decide +kernel

/-- A response with one length and a connection. -/
def oneLength : Bytes :=
  ascii "HTTP/1.1 200 OK\x0d\nContent-Length: 1\x0d\nServer: a\x0d\n\x0d\n"

theorem run_wellNamed_sample :
    WellNamed (Machine.run write [parseAlone oneLength, .setConnection 1]
      (created {})).1.obj := by
  apply run_wellNamed
  refine ⟨fun env buf chunked same => ?_, fun _ => ⟨fun env buf chunked same => ?_,
    fun _ => trivial⟩⟩
  · obtain ⟨rfl, rfl, rfl⟩ := HdrCall.initFromBuf.inj same
    decide +kernel
  · cases same

end HTTPFraming

end IpUtils
