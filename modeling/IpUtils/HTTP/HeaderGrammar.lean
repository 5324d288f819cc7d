import IpUtils.HTTP.Concludes
import IpUtils.Scan.Grammar

/-! # The grammar of a header

Which texts begin with a header that is accepted depends on neither the object nor a pending event.
The grammars follow the parsers part by part; a URL may raise an event and is read on nevertheless.
-/

namespace IpUtils

open CLib Scanner

/-! ## The pieces -/

section Pieces

variable {ω α κ : Type} {view : Exec ω → κ}

/-- What is seen is part of the error. -/
def OfError (view : Exec ω → κ) : Prop :=
  ∀ exec exec', exec.error = exec'.error → view exec = view exec'

/-- The error is its own view. -/
theorem ofError_error : OfError (Exec.error : Exec ω → ErrorHandler) :=
  fun _ _ same => same

/-- What sees nothing sees no more than the error. -/
theorem ofError_nothing : OfError fun _ : Exec ω => () :=
  fun _ _ _ => rfl

/-- The byte under the pointer. -/
def here (wanted : UInt8) (text : Bytes) : Bool :=
  text.headD 0 == wanted

/-- The next byte; at the end of the text it is NUL. -/
theorem here_iff {wanted : UInt8} {text : Bytes} :
    here wanted text = true ↔ text.headD 0 = wanted :=
  beq_iff_eq

/-- A byte with another one behind it. -/
def byteGrammar (wanted : UInt8) : Grammar UInt8 :=
  (Grammar.guard (here wanted)).seq Grammar.token

namespace Parse

/-- A change of what is parsed reads nothing. -/
theorem recognizes_update (own : OfError view) {change : Exec ω → Exec ω}
    (same : ∀ exec, (change exec).error = exec.error) :
    Recognizes view some (Scanner.update change : Parse ω Unit) :=
  .update fun exec => own _ _ (same exec)

/-- An assignment reads nothing. -/
theorem recognizes_assign (own : OfError view) (change : ω → ω) :
    Recognizes view some (assign change : Parse ω Unit) :=
  recognizes_update own fun _ => rfl

/-- A parser that raises an error accepts no text. -/
theorem recognizes_fail (format : String) (args : Nat → List FmtArg) :
    Recognizes view (fun _ => none) (fail format args : Parse ω α) :=
  .stopWith _

/-- Copying stops where the run of bytes stops, whatever the array's size is. -/
theorem recognizes_copyWhile (own : OfError view) (capacity : Nat) (test : UInt8 → Bool) :
    Recognizes view (Grammar.run test) (copyWhile capacity test : Parse ω Bytes) :=
  (Recognizes.takeWhile test).followed fun _ =>
    (recognizes_update own (by intro exec; rfl)).followed fun _ => .pure _

/-- The terminating NUL reads nothing. -/
theorem recognizes_terminate (own : OfError view) (capacity : Nat) (text : Bytes) :
    Recognizes view some (terminate capacity text : Parse ω Bytes) :=
  (recognizes_update own (by intro exec; rfl)).followed fun _ => .pure _

/-- A word may end with the text. -/
theorem recognizes_word (own : OfError view) (capacity : Nat) (test : UInt8 → Bool) :
    Recognizes view (Grammar.run test) (word capacity test : Parse ω Bytes) :=
  (recognizes_copyWhile own _ _).followed fun _ => recognizes_terminate own _ _

/-- A token has a byte behind it. -/
theorem recognizes_token (own : OfError view) (capacity : Nat) (test : UInt8 → Bool) :
    Recognizes view (Grammar.word test) (token capacity test : Parse ω Bytes) :=
  (recognizes_copyWhile own _ _).bind fun _ =>
    Recognizes.need.followed fun _ => recognizes_terminate own _ _

/-- A test of the next byte that is read again afterwards. -/
theorem recognizes_require (wanted : UInt8) (format : String) (args : Nat → List FmtArg) :
    Recognizes view (Grammar.guard (here wanted))
      (require wanted format args : Parse ω Unit) where
  stops := by
    intro text stopped exec
    by_cases same : text.headD 0 = wanted
    · rw [Grammar.guard_of_pos (here_iff.mpr same)] at stopped
      cases stopped
    · rw [require_of_ne same]
  goes := by
    intro text rest read exec
    by_cases same : text.headD 0 = wanted
    · rw [Grammar.guard_of_pos (here_iff.mpr same)] at read
      cases read
      refine ⟨(), exec, ?_, rfl⟩
      simp only [require, bind_apply, Scanner.current, same, ne_eq, not_true_eq_false, if_false]
      rfl
    · rw [Grammar.guard_of_neg (mt here_iff.mp same)] at read
      cases read

/-- A byte that has to be there, and another behind it. -/
theorem recognizes_expectStep (wanted : UInt8) (format : String) :
    Recognizes view (byteGrammar wanted) (expectStep wanted format : Parse ω Unit) :=
  (recognizes_require _ _ _).bind fun _ => .step

/-- A number is a token of digits. -/
theorem recognizes_number (own : OfError view) :
    Recognizes view (Grammar.word isdigit) (number : Parse ω Int) :=
  (recognizes_token own _ _).followed fun _ => .pure _

end Parse

end Pieces

namespace HTTPFraming

open Parse

variable {κ : Type} {view : Exec HTTPFraming → κ}

/-! ## Versions -/

/-- A known version. -/
def versionGrammar : Grammar UInt8 :=
  fun text =>
    if startsWithNoCase kHTTPSlash text && versionEnds (text.drop kHTTPSlash.length) &&
        versionReads (text.drop kHTTPSlash.length) then
      some (behindVersion (text.drop kHTTPSlash.length))
    else none

/-- `HTTP/` in upper or lower case. -/
theorem recognizes_keyword :
    Recognizes view
      (Grammar.cond (startsWithNoCase kHTTPSlash) (Grammar.many kHTTPSlash.length) fun _ => none)
      (Parse.keyword kHTTPSlash (pure ()) Scanner.stop : Parse HTTPFraming Unit) :=
  .cond ((Recognizes.advanceBy _).followed fun _ => .pure _) .stop

/-- What has been read is `HTTP/`. -/
theorem keyword_eq {text rest : Bytes}
    (read : Grammar.cond (startsWithNoCase kHTTPSlash) (Grammar.many kHTTPSlash.length)
      (fun _ => none) text = some rest) :
    startsWithNoCase kHTTPSlash text = true ∧ rest = text.drop kHTTPSlash.length := by
  unfold Grammar.cond Grammar.many at read
  split at read
  · rename_i starts
    split at read
    · exact ⟨starts, (Option.some.inj read).symm⟩
    · cases read
  · cases read

/-- Behind a word at least one byte is left. -/
theorem word_eq {test : UInt8 → Bool} {text rest : Bytes}
    (read : Grammar.word test text = some rest) :
    text.dropWhile test ≠ [] ∧ rest = text.dropWhile test := by
  unfold Grammar.word Grammar.some_ at read
  split at read
  · cases read
  · rename_i left
    exact ⟨by simpa using left, (Option.some.inj read).symm⟩

/-- `HTTP/` with a byte behind it is read. -/
theorem keyword_of {text : Bytes} (starts : startsWithNoCase kHTTPSlash text = true)
    (left : text.drop kHTTPSlash.length ≠ []) :
    Grammar.cond (startsWithNoCase kHTTPSlash) (Grammar.many kHTTPSlash.length)
      (fun _ => none) text = some (text.drop kHTTPSlash.length) := by
  have enough := List.length_pos_iff.mpr left
  rw [List.length_drop] at enough
  unfold Grammar.cond Grammar.many
  rw [if_pos starts, if_pos (by omega)]

/-- A word with a byte behind it is read. -/
theorem word_of {test : UInt8 → Bool} {text : Bytes} (left : text.dropWhile test ≠ []) :
    Grammar.word test text = some (text.dropWhile test) := by
  unfold Grammar.word Grammar.some_
  rw [if_neg (by simpa using left)]

/-- A byte with another behind it is read. -/
theorem byte_of {wanted : UInt8} {text : Bytes} (same : text.headD 0 = wanted)
    (left : text.tail ≠ []) : byteGrammar wanted text = some text.tail := by
  unfold byteGrammar Grammar.seq
  rw [Grammar.guard_of_pos (here_iff.mpr same), Option.bind_some]
  unfold Grammar.token Grammar.some_
  rw [if_neg (by simpa using left)]

/-- A version that is accepted does not run to the end of the text. -/
theorem parseVersion_ends {dot unknown : String} {text rest : Bytes} {exec exec' : Exec HTTPFraming}
    {value : Unit} (ran : parseVersion dot unknown text exec = (some (value, rest), exec')) :
    startsWithNoCase kHTTPSlash text = true ∧ versionEnds (text.drop kHTTPSlash.length) = true := by
  obtain ⟨_, window₁, exec₁, slash, ran₁⟩ := bind_eq_some ran
  have word : Recognizes Exec.error _ (Parse.keyword kHTTPSlash (pure ()) Scanner.stop :
    Parse HTTPFraming Unit) := recognizes_keyword
  obtain ⟨starts, rfl⟩ := keyword_eq (word.eq_some slash).1
  obtain ⟨major, window₂, exec₂, first, ran₂⟩ := bind_eq_some ran₁
  obtain ⟨left, rfl⟩ := word_eq ((recognizes_number ofError_error).eq_some first).1
  obtain ⟨_, window₃, exec₃, stored, ran₃⟩ := bind_eq_some ran₂
  obtain ⟨rfl, rfl⟩ := update_eq_some stored
  obtain ⟨_, window₄, exec₄, dot_, ran₄⟩ := bind_eq_some ran₃
  obtain ⟨rfl, rfl, -, -⟩ := Parse.expectStep_eq_some dot_
  obtain ⟨minor, window₅, exec₅, second, ran₅⟩ := bind_eq_some ran₄
  obtain ⟨left', -⟩ := word_eq ((recognizes_number ofError_error).eq_some second).1
  exact ⟨starts, versionEnds_iff.mpr ⟨left, fun _ => left'⟩⟩

/-- Only the version that is supported is accepted. -/
theorem recognizes_parseVersion (own : OfError view) (dot unknown : String) :
    Recognizes view versionGrammar (parseVersion dot unknown) where
  stops := by
    intro text stopped exec
    rcases outcome : parseVersion dot unknown text exec with ⟨none_ | ⟨value, rest⟩, exec'⟩
    · rfl
    · obtain ⟨starts, ends⟩ := parseVersion_ends outcome
      rw [versionGrammar, starts, ends, (parseVersion_reads outcome).2] at stopped
      cases stopped
  goes := by
    intro text rest read exec
    unfold versionGrammar at read
    split at read
    case isFalse => cases read
    rename_i accepted
    obtain rfl := Option.some.inj read
    simp only [Bool.and_eq_true] at accepted
    obtain ⟨⟨starts, ends⟩, reads⟩ := accepted
    obtain ⟨left, left'⟩ := versionEnds_iff.mp ends
    rw [versionReads, Bool.and_eq_true, beq_iff_eq] at reads
    obtain ⟨isDot, known⟩ := reads
    have behind := left' isDot
    obtain ⟨_, exec₁, slash, same₁⟩ := recognizes_keyword.goes
      (keyword_of starts (ne_nil_of_dropWhile left)) exec
    obtain ⟨major, exec₂, first, same₂⟩ := (recognizes_number own).goes (word_of left) exec₁
    obtain ⟨_, exec₃, stored, same₃⟩ :=
      (recognizes_assign own fun http => { http with major }).goes rfl exec₂
    obtain ⟨_, exec₄, dot_, same₄⟩ := (recognizes_expectStep 46 dot).goes
      (byte_of isDot (ne_nil_of_dropWhile behind)) exec₃
    obtain ⟨minor, exec₅, second, same₅⟩ := (recognizes_number own).goes
      (show Grammar.word isdigit ((text.drop kHTTPSlash.length).dropWhile isdigit).tail =
        some (behindVersion (text.drop kHTTPSlash.length)) from word_of behind) exec₄
    obtain ⟨_, exec₆, stored', same₆⟩ :=
      (recognizes_assign own fun http => { http with minor }).goes rfl exec₅
    obtain ⟨rfl, -, -⟩ := number_eq_some first
    obtain ⟨rfl, -, -⟩ := number_eq_some second
    refine ⟨(), exec₆, ?_, ((((same₆.trans same₅).trans same₄).trans same₃).trans same₂).trans same₁⟩
    rw [parseVersion, bind_of_some slash, bind_of_some first, bind_of_some stored,
      bind_of_some dot_, bind_of_some second, bind_of_some stored']
    unfold checkVersion
    rw [if_pos]
    · rfl
    · exact known

/-! ## Fields -/

/-- A parameter of a field. -/
def parameterGrammar : Grammar UInt8 :=
  Grammar.token.seq ((Grammar.word isspace).seq ((Grammar.word isKeyByte).seq
    (Grammar.token.seq ((Grammar.word isspace).seq ((Grammar.word isValueByte).seq
      (Grammar.word isBlank))))))

/-- A parameter, up to the delimiter behind it. -/
theorem recognizes_parseParameter (own : OfError view) (parameters : List Rfc822Parameter) :
    Recognizes view parameterGrammar (parseParameter parameters) :=
  Recognizes.step.bind fun _ => (Recognizes.skip _).bind fun _ =>
    (recognizes_token own _ _).bind fun _ => Recognizes.step.bind fun _ =>
      (Recognizes.skip _).bind fun _ => (recognizes_token own _ _).bind fun _ =>
        (Recognizes.skip _).followed fun _ => .pure _

/-- No white space stands under the pointer. -/
def beginsField (text : Bytes) : Bool :=
  !isspace (text.headD 0)

/-- Folded lines are refused. -/
theorem recognizes_refuseContinuation :
    Recognizes view (Grammar.guard beginsField) refuseContinuation where
  stops := by
    intro text stopped exec
    cases space : isspace (text.headD 0) with
    | false =>
        rw [Grammar.guard_of_pos (by rw [beginsField, space]; rfl)] at stopped
        cases stopped
    | true =>
        simp only [refuseContinuation, bind_apply, Scanner.current, space, if_true]
        rfl
  goes := by
    intro text rest read exec
    cases space : isspace (text.headD 0) with
    | false =>
        rw [Grammar.guard_of_pos (by rw [beginsField, space]; rfl)] at read
        cases read
        refine ⟨(), exec, ?_, rfl⟩
        simp only [refuseContinuation, bind_apply, Scanner.current, space, Bool.false_eq_true,
          if_false]
        rfl
    | true =>
        rw [Grammar.guard_of_neg (by rw [beginsField, space]; exact Bool.false_ne_true)] at read
        cases read

/-- A field with its line end. -/
def fieldGrammar : Grammar UInt8 :=
  Grammar.some_.seq ((Grammar.guard beginsField).seq ((Grammar.word isNameByte).seq
    (Grammar.token.seq ((Grammar.word isspace).seq ((Grammar.word isValueByte).seq
      ((Grammar.rounds atLineEnd parameterGrammar).seq (Grammar.token.seq
        ((Grammar.guard (here 10)).seq fun text => some text.tail))))))))

/-- One field with its parameters. -/
theorem recognizes_parseMsgHdr (own : OfError view) :
    Recognizes view fieldGrammar parseMsgHdr :=
  Recognizes.need.bind fun _ => recognizes_refuseContinuation.bind fun _ =>
    (recognizes_token own _ _).bind fun _ => Recognizes.step.bind fun _ =>
      (Recognizes.skip _).bind fun _ => (recognizes_token own _ _).bind fun _ =>
        (Recognizes.loop (recognizes_parseParameter own) _).bind fun _ =>
          Recognizes.step.bind fun _ => (recognizes_require _ _ _).bind fun _ =>
            Recognizes.advance.followed fun _ => recognizes_assign own _

/-- The fields up to the empty line. -/
def fieldsGrammar : Grammar UInt8 :=
  Grammar.rounds atLineEnd (fieldGrammar.seq Grammar.some_)

/-- The fields up to the empty line. -/
theorem recognizes_parseMsgHdrs (own : OfError view) :
    Recognizes view fieldsGrammar parseMsgHdrs :=
  .loop (fun _ => (recognizes_parseMsgHdr own).bind fun _ => .need) ()

/-! ## Requests -/

/-- One of some methods, with a byte behind it. -/
def methodGrammar : List HTTPMethod → Grammar UInt8
  | [] => fun _ => none
  | method :: others =>
      Grammar.cond (startsWithNoCase method.name) (Grammar.many method.name.length)
        (methodGrammar others)

/-- The first method of the table that the text begins with. -/
theorem recognizes_parseMethodFrom (own : OfError view) (methods : List HTTPMethod) :
    Recognizes view (methodGrammar methods) (parseMethodFrom methods) := by
  induction methods with
  | nil => exact recognizes_fail _ _
  | cons method methods ih =>
      exact .cond ((Recognizes.advanceBy _).followed fun _ => recognizes_assign own _) ih

/-- The start of a URL. -/
def startGrammar : Grammar UInt8 :=
  fun text =>
    if text.headD 0 = 0 ∨ (text.dropWhile isspace).isEmpty = true then none
    else some (text.dropWhile isspace)

/-- White space in front of a URL is skipped, and the URL is not empty. -/
theorem recognizes_parseStart : Recognizes Exec.error startGrammar URL.parseStart where
  stops := by
    intro text stopped exec
    rw [URL.parseStart_run]
    unfold startGrammar at stopped
    split
    · rfl
    · rename_i starts
      rw [if_neg starts] at stopped
      cases stopped
  goes := by
    intro text rest read exec
    rw [URL.parseStart_run]
    unfold startGrammar at read
    split
    · rename_i ends
      rw [if_pos ends] at read
      cases read
    · rename_i starts
      rw [if_neg starts] at read
      cases read
      exact ⟨_, _, rfl, rfl⟩

/-- A parser of the URL, made on the request. -/
theorem recognizes_onUri {ν : Type} {inner : Exec URL → ν} {grammar : Grammar UInt8} {α : Type}
    {body : Parse URL α} (recognizes : Recognizes inner grammar body)
    (same : ∀ (exec : Exec HTTPFraming) (url : Exec URL),
      inner url = inner { obj := exec.obj.uri, error := exec.error, overrun := exec.overrun } →
        view { obj := { exec.obj with uri := url.obj }, error := url.error
               overrun := url.overrun } = view exec) :
    Recognizes view grammar (onUri body) :=
  recognizes.zoom same

/-- A request line up to its URI. -/
theorem recognizes_parseBeforeUri :
    Recognizes Exec.error
      ((methodGrammar parsedMethods).seq ((byteGrammar 32).seq startGrammar)) parseBeforeUri :=
  (recognizes_parseMethodFrom ofError_error _).bind fun _ => (recognizes_expectStep _ _).bind
    fun _ => recognizes_onUri recognizes_parseStart fun _ _ same => same

/-- A part of a URL, if the byte that introduces it is there. -/
def partGrammar (introduction : UInt8) (test : UInt8 → Bool) : Grammar UInt8 :=
  Grammar.cond (fun text => text.head?.any (· == introduction))
    (Grammar.token.seq (Grammar.run test)) some

/-- A part of a URL that its introduction announces. -/
theorem recognizes_whenAt {introduction : UInt8} {test : UInt8 → Bool} {part otherwise : Parse URL Unit}
    (inner : Recognizes (fun _ => ()) (Grammar.run test) part)
    (outer : Recognizes (fun _ => ()) some otherwise) :
    Recognizes (fun _ => ()) (partGrammar introduction test)
      (URL.whenAt introduction part otherwise) :=
  .cond (Recognizes.step.bind fun _ => inner) outer

/-- A URL behind its scheme. -/
def hierarchyGrammar : Grammar UInt8 :=
  (Grammar.run URL.isHostByte).seq ((partGrammar 58 isdigit).seq
    ((partGrammar 47 URL.isPathWordByte).seq ((partGrammar URL.kQueryStart URL.isQueryWordByte).seq
      (partGrammar URL.kFragmentStart URL.isFragmentByte))))

/-- Host, port, path, query and fragment. -/
theorem recognizes_parseHierarchy (defaultPort : UInt16) :
    Recognizes (fun _ => ()) hierarchyGrammar (URL.parseHierarchy defaultPort) := by
  have word (test : UInt8 → Bool) {change : Bytes → Exec URL → Exec URL} :
      Recognizes (fun _ => ()) (Grammar.run test)
        (Parse.word URL.kURLMaxSize test >>= fun text => Scanner.update (change text) :
          Parse URL Unit) :=
    (recognizes_word ofError_nothing _ _).followed fun _ => .update fun _ => rfl
  exact (word _).bind fun _ => (recognizes_whenAt (word _) (.update fun _ => rfl)).bind fun _ =>
    (recognizes_whenAt (word _) (.pure _)).bind fun _ =>
      (recognizes_whenAt (word _) (.pure _)).bind fun _ => recognizes_whenAt (word _) (.pure _)

/-- A URL from its first byte on. -/
def urlGrammar (stale : Bytes) : Grammar UInt8 :=
  Grammar.cond (fun text => URL.schemeAhead (text ++ stale))
    (((Grammar.word (· != 58)).seq (Grammar.many 3)).seq hierarchyGrammar) hierarchyGrammar

/-- A URL; whether it has a scheme is decided with the bytes behind the window. -/
theorem recognizes_parseUrl (stale : Bytes) (defaultPort : UInt16) :
    Recognizes (fun _ => ()) (urlGrammar stale)
      (Scanner.lookahead (fun text => URL.schemeAhead (text ++ stale)) >>=
        URL.parseParts defaultPort) := by
  have scheme : Recognizes (fun _ => ()) ((Grammar.word (· != 58)).seq (Grammar.many 3))
      URL.parseScheme :=
    (recognizes_token ofError_nothing _ _).bind fun _ =>
      (recognizes_assign ofError_nothing _).preceded fun _ => .advanceBy 3
  exact .cond (scheme.bind fun _ => recognizes_parseHierarchy defaultPort)
    (recognizes_parseHierarchy defaultPort)

/-- The version of a request, with its line end. -/
def requestLineGrammar : Grammar UInt8 :=
  Grammar.some_.seq ((byteGrammar 32).seq (versionGrammar.seq
    ((byteGrammar 13).seq (byteGrammar 10))))

/-- The end of the request line. -/
theorem recognizes_parseRequestVersion (own : OfError view) :
    Recognizes view requestLineGrammar parseRequestVersion :=
  Recognizes.need.bind fun _ => (recognizes_expectStep _ _).bind fun _ =>
    (recognizes_parseVersion own _ _).bind fun _ => (recognizes_expectStep _ _).bind fun _ =>
      recognizes_expectStep _ _

/-- The fields of a request, and the empty line. -/
def requestFieldsGrammar : Grammar UInt8 :=
  fieldsGrammar.seq ((byteGrammar 13).seq (byteGrammar 10))

/-- The fields of a request and the empty line. -/
theorem recognizes_parseRequestFields (own : OfError view) :
    Recognizes view requestFieldsGrammar parseRequestFields :=
  .onStop _ ((recognizes_parseMsgHdrs own).bind fun _ => (recognizes_expectStep _ _).bind fun _ =>
    recognizes_expectStep _ _)

/-- A test of the length reads nothing. -/
theorem recognizes_atLeast (count : Nat) :
    Recognizes view (Grammar.guard fun text => decide (count ≤ text.length)) (atLeast count) where
  stops := by
    intro text stopped exec
    unfold atLeast
    split
    · rfl
    · rename_i enough
      rw [Grammar.guard_of_pos (decide_eq_true (Nat.not_lt.mp enough))] at stopped
      cases stopped
  goes := by
    intro text rest read exec
    unfold atLeast
    split
    · rename_i short
      rw [Grammar.guard_of_neg (by simpa using short)] at read
      cases read
    · rename_i enough
      rw [Grammar.guard_of_pos (decide_eq_true (Nat.not_lt.mp enough))] at read
      cases read
      exact ⟨(), exec, rfl, rfl⟩

/-- The header of a request. -/
def requestGrammar (stale : Bytes) : Grammar UInt8 :=
  (Grammar.guard fun text => decide (16 ≤ text.length)).seq ((methodGrammar parsedMethods).seq
    ((byteGrammar 32).seq ((startGrammar.seq (urlGrammar stale)).seq
      (requestLineGrammar.seq requestFieldsGrammar))))

/-- A request header is read exactly when it is one by the grammar. -/
theorem recognizes_parseRequestHdr (stale : Bytes) (defaultPort : UInt16) :
    Recognizes (fun _ => ()) ((Grammar.run isspace).seq (requestGrammar stale))
      (parseRequestHdr stale defaultPort) := by
  have url : Recognizes (fun _ => ()) (startGrammar.seq (urlGrammar stale))
      (onUri (URL.initFromBuf stale defaultPort)) :=
    recognizes_onUri (recognizes_parseStart.forget.bind fun _ =>
      recognizes_parseUrl stale defaultPort) fun _ _ _ => rfl
  exact (Recognizes.skipWhile _).bind fun _ => (recognizes_atLeast 16).bind fun _ =>
    (recognizes_parseMethodFrom ofError_nothing _).bind fun _ =>
      (recognizes_expectStep _ _).bind fun _ => url.bind fun _ =>
        (recognizes_parseRequestVersion ofError_nothing).bind fun _ =>
          (recognizes_parseRequestFields ofError_nothing).followed fun _ =>
            recognizes_assign ofError_nothing _

/-! ## Responses -/

/-- A status line. -/
def statusLineGrammar : Grammar UInt8 :=
  versionGrammar.seq ((byteGrammar 32).seq ((Grammar.word isdigit).seq ((byteGrammar 32).seq
    ((Grammar.word isPhraseByte).seq ((byteGrammar 13).seq (byteGrammar 10))))))

/-- The status line with its code and phrase. -/
theorem recognizes_parseStatusLine (own : OfError view) :
    Recognizes view statusLineGrammar parseStatusLine :=
  (recognizes_parseVersion own _ _).bind fun _ => (recognizes_expectStep _ _).bind fun _ =>
    (recognizes_number own).bind fun _ => (recognizes_assign own _).preceded fun _ =>
      (recognizes_expectStep _ _).bind fun _ => (recognizes_token own _ _).bind fun _ =>
        (recognizes_expectStep _ _).bind fun _ => recognizes_expectStep _ _

/-- The header of a response. -/
def responseGrammar : Grammar UInt8 :=
  statusLineGrammar.seq (fieldsGrammar.seq (Grammar.token.seq
    ((Grammar.guard (here 10)).seq fun text => some text.tail)))

/-- A response header is read exactly when it is one by the grammar. -/
theorem recognizes_parseResponseHeader (own : OfError view) :
    Recognizes view ((Grammar.run isspace).seq responseGrammar) parseResponseHeader :=
  (Recognizes.skipWhile _).bind fun _ => (recognizes_parseStatusLine own).bind fun _ =>
    (Recognizes.onStop _ (recognizes_parseMsgHdrs own)).bind fun _ =>
      .onStop _ (Recognizes.step.bind fun _ => (recognizes_require _ _ _).bind fun _ =>
        (recognizes_assign own _).preceded fun _ => .advance)

end HTTPFraming

end IpUtils
