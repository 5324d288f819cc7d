import IpUtils.HTTP.HeaderLine
import IpUtils.HTTP.Numbers
import IpUtils.HTTP.Pending

/-! # Parsers that conclude

A parser concludes when it goes on or raises an event. The parsers of a header do when no scan over
the text of the header comes to the end of the text.
-/

namespace IpUtils

open CLib Scanner

/-! ## Going on or raising an event -/

section Concludes

variable {ω α β : Type}

/-- A parser has gone on with what stands behind it, or it has raised an event. -/
def Concluded (after : Bytes → Prop) (outcome : Option (α × Bytes) × Exec ω) : Prop :=
  match outcome with
  | (some (_, rest), _) => after rest
  | (none, exec) => exec.error.event = true

/-- From such windows, the parser goes on or raises an event. -/
def Concludes (before : Bytes → Prop) (parser : Parse ω α) (after : Bytes → Prop) : Prop :=
  ∀ window exec, before window → Concluded after (parser window exec)

namespace Concludes

variable {before between after : Bytes → Prop} {test : UInt8 → Bool}

theorem bind {first : Parse ω α} {next : α → Parse ω β} (head : Concludes before first between)
    (tail : ∀ value, Concludes between (next value) after) :
    Concludes before (first >>= next) after := by
  intro window exec holds
  have start := head window exec holds
  rw [bind_apply]
  rcases outcome : first window exec with ⟨none_ | ⟨value, rest⟩, exec'⟩
  · rw [outcome] at start
    exact start
  · rw [outcome] at start
    exact tail value rest exec' start

theorem mono {before' after' : Bytes → Prop} {parser : Parse ω α}
    (concludes : Concludes before parser after) (weaker : ∀ window, before' window → before window)
    (stronger : ∀ window, after window → after' window) : Concludes before' parser after' := by
  intro window exec holds
  have start := concludes window exec (weaker window holds)
  rcases outcome : parser window exec with ⟨none_ | ⟨value, rest⟩, exec'⟩
  · rw [outcome] at start
    exact start
  · rw [outcome] at start
    exact stronger rest start

/-- What is known of every success is known of what stands behind an answer. -/
theorem stands {parser : Parse ω α} {window : Bytes}
    (concludes : Concludes (· = window) parser after)
    (known : ∀ exec value rest exec', parser window exec = (some (value, rest), exec') →
      between rest) : Concludes (· = window) parser fun rest => after rest ∧ between rest := by
  rintro _ exec rfl
  have start := concludes _ exec rfl
  rcases outcome : parser _ exec with ⟨none_ | ⟨value, rest⟩, exec'⟩
  · rw [outcome] at start
    exact start
  · rw [outcome] at start
    exact ⟨start, known _ _ _ _ outcome⟩

theorem pure (value : α) : Concludes before (Pure.pure value : Parse ω α) before :=
  fun _ _ holds => holds

theorem assign (change : ω → ω) : Concludes before (Parse.assign change) before :=
  fun _ _ holds => holds

theorem need (inhabited : ∀ window, before window → window ≠ []) :
    Concludes before (Scanner.need : Parse ω Unit) before := by
  intro window exec holds
  have some_ : window.isEmpty = false := List.isEmpty_eq_false_iff.mpr (inhabited window holds)
  rw [Scanner.need, some_]
  exact holds

theorem step (left : ∀ window, before window → window.tail ≠ [] ∧ after window.tail) :
    Concludes before (Scanner.step : Parse ω Unit) after := by
  intro window exec holds
  obtain ⟨inhabited, behind⟩ := left window holds
  rw [step_run inhabited]
  exact behind

theorem skip (left : ∀ window, before window →
      window.dropWhile test ≠ [] ∧ after (window.dropWhile test)) :
    Concludes before (Scanner.skip test : Parse ω Unit) after := by
  intro window exec holds
  obtain ⟨inhabited, behind⟩ := left window holds
  rw [skip_run inhabited]
  exact behind

theorem token {capacity : Nat} (left : ∀ window, before window →
      window.dropWhile test ≠ [] ∧ after (window.dropWhile test)) :
    Concludes before (Parse.token capacity test : Parse ω Bytes) after := by
  intro window exec holds
  obtain ⟨inhabited, behind⟩ := left window holds
  obtain ⟨overrun, ran⟩ := @token_run _ _ _ capacity inhabited exec
  rw [ran]
  exact behind

theorem require {wanted : UInt8} {format : String} {args : Nat → List FmtArg} :
    Concludes before (Parse.require wanted format args : Parse ω Unit)
      fun window => before window ∧ window.headD 0 = wanted := by
  intro window exec holds
  by_cases here : window.headD 0 = wanted
  · simp only [Parse.require, bind_apply, Scanner.current, here, ne_eq, not_true_eq_false,
      if_false]
    exact ⟨holds, here⟩
  · rw [Parse.require_of_ne here]
    exact ErrorHandler.event_init exec.error _ _ _

theorem expectStep {wanted : UInt8} {format : String}
    (left : ∀ window, before window → window.headD 0 = wanted →
      window.tail ≠ [] ∧ after window.tail) :
    Concludes before (Parse.expectStep wanted format : Parse ω Unit) after :=
  require.bind fun _ => step fun window holds => left window holds.1 holds.2

variable {text : Bytes}

theorem onStop {parser : Parse ω α} {change : Exec ω → Exec ω}
    (concludes : Concludes before parser after)
    (raised : ∀ exec, exec.error.event = true → (change exec).error.event = true) :
    Concludes before (Scanner.onStop change parser) after := by
  intro window exec holds
  have start := concludes window exec holds
  unfold Scanner.onStop
  rcases outcome : parser window exec with ⟨none_ | ⟨value, rest⟩, exec'⟩
  · rw [outcome] at start
    exact raised exec' start
  · rw [outcome] at start
    exact start

end Concludes

end Concludes

/-! ## The empty line ahead -/

/-- The empty line stands ahead, and a byte behind it. -/
def EmptyLineAhead (window : Bytes) : Prop :=
  ∃ front behind, behind ≠ [] ∧ window = front ++ 13 :: 10 :: 13 :: 10 :: behind

section EmptyLineAhead

variable {window : Bytes}

/-- A byte that is no carriage return stands in front of the empty line. -/
theorem EmptyLineAhead.tail (ahead : EmptyLineAhead window) (other : window.headD 0 ≠ 13) :
    window.tail ≠ [] ∧ EmptyLineAhead window.tail := by
  obtain ⟨front, behind, inhabited, rfl⟩ := ahead
  cases front with
  | nil => exact absurd rfl other
  | cons c front => exact ⟨by simp, front, behind, inhabited, rfl⟩

theorem EmptyLineAhead.length_le (ahead : EmptyLineAhead window) : 5 ≤ window.length := by
  obtain ⟨front, behind, inhabited, rfl⟩ := ahead
  have positive := List.length_pos_iff.mpr inhabited
  simp only [List.length_append, List.length_cons]
  omega

/-- A part without a carriage return stands in front of the empty line. -/
theorem EmptyLineAhead.behind {consumed rest : Bytes} (ahead : EmptyLineAhead (consumed ++ rest))
    (plain : ∀ c ∈ consumed, (c != 13) = true) : EmptyLineAhead rest := by
  induction consumed with
  | nil => exact ahead
  | cons c consumed ih =>
      have other : c ≠ 13 := by simpa using plain c (List.mem_cons_self ..)
      exact ih (ahead.tail other).2 fun d member => plain d (List.mem_cons_of_mem c member)

end EmptyLineAhead

namespace HTTPFraming

/-- The number that a text begins with. -/
def numberAt (text : Bytes) : Int :=
  toInt (strtol 10 (text.takeWhile isdigit))

/-- What stands behind the dot of a version. -/
def minorAt (text : Bytes) : Bytes :=
  (text.dropWhile isdigit).tail

/-- What stands behind the numbers of a version. -/
def behindVersion (text : Bytes) : Bytes :=
  (minorAt text).dropWhile isdigit

/-- The numbers of a version have a dot between them, and the version is known. -/
def versionReads (text : Bytes) : Bool :=
  (text.dropWhile isdigit).headD 0 == 46 && knownVersion (numberAt text) (numberAt (minorAt text))

/-- The numbers of a version do not run to the end of the text. -/
def versionEnds (text : Bytes) : Bool :=
  !(text.dropWhile isdigit).isEmpty &&
    ((text.dropWhile isdigit).headD 0 != 46 || !(behindVersion text).isEmpty)

theorem versionEnds_iff {text : Bytes} :
    versionEnds text = true ↔ text.dropWhile isdigit ≠ [] ∧
      ((text.dropWhile isdigit).headD 0 = 46 → behindVersion text ≠ []) := by
  simp only [versionEnds, Bool.and_eq_true, Bool.not_eq_true', List.isEmpty_eq_false_iff,
    Bool.or_eq_true, bne_iff_ne, ne_eq, imp_iff_not_or]

/-- A version that is read has a dot and is known. -/
theorem parseVersion_reads {dot unknown : String} {window rest : Bytes}
    {exec exec' : Exec HTTPFraming} {value : Unit}
    (ran : parseVersion dot unknown window exec = (some (value, rest), exec')) :
    rest = behindVersion (window.drop kHTTPSlash.length) ∧
      versionReads (window.drop kHTTPSlash.length) = true := by
  obtain ⟨_, window₁, exec₁, word, ran₁⟩ := bind_eq_some ran
  obtain ⟨rfl, rfl⟩ := keyword_eq_some word
  obtain ⟨major, window₂, exec₂, number, ran₂⟩ := bind_eq_some ran₁
  obtain ⟨rfl, rfl, -⟩ := number_eq_some number
  obtain ⟨_, window₃, exec₃, set, ran₃⟩ := bind_eq_some ran₂
  obtain ⟨rfl, rfl⟩ := update_eq_some set
  obtain ⟨_, window₄, exec₄, dot_, ran₄⟩ := bind_eq_some ran₃
  obtain ⟨rfl, rfl, -, here⟩ := Parse.expectStep_eq_some dot_
  obtain ⟨minor, window₅, exec₅, number', ran₅⟩ := bind_eq_some ran₄
  obtain ⟨rfl, rfl, -⟩ := number_eq_some number'
  obtain ⟨_, window₆, exec₆, set', check⟩ := bind_eq_some ran₅
  obtain ⟨rfl, rfl⟩ := update_eq_some set'
  unfold checkVersion at check
  split at check
  · rename_i known
    cases check
    refine ⟨rfl, ?_⟩
    rw [versionReads, here, minorAt, numberAt, numberAt, known]
    rfl
  · cases check

/-- The text of a URL from the query on. -/
def queryText (stale text : Bytes) : Bytes :=
  URL.behindPart 47 URL.isPathWordByte (URL.behindPart 58 isdigit
    ((URL.behindScheme stale text).dropWhile URL.isHostByte))

/-- `set_query` refuses the query that a text begins with. -/
def queryRefused (text : Bytes) : Bool :=
  decide (text.head? = some URL.kQueryStart) &&
    (let query := cstr (text.tail.takeWhile URL.isQueryWordByte)
     URL.setQuery (some query) query.length { obj := {}, error := {} }).error.event

/-- A key without a delimiter raises an event. -/
theorem queryPair_refuses {text : Bytes}
    (other : (text.dropWhile URL.isKeyByte).headD 0 ≠ URL.kKeyValueDelimiter)
    (queryBuf : Bytes) (exec : Exec URL) :
    ∃ exec', URL.queryPair queryBuf text exec = (none, exec') ∧ exec'.error.event = true := by
  obtain ⟨copied, copies⟩ := URL.copyWhile_run URL.kURLMaxSize URL.isKeyByte text exec
  have stops := @Parse.require_of_ne _ _ { exec with overrun := copied } _ other
    "URL::set_query(): buf (%s) does not have a '%c'"
    fun _ => [.str (cstr queryBuf), .num URL.kKeyValueDelimiter.toNat]
  exact ⟨_, (bind_of_some copies).trans (bind_of_none stops), ErrorHandler.event_init _ _ _ _⟩

/-- Whether the loop raises an event does not depend on the state. -/
theorem event_queryPairs (queryBuf text : Bytes) (exec fresh : Exec URL)
    (calm : fresh.error.event = false) :
    (URL.queryPairs queryBuf text exec).2.error.event =
      (exec.error.event || (URL.queryPairs queryBuf text fresh).2.error.event) := by
  induction size : text.length using Nat.strongRecOn generalizing text exec fresh with
  | ind size ih =>
      simp only [URL.queryPairs] at ih ⊢
      rw [loop_apply, loop_apply]
      cases text with
      | nil =>
          rw [List.isEmpty_nil, if_pos rfl, if_pos rfl, calm, Bool.or_false]
      | cons first others =>
          rw [List.isEmpty_cons, if_neg Bool.false_ne_true, if_neg Bool.false_ne_true]
          rcases URL.queryPair_cases queryBuf (first :: others) exec with
            ⟨rest, overrun, shape, round⟩ | ⟨other, -⟩
          · rcases URL.queryPair_cases queryBuf (first :: others) fresh with
              ⟨rest', overrun', shape', round'⟩ | ⟨other, -⟩
            · obtain rfl := (List.cons.inj (shape.symm.trans shape')).2
              have outer := (List.dropWhile_suffix URL.isKeyByte (l := first :: others)).length_le
              have inner := URL.length_behindValue rest
              rw [shape, List.length_cons] at outer
              rw [round, round']
              dsimp only
              rw [if_pos (by omega), if_pos (by omega)]
              exact ih _ (by omega) (URL.behindValue rest) _ _ calm rfl
            · rw [shape] at other
              exact absurd rfl other
          · obtain ⟨exec', stops, raised⟩ := queryPair_refuses other queryBuf exec
            obtain ⟨fresh', stops', raised'⟩ := queryPair_refuses other queryBuf fresh
            rw [stops, stops']
            dsimp only
            rw [raised, raised', Bool.or_true]

theorem event_setQuery (query : Bytes) (exec : Exec URL) :
    (URL.setQuery (some query) query.length exec).error.event = (exec.error.event ||
      (URL.setQuery (some query) query.length { obj := {}, error := {} }).error.event) := by
  unfold URL.setQuery
  dsimp only
  split
  · rw [ErrorHandler.event_init, ErrorHandler.event_init, Bool.or_true]
  · exact event_queryPairs _ _ _ _ rfl

theorem setQuery_nil (exec : Exec URL) : URL.setQuery (some []) 0 exec = exec := by
  have short : ¬(([] : Bytes).getD 0 0 ≠ 0 ∨ URL.kURLMaxSize < 0) := by decide
  unfold URL.setQuery
  dsimp only
  rw [if_neg short, URL.queryPairs, show readMemory [] 0 = [] from rfl, loop_apply]
  rfl

/-- A path without a query in it raises no event. -/
theorem error_setPath {path : Bytes} (plain : ∀ c ∈ path, c ≠ URL.kQueryStart) (exec : Exec URL) :
    (URL.setPath (some path) path.length exec).error = exec.error := by
  unfold URL.setPath
  dsimp only
  split
  · rfl
  split
  · rfl
  split
  · rename_i head
    cases shape : path.drop ((path.take path.length).takeWhile URL.isPathByte).length with
    | nil =>
        rw [shape] at head
        exact absurd head (by decide)
    | cons c rest =>
        rw [shape] at head
        have member : c ∈ path := List.mem_of_mem_drop (shape ▸ List.mem_cons_self ..)
        exact absurd head (plain c member)
  split
  · rfl
  · rfl

theorem keeps_error_parsePath (error : ErrorHandler) :
    Keeps (fun exec : Exec URL => exec.error = error) URL.parsePath := by
  refine URL.whenAt_keeps ?_ (Keeps.pure _)
  intro window exec same
  refine (error_setPath (fun c member => ?_) _).trans same
  have passes := List.mem_takeWhile_imp ((List.takeWhile_prefix _).subset member)
  rintro rfl
  exact absurd passes (by decide)

/-- What raises an event behind a part that raises none. -/
theorem event_behind {first second : Parse URL Unit} {next : Bytes → Bytes}
    (walks : URL.Walks first next)
    (kept : ∀ error, Keeps (fun exec : Exec URL => exec.error = error) first)
    {raises : Bytes → Bool} (empty : raises [] = false)
    (tail : ∀ window exec, (second window exec).2.error.event =
      (exec.error.event || raises window)) (window : Bytes) (exec : Exec URL) :
    ((first >>= fun _ => second) window exec).2.error.event =
      (exec.error.event || raises (next window)) := by
  have same := kept exec.error window exec rfl
  rw [bind_apply]
  rcases outcome : first window exec with ⟨none_ | ⟨value, rest⟩, exec'⟩
  · rw [outcome] at same
    rw [walks.stops window exec (by rw [outcome]), empty, Bool.or_false]
    exact congrArg ErrorHandler.event same
  · rw [outcome] at same
    rw [← walks.stands window exec rest (by rw [outcome])]
    exact (tail rest exec').trans (by rw [show exec'.error = exec.error from same])

theorem event_parseQuery (window : Bytes) (exec : Exec URL) :
    ((URL.parseQuery >>= fun _ => URL.parseFragment) window exec).2.error.event =
      (exec.error.event || queryRefused window) := by
  have fragment (error : ErrorHandler) :
      Keeps (fun exec : Exec URL => exec.error = error) URL.parseFragment := by
    refine URL.whenAt_keeps (fun window exec same => ?_) (Keeps.pure _)
    exact same
  have query : (URL.parseQuery window exec).2.error.event =
      (exec.error.event || queryRefused window) := by
    rw [URL.parseQuery, URL.whenAt_run, queryRefused]
    split
    · rename_i head
      rw [decide_eq_true head, Bool.true_and]
      split
      · rename_i empty
        rw [empty]
        change _ = (_ || (URL.setQuery (some []) 0 { obj := {}, error := {} }).error.event)
        rw [setQuery_nil]
        exact (Bool.or_false _).symm
      · exact event_setQuery _ _
    · rename_i head
      rw [decide_eq_false head, Bool.false_and, Bool.or_false]
      rfl
  rw [bind_apply]
  rcases outcome : URL.parseQuery window exec with ⟨none_ | ⟨value, rest⟩, exec'⟩
  · rw [outcome] at query
    exact query
  · rw [outcome] at query
    exact (congrArg ErrorHandler.event (fragment exec'.error rest exec' rfl)).trans query

theorem event_parseHierarchy (defaultPort : UInt16) (window : Bytes) (exec : Exec URL) :
    (URL.parseHierarchy defaultPort window exec).2.error.event = (exec.error.event ||
      queryRefused (URL.behindPart 47 URL.isPathWordByte (URL.behindPart 58 isdigit
        (window.dropWhile URL.isHostByte)))) := by
  have port (error : ErrorHandler) :
      Keeps (fun exec : Exec URL => exec.error = error) (URL.parsePort defaultPort) :=
    URL.whenAt_keeps (fun _ _ same => same) (fun _ _ same => same)
  unfold URL.parseHierarchy
  refine @event_behind _ _ _ URL.walks_parseHost (fun _ _ _ same => same) (fun text =>
    queryRefused (URL.behindPart 47 URL.isPathWordByte (URL.behindPart 58 isdigit text))) rfl ?_
    window exec
  refine @event_behind _ _ _ (URL.walks_parsePort defaultPort) port (fun text =>
    queryRefused (URL.behindPart 47 URL.isPathWordByte text)) rfl ?_
  exact @event_behind _ _ _ URL.walks_parsePath keeps_error_parsePath queryRefused rfl
    event_parseQuery

/-- A URL raises an event if and only if its query is refused. -/
theorem event_parseParts (stale text : Bytes) (defaultPort : UInt16) (exec : Exec URL) :
    (URL.parseParts defaultPort (URL.schemeAhead (text ++ stale)) text exec).2.error.event =
      (exec.error.event || queryRefused (queryText stale text)) := by
  have scheme (error : ErrorHandler) :
      Keeps (fun exec : Exec URL => exec.error = error) URL.parseScheme := by
    have token : Keeps (fun exec : Exec URL => exec.error = error)
        (Parse.token URL.kURLMaxSize (· != 58) : Parse URL Bytes) :=
      Keeps.bind (fun _ _ same => same) fun _ => Keeps.need.bind fun _ _ _ same => same
    exact token.bind fun _ => Keeps.bind (fun _ _ same => same) fun _ => Keeps.advanceBy 3
  unfold queryText URL.behindScheme URL.parseParts
  split
  · rename_i ahead
    refine @event_behind _ _ _ URL.walks_parseScheme scheme (fun text => queryRefused
      (URL.behindPart 47 URL.isPathWordByte (URL.behindPart 58 isdigit
        (text.dropWhile URL.isHostByte)))) rfl ?_ text exec
    exact event_parseHierarchy defaultPort
  · exact event_parseHierarchy defaultPort text exec

/-! ## The method -/

end HTTPFraming

end IpUtils
