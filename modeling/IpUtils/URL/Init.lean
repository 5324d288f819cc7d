import IpUtils.URL.Taint

/-! # Initialising a URL twice

What `URL::Init` stores is a function of its arguments. What it leaves of the URL that was there
before is every component for which it has got nothing, and the whole query.
-/

namespace IpUtils

open CLib Scanner

namespace URL

/-! ## What a call stores -/

/-- What a call of `Init` stores: a text for every component that it sets, and pairs. -/
structure Stored where
  scheme : Option Bytes := none
  host : Option Bytes := none
  port : Option UInt16 := none
  path : Option Bytes := none
  pairs : List UrlQueryInfo := []
  fragment : Option Bytes := none
  deriving DecidableEq, Repr

/-- The URL with what is stored in it. -/
def Stored.into (stored : Stored) (url : URL) : URL :=
  { scheme := stored.scheme.getD url.scheme
    host := stored.host.getD url.host
    port := stored.port.getD url.port
    path := stored.path.getD url.path
    query := url.query ++ stored.pairs
    fragment := stored.fragment.getD url.fragment }

/-- A call that stores the same in every URL. -/
def Stores (call : Exec URL → Exec URL) (stored : Stored) : Prop :=
  ∀ exec, (call exec).obj = stored.into exec.obj

/-- What the second call stores goes on top of what the first has stored. -/
def Stored.andThen (first second : Stored) : Stored :=
  { scheme := second.scheme.or first.scheme
    host := second.host.or first.host
    port := second.port.or first.port
    path := second.path.or first.path
    pairs := first.pairs ++ second.pairs
    fragment := second.fragment.or first.fragment }

theorem Stored.into_andThen (first second : Stored) (url : URL) :
    (first.andThen second).into url = second.into (first.into url) := by
  simp only [andThen, into, List.append_assoc, Option.getD_or]

/-- A second time, only the pairs are stored again. -/
theorem Stored.into_twice (stored : Stored) (url : URL) :
    stored.into (stored.into url) =
      { stored.into url with query := (stored.into (stored.into url)).query } := by
  have again (text : Option Bytes) (old : Bytes) : text.getD (text.getD old) = text.getD old := by
    cases text <;> rfl
  have againPort (port : Option UInt16) (old : UInt16) :
      port.getD (port.getD old) = port.getD old := by
    cases port <;> rfl
  simp only [into, again, againPort]

theorem Stores.andThen {before after : Exec URL → Exec URL} {first second : Stored}
    (earlier : Stores before first) (later : Stores after second) :
    Stores (fun exec => after (before exec)) (first.andThen second) := by
  intro exec
  rw [later, earlier, Stored.into_andThen]

theorem Stores.nothing : Stores id {} := by
  intro exec
  simp [Stored.into]

/-! ## The query -/

/-- `set_query` appends pairs that depend on its arguments alone. -/
theorem stores_setQuery (queryBuf : Option Bytes) (len : Nat) :
    Stores (setQuery queryBuf len) { pairs := queryInstalls queryBuf len } := by
  intro exec
  rw [obj_setQuery]
  simp [Stored.into]

variable {queryBuf : Bytes}

/-! ## The path -/

/-- The path in front of a query or a fragment. -/
def pathFront (pathBuf : Bytes) (len : Nat) : Bytes :=
  (pathBuf.take len).takeWhile isPathByte

/-- What stands behind the path. -/
def pathBehind (pathBuf : Bytes) (len : Nat) : Bytes :=
  pathBuf.drop (pathFront pathBuf len).length

/-- `set_path` takes the text for a path with a delimiter behind it. -/
def PathEndsAt (delimiter : UInt8) (pathBuf : Bytes) (len : Nat) : Prop :=
  isStrTainted (some pathBuf) = false ∧ (pathBehind pathBuf len).headD 0 = delimiter

theorem setPath_of_untainted {pathBuf : Bytes} {len : Nat} (inhabited : len ≠ 0)
    (untainted : isStrTainted (some pathBuf) = false) (exec : Exec URL) :
    setPath (some pathBuf) len exec =
      let exec : Exec URL :=
        { exec with
          obj := { exec.obj with path := pathFront pathBuf len }
          overrun := exec.overrun || PATH_MAX + 1 ≤ (pathFront pathBuf len).length }
      if (pathBehind pathBuf len).headD 0 = kQueryStart then
        setQuery (some (pathBehind pathBuf len))
          (toSize (len - ((pathFront pathBuf len).length + 1 : Nat))) exec
      else if (pathBehind pathBuf len).headD 0 = kFragmentStart then
        { exec with obj := setFragment (some (pathBehind pathBuf len)) exec.obj }
      else exec := by
  rw [setPath, if_neg inhabited, if_neg (by simp [untainted])]
  rfl

/-- What `set_path` does not store. -/
structure Stored.PathOnly (stored : Stored) : Prop where
  scheme : stored.scheme = none
  host : stored.host = none
  port : stored.port = none
  path : stored.path ≠ none

/-- `set_path` stores a path, and the fragment or the pairs behind it. -/
theorem exists_stores_setPath (pathBuf : Bytes) {len : Nat} (inhabited : len ≠ 0) :
    ∃ stored : Stored, Stores (setPath (some pathBuf) len) stored ∧ stored.PathOnly ∧
      (stored.fragment = none ↔ ¬PathEndsAt kFragmentStart pathBuf len) := by
  cases tainted : isStrTainted (some pathBuf) with
  | true =>
      refine ⟨{ path := some kStringTainted }, fun exec => ?_, ⟨rfl, rfl, rfl, by simp⟩, ?_⟩
      · simp [setPath, inhabited, tainted, Stored.into]
      · simp [PathEndsAt, tainted]
  | false =>
      have untainted := setPath_of_untainted inhabited tainted
      by_cases query : (pathBehind pathBuf len).headD 0 = kQueryStart
      · let count := toSize (len - ((pathFront pathBuf len).length + 1 : Nat))
        refine ⟨{ path := some (pathFront pathBuf len)
                  pairs := queryInstalls (some (pathBehind pathBuf len)) count }, fun exec => ?_,
          ⟨rfl, rfl, rfl, by simp⟩, ?_⟩
        · rw [untainted, if_pos query]
          exact stores_setQuery _ count _
        · refine iff_of_true rfl fun ends => ?_
          rw [PathEndsAt, query] at ends
          exact absurd ends.2 (by decide)
      by_cases fragment : (pathBehind pathBuf len).headD 0 = kFragmentStart
      · refine ⟨{ path := some (pathFront pathBuf len)
                  fragment := some (untaint (pathBehind pathBuf len)) }, fun exec => ?_,
          ⟨rfl, rfl, rfl, by simp⟩, ?_⟩
        · rw [untainted, if_neg query, if_pos fragment]
          simp [setFragment, Stored.into]
        · simp only [PathEndsAt, tainted, fragment, and_self, not_true_eq_false, reduceCtorEq]
      · refine ⟨{ path := some (pathFront pathBuf len) }, fun exec => ?_,
          ⟨rfl, rfl, rfl, by simp⟩, ?_⟩
        · rw [untainted, if_neg query, if_neg fragment]
          simp [Stored.into]
        · simp only [PathEndsAt, fragment, and_false, not_false_eq_true]

/-! ## A query is stored with a pair in it -/

/-- Every round of the loop of `set_query` appends a pair or raises an error. -/
theorem queryPair_adds (window : Bytes) (exec : Exec URL) :
    (queryPair queryBuf window exec).2.error.event = true ∨
      ∃ rest, (queryPair queryBuf window exec).1 = some ((), rest) ∧
        rest.length < window.length ∧
        exec.obj.query.length < (queryPair queryBuf window exec).2.obj.query.length := by
  obtain ⟨text, left, exec₁, copied⟩ : ∃ text left exec₁,
      Parse.copyWhile kURLMaxSize isKeyByte window exec = (some (text, left), exec₁) :=
    ⟨_, _, _, rfl⟩
  obtain ⟨rfl, rfl, sameObj, sameError⟩ := Parse.copyWhile_eq_some copied
  rw [queryPair, bind_of_some copied]
  by_cases here : (window.dropWhile isKeyByte).headD 0 = kKeyValueDelimiter
  · have shorter := (List.dropWhile_suffix isKeyByte (l := window)).length_le
    cases shape : window.dropWhile isKeyByte with
    | nil =>
        rw [shape] at here
        exact absurd here (by decide)
    | cons delimiter rest =>
        rw [shape, List.headD_cons] at here
        rw [shape, List.length_cons] at shorter
        have behind := (List.dropWhile_suffix isValueByte (l := rest)).length_le
        rw [here, bind_of_some (Parse.require_cons _ _ _)]
        simp only [Scanner.bind_apply, Parse.terminate, Parse.word, Parse.copyWhile, Scanner.update,
          Scanner.pure_apply, Scanner.advance, Scanner.takeWhile, Parse.assign, Scanner.current,
          List.tail_cons]
        right
        split
        · refine ⟨_, rfl, ?_, ?_⟩
          · rw [List.length_tail]
            omega
          · simp [Scanner.advance, sameObj]
        · refine ⟨_, rfl, ?_, ?_⟩
          · omega
          · simp [sameObj]
  · rw [bind_of_none (Parse.require_of_ne here _ _)]
    exact .inl (ErrorHandler.event_init _ _ _ _)

/-- An error has been raised, or there are more pairs than these. -/
def Adds (count : Nat) (exec : Exec URL) : Prop :=
  exec.error.event = true ∨ count < exec.obj.query.length

theorem robust_adds (count : Nat) : Robust (Adds count) where
  raise _ _ _ raised := .inl raised
  overflow _ _ holds := holds

theorem keeps_queryPair (count : Nat) : Keeps (Adds count) (queryPair queryBuf) := by
  have robust := robust_adds count
  refine (Keeps.copyWhile robust _ _).bind fun key => ?_
  refine (Keeps.require robust _ _ _).bind fun _ => ?_
  refine (Keeps.terminate robust _ _).bind fun key => ?_
  refine Keeps.advance.bind fun _ => ?_
  refine (Keeps.word robust _ _).bind fun value => ?_
  have pushed (exec : Exec URL) (info : UrlQueryInfo) (adds : Adds count exec) :
      Adds count { exec with obj := { exec.obj with query := exec.obj.query ++ [info] } } :=
    adds.imp id fun more => by
      rw [List.length_append]
      omega
  refine (Keeps.assign fun exec adds => pushed exec _ adds).bind fun _ => ?_
  refine (Keeps.current 0).bind fun here => ?_
  exact Keeps.ite Keeps.advance (Keeps.pure _)

/-- The loop of `set_query` on a text appends a pair or raises an error. -/
theorem queryPairs_adds {window : Bytes} (inhabited : window ≠ []) (exec : Exec URL) :
    Adds exec.obj.query.length (queryPairs queryBuf window exec).2 := by
  have round := @queryPair_adds queryBuf window exec
  rw [queryPairs, loop_apply, if_neg (by simpa using inhabited)]
  rcases ran : queryPair queryBuf window exec with ⟨none_ | ⟨_, rest⟩, exec'⟩
  · rw [ran] at round
    rcases round with raised | ⟨_, stays, _⟩
    · exact .inl raised
    · cases stays
  · rw [ran] at round
    have adds : Adds exec.obj.query.length exec' := by
      rcases round with raised | ⟨_, _, _, more⟩
      · exact .inl raised
      · exact .inr more
    dsimp only
    split
    · exact Keeps.loop (fun _ => keeps_queryPair _) () rest exec' adds
    · exact adds

/-- A query text is stored with a pair or refused. -/
theorem setQuery_adds {len : Nat} (inhabited : len ≠ 0 ∨ queryBuf.headD 0 ≠ 0) (exec : Exec URL) :
    Adds exec.obj.query.length (setQuery (some queryBuf) len exec) := by
  by_cases refused : queryBuf.getD len 0 ≠ 0 ∨ kURLMaxSize < len
  · rw [setQuery, if_pos refused]
    exact .inl (ErrorHandler.event_init _ _ _ _)
  · rw [setQuery, if_neg refused]
    refine queryPairs_adds (fun empty => ?_) exec
    have length := length_readMemory queryBuf len
    rw [empty, List.length_nil] at length
    subst length
    have first : queryBuf.headD 0 ≠ 0 := inhabited.resolve_left fun positive => positive rfl
    refine refused (.inl ?_)
    rwa [List.getD_eq_getElem?_getD, ← List.head?_eq_getElem?, ← List.headD_eq_head?_getD]

theorem setQuery_keeps_adds {count : Nat} {exec : Exec URL} (adds : Adds count exec)
    (queryBuf : Option Bytes) (len : Nat) : Adds count (setQuery queryBuf len exec) := by
  cases queryBuf with
  | none => exact adds
  | some queryBuf =>
      rw [setQuery]
      split
      · exact .inl (ErrorHandler.event_init _ _ _ _)
      · exact Keeps.loop (fun _ => keeps_queryPair count) () _ exec adds

/-- A query behind the path brings a pair or an error, and nothing else changes the query. -/
theorem setPath_query (pathBuf : Bytes) {len : Nat} (inhabited : len ≠ 0) (exec : Exec URL) :
    (PathEndsAt kQueryStart pathBuf len →
        Adds exec.obj.query.length (setPath (some pathBuf) len exec)) ∧
      (¬PathEndsAt kQueryStart pathBuf len →
        (setPath (some pathBuf) len exec).obj.query = exec.obj.query) := by
  cases tainted : isStrTainted (some pathBuf) with
  | true =>
      refine ⟨fun ends => absurd tainted (Bool.eq_false_iff.mp ends.1), fun _ => ?_⟩
      rw [setPath, if_neg inhabited, if_pos tainted]
  | false =>
      rw [setPath_of_untainted inhabited tainted]
      refine ⟨fun ends => ?_, fun ends => ?_⟩
      · dsimp only
        rw [if_pos ends.2]
        refine setQuery_adds (.inr ?_) _
        rw [ends.2]
        decide
      · dsimp only
        rw [if_neg fun query => ends ⟨tainted, query⟩]
        split <;> rfl

/-! ## `Init` -/

/-- The arguments of `Init`. -/
structure InitArgs where
  scheme : Option Bytes := none
  host : Option Bytes := none
  port : UInt16 := urlPortNull
  pathBuf : Option Bytes := none
  pathLen : Nat := 0
  queryBuf : Option Bytes := none
  queryLen : Nat := 0
  fragment : Option Bytes := none

namespace InitArgs

/-- The call of `Init` with the arguments. -/
def call (args : InitArgs) (exec : Exec URL) : Exec URL :=
  init args.scheme args.host args.port args.pathBuf args.pathLen args.queryBuf args.queryLen
    args.fragment exec

/-- There is a path text with a delimiter behind its path. -/
def PathEndsAt (delimiter : UInt8) (args : InitArgs) : Prop :=
  ∃ pathBuf, args.pathBuf = some pathBuf ∧ args.pathLen ≠ 0 ∧
    URL.PathEndsAt delimiter pathBuf args.pathLen

/-- `Init` is not given a scheme, a host, a path, a fragment, and never replaces a query: in
these components the two URLs are equal already. -/
structure SameElsewhere (args : InitArgs) (first second : URL) : Prop where
  scheme : args.scheme = none → first.scheme = second.scheme
  host : args.host = none → first.host = second.host
  path : args.pathBuf = none ∨ args.pathLen = 0 → first.path = second.path
  query : first.query = second.query
  fragment : args.fragment = none → ¬args.PathEndsAt kFragmentStart →
    first.fragment = second.fragment

/-- `Init` is given no query, neither for itself nor behind the path. -/
def NoQuery (args : InitArgs) : Prop :=
  (args.queryBuf = none ∨ args.queryLen = 0) ∧ ¬args.PathEndsAt kQueryStart

/-- What the arguments let `set_path` store. -/
theorem exists_stores_path (args : InitArgs) :
    ∃ stored : Stored,
      Stores (fun exec =>
        if args.pathLen ≠ 0 then setPath args.pathBuf args.pathLen exec else exec) stored ∧
      stored.scheme = none ∧ stored.host = none ∧ stored.port = none ∧
      (stored.path = none ↔ args.pathBuf = none ∨ args.pathLen = 0) ∧
      (stored.fragment = none ↔ ¬args.PathEndsAt kFragmentStart) := by
  by_cases none_ : args.pathBuf = none ∨ args.pathLen = 0
  · refine ⟨{}, fun exec => ?_, rfl, rfl, rfl, iff_of_true rfl none_, iff_of_true rfl ?_⟩
    · rcases none_ with null | zero
      · simp [null, setPath, Stored.into]
      · simp [zero, Stored.into]
    · rintro ⟨pathBuf, given, inhabited, -⟩
      rcases none_ with null | zero
      · rw [null] at given
        cases given
      · exact inhabited zero
  · rw [not_or] at none_
    obtain ⟨pathBuf, given⟩ := Option.ne_none_iff_exists'.mp none_.1
    obtain ⟨stored, stores, only, fragment⟩ := exists_stores_setPath pathBuf none_.2
    refine ⟨stored, fun exec => ?_, only.scheme, only.host, only.port, ?_, fragment.trans ?_⟩
    · dsimp only
      rw [if_pos none_.2, given]
      exact stores exec
    · exact iff_of_false only.path (by simpa [not_or] using none_)
    · refine not_congr ⟨fun ends => ⟨pathBuf, given, none_.2, ends⟩, ?_⟩
      rintro ⟨other, given', -, ends⟩
      rw [given, Option.some.injEq] at given'
      exact given' ▸ ends

/-- What `Init` stores depends on its arguments alone. -/
theorem exists_stores_call (args : InitArgs) :
    ∃ stored : Stored, Stores args.call stored ∧
      (stored.scheme = none ↔ args.scheme = none) ∧ (stored.host = none ↔ args.host = none) ∧
      stored.port ≠ none ∧ (stored.path = none ↔ args.pathBuf = none ∨ args.pathLen = 0) ∧
      (stored.fragment = none ↔ args.fragment = none ∧ ¬args.PathEndsAt kFragmentStart) := by
  obtain ⟨path, storesPath, noScheme, noHost, noPort, pathIff, fragmentIff⟩ :=
    args.exists_stores_path
  obtain ⟨pairs, storesPairs⟩ : ∃ pairs, Stores (fun exec =>
      if args.queryLen ≠ 0 then setQuery args.queryBuf args.queryLen exec else exec) { pairs } := by
    split
    · exact ⟨_, stores_setQuery _ _⟩
    · exact ⟨[], Stores.nothing⟩
  have front : Stores (fun exec => { exec with obj := setPort args.port (setHost args.host
      (setScheme args.scheme exec.obj)) })
      { scheme := args.scheme.map untaint, host := args.host.map untaint, port := some args.port } := by
    intro exec
    cases args.scheme <;> cases args.host <;>
      simp [setScheme, setHost, setPort, Stored.into]
  have back : Stores (fun exec => { exec with obj := setFragment args.fragment exec.obj })
      { fragment := args.fragment.map untaint } := by
    intro exec
    cases args.fragment <;> simp [setFragment, Stored.into]
  refine ⟨_, fun exec => Eq.trans ?_
    (((front.andThen storesPath).andThen storesPairs).andThen back exec), ?_, ?_, ?_, ?_, ?_⟩
  · exact (apply_ite Exec.obj _ _ _).trans (ite_self _)
  · simp [Stored.andThen, noScheme]
  · simp [Stored.andThen, noHost]
  · simp [Stored.andThen, noPort]
  · simp [Stored.andThen, pathIff]
  · simp [Stored.andThen, fragmentIff]

theorem Stored.into_eq_iff (stored : Stored) {first second : URL} :
    stored.into first = stored.into second ↔
      (stored.scheme = none → first.scheme = second.scheme) ∧
      (stored.host = none → first.host = second.host) ∧
      (stored.port = none → first.port = second.port) ∧
      (stored.path = none → first.path = second.path) ∧ first.query = second.query ∧
      (stored.fragment = none → first.fragment = second.fragment) := by
  have keeps (text : Option Bytes) (one other : Bytes) :
      text.getD one = text.getD other ↔ (text = none → one = other) := by
    cases text <;> simp
  have keepsPort (port : Option UInt16) (one other : UInt16) :
      port.getD one = port.getD other ↔ (port = none → one = other) := by
    cases port <;> simp
  simp only [Stored.into, URL.mk.injEq, keeps, keepsPort, List.append_cancel_right_eq]

/-- Two URLs are equal behind `Init` with the same arguments if and only if they are equal
elsewhere already. -/
theorem call_same_iff (args : InitArgs) (one other : Exec URL) :
    (args.call one).obj = (args.call other).obj ↔ args.SameElsewhere one.obj other.obj := by
  obtain ⟨stored, stores, scheme, host, port, path, fragment⟩ := args.exists_stores_call
  rw [stores, stores, Stored.into_eq_iff, scheme, host, path, fragment]
  constructor
  · rintro ⟨sameScheme, sameHost, -, samePath, sameQuery, sameFragment⟩
    exact ⟨sameScheme, sameHost, samePath, sameQuery, fun null ends => sameFragment ⟨null, ends⟩⟩
  · rintro ⟨sameScheme, sameHost, samePath, sameQuery, sameFragment⟩
    exact ⟨sameScheme, sameHost, fun null => absurd null port, samePath, sameQuery,
      fun ends => sameFragment ends.1 ends.2⟩

/-- The path step keeps the query, or adds to it. -/
theorem path_query (args : InitArgs) (exec : Exec URL) :
    let after := if args.pathLen ≠ 0 then setPath args.pathBuf args.pathLen exec else exec
    (args.PathEndsAt kQueryStart → Adds exec.obj.query.length after) ∧
      (¬args.PathEndsAt kQueryStart → after.obj.query = exec.obj.query) := by
  dsimp only
  split
  · rename_i inhabited
    cases given : args.pathBuf with
    | none =>
        refine ⟨?_, fun _ => rfl⟩
        rintro ⟨pathBuf, given', -⟩
        rw [given] at given'
        cases given'
    | some pathBuf =>
        obtain ⟨adds, keeps⟩ := setPath_query pathBuf inhabited exec
        refine ⟨fun ⟨other, given', _, ends⟩ => adds ?_, fun other => keeps fun ends => ?_⟩
        · rw [given, Option.some.injEq] at given'
          exact given' ▸ ends
        · exact other ⟨pathBuf, given, inhabited, ends⟩
  · rename_i zero
    exact ⟨fun ⟨_, _, inhabited, _⟩ => absurd inhabited zero, fun _ => rfl⟩

/-- A query that is given brings a pair or an error. -/
theorem call_query_iff (args : InitArgs) (exec : Exec URL)
    (quiet : (args.call exec).error.event = false) :
    (args.call exec).obj.query = exec.obj.query ↔ args.NoQuery := by
  let front : Exec URL := { exec with
    obj := setPort args.port (setHost args.host (setScheme args.scheme exec.obj)) }
  let behindPath := if args.pathLen ≠ 0 then setPath args.pathBuf args.pathLen front else front
  let behindQuery :=
    if args.queryLen ≠ 0 then setQuery args.queryBuf args.queryLen behindPath else behindPath
  have same : front.obj.query = exec.obj.query := by
    cases scheme : args.scheme <;> cases host : args.host <;>
      simp only [front, scheme, host, setScheme, setHost, setPort]
  have ends : (args.call exec).obj.query = behindQuery.obj.query := by
    have stored : (args.call exec).obj = setFragment args.fragment behindQuery.obj :=
      (apply_ite Exec.obj _ _ _).trans (ite_self _)
    rw [stored]
    cases args.fragment <;> rfl
  have quietQuery : behindQuery.error.event = false := by
    by_contra raised
    rw [Bool.not_eq_false] at raised
    have appended : (args.call exec).error = behindQuery.error.appendMsg "URL::Init(): " [] :=
      congrArg Exec.error (if_pos raised)
    rw [appended, ErrorHandler.event_appendMsg] at quiet
    cases quiet
  have more {count : Nat} (adds : Adds count behindQuery) : count < behindQuery.obj.query.length :=
    adds.resolve_left (by rw [quietQuery]; exact Bool.false_ne_true)
  obtain ⟨pathAdds, pathKeeps⟩ := args.path_query front
  obtain ⟨stored, storesPath, -⟩ := args.exists_stores_path
  have grows : behindPath.obj.query = front.obj.query ++ stored.pairs :=
    congrArg URL.query (storesPath front)
  rw [ends, ← same]
  constructor
  · intro unchanged
    refine ⟨?_, fun query => ?_⟩
    · by_contra given
      rw [not_or] at given
      obtain ⟨queryBuf, some_⟩ := Option.ne_none_iff_exists'.mp given.1
      have adds : Adds behindPath.obj.query.length behindQuery := by
        unfold behindQuery
        rw [if_pos given.2, some_]
        exact setQuery_adds (.inl given.2) behindPath
      have longer := more adds
      rw [unchanged, grows, List.length_append] at longer
      omega
    · have adds : Adds front.obj.query.length behindQuery := by
        unfold behindQuery
        split
        · exact setQuery_keeps_adds (pathAdds query) _ _
        · exact pathAdds query
      have longer := more adds
      rw [unchanged] at longer
      exact absurd longer (Nat.lt_irrefl _)
  · intro none_
    rw [← pathKeeps none_.2]
    unfold behindQuery
    rcases none_.1 with null | zero
    · rw [null, setQuery, ite_self]
    · rw [if_neg (by simpa using zero)]

end InitArgs

/-- `Init` makes any two URLs equal if and only if they are equal in every component that it is
not given, in the query in any case; and a second call changes nothing if and only if no query is
given. -/
theorem init_same_iff (args : InitArgs) (one other : Exec URL) :
    ((args.call one).obj = (args.call other).obj ↔ args.SameElsewhere one.obj other.obj) ∧
      ((args.call (args.call one)).error.event = false →
        ((args.call (args.call one)).obj = (args.call one).obj ↔ args.NoQuery)) := by
  refine ⟨args.call_same_iff one other, fun quiet => ?_⟩
  rw [← args.call_query_iff _ quiet]
  obtain ⟨stored, stores, -⟩ := args.exists_stores_call
  rw [stores, stores]
  refine ⟨congrArg URL.query, fun same => ?_⟩
  rw [Stored.into_twice, same]

/-- A URL with a query that is initialised again. -/
def queryArgs : InitArgs :=
  { scheme := some (ascii "http"), host := some (ascii "h"), pathBuf := some (ascii "p")
    pathLen := 1, queryBuf := some (ascii "a=b"), queryLen := 3, fragment := some (ascii "f") }

theorem init_same_iff_sample :
    ((queryArgs.call (queryArgs.call { obj := {}, error := {} })).obj =
      (queryArgs.call { obj := {}, error := {} }).obj ↔ queryArgs.NoQuery) :=
  (init_same_iff queryArgs { obj := {}, error := {} } { obj := {}, error := {} }).2
    (by decide +kernel)

/-- The second call raises no error either, and the query has its pair twice. -/
theorem init_twice_doubles_query :
    ¬∀ (args : InitArgs) (one other : Exec URL), (args.call one).error.event = false →
      (args.call other).error.event = false → (args.call one).obj = (args.call other).obj := by
  intro always
  have same := always queryArgs { obj := {}, error := {} }
    (queryArgs.call { obj := {}, error := {} }) (by decide +kernel) (by decide +kernel)
  exact absurd same (by decide +kernel)

end URL

end IpUtils
