import IpUtils.URL.RoundTrip

/-! # A URL that is cut off

The run of `URL::InitFromBuf` over the first bytes of a URL, with nothing behind them.
Running out of bytes is no error for any scanner but one: `set_query` is handed the
query text that is there so far, and a key without its delimiter is an error for it.
-/

namespace IpUtils

open CLib Scanner

/-- The parser uses up the window, if it succeeds at all, and adds an error exactly
when `raises` says so. -/
structure Exhausts {ω : Type} (parser : Parse ω Unit) (window : Bytes) (exec : Exec ω)
    (raises : Bool) : Prop where
  drained : ∀ {value rest exec'}, parser window exec = (some (value, rest), exec') → rest = []
  event : (parser window exec).2.error.event = (exec.error.event || raises)

section Exhausts

variable {ω : Type} {window rest : Bytes} {exec exec' : Exec ω} {raises : Bool}

theorem Exhausts.of_none {parser : Parse ω Unit} (stopped : parser window exec = (none, exec'))
    (same : exec'.error = exec.error) : Exhausts parser window exec false where
  drained ran := by
    rw [stopped] at ran
    cases ran
  event := by rw [stopped, same, Bool.or_false]

theorem Exhausts.of_nil {parser : Parse ω Unit} {value : Unit}
    (ran : parser window exec = (some (value, []), exec'))
    (event : exec'.error.event = (exec.error.event || raises)) :
    Exhausts parser window exec raises where
  drained again := by
    rw [ran] at again
    simp only [Prod.mk.injEq, Option.some.injEq] at again
    exact again.1.2.symm
  event := by rw [ran, event]

/-- A first part that leaves the error alone. -/
theorem Exhausts.bind {α : Type} {first : Parse ω α} {next : α → Parse ω Unit} {value : α}
    (head : first window exec = (some (value, rest), exec')) (same : exec'.error = exec.error)
    (tail : Exhausts (next value) rest exec' raises) :
    Exhausts (first >>= next) window exec raises where
  drained ran := by
    rw [bind_of_some head] at ran
    exact tail.drained ran
  event := by rw [bind_of_some head, tail.event, same]

/-- A first part that adds the error, if there is one. -/
theorem Exhausts.bind_raises {α : Type} {first : Parse ω α} {next : α → Parse ω Unit} {value : α}
    (head : first window exec = (some (value, rest), exec'))
    (event : exec'.error.event = (exec.error.event || raises))
    (tail : Exhausts (next value) rest exec' false) :
    Exhausts (first >>= next) window exec raises where
  drained ran := by
    rw [bind_of_some head] at ran
    exact tail.drained ran
  event := by rw [bind_of_some head, tail.event, event, Bool.or_false]

end Exhausts

namespace URL

/-! ## The parts behind the scheme -/

/-- What the parts of a URL are read as, up to the first byte that starts none. -/
def queryBehindPath (text : Bytes) : Bytes :=
  match text with
  | [] => []
  | c :: query => if c = kQueryStart then query.takeWhile (· != kFragmentStart) else []

/-- The query behind a host, so far. -/
def queryBehindHost (text : Bytes) : Bytes :=
  queryBehindPath ((text.dropWhile (· != 47)).tail.dropWhile isPathWordByte)

variable {exec : Exec URL} {window : Bytes}

theorem whenAt_last (introduction : UInt8) (part otherwise : Parse URL Unit) :
    whenAt introduction part otherwise [introduction] exec = (none, exec) := by
  have found : (introduction == introduction) = true := beq_self_eq_true introduction
  simp only [whenAt, bind_apply, Scanner.looksAt, List.head?_cons, Option.any_some, found,
    ↓reduceIte, Scanner.step, Scanner.advance, List.tail_cons, Scanner.need, List.isEmpty_nil]

theorem whenAt_part (introduction c : UInt8) (rest : Bytes) (part otherwise : Parse URL Unit) :
    whenAt introduction part otherwise (introduction :: c :: rest) exec = part (c :: rest) exec := by
  have found : (introduction == introduction) = true := beq_self_eq_true introduction
  simp only [whenAt, bind_apply, Scanner.looksAt, List.head?_cons, Option.any_some, found,
    ↓reduceIte, Scanner.step, Scanner.advance, List.tail_cons, Scanner.need, List.isEmpty_cons,
    Bool.false_eq_true]

/-- The bytes of a window inside a URL. -/
def InsideUrl (window : Bytes) : Prop :=
  (∀ c ∈ window, isUrlByte c = true) ∧ window.length < kURLMaxSize

theorem InsideUrl.of_suffix {rest : Bytes} (inside : InsideUrl window) (suffix : rest <:+ window) :
    InsideUrl rest :=
  ⟨fun c member => inside.1 c (suffix.subset member),
    Nat.lt_of_le_of_lt suffix.length_le inside.2⟩

/-- A word inside a URL is copied as it is. -/
theorem word_of_inside (inside : InsideUrl window) (exec : Exec URL) (test : UInt8 → Bool) :
    Parse.word kURLMaxSize test window exec =
      (some (window.takeWhile test, window.dropWhile test), exec) := by
  refine Parse.word_apply rfl rfl (fun member => ?_) ?_
  · exact (isUrlByte_iff.mp (inside.1 0 (List.takeWhile_subset _ member))).1 rfl
  · exact Nat.lt_of_le_of_lt (List.takeWhile_prefix _).length_le inside.2

theorem exhausts_parseFragment (inside : InsideUrl window)
    (head : ∀ c, window.head? = some c → c = kFragmentStart) :
    Exhausts parseFragment window exec false := by
  match window with
  | [] => exact .of_nil (whenAt_otherwise (by simp)) (Bool.or_false _).symm
  | [c] =>
      obtain rfl := head c rfl
      exact .of_none (whenAt_last _ _ _) rfl
  | c :: first :: rest =>
      obtain rfl := head c rfl
      have behind := inside.of_suffix (List.suffix_cons _ _)
      have all : ∀ d ∈ first :: rest, isFragmentByte d = true := fun d member => by
        simp [isFragmentByte, (isUrlByte_iff.mp (behind.1 d member)).2]
      have word := word_of_inside behind exec isFragmentByte
      rw [(takeWhile_of_all all).2] at word
      have part : parseFragment (kFragmentStart :: first :: rest) exec = _ :=
        (whenAt_part _ _ _ _ _).trans (bind_of_some word)
      exact .of_nil part (Bool.or_false _).symm

theorem event_setQuery {query : Bytes} (inside : InsideUrl query) :
    (setQuery (some query) query.length exec).error.event =
      (exec.error.event || (splitPairs query).isNone) := by
  cases outcome : splitPairs query with
  | none =>
      rw [setQuery_of_none inside.1 (Nat.le_of_lt inside.2) outcome, Option.isNone_none,
        Bool.or_true]
  | some pairs =>
      rw [setQuery_of_some inside.1 (Nat.le_of_lt inside.2) outcome, Option.isNone_some,
        Bool.or_false]

theorem exhausts_parseQuery (inside : InsideUrl window)
    (head : ∀ c, window.head? = some c → c = kQueryStart ∨ c = kFragmentStart) :
    Exhausts (parseQuery >>= fun _ => parseFragment) window exec
      (splitPairs (queryBehindPath window)).isNone := by
  have without (differs : window.head? ≠ some kQueryStart) :
      Exhausts (parseQuery >>= fun _ => parseFragment) window exec
        (splitPairs (queryBehindPath window)).isNone := by
    have empty : queryBehindPath window = [] := by
      cases window with
      | nil => rfl
      | cons c rest => exact if_neg fun same => differs (by rw [same, List.head?_cons])
    rw [empty, splitPairs_nil]
    exact .bind (whenAt_otherwise differs) rfl (exhausts_parseFragment inside fun c here =>
      (head c here).resolve_left fun same => differs (by rw [here, same]))
  match window with
  | [] => exact without (by simp)
  | [c] =>
      by_cases same : c = kQueryStart
      · subst same
        have empty : queryBehindPath [kQueryStart] = [] := rfl
        rw [empty, splitPairs_nil]
        exact .of_none (bind_of_none (whenAt_last _ _ _)) rfl
      · exact without (by simpa using same)
  | c :: first :: rest =>
      by_cases same : c = kQueryStart
      · subst same
        have behind := inside.of_suffix (List.suffix_cons _ _)
        have word := word_of_inside behind exec isQueryWordByte
        have alike : ∀ d ∈ first :: rest, isQueryWordByte d = (d != kFragmentStart) :=
          fun d member => by simp [isQueryWordByte, (isUrlByte_iff.mp (behind.1 d member)).2]
        rw [takeWhile_congr alike, dropWhile_congr alike] at word
        have part : parseQuery (kQueryStart :: first :: rest) exec = _ :=
          (whenAt_part _ _ _ _ _).trans (bind_of_some word)
        refine .bind_raises part (event_setQuery ⟨?_, ?_⟩) (exhausts_parseFragment ?_ ?_)
        · exact fun d member => behind.1 d (List.takeWhile_subset _ member)
        · exact Nat.lt_of_le_of_lt (List.takeWhile_prefix _).length_le behind.2
        · exact behind.of_suffix (List.dropWhile_suffix _)
        · intro d here
          have stop := List.head?_dropWhile_not (· != kFragmentStart) (first :: rest)
          rw [here] at stop
          simpa using stop
      · exact without (by simpa using same)

/-- A path raises no error. -/
theorem error_setPath {path : Bytes} (inside : InsideUrl path)
    (passes : ∀ c ∈ path, isPathWordByte c = true) :
    (setPath (some path) path.length exec).error = exec.error := by
  have whole : (path.take path.length).takeWhile isPathByte = path := by
    rw [List.take_length]
    refine (takeWhile_of_all fun c member => ?_).1
    have zero := (isUrlByte_iff.mp (inside.1 c member)).1
    have others := passes c member
    simp only [isPathWordByte, Bool.and_eq_true, bne_iff_ne, ne_eq] at others
    simp [isPathByte, zero, others.1.1, others.1.2]
  simp only [setPath, whole, List.drop_length, List.headD_nil]
  split
  · rfl
  · split
    · rfl
    · rfl

theorem exhausts_parsePath (inside : InsideUrl window)
    (head : ∀ c, window.head? = some c → c = 47) :
    Exhausts (parsePath >>= fun _ => parseQuery >>= fun _ => parseFragment) window exec
      (splitPairs (queryBehindPath (window.tail.dropWhile isPathWordByte))).isNone := by
  match window with
  | [] =>
      exact .bind (whenAt_otherwise (by simp)) rfl (exhausts_parseQuery inside (by simp))
  | [c] =>
      obtain rfl := head c rfl
      have empty : queryBehindPath (([47] : Bytes).tail.dropWhile isPathWordByte) = [] := rfl
      rw [empty, splitPairs_nil]
      exact .of_none (bind_of_none (whenAt_last _ _ _)) rfl
  | c :: first :: rest =>
      obtain rfl := head c rfl
      have behind := inside.of_suffix (List.suffix_cons _ _)
      have word := word_of_inside behind exec isPathWordByte
      have part : parsePath (47 :: first :: rest) exec = _ :=
        (whenAt_part _ _ _ _ _).trans (bind_of_some word)
      refine .bind part (error_setPath ⟨?_, ?_⟩ ?_) (exhausts_parseQuery ?_ ?_)
      · exact fun d member => behind.1 d (List.takeWhile_subset _ member)
      · exact Nat.lt_of_le_of_lt (List.takeWhile_prefix _).length_le behind.2
      · exact fun d member => List.mem_takeWhile_imp member
      · exact behind.of_suffix (List.dropWhile_suffix _)
      · intro d here
        have stop := List.head?_dropWhile_not isPathWordByte (first :: rest)
        rw [here] at stop
        have member : d ∈ first :: rest :=
          (List.dropWhile_suffix _).subset (List.mem_of_mem_head? here)
        have space := (isUrlByte_iff.mp (behind.1 d member)).2
        simp only [isPathWordByte, space, Bool.not_false, Bool.and_true,
          Bool.and_eq_false_iff, bne_eq_false_iff_eq] at stop
        exact stop

/-- A colon behind the host is followed by digits and, if anything, a slash. -/
def PortDigits (window : Bytes) : Prop :=
  ∀ rest, window.dropWhile isHostByte = 58 :: rest →
    ∀ c, (rest.dropWhile isdigit).head? = some c → c = 47

theorem head?_dropWhile_of_part {test : UInt8 → Bool} {front : Bytes} {c : UInt8}
    (within : front <+: window) (here : (front.dropWhile test).head? = some c) :
    (window.dropWhile test).head? = some c := by
  obtain ⟨more, rfl⟩ := within
  rw [List.dropWhile_append]
  cases shape : front.dropWhile test with
  | nil => simp [shape] at here
  | cons d rest =>
      rw [shape] at here
      simpa using here

theorem PortDigits.of_part {front : Bytes} (digits : PortDigits window)
    (within : front <+: window) : PortDigits front := by
  intro rest shape c here
  obtain ⟨more, rfl⟩ := within
  refine digits (rest ++ more) ?_ c (head?_dropWhile_of_part (List.prefix_append _ _) here)
  rw [List.dropWhile_append, shape]
  rfl

/-- No byte of a host is a slash. -/
theorem hostBytes_not_slash (window : Bytes) :
    ∀ c ∈ window.takeWhile isHostByte, (c != 47) = true := by
  intro c member
  have inside : isHostByte c = true := List.mem_takeWhile_imp member
  simp only [isHostByte, Bool.and_eq_true] at inside
  exact inside.1.2

/-- Where a host ends at a colon, the first slash is behind the digits of the port. -/
theorem dropWhile_slash_of_colon {rest : Bytes} (digits : PortDigits window)
    (shape : window.dropWhile isHostByte = 58 :: rest) :
    window.dropWhile (· != 47) = rest.dropWhile isdigit := by
  have port : ∀ c ∈ rest.takeWhile isdigit, (c != 47) = true := fun c member => by
    have digit : isdigit c = true := List.mem_takeWhile_imp member
    simp only [bne_iff_ne, ne_eq]
    rintro rfl
    exact absurd digit (by decide)
  have behind : (rest.dropWhile isdigit).dropWhile (· != 47) = rest.dropWhile isdigit := by
    cases left : rest.dropWhile isdigit with
    | nil => rfl
    | cons c more =>
        obtain rfl := digits rest shape c (by rw [left, List.head?_cons])
        rfl
  calc window.dropWhile (· != 47)
      = (window.takeWhile isHostByte ++ 58 ::
          (rest.takeWhile isdigit ++ rest.dropWhile isdigit)).dropWhile (· != 47) := by
        rw [List.takeWhile_append_dropWhile, ← shape, List.takeWhile_append_dropWhile]
    _ = rest.dropWhile isdigit := by
        rw [List.dropWhile_append_of_pos (hostBytes_not_slash window),
          List.dropWhile_cons_of_pos (by decide), List.dropWhile_append_of_pos port, behind]

/-- Where a host does not end at a colon, it ends at the first slash. -/
theorem dropWhile_slash_of_other (inside : InsideUrl window)
    (other : (window.dropWhile isHostByte).head? ≠ some 58) :
    window.dropWhile (· != 47) = window.dropWhile isHostByte ∧
      ∀ c, (window.dropWhile isHostByte).head? = some c → c = 47 := by
  have parts := List.takeWhile_append_dropWhile (p := isHostByte) (l := window)
  cases shape : window.dropWhile isHostByte with
  | nil =>
      rw [shape, List.append_nil] at parts
      have host := hostBytes_not_slash window
      rw [parts] at host
      exact ⟨(takeWhile_of_all host).2, fun c here => by cases here⟩
  | cons c rest =>
      rw [shape] at parts other
      have member : c ∈ window := by
        rw [← parts]
        simp
      have space := (isUrlByte_iff.mp (inside.1 c member)).2
      have fails : isHostByte c = false := by
        have stop := List.head?_dropWhile_not isHostByte window
        rw [shape] at stop
        simpa using stop
      have slash : c = 47 := by
        simp only [isHostByte, space, Bool.not_false, Bool.and_true, Bool.and_eq_false_iff,
          bne_eq_false_iff_eq] at fails
        exact fails.resolve_left fun colon => other (by rw [colon, List.head?_cons])
      subst slash
      refine ⟨?_, fun d here => by simpa using here.symm⟩
      have cut := (takeWhile_of_delimited (hostBytes_not_slash window)
        (show ((47 : UInt8) != 47) = false by decide) rest).2
      rwa [parts] at cut

/-- Behind the scheme, the only error is that of the query that is there so far. -/
theorem exhausts_parseHierarchy (defaultPort : UInt16) (inside : InsideUrl window)
    (digits : PortDigits window) :
    Exhausts (parseHierarchy defaultPort) window exec
      (splitPairs (queryBehindHost window)).isNone := by
  have word := word_of_inside inside exec isHostByte
  have host : parseHost window exec = _ := bind_of_some word
  refine .bind host rfl ?_
  have behind := inside.of_suffix (List.dropWhile_suffix isHostByte)
  by_cases colon : (window.dropWhile isHostByte).head? = some 58
  · obtain ⟨rest, shape⟩ : ∃ rest, window.dropWhile isHostByte = 58 :: rest := by
      cases shape : window.dropWhile isHostByte with
      | nil => simp [shape] at colon
      | cons c rest =>
          rw [shape, List.head?_cons, Option.some.injEq] at colon
          exact ⟨rest, by rw [colon]⟩
    have slash := dropWhile_slash_of_colon digits shape
    rw [queryBehindHost, slash, shape]
    rw [shape] at behind
    match rest with
    | [] =>
        have empty : queryBehindPath ((([] : Bytes).dropWhile isdigit).tail.dropWhile
          isPathWordByte) = [] := rfl
        rw [empty, splitPairs_nil]
        exact .of_none (bind_of_none (whenAt_last _ _ _)) rfl
    | first :: more =>
        have port := word_of_inside (behind.of_suffix (List.suffix_cons _ _))
          { exec with obj := setHost (some (window.takeWhile isHostByte)) exec.obj } isdigit
        have part : parsePort defaultPort (58 :: first :: more) _ = _ :=
          (whenAt_part _ _ _ _ _).trans (bind_of_some port)
        refine .bind part rfl (exhausts_parsePath ?_ (digits _ shape))
        exact (behind.of_suffix (List.suffix_cons _ _)).of_suffix (List.dropWhile_suffix _)
  · obtain ⟨same, slash⟩ := dropWhile_slash_of_other inside colon
    rw [queryBehindHost, same]
    exact .bind (whenAt_otherwise colon) rfl (exhausts_parsePath behind slash)

/-! ## The scheme -/

/-- The query of the URI that a window starts with, so far. -/
def querySoFar (window : Bytes) : Bytes :=
  queryBehindHost (if schemeAhead window then (window.dropWhile (· != 58)).drop 3 else window)

theorem length_dropWhile_of_part {front : Bytes} (within : front <+: window) (test : UInt8 → Bool) :
    (front.dropWhile test).length ≤ (window.dropWhile test).length := by
  obtain ⟨more, rfl⟩ := within
  rw [List.dropWhile_append]
  split
  · rename_i empty
    rw [List.isEmpty_iff.mp empty]
    exact Nat.zero_le _
  · rw [List.length_append]
    exact Nat.le_add_right _ _

/-- A scheme with nothing behind its slashes is no error. -/
theorem exhausts_parseScheme (inside : InsideUrl window) (defaultPort : UInt16)
    (short : (window.dropWhile (· != 58)).length ≤ 3) :
    Exhausts (parseParts defaultPort true) window exec false := by
  have word := word_of_inside inside exec (· != 58)
  have copied : Parse.copyWhile kURLMaxSize (· != 58) window exec =
      (some (window.takeWhile (· != 58), window.dropWhile (· != 58)), exec) :=
    Parse.copyWhile_apply rfl rfl
      (Nat.le_trans (List.takeWhile_prefix _).length_le (Nat.le_of_lt inside.2))
  have stopped : ∃ exec', parseScheme window exec = (none, exec') ∧ exec'.error = exec.error := by
    cases shape : window.dropWhile (· != 58) with
    | nil =>
        rw [shape] at copied
        exact ⟨exec, bind_of_none (bind_of_some copied), rfl⟩
    | cons c rest =>
        have noNul : (0 : UInt8) ∉ window.takeWhile (· != 58) := fun member =>
          (isUrlByte_iff.mp (inside.1 0 (List.takeWhile_subset _ member))).1 rfl
        have token : Parse.token kURLMaxSize (· != 58) window exec = _ :=
          Parse.token_apply rfl shape noNul
            (Nat.lt_of_le_of_lt (List.takeWhile_prefix _).length_le inside.2)
        have few : ¬ 3 < (c :: rest).length := by
          rw [← shape]
          omega
        refine ⟨{ exec with obj := setScheme (some (window.takeWhile (· != 58))) exec.obj },
          (bind_of_some token).trans ?_, rfl⟩
        simp only [bind_apply, Parse.assign, Scanner.update, Scanner.advanceBy, if_neg few]
  obtain ⟨exec', ran, same⟩ := stopped
  exact .of_none (bind_of_none ran) same

variable {url : URL}

theorem WireSafe.uriText_eq (safe : WireSafe url) :
    uriText url = url.scheme ++ [58, 47, 47] ++ (url.host ++ (portText url.port ++
      47 :: (url.path ++ (queryText url.query ++ fragmentText url.fragment)))) := by
  have scheme : schemeText url.scheme = url.scheme ++ [58, 47, 47] := by
    simp only [schemeText, List.isEmpty_eq_false_iff.mpr safe.scheme_ne_nil, Bool.false_eq_true,
      ↓reduceIte]
    rfl
  have path : pathText url.path = 47 :: url.path := by
    simp [pathText, safe.path_ne_nil]
  simp only [uriText, absPathText, scheme, path, List.append_assoc, List.cons_append]

/-- Every byte of a printed URL may stand in a URL. -/
theorem WireSafe.urlBytes (safe : WireSafe url) : ∀ c ∈ uriText url, isUrlByte c = true := by
  intro c member
  rw [safe.uriText_eq] at member
  simp only [List.mem_append, List.mem_cons, List.not_mem_nil, or_false] at member
  rcases member with (scheme | rfl | rfl | rfl) | host | port | rfl | path | query | fragment
  · exact isUrlByte_of_clean (safe.scheme c scheme).1
  · decide
  · decide
  · decide
  · exact isUrlByte_of_clean (safe.host c host).1
  · unfold portText at port
    split at port
    · cases port
    · rcases List.mem_cons.mp port with rfl | digit
      · decide
      · have facts := isdigit_cases (isdigit_of_mem_decimal digit)
        simp [isUrlByte, facts.1, facts.2.2.2.1]
  · decide
  · exact isUrlByte_of_clean (safe.path c path).1
  · unfold queryText at query
    split at query
    · cases query
    · rcases List.mem_cons.mp query with rfl | pair
      · decide
      · exact (safe.pairs c pair).1
  · unfold fragmentText at fragment
    split at fragment
    · cases fragment
    · rcases List.mem_cons.mp fragment with rfl | inside
      · decide
      · exact isUrlByte_of_clean (safe.fragment c inside)

/-- Behind the host of a printed URL there are digits and a slash. -/
theorem WireSafe.portDigits (safe : WireSafe url) (rest : Bytes) :
    PortDigits (url.host ++ (portText url.port ++ 47 :: rest)) := by
  have host : ∀ c ∈ url.host, isHostByte c = true := fun c member => by
    have facts := safe.host c member
    simp [isHostByte, (isUrlByte_iff.mp (isUrlByte_of_clean facts.1)).2, facts.2.1, facts.2.2]
  intro behind shape c here
  rw [List.dropWhile_append_of_pos host, portText] at shape
  split at shape
  · simp [isHostByte] at shape
  · rw [List.cons_append, List.dropWhile_cons_of_neg (by decide), List.cons.injEq] at shape
    rw [← shape.2, (takeWhile_of_delimited (fun d member => isdigit_of_mem_decimal member)
      (by decide) rest).2, List.head?_cons, Option.some.injEq] at here
    exact here.symm

/-- A scheme with its colon and one slash has no port. -/
theorem portDigits_scheme {scheme : Bytes} (noColon : ∀ c ∈ scheme, c ≠ 58) :
    PortDigits (scheme ++ [58, 47]) := by
  intro rest shape c here
  rw [List.dropWhile_append] at shape
  split at shape
  · have : rest = [47] := by simpa [isHostByte] using shape.symm
    subst this
    simpa [isdigit] using here.symm
  · rename_i inhabited
    obtain ⟨d, more, left⟩ := List.exists_cons_of_ne_nil
      (show scheme.dropWhile isHostByte ≠ [] by simpa using inhabited)
    rw [left, List.cons_append, List.cons.injEq] at shape
    have member : d ∈ scheme := (List.dropWhile_suffix isHostByte).subset (by rw [left]; simp)
    exact absurd shape.1 (noColon d member)

/-- On the first bytes of a printed URL, with stale bytes behind them that may make up
the rest of a scheme, the only error is that of the query that is there so far. -/
theorem exhausts_parseParts (safe : WireSafe url) (fits : (uriText url).length < kURLMaxSize)
    (within : window <+: uriText url) (defaultPort : UInt16) (stale : Bytes) :
    Exhausts (parseParts defaultPort (schemeAhead (window ++ stale))) window exec
      (schemeAhead (window ++ stale) == schemeAhead window &&
        (splitPairs (querySoFar window)).isNone) := by
  have inside : InsideUrl window :=
    ⟨fun c member => safe.urlBytes c (within.subset member),
      Nat.lt_of_le_of_lt within.length_le fits⟩
  have noColon : ∀ c ∈ url.scheme, c ≠ 58 := fun c member => (safe.scheme c member).2
  have upToColon : ∀ c ∈ url.scheme, (c != 58) = true := fun c member => by
    simpa using noColon c member
  have passes : ∀ c ∈ url.scheme, isSchemeByte c = true := fun c member => by
    have facts := safe.scheme c member
    simp [isSchemeByte, (isUrlByte_iff.mp (isUrlByte_of_clean facts.1)).1, facts.2]
  rw [safe.uriText_eq] at within
  -- the whole scheme is there
  have complete (more : Bytes) (shape : window = url.scheme ++ 58 :: 47 :: 47 :: more)
      (digits : PortDigits more) :
      Exhausts (parseParts defaultPort (schemeAhead (window ++ stale))) window exec
        (schemeAhead (window ++ stale) == schemeAhead window &&
          (splitPairs (querySoFar window)).isNone) := by
    have ahead (behind : Bytes) :
        schemeAhead (url.scheme ++ 58 :: 47 :: 47 :: more ++ behind) = true := by
      rw [List.append_assoc]
      exact schemeAhead_of_scheme passes _
    have alone := ahead []
    rw [List.append_nil] at alone
    have dropped := (takeWhile_of_delimited upToColon
      (show ((58 : UInt8) != 58) = false by decide) (47 :: 47 :: more)).2
    subst shape
    have query : querySoFar (url.scheme ++ 58 :: 47 :: 47 :: more) = queryBehindHost more := by
      simp only [querySoFar, alone, ↓reduceIte, dropped, List.drop_succ_cons, List.drop_zero]
    rw [ahead, alone, query, beq_self_eq_true, Bool.true_and]
    cases more with
    | nil =>
        have empty : queryBehindHost [] = [] := rfl
        rw [empty, splitPairs_nil]
        refine exhausts_parseScheme inside defaultPort ?_
        rw [dropped]
        rfl
    | cons first rest =>
        have schemeFits : url.scheme.length < kURLMaxSize := by
          have := inside.2
          rw [List.length_append] at this
          omega
        have behind : InsideUrl (first :: rest) :=
          inside.of_suffix ⟨url.scheme ++ [58, 47, 47], by simp⟩
        exact .bind (parseScheme_apply exec safe.scheme schemeFits first rest) rfl
          (exhausts_parseHierarchy defaultPort behind digits)
  rcases prefix_append_cases within with scheme | ⟨more, shape, beyond⟩
  · by_cases whole : window = url.scheme ++ [58, 47, 47]
    · exact complete [] whole fun rest shape => by cases shape
    · -- a part of the scheme
      have part : window <+: url.scheme ++ [58, 47] := by
        have split : url.scheme ++ [58, 47, 47] = url.scheme ++ [58, 47] ++ [47] := by simp
        rw [split] at scheme whole
        rcases List.prefix_concat_iff.mp scheme with same | before
        · exact absurd same whole
        · exact before
      have none_ : schemeAhead window = false := by
        have left := length_dropWhile_of_part part isSchemeByte
        rw [(takeWhile_of_delimited passes (by decide) _).2] at left
        rw [schemeAhead_eq]
        rcases shape : window.dropWhile isSchemeByte with _ | ⟨c, _ | ⟨d, _ | ⟨e, rest⟩⟩⟩
        · rfl
        · simp
        · simp
        · rw [shape] at left
          simp at left
      have query : querySoFar window = queryBehindHost window := by
        simp only [querySoFar, none_, Bool.false_eq_true, ↓reduceIte]
      rw [none_, query]
      cases ahead : schemeAhead (window ++ stale) with
      | true =>
          have left := length_dropWhile_of_part scheme (· != 58)
          rw [(takeWhile_of_delimited upToColon (by decide) _).2] at left
          exact exhausts_parseScheme inside defaultPort left
      | false =>
          exact exhausts_parseHierarchy defaultPort inside
            ((portDigits_scheme noColon).of_part part)
  · refine complete more (by rw [shape]; simp) ?_
    exact (safe.portDigits _).of_part beyond

end URL

end IpUtils
