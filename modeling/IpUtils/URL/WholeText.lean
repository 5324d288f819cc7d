import IpUtils.URL.Taint

/-! # Reading back a text that nothing follows

`URL::InitFromBuf` gets the printed text and its length, so every component can be the last one:
its scanner stops at the byte that introduces the next component, or at the end.
-/

namespace IpUtils

open CLib Scanner

namespace URL

/-! ## Components in front of a rest -/

/-- The run of bytes that pass the test does not go on into the rest. -/
def StopsBefore (test : UInt8 → Bool) (rest : Bytes) : Prop :=
  ∀ c ∈ rest.head?, test c = false

theorem StopsBefore.nil (test : UInt8 → Bool) : StopsBefore test [] :=
  fun _ member => nomatch member

theorem StopsBefore.cons {test : UInt8 → Bool} {c : UInt8} (fails : test c = false) (rest : Bytes) :
    StopsBefore test (c :: rest) := by
  intro d member
  rw [List.head?_cons, Option.mem_some_iff] at member
  exact member ▸ fails

theorem takeWhile_of_stopsBefore {test : UInt8 → Bool} {text rest : Bytes}
    (passes : ∀ c ∈ text, test c = true) (stops : StopsBefore test rest) :
    (text ++ rest).takeWhile test = text ∧ (text ++ rest).dropWhile test = rest := by
  cases rest with
  | nil =>
      rw [List.append_nil]
      exact takeWhile_of_all passes
  | cons c rest => exact takeWhile_of_delimited passes (stops c rfl) rest

variable {exec : Exec URL} {rest : Bytes}

/-- A word in front of a rest. -/
theorem word_in_front {test : UInt8 → Bool} {text : Bytes} (passes : ∀ c ∈ text, test c = true)
    (stops : StopsBefore test rest) (noNul : (0 : UInt8) ∉ text) (fits : text.length < kURLMaxSize) :
    Parse.word kURLMaxSize test (text ++ rest) exec = (some (text, rest), exec) := by
  obtain ⟨taken, dropped⟩ := takeWhile_of_stopsBefore passes stops
  exact Parse.word_apply taken dropped noNul fits

/-- A part behind its introduction, with something behind that. -/
theorem whenAt_introduced {introduction : UInt8} {part otherwise : Parse URL Unit} {text : Bytes}
    (inhabited : text ≠ []) :
    whenAt introduction part otherwise (introduction :: text) exec = part text exec := by
  obtain ⟨c, rest, rfl⟩ := List.exists_cons_of_ne_nil inhabited
  exact whenAt_part introduction c rest part otherwise

/-- The rest does not start with the byte. -/
theorem head?_ne_of_stopsBefore {c : UInt8} (stops : StopsBefore (· == c) rest) :
    rest.head? ≠ some c := by
  intro here
  have fails : (c == c) = false := stops c here
  rw [beq_self_eq_true] at fails
  exact nomatch fails

theorem parseHost_in_front {host : Bytes} (clean : ∀ c ∈ host, isCleanByte c = true)
    (passes : ∀ c ∈ host, isHostByte c = true) (stops : StopsBefore isHostByte rest)
    (fits : host.length < kURLMaxSize) :
    parseHost (host ++ rest) exec = (some ((), rest), { exec with obj := { exec.obj with host } }) := by
  rw [parseHost, bind_of_some (word_in_front passes stops (zero_not_mem_of_clean clean) fits)]
  simp only [Parse.assign, Scanner.update, setHost, untaint_of_clean clean]

theorem decimal_ne_nil (value : Nat) : decimal value ≠ [] := by
  intro empty
  have digits := digitsValue_decimal value
  rw [empty] at digits
  have zero : value = 0 := digits.symm
  rw [zero] at empty
  exact nomatch empty

theorem parsePort_in_front {port : UInt16} (digits : StopsBefore isdigit rest)
    (colon : StopsBefore (· == 58) rest) (fits : (portText port).length < kURLMaxSize) :
    parsePort urlPortNull (portText port ++ rest) exec =
      (some ((), rest), { exec with obj := setPort port exec.obj }) := by
  unfold portText at fits ⊢
  by_cases null : port = urlPortNull
  · rw [if_pos null, null, List.nil_append, parsePort,
      whenAt_otherwise (head?_ne_of_stopsBefore colon)]
    rfl
  · rw [if_neg null] at fits ⊢
    rw [List.length_cons] at fits
    have small : port.toNat < 2 ^ 64 := by
      have := port.toNat_lt
      omega
    have value : (strtoul 10 (decimal port.toNat)).toUInt16 = port := by
      rw [strtoul_decimal small]
      exact UInt16.ofNat_toNat
    have passes : ∀ c ∈ decimal port.toNat, isdigit c = true :=
      fun c member => isdigit_of_mem_decimal member
    have noNul : (0 : UInt8) ∉ decimal port.toNat :=
      fun member => (isdigit_cases (passes 0 member)).1 rfl
    rw [List.cons_append, parsePort, whenAt_introduced, readPort,
      bind_of_some (word_in_front passes digits noNul (by omega)), value]
    · rfl
    · exact List.append_ne_nil_of_left_ne_nil (decimal_ne_nil _) _

theorem parsePath_in_front {path : Bytes}
    (clean : ∀ c ∈ path, isCleanByte c = true ∧ c ≠ kQueryStart ∧ c ≠ kFragmentStart)
    (stops : StopsBefore isPathWordByte rest) (slash : StopsBefore (· == 47) rest)
    (fits : path.length < kURLMaxSize) (fresh : exec.obj.path = []) :
    parsePath (pathText path ++ rest) exec =
      (some ((), rest), { exec with obj := { exec.obj with path } }) := by
  unfold pathText
  cases empty : path.isEmpty with
  | true =>
      have same : { exec with obj := { exec.obj with path } } = exec := by
        rw [List.isEmpty_iff.mp empty, ← fresh]
      rw [if_pos rfl, same, List.nil_append, parsePath,
        whenAt_otherwise (head?_ne_of_stopsBefore slash)]
      rfl
  | false =>
      have inhabited : path ≠ [] := List.isEmpty_eq_false_iff.mp empty
      have passes : ∀ c ∈ path, isPathWordByte c = true := fun c member => by
        have facts := clean c member
        simp [isPathWordByte, (isUrlByte_iff.mp (isUrlByte_of_clean facts.1)).2, facts.2.1,
          facts.2.2]
      have noNul := zero_not_mem_of_clean fun c member => (clean c member).1
      have stored : setPath (some path) path.length exec = _ :=
        setPath_of_clean inhabited clean (Nat.le_of_lt fits)
      rw [if_neg Bool.false_ne_true, List.cons_append, parsePath,
        whenAt_introduced (List.append_ne_nil_of_left_ne_nil inhabited _), readPath,
        bind_of_some (word_in_front passes stops noNul fits)]
      simp only [Scanner.update, stored]

theorem pairsText_ne_nil {query : List UrlQueryInfo} (inhabited : query ≠ []) :
    pairsText query ≠ [] := by
  cases query with
  | nil => exact absurd rfl inhabited
  | cons info rest =>
      rw [pairsText, List.append_assoc]
      exact List.append_ne_nil_of_right_ne_nil _ (List.cons_ne_nil _ _)

theorem parseQuery_in_front {query : List UrlQueryInfo}
    (clean : ∀ c ∈ pairsText query, isUrlByte c = true ∧ c ≠ kFragmentStart)
    (split_ : splitPairs (pairsText query) = some query)
    (stops : StopsBefore isQueryWordByte rest) (mark : StopsBefore (· == kQueryStart) rest)
    (fits : (queryText query).length < kURLMaxSize) (fresh : exec.obj.query = []) :
    parseQuery (queryText query ++ rest) exec =
      (some ((), rest), { exec with obj := { exec.obj with query } }) := by
  unfold queryText at fits ⊢
  cases empty : query.isEmpty with
  | true =>
      have same : { exec with obj := { exec.obj with query } } = exec := by
        rw [List.isEmpty_iff.mp empty, ← fresh]
      rw [if_pos rfl, same, List.nil_append, parseQuery,
        whenAt_otherwise (head?_ne_of_stopsBefore mark)]
      rfl
  | false =>
      have inhabited : pairsText query ≠ [] :=
        pairsText_ne_nil (List.isEmpty_eq_false_iff.mp empty)
      simp only [empty, Bool.false_eq_true, ↓reduceIte, List.length_cons] at fits
      have passes : ∀ c ∈ pairsText query, isQueryWordByte c = true := fun c member => by
        have facts := clean c member
        simp [isQueryWordByte, (isUrlByte_iff.mp facts.1).2, facts.2]
      have noNul : (0 : UInt8) ∉ pairsText query :=
        fun member => (isUrlByte_iff.mp (clean 0 member).1).1 rfl
      have stored : setQuery (some (pairsText query)) (pairsText query).length exec = _ :=
        setQuery_of_some (fun c member => (clean c member).1) (by omega) split_
      rw [fresh, List.nil_append] at stored
      rw [if_neg Bool.false_ne_true, List.cons_append, parseQuery,
        whenAt_introduced (List.append_ne_nil_of_left_ne_nil inhabited _), readQuery,
        bind_of_some (word_in_front passes stops noNul (by omega))]
      simp only [Scanner.update, stored]

/-- The fragment is the last component. -/
theorem parseFragment_last {fragment : Bytes} (clean : ∀ c ∈ fragment, isCleanByte c = true)
    (fits : (fragmentText fragment).length < kURLMaxSize) (fresh : exec.obj.fragment = []) :
    parseFragment (fragmentText fragment) exec =
      (some ((), []), { exec with obj := { exec.obj with fragment } }) := by
  unfold fragmentText at fits ⊢
  cases empty : fragment.isEmpty with
  | true =>
      have same : { exec with obj := { exec.obj with fragment } } = exec := by
        rw [List.isEmpty_iff.mp empty, ← fresh]
      rw [if_pos rfl, same]
      rfl
  | false =>
      have inhabited : fragment ≠ [] := List.isEmpty_eq_false_iff.mp empty
      simp only [empty, Bool.false_eq_true, ↓reduceIte, List.length_cons] at fits
      have passes : ∀ c ∈ fragment, isFragmentByte c = true := fun c member => by
        simp [isFragmentByte, (isUrlByte_iff.mp (isUrlByte_of_clean (clean c member))).2]
      have word := @word_in_front exec [] _ _ passes (.nil _) (zero_not_mem_of_clean clean) (by omega)
      rw [List.append_nil] at word
      rw [if_neg Bool.false_ne_true, parseFragment, whenAt_introduced inhabited, readFragment,
        bind_of_some word]
      simp only [Parse.assign, Scanner.update, setFragment, untaint_of_clean clean]

/-! ## The whole text -/

/-- The components hold clean bytes and no delimiter of their own; path, query and fragment may
be empty. -/
structure TextSafe (url : URL) : Prop where
  scheme_ne_nil : url.scheme ≠ []
  host_ne_nil : url.host ≠ []
  scheme : ∀ c ∈ url.scheme, isCleanByte c = true ∧ c ≠ 58
  host : ∀ c ∈ url.host, isCleanByte c = true ∧ c ≠ 58 ∧ c ≠ 47 ∧ c ≠ kQueryStart ∧
    c ≠ kFragmentStart
  path : ∀ c ∈ url.path, isCleanByte c = true ∧ c ≠ kQueryStart ∧ c ≠ kFragmentStart
  keys : ∀ info ∈ url.query, ∀ c ∈ info.key,
    isCleanByte c = true ∧ c ≠ kKeyValueDelimiter ∧ c ≠ kFragmentStart
  values : ∀ info ∈ url.query, ∀ c ∈ info.value,
    isCleanByte c = true ∧ c ≠ kQueryDelimiter ∧ c ≠ kFragmentStart
  fragment : ∀ c ∈ url.fragment, isCleanByte c = true

/-- The URL with some path. -/
def withPath (url : URL) : URL :=
  { url with path := ascii "p" }

theorem TextSafe.withPath {url : URL} (safe : TextSafe url) : WireSafe (withPath url) where
  scheme_ne_nil := safe.scheme_ne_nil
  host_ne_nil := safe.host_ne_nil
  path_ne_nil := show ascii "p" ≠ [] by decide
  scheme := safe.scheme
  host c member := ⟨(safe.host c member).1, (safe.host c member).2.1, (safe.host c member).2.2.1⟩
  path := show ∀ c ∈ ascii "p", isCleanByte c = true ∧ c ≠ kQueryStart ∧ c ≠ kFragmentStart by
    decide +kernel
  keys := safe.keys
  values := safe.values
  fragment := safe.fragment

variable {url : URL}

theorem TextSafe.nulFree (safe : TextSafe url) : NulFree url where
  scheme := safe.withPath.nulFree.scheme
  host := safe.withPath.nulFree.host
  path := zero_not_mem_of_clean fun c member => (safe.path c member).1
  keys := safe.withPath.nulFree.keys
  values := safe.withPath.nulFree.values
  fragment := safe.withPath.nulFree.fragment

/-- The printed text has no byte behind the host that ends the scan of the host, but a query or
a fragment. -/
def RunsOn (url : URL) : Prop :=
  url.port = urlPortNull ∧ url.path = [] ∧ (url.query ≠ [] ∨ url.fragment ≠ [])

/-- The byte behind the path is a question mark or a hash. -/
theorem stopsBefore_queryText {test : UInt8 → Bool} (mark : test kQueryStart = false)
    (hash : test kFragmentStart = false) (url : URL) :
    StopsBefore test (queryText url.query ++ fragmentText url.fragment) := by
  unfold queryText
  split
  · unfold fragmentText
    split
    · exact .nil test
    · exact .cons hash _
  · exact .cons mark _

theorem stopsBefore_fragmentText {test : UInt8 → Bool} (hash : test kFragmentStart = false)
    (fragment : Bytes) : StopsBefore test (fragmentText fragment) := by
  unfold fragmentText
  split
  · exact .nil test
  · exact .cons hash _

/-- The byte behind the port is a slash, a question mark or a hash. -/
theorem stopsBefore_absPathText {test : UInt8 → Bool} (slash : test 47 = false)
    (mark : test kQueryStart = false) (hash : test kFragmentStart = false) (url : URL) :
    StopsBefore test
      (pathText url.path ++ (queryText url.query ++ fragmentText url.fragment)) := by
  unfold pathText
  split
  · exact stopsBefore_queryText mark hash url
  · exact .cons slash _

/-- The host ends at a port or a path, or with the text. -/
theorem stopsBefore_portText (ends : ¬RunsOn url) :
    StopsBefore isHostByte (portText url.port ++
      (pathText url.path ++ (queryText url.query ++ fragmentText url.fragment))) := by
  by_cases null : url.port = urlPortNull
  · rw [portText, if_pos null, List.nil_append]
    by_cases path : url.path = []
    · have last : url.query = [] ∧ url.fragment = [] := by
        by_contra behind
        exact ends ⟨null, path, by rwa [not_and_or] at behind⟩
      rw [path, last.1, last.2]
      exact .nil isHostByte
    · rw [pathText, if_neg (by simpa using path)]
      exact .cons (by decide) _
  · rw [portText, if_neg null]
    exact .cons (by decide) _

/-- Behind the scheme, the parser reads the printed text. -/
theorem parseHierarchy_text (safe : TextSafe url) (ends : ¬RunsOn url)
    (fits : (uriText url).length < kURLMaxSize) (exec : Exec URL) (fresh : exec.obj.path = [] ∧
      exec.obj.query = [] ∧ exec.obj.fragment = []) :
    parseHierarchy urlPortNull (url.host ++ (portText url.port ++ (pathText url.path ++
        (queryText url.query ++ fragmentText url.fragment)))) exec =
      (some ((), []), { exec with obj := { url with scheme := exec.obj.scheme } }) := by
  simp only [uriText, absPathText, List.length_append] at fits
  have pathFits : url.path.length < kURLMaxSize := by
    have : url.path.length ≤ (pathText url.path).length := by
      unfold pathText
      split <;> simp_all
    omega
  have passes : ∀ c ∈ url.host, isHostByte c = true := fun c member => by
    have facts := safe.host c member
    simp [isHostByte, (isUrlByte_iff.mp (isUrlByte_of_clean facts.1)).2, facts.2.1, facts.2.2.1]
  have queryFits : (queryText url.query).length < kURLMaxSize := by omega
  have marks {test : UInt8 → Bool} (mark : test kQueryStart = false)
      (hash : test kFragmentStart = false) := stopsBefore_queryText mark hash url
  have slashes {test : UInt8 → Bool} (slash : test 47 = false) (mark : test kQueryStart = false)
      (hash : test kFragmentStart = false) := stopsBefore_absPathText slash mark hash url
  have hash {test : UInt8 → Bool} (hash : test kFragmentStart = false) :=
    stopsBefore_fragmentText hash url.fragment
  refine (bind_of_some (parseHost_in_front (fun c member => (safe.host c member).1) passes
    (stopsBefore_portText ends) (by omega))).trans ?_
  refine (bind_of_some (parsePort_in_front (slashes (by decide) (by decide) (by decide))
    (slashes (by decide) (by decide) (by decide)) (by omega))).trans ?_
  refine (bind_of_some (parsePath_in_front safe.path (marks (by decide) (by decide))
    (marks (by decide) (by decide)) pathFits (by exact fresh.1))).trans ?_
  refine (bind_of_some (parseQuery_in_front safe.withPath.pairs safe.withPath.splitPairs_eq
    (hash (by decide)) (hash (by decide)) queryFits (by exact fresh.2.1))).trans ?_
  exact parseFragment_last safe.fragment (by omega) fresh.2.2

/-- Up to the host, the parser is at the scheme and the three bytes behind it. -/
theorem initFromBuf_text (safe : TextSafe url) (fits : (uriText url).length < kURLMaxSize)
    (stale : Bytes) (exec : Exec URL) :
    initFromBuf stale urlPortNull (uriText url) exec =
      parseHierarchy urlPortNull (url.host ++ (portText url.port ++ (pathText url.path ++
        (queryText url.query ++ fragmentText url.fragment))))
        { exec with obj := { scheme := url.scheme } } := by
  have schemeShape : schemeText url.scheme = url.scheme ++ [58, 47, 47] := by
    rw [schemeText, if_neg (by simpa using safe.scheme_ne_nil)]
    rfl
  have schemeFits : url.scheme.length < kURLMaxSize := by
    simp only [uriText, schemeShape, List.length_append] at fits
    omega
  obtain ⟨first, scheme, schemeCons⟩ := List.exists_cons_of_ne_nil safe.scheme_ne_nil
  obtain ⟨next, host, hostCons⟩ := List.exists_cons_of_ne_nil safe.host_ne_nil
  generalize behind : portText url.port ++ (pathText url.path ++
    (queryText url.query ++ fragmentText url.fragment)) = rest
  have whole : uriText url = url.scheme ++ 58 :: 47 :: 47 :: next :: (host ++ rest) := by
    simp only [uriText, absPathText, schemeShape, hostCons, ← behind, List.append_assoc,
      List.cons_append, List.nil_append]
  have firstUrl := isUrlByte_iff.mp (isUrlByte_of_clean (safe.scheme first (by simp [schemeCons])).1)
  have start : parseStart (uriText url) exec = (some ((), uriText url), { exec with obj := {} }) := by
    have front : uriText url = first :: (scheme ++ 58 :: 47 :: 47 :: next :: (host ++ rest)) := by
      rw [whole, schemeCons, List.cons_append]
    have inhabited : ((first :: (scheme ++ 58 :: 47 :: 47 :: next :: (host ++ rest))).isEmpty) =
        false := rfl
    rw [front, parseStart_run, List.headD_cons, List.dropWhile_cons_of_neg (by simp [firstUrl.2]),
      if_neg (by simp [firstUrl.1, inhabited])]
  have ahead : schemeAhead (uriText url ++ stale) = true := by
    rw [whole, List.append_assoc]
    refine schemeAhead_of_scheme (fun c member => ?_) _
    have facts := safe.scheme c member
    simp [isSchemeByte, facts.2, (isUrlByte_iff.mp (isUrlByte_of_clean facts.1)).1]
  have searched : Scanner.lookahead (fun window => schemeAhead (window ++ stale)) (uriText url)
      ({ exec with obj := {} } : Exec URL) = (some (true, uriText url), { exec with obj := {} }) := by
    rw [Scanner.lookahead, ahead]
  rw [initFromBuf, bind_of_some start, bind_of_some searched, parseParts, if_pos rfl, whole,
    bind_of_some (parseScheme_apply { exec with obj := {} } safe.scheme schemeFits next (host ++ rest)),
    hostCons, List.cons_append]

/-- Nothing behind the host changes it. -/
theorem host_parseHierarchy (defaultPort : UInt16) (window : Bytes) (exec : Exec URL) :
    (parseHierarchy defaultPort window exec).2.obj.host =
      untaint (cstr (window.takeWhile isHostByte)) := by
  have robust : Robust fun exec : Exec URL =>
      exec.obj.host = untaint (cstr (window.takeWhile isHostByte)) :=
    Robust.of_obj fun url : URL => url.host = untaint (cstr (window.takeWhile isHostByte))
  have port : Keeps (fun exec : Exec URL =>
      exec.obj.host = untaint (cstr (window.takeWhile isHostByte))) (parsePort defaultPort) :=
    whenAt_keeps ((Keeps.word robust _ _).bind fun _ => Keeps.assign fun _ holds => holds)
      (Keeps.assign fun _ holds => holds)
  have rest := port.bind fun _ => @parsePath_keeps
    (fun url => url.host = untaint (cstr (window.takeWhile isHostByte))) fun _ _ _ _ holds => holds
  have host : ∃ exec', parseHost window exec = (some ((), window.dropWhile isHostByte), exec') ∧
      exec'.obj.host = untaint (cstr (window.takeWhile isHostByte)) :=
    ⟨_, rfl, rfl⟩
  obtain ⟨exec', ran, stored⟩ := host
  rw [parseHierarchy, bind_of_some ran]
  exact rest _ _ stored

theorem TextSafe.clean_pairs (safe : TextSafe url) :
    ∀ c ∈ pairsText url.query, isCleanByte c = true := by
  intro c member
  rcases mem_pairsText member with rfl | rfl | ⟨info, present, key | value⟩
  · decide
  · decide
  · exact (safe.keys info present c key).1
  · exact (safe.values info present c value).1

/-- When nothing ends the host, what is read as the host runs on. -/
theorem host_ne_of_runsOn (safe : TextSafe url) (runsOn : RunsOn url) (exec : Exec URL) :
    (parseHierarchy urlPortNull (url.host ++ (portText url.port ++ (pathText url.path ++
      (queryText url.query ++ fragmentText url.fragment)))) exec).2.obj.host ≠ url.host := by
  obtain ⟨port, path, behind⟩ := runsOn
  have passes : ∀ c ∈ url.host, isHostByte c = true := fun c member => by
    have facts := safe.host c member
    simp [isHostByte, (isUrlByte_iff.mp (isUrlByte_of_clean facts.1)).2, facts.2.1, facts.2.2.1]
  have pathEmpty : pathText url.path = [] := by
    rw [path]
    rfl
  rw [host_parseHierarchy, portText, if_pos port, pathEmpty, List.nil_append, List.nil_append,
    List.takeWhile_append_of_pos passes]
  have tail : ∃ c rest, queryText url.query ++ fragmentText url.fragment = c :: rest ∧
      isHostByte c = true ∧ ∀ d ∈ c :: rest, isCleanByte d = true := by
    have cleanFragment : ∀ d ∈ fragmentText url.fragment, isCleanByte d = true := by
      intro d member
      unfold fragmentText at member
      split at member
      · cases member
      · rcases List.mem_cons.mp member with rfl | inside
        · decide
        · exact safe.fragment d inside
    by_cases empty : url.query = []
    · have fragment := behind.resolve_left fun some_ => some_ empty
      have shape : fragmentText url.fragment = kFragmentStart :: url.fragment := by
        rw [fragmentText, if_neg (by simpa using fragment)]
      rw [shape] at cleanFragment
      refine ⟨kFragmentStart, url.fragment, ?_, by decide, cleanFragment⟩
      rw [queryText, empty, shape]
      rfl
    · have shape : queryText url.query = kQueryStart :: pairsText url.query := by
        rw [queryText, if_neg (by simpa using empty)]
      refine ⟨kQueryStart, pairsText url.query ++ fragmentText url.fragment, ?_, by decide, ?_⟩
      · rw [shape, List.cons_append]
      · intro d member
        rcases List.mem_cons.mp member with rfl | member
        · decide
        · rcases List.mem_append.mp member with inside | inside
          · exact safe.clean_pairs d inside
          · exact cleanFragment d inside
  obtain ⟨c, rest, shape, inHost, clean⟩ := tail
  rw [shape, List.takeWhile_cons_of_pos inHost]
  have cleanHost : ∀ d ∈ url.host ++ c :: rest.takeWhile isHostByte, isCleanByte d = true := by
    intro d member
    rcases List.mem_append.mp member with inside | inside
    · exact (safe.host d inside).1
    · exact clean d ((List.cons_subset_cons c (List.takeWhile_subset _)) inside)
  rw [cstr_eq_self (zero_not_mem_of_clean cleanHost), untaint_of_clean cleanHost]
  intro same
  have lengths := congrArg List.length same
  rw [List.length_append, List.length_cons] at lengths
  omega

/-- The printed text is read as the URL, to its end and without an error. -/
def ReadsBack (stale : Bytes) (url : URL) (exec : Exec URL) : Prop :=
  initFromBuf stale urlPortNull (printAbsoluteURI url) exec =
    (some ((), []), { exec with obj := url })

/-- A printed URL is read back if and only if something ends its host. -/
theorem printAbsoluteURI_readsBack_iff (safe : TextSafe url)
    (fits : (uriText url).length < kURLMaxSize) (stale : Bytes) (exec : Exec URL) :
    ReadsBack stale url exec ↔ ¬RunsOn url := by
  have printed : printAbsoluteURI url = uriText url := by
    rw [printAbsoluteURI_eq safe.nulFree]
    exact List.take_of_length_le (by unfold kURLMaxSize at fits ⊢; omega)
  rw [ReadsBack, printed, initFromBuf_text safe fits]
  constructor
  · intro reads runsOn
    refine host_ne_of_runsOn safe runsOn { exec with obj := { scheme := url.scheme } } ?_
    rw [reads]
  · intro ends
    rw [parseHierarchy_text safe ends fits _ ⟨rfl, rfl, rfl⟩]

/-- A URL with a port, a query and a fragment and without a path. -/
def pathlessUrl : URL :=
  { scheme := ascii "http", host := ascii "h", port := 80
    query := [{ key := ascii "a", value := ascii "b" }], fragment := ascii "f" }

theorem pathlessUrl_safe : TextSafe pathlessUrl where
  scheme_ne_nil := by decide +kernel
  host_ne_nil := by decide +kernel
  scheme := by decide +kernel
  host := by decide +kernel
  path := by decide +kernel
  keys := by decide +kernel
  values := by decide +kernel
  fragment := by decide +kernel

theorem printAbsoluteURI_readsBack_iff_sample :
    ReadsBack [] pathlessUrl { obj := {}, error := {} } ↔ ¬RunsOn pathlessUrl :=
  printAbsoluteURI_readsBack_iff pathlessUrl_safe (by decide +kernel) [] { obj := {}, error := {} }

/-- Without the port the query and the fragment become a part of the host. -/
theorem host_swallows_query :
    TextSafe { pathlessUrl with port := urlPortNull } ∧
      (uriText { pathlessUrl with port := urlPortNull }).length < kURLMaxSize ∧
      ¬ReadsBack [] { pathlessUrl with port := urlPortNull } { obj := {}, error := {} } := by
  refine ⟨{ pathlessUrl_safe with }, by decide +kernel, fun reads => ?_⟩
  have host := congrArg (·.2.obj.host) reads
  exact absurd host (by decide +kernel)

end URL

end IpUtils
