import IpUtils.URL.Query

/-! # Printing a URL and reading it back

The text that `print_absoluteURI` prints when it fits, and the run of
`URL::InitFromBuf` over that text: the parser reads the URL that was printed.
-/

namespace IpUtils

open CLib Scanner

namespace CLib

/-- Printing behind a cut text is printing behind the text, cut. -/
theorem snprintfAppend_take (size : Nat) (text more : Bytes) :
    snprintfAppend size (text.take (size - 1)) more = (text ++ more).take (size - 1) := by
  unfold snprintfAppend
  rw [List.take_append, List.take_append, List.take_take, Nat.min_self, List.length_take]
  congr 2
  omega

/-- Printing a cut text is printing the text, cut. -/
theorem take_append_take (count : Nat) (text more : Bytes) :
    (text ++ more.take count).take count = (text ++ more).take count := by
  rw [List.take_append, List.take_append, List.take_take, Nat.min_eq_left (Nat.sub_le _ _)]

/-- A cut that leaves room has cut nothing. -/
theorem eq_of_length_take_lt {text : Bytes} {count : Nat} (room : (text.take count).length < count) :
    text.take count = text := by
  rw [List.length_take] at room
  exact List.take_of_length_le (by omega)

end CLib

namespace URL

/-! ## The printed text -/

def portText (port : UInt16) : Bytes :=
  if port = urlPortNull then [] else 58 :: decimal port.toNat

def pathText (path : Bytes) : Bytes :=
  if path.isEmpty then [] else 47 :: path

def queryText (query : List UrlQueryInfo) : Bytes :=
  if query.isEmpty then [] else kQueryStart :: pairsText query

def fragmentText (fragment : Bytes) : Bytes :=
  if fragment.isEmpty then [] else kFragmentStart :: fragment

/-- What `print_abs_path` prints when it fits. -/
def absPathText (url : URL) : Bytes :=
  pathText url.path ++ queryText url.query ++ fragmentText url.fragment

def schemeText (scheme : Bytes) : Bytes :=
  if scheme.isEmpty then [] else scheme ++ ascii "://"

/-- What `print_absoluteURI` prints when it fits. -/
def uriText (url : URL) : Bytes :=
  schemeText url.scheme ++ (url.host ++ (portText url.port ++ absPathText url))

/-- No field of the URL holds a NUL. -/
structure NulFree (url : URL) : Prop where
  scheme : (0 : UInt8) ∉ url.scheme
  host : (0 : UInt8) ∉ url.host
  path : (0 : UInt8) ∉ url.path
  keys : ∀ info ∈ url.query, (0 : UInt8) ∉ info.key
  values : ∀ info ∈ url.query, (0 : UInt8) ∉ info.value
  fragment : (0 : UInt8) ∉ url.fragment

theorem append_take (text more : Bytes) :
    append (text.take (kURLMaxSize - 1)) more = (text ++ more).take (kURLMaxSize - 1) :=
  snprintfAppend_take kURLMaxSize text more

theorem appendPairs_take {query : List UrlQueryInfo}
    (keys : ∀ info ∈ query, (0 : UInt8) ∉ info.key)
    (values : ∀ info ∈ query, (0 : UInt8) ∉ info.value) (text : Bytes) :
    appendPairs (text.take (kURLMaxSize - 1)) query =
      (text ++ pairsText query).take (kURLMaxSize - 1) := by
  induction query generalizing text with
  | nil => rw [appendPairs, pairsText, List.append_nil]
  | cons info rest ih =>
      have others := ih (fun other member => keys other (by simp [member]))
        (fun other member => values other (by simp [member]))
      simp only [appendPairs, pairsText, cstr_eq_self (keys info (by simp)),
        cstr_eq_self (values info (by simp)), append_take]
      cases rest with
      | nil => simp [appendPairs]
      | cons next rest =>
          simp only [List.isEmpty_cons, Bool.false_eq_true, ↓reduceIte]
          rw [others]
          simp only [List.append_assoc, List.cons_append, List.nil_append]

/-- `print_abs_path` prints its text, cut to the buffer. -/
theorem printAbsPath_eq {url : URL} (nulFree : NulFree url) :
    printAbsPath url = (absPathText url).take (kURLMaxSize - 1) := by
  have path : (if 0 < url.path.length then append [] (47 :: cstr url.path) else []) =
      (pathText url.path).take (kURLMaxSize - 1) := by
    rw [cstr_eq_self nulFree.path, pathText]
    cases url.path with
    | nil => rfl
    | cons c rest => exact append_take [] _
  have query : (if url.query.isEmpty then (pathText url.path).take (kURLMaxSize - 1)
        else appendPairs (append ((pathText url.path).take (kURLMaxSize - 1)) [kQueryStart])
          url.query) =
      (pathText url.path ++ queryText url.query).take (kURLMaxSize - 1) := by
    rw [queryText]
    split
    · rw [List.append_nil]
    · rw [append_take, appendPairs_take nulFree.keys nulFree.values, List.append_assoc]
      rfl
  unfold printAbsPath
  dsimp only
  rw [path, query, cstr_eq_self nulFree.fragment, absPathText, fragmentText]
  cases url.fragment with
  | nil => rw [if_neg (by simp), List.isEmpty_nil, if_pos rfl, List.append_nil]
  | cons c rest => exact append_take _ _

/-- `print_absoluteURI` prints its text, cut to the buffer. -/
theorem printAbsoluteURI_eq {url : URL} (nulFree : NulFree url) :
    printAbsoluteURI url = (uriText url).take (kURLMaxSize - 1) := by
  have scheme : (if 0 < url.scheme.length then append [] (cstr url.scheme ++ ascii "://") else []) =
      (schemeText url.scheme).take (kURLMaxSize - 1) := by
    rw [cstr_eq_self nulFree.scheme, schemeText]
    cases url.scheme with
    | nil => rfl
    | cons c rest => exact append_take [] _
  have host : (if 0 < url.host.length then
        append ((schemeText url.scheme).take (kURLMaxSize - 1)) (cstr url.host)
        else (schemeText url.scheme).take (kURLMaxSize - 1)) =
      (schemeText url.scheme ++ url.host).take (kURLMaxSize - 1) := by
    rw [cstr_eq_self nulFree.host]
    cases url.host with
    | nil => rw [if_neg (by simp), List.append_nil]
    | cons c rest => exact append_take _ _
  have port : (if url.port ≠ urlPortNull then
        append ((schemeText url.scheme ++ url.host).take (kURLMaxSize - 1))
          (58 :: decimal url.port.toNat)
        else (schemeText url.scheme ++ url.host).take (kURLMaxSize - 1)) =
      (schemeText url.scheme ++ url.host ++ portText url.port).take (kURLMaxSize - 1) := by
    rw [portText]
    by_cases null : url.port = urlPortNull
    · rw [if_neg (not_not.mpr null), if_pos null, List.append_nil]
    · rw [if_pos null, if_neg null, append_take]
  unfold printAbsoluteURI
  dsimp only
  rw [scheme, host, port, printAbsPath_eq nulFree, append_take, take_append_take, uriText]
  simp only [List.append_assoc]

/-! ## What may be sent -/

/-- A byte that no mutator and no scanner objects to. -/
def isCleanByte (c : UInt8) : Bool :=
  isUrlByte c && !isTainted c

/-- The fields of an absolute URL hold clean bytes and not the delimiters that end them. -/
structure WireSafe (url : URL) : Prop where
  scheme_ne_nil : url.scheme ≠ []
  host_ne_nil : url.host ≠ []
  path_ne_nil : url.path ≠ []
  scheme : ∀ c ∈ url.scheme, isCleanByte c = true ∧ c ≠ 58
  host : ∀ c ∈ url.host, isCleanByte c = true ∧ c ≠ 58 ∧ c ≠ 47
  path : ∀ c ∈ url.path, isCleanByte c = true ∧ c ≠ kQueryStart ∧ c ≠ kFragmentStart
  keys : ∀ info ∈ url.query, ∀ c ∈ info.key,
    isCleanByte c = true ∧ c ≠ kKeyValueDelimiter ∧ c ≠ kFragmentStart
  values : ∀ info ∈ url.query, ∀ c ∈ info.value,
    isCleanByte c = true ∧ c ≠ kQueryDelimiter ∧ c ≠ kFragmentStart
  fragment : ∀ c ∈ url.fragment, isCleanByte c = true

theorem isUrlByte_of_clean {c : UInt8} (clean : isCleanByte c = true) : isUrlByte c = true :=
  (Bool.and_eq_true_iff.mp clean).1

theorem zero_not_mem_of_clean {text : Bytes} (clean : ∀ c ∈ text, isCleanByte c = true) :
    (0 : UInt8) ∉ text :=
  fun member => (isUrlByte_iff.mp (isUrlByte_of_clean (clean 0 member))).1 rfl

/-- Clean strings are stored as they are. -/
theorem untaint_of_clean {text : Bytes} (clean : ∀ c ∈ text, isCleanByte c = true) :
    untaint text = text := by
  have same := cstr_eq_self (zero_not_mem_of_clean clean)
  have untainted : isStrTainted (some text) = false := by
    simp only [isStrTainted, same, List.any_eq_false]
    intro c member
    simpa using (Bool.and_eq_true_iff.mp (clean c member)).2
  rw [untaint, if_neg (by simp [untainted]), same]

theorem WireSafe.nulFree {url : URL} (safe : WireSafe url) : NulFree url where
  scheme := zero_not_mem_of_clean fun c member => (safe.scheme c member).1
  host := zero_not_mem_of_clean fun c member => (safe.host c member).1
  path := zero_not_mem_of_clean fun c member => (safe.path c member).1
  keys info present := zero_not_mem_of_clean fun c member => (safe.keys info present c member).1
  values info present := zero_not_mem_of_clean fun c member => (safe.values info present c member).1
  fragment := zero_not_mem_of_clean safe.fragment

theorem mem_pairsText {query : List UrlQueryInfo} {c : UInt8} (member : c ∈ pairsText query) :
    c = kKeyValueDelimiter ∨ c = kQueryDelimiter ∨
      ∃ info ∈ query, c ∈ info.key ∨ c ∈ info.value := by
  induction query with
  | nil => cases member
  | cons info rest ih =>
      rw [pairsText, List.mem_append, List.mem_append, List.mem_cons] at member
      rcases member with (key | rfl | value) | behind
      · exact .inr (.inr ⟨info, by simp, .inl key⟩)
      · exact .inl rfl
      · exact .inr (.inr ⟨info, by simp, .inr value⟩)
      · split at behind
        · cases behind
        · rcases List.mem_cons.mp behind with rfl | behind
          · exact .inr (.inl rfl)
          · rcases ih behind with delimiter | delimiter | ⟨other, present, inside⟩
            · exact .inl delimiter
            · exact .inr (.inl delimiter)
            · exact .inr (.inr ⟨other, by simp [present], inside⟩)

/-- The bytes of a printed query. -/
theorem WireSafe.pairs {url : URL} (safe : WireSafe url) :
    ∀ c ∈ pairsText url.query, isUrlByte c = true ∧ c ≠ kFragmentStart := by
  intro c member
  rcases mem_pairsText member with rfl | rfl | ⟨info, present, key | value⟩
  · decide
  · decide
  · have facts := safe.keys info present c key
    exact ⟨isUrlByte_of_clean facts.1, facts.2.2⟩
  · have facts := safe.values info present c value
    exact ⟨isUrlByte_of_clean facts.1, facts.2.2⟩

theorem WireSafe.splitPairs_eq {url : URL} (safe : WireSafe url) :
    splitPairs (pairsText url.query) = some url.query :=
  splitPairs_pairsText
    (fun info present c member => by simpa using (safe.keys info present c member).2.1)
    (fun info present c member => by simpa using (safe.values info present c member).2.1)

/-! ## Reading the printed text -/

section Reads

variable {exec exec' : Exec URL} {next : UInt8}

theorem reads_word {capacity : Nat} {test : UInt8 → Bool} {text : Bytes}
    (passes : ∀ c ∈ text, test c = true) (fails : test next = false) (noNul : (0 : UInt8) ∉ text)
    (fits : text.length < capacity) :
    Reads (Parse.word capacity test) text next exec text exec := fun rest =>
  Parse.word_apply (takeWhile_of_delimited passes fails rest).1
    (takeWhile_of_delimited passes fails rest).2 noNul fits

theorem reads_whenAt {introduction : UInt8} {part otherwise : Parse URL Unit} {text : Bytes}
    (inner : Reads part text next exec () exec') :
    Reads (whenAt introduction part otherwise) (introduction :: text) next exec () exec' := by
  intro rest
  have found : (introduction == introduction) = true := beq_self_eq_true introduction
  have left : (text ++ next :: rest).isEmpty = false := by cases text <;> rfl
  simp only [whenAt, bind_apply, Scanner.looksAt, List.cons_append, List.head?_cons,
    Option.any_some, found, ↓reduceIte, Scanner.step, Scanner.advance, List.tail_cons,
    Scanner.need, left, Bool.false_eq_true]
  exact inner rest

theorem reads_whenAt_otherwise {introduction : UInt8} {part otherwise : Parse URL Unit}
    (differs : next ≠ introduction) (outer : Reads otherwise [] next exec () exec') :
    Reads (whenAt introduction part otherwise) [] next exec () exec' := by
  intro rest
  have other : (next == introduction) = false := beq_eq_false_iff_ne.mpr differs
  simp only [whenAt, bind_apply, Scanner.looksAt, List.nil_append, List.head?_cons,
    Option.any_some, other, Bool.false_eq_true, ↓reduceIte]
  exact outer rest

theorem reads_assign (change : URL → URL) :
    Reads (Parse.assign change) [] next exec () { exec with obj := change exec.obj } :=
  fun _ => rfl

theorem reads_pure : Reads (pure () : Parse URL Unit) [] next exec () exec :=
  fun _ => rfl

variable {url : URL}

theorem reads_parsePort (fails : isdigit next = false) (colon : next ≠ 58)
    (fits : (portText url.port).length < kURLMaxSize) :
    Reads (parsePort urlPortNull) (portText url.port) next exec ()
      { exec with obj := setPort url.port exec.obj } := by
  unfold portText at fits ⊢
  by_cases null : url.port = urlPortNull
  · rw [if_pos null, null]
    exact reads_whenAt_otherwise colon (reads_assign _)
  · rw [if_neg null] at fits ⊢
    rw [List.length_cons] at fits
    refine reads_whenAt ?_
    have small : url.port.toNat < 2 ^ 64 := by
      have := url.port.toNat_lt
      omega
    have value : (strtoul 10 (decimal url.port.toNat)).toUInt16 = url.port := by
      rw [strtoul_decimal small]
      exact UInt16.ofNat_toNat
    have digits : ∀ c ∈ decimal url.port.toNat, isdigit c = true :=
      fun c member => isdigit_of_mem_decimal member
    have word : Reads (Parse.word kURLMaxSize isdigit) (decimal url.port.toNat) next exec
        (decimal url.port.toNat) exec :=
      reads_word digits fails (fun member => (isdigit_cases (digits 0 member)).1 rfl) (by omega)
    intro rest
    rw [readPort, bind_of_some (word rest), value]
    rfl

theorem setPath_of_clean {path : Bytes} (inhabited : path ≠ [])
    (clean : ∀ c ∈ path, isCleanByte c = true ∧ c ≠ kQueryStart ∧ c ≠ kFragmentStart)
    (fits : path.length ≤ PATH_MAX) :
    setPath (some path) path.length exec = { exec with obj := { exec.obj with path } } := by
  have noNul := zero_not_mem_of_clean fun c member => (clean c member).1
  have untainted : isStrTainted (some path) = false := by
    simp only [isStrTainted, cstr_eq_self noNul, List.any_eq_false]
    intro c member
    simpa using (Bool.and_eq_true_iff.mp (clean c member).1).2
  have whole : (path.take path.length).takeWhile isPathByte = path := by
    rw [List.take_length]
    refine (takeWhile_of_all fun c member => ?_).1
    have zero := (isUrlByte_iff.mp (isUrlByte_of_clean (clean c member).1)).1
    simp [isPathByte, zero, (clean c member).2.1, (clean c member).2.2]
  have size : path.length ≠ 0 := fun empty => inhabited (List.length_eq_zero_iff.mp empty)
  have inside : decide (PATH_MAX + 1 ≤ path.length) = false := decide_eq_false (by omega)
  simp only [setPath, if_neg size, untainted, Bool.false_eq_true, ↓reduceIte, whole, inside,
    Bool.or_false, List.drop_length, List.headD_nil]
  rfl

theorem reads_parsePath (safe : WireSafe url) (fails : isPathWordByte next = false)
    (fits : url.path.length < kURLMaxSize) :
    Reads parsePath (pathText url.path) next exec ()
      { exec with obj := { exec.obj with path := url.path } } := by
  have shape : pathText url.path = 47 :: url.path := by
    simp [pathText, safe.path_ne_nil]
  rw [shape]
  refine reads_whenAt ?_
  have passes : ∀ c ∈ url.path, isPathWordByte c = true := fun c member => by
    have facts := safe.path c member
    simp [isPathWordByte, (isUrlByte_iff.mp (isUrlByte_of_clean facts.1)).2, facts.2.1, facts.2.2]
  have word : Reads (Parse.word kURLMaxSize isPathWordByte) url.path next exec url.path exec :=
    reads_word passes fails safe.nulFree.path fits
  intro rest
  rw [readPath, bind_of_some (word rest)]
  have stored : setPath (some url.path) url.path.length exec = _ :=
    setPath_of_clean safe.path_ne_nil safe.path (Nat.le_of_lt fits)
  simp only [Scanner.update, stored]

theorem reads_parseQuery (safe : WireSafe url) (fails : isQueryWordByte next = false)
    (other : next ≠ kQueryStart) (fresh : exec.obj.query = [])
    (fits : (queryText url.query).length < kURLMaxSize) :
    Reads parseQuery (queryText url.query) next exec ()
      { exec with obj := { exec.obj with query := url.query } } := by
  unfold queryText at fits ⊢
  cases empty : url.query.isEmpty with
  | true =>
      have same : { exec with obj := { exec.obj with query := url.query } } = exec := by
        rw [List.isEmpty_iff.mp empty, ← fresh]
      rw [if_pos rfl, same]
      exact reads_whenAt_otherwise other reads_pure
  | false =>
      simp only [empty, Bool.false_eq_true, ↓reduceIte, List.length_cons] at fits ⊢
      refine reads_whenAt ?_
      have passes : ∀ c ∈ pairsText url.query, isQueryWordByte c = true := fun c member => by
        have facts := safe.pairs c member
        simp [isQueryWordByte, (isUrlByte_iff.mp facts.1).2, facts.2]
      have word : Reads (Parse.word kURLMaxSize isQueryWordByte) (pairsText url.query) next exec
          (pairsText url.query) exec :=
        reads_word passes fails
          (fun member => (isUrlByte_iff.mp (safe.pairs 0 member).1).1 rfl) (by omega)
      intro rest
      rw [readQuery, bind_of_some (word rest)]
      have stored : setQuery (some (pairsText url.query)) (pairsText url.query).length exec = _ :=
        setQuery_of_some (fun c member => (safe.pairs c member).1) (by omega) safe.splitPairs_eq
      rw [fresh, List.nil_append] at stored
      simp only [Scanner.update, stored]

theorem reads_parseFragment (safe : WireSafe url) (fails : isspace next = true)
    (fresh : exec.obj.fragment = []) (fits : (fragmentText url.fragment).length < kURLMaxSize) :
    Reads parseFragment (fragmentText url.fragment) next exec ()
      { exec with obj := { exec.obj with fragment := url.fragment } } := by
  have other : next ≠ kFragmentStart := by
    rintro rfl
    exact absurd fails (by decide)
  unfold fragmentText at fits ⊢
  cases empty : url.fragment.isEmpty with
  | true =>
      have same : { exec with obj := { exec.obj with fragment := url.fragment } } = exec := by
        rw [List.isEmpty_iff.mp empty, ← fresh]
      rw [if_pos rfl, same]
      exact reads_whenAt_otherwise other reads_pure
  | false =>
      simp only [empty, Bool.false_eq_true, ↓reduceIte, List.length_cons] at fits ⊢
      refine reads_whenAt ?_
      have passes : ∀ c ∈ url.fragment, isFragmentByte c = true := fun c member => by
        simp [isFragmentByte, (isUrlByte_iff.mp (isUrlByte_of_clean (safe.fragment c member))).2]
      have word : Reads (Parse.word kURLMaxSize isFragmentByte) url.fragment next exec
          url.fragment exec :=
        reads_word passes (by simp [isFragmentByte, fails]) safe.nulFree.fragment (by omega)
      intro rest
      rw [readFragment, bind_of_some (word rest)]
      simp only [Parse.assign, Scanner.update, setFragment, untaint_of_clean safe.fragment]

theorem absPath_headD (inhabited : url.path ≠ []) :
    (pathText url.path ++ (queryText url.query ++ fragmentText url.fragment)).headD next = 47 := by
  simp [pathText, inhabited]

/-- The parser reads a path, a query and a fragment. -/
theorem reads_absPath (exec : Exec URL) (safe : WireSafe url) (space : isspace next = true)
    (fresh : exec.obj.query = [] ∧ exec.obj.fragment = [])
    (fits : (absPathText url).length < kURLMaxSize) :
    Reads (parsePath >>= fun _ => parseQuery >>= fun _ => parseFragment)
      (pathText url.path ++ (queryText url.query ++ fragmentText url.fragment)) next exec ()
      { exec with
        obj := { exec.obj with path := url.path, query := url.query, fragment := url.fragment } } := by
  simp only [absPathText, List.length_append] at fits
  have pathShape : pathText url.path = 47 :: url.path := by
    simp [pathText, safe.path_ne_nil]
  have pathFits : url.path.length < kURLMaxSize := by
    rw [pathShape, List.length_cons] at fits
    omega
  -- the byte behind the path is a question mark, a hash or the space
  have behindQuery : (fragmentText url.fragment).headD next = kFragmentStart ∨
      (fragmentText url.fragment).headD next = next := by
    unfold fragmentText
    split
    · exact .inr rfl
    · exact .inl rfl
  have behindPath : (queryText url.query ++ fragmentText url.fragment).headD next = kQueryStart ∨
      (queryText url.query ++ fragmentText url.fragment).headD next = kFragmentStart ∨
      (queryText url.query ++ fragmentText url.fragment).headD next = next := by
    unfold queryText
    split
    · exact .inr behindQuery
    · exact .inl rfl
  refine .bind (reads_parsePath safe ?_ pathFits)
    (.bind (reads_parseQuery safe ?_ ?_ fresh.1 (by omega))
      (reads_parseFragment safe space fresh.2 (by omega)))
  · rcases behindPath with here | here | here <;> rw [here]
    · decide
    · decide
    · simp [isPathWordByte, space]
  · rcases behindQuery with here | here <;> rw [here]
    · decide
    · simp [isQueryWordByte, space]
  · rcases behindQuery with here | here <;> rw [here]
    · decide
    · rintro rfl
      exact absurd space (by decide)

theorem reads_parseHost {host : Bytes}
    (clean : ∀ c ∈ host, isCleanByte c = true ∧ c ≠ 58 ∧ c ≠ 47) (delimiter : next = 58 ∨ next = 47)
    (fits : host.length < kURLMaxSize) :
    Reads parseHost host next exec () { exec with obj := { exec.obj with host } } := by
  have passes : ∀ c ∈ host, isHostByte c = true := fun c member => by
    have facts := clean c member
    simp [isHostByte, (isUrlByte_iff.mp (isUrlByte_of_clean facts.1)).2, facts.2.1, facts.2.2]
  have fails : isHostByte next = false := by
    rcases delimiter with rfl | rfl <;> decide
  have word : Reads (Parse.word kURLMaxSize isHostByte) host next exec host exec :=
    reads_word passes fails (zero_not_mem_of_clean fun c member => (clean c member).1) fits
  intro rest
  rw [parseHost, bind_of_some (word rest)]
  simp only [Parse.assign, Scanner.update, setHost,
    untaint_of_clean fun c member => (clean c member).1]

/-- Behind the scheme, the parser reads the printed text. -/
theorem reads_parseHierarchy (exec : Exec URL) (safe : WireSafe url) (space : isspace next = true)
    (fresh : exec.obj.query = [] ∧ exec.obj.fragment = [])
    (fits : (uriText url).length < kURLMaxSize) :
    Reads (parseHierarchy urlPortNull)
      (url.host ++ (portText url.port ++ (pathText url.path ++
        (queryText url.query ++ fragmentText url.fragment)))) next exec ()
      { exec with obj := { url with scheme := exec.obj.scheme } } := by
  simp only [uriText, List.length_append] at fits
  have behindPort := @absPath_headD next url safe.path_ne_nil
  have behindHost : (portText url.port ++ (pathText url.path ++ (queryText url.query ++
      fragmentText url.fragment))).headD next = 58 ∨
      (portText url.port ++ (pathText url.path ++ (queryText url.query ++
      fragmentText url.fragment))).headD next = 47 := by
    unfold portText
    split
    · exact .inr behindPort
    · exact .inl rfl
  refine (reads_parseHost safe.host behindHost (by omega)).bind
    (.bind (reads_parsePort ?_ ?_ (by omega)) (reads_absPath _ safe space fresh (by omega)))
  · rw [behindPort]
    decide
  · rw [behindPort]
    decide

/-- The scheme and the three bytes behind it. -/
theorem parseScheme_apply {scheme : Bytes} (exec : Exec URL)
    (clean : ∀ c ∈ scheme, isCleanByte c = true ∧ c ≠ 58) (fits : scheme.length < kURLMaxSize)
    (next : UInt8) (rest : Bytes) :
    parseScheme (scheme ++ 58 :: 47 :: 47 :: next :: rest) exec =
      (some ((), next :: rest), { exec with obj := { exec.obj with scheme } }) := by
  have passes : ∀ c ∈ scheme, (c != 58) = true := fun c member => by
    simpa using (clean c member).2
  obtain ⟨taken, dropped⟩ := takeWhile_of_delimited passes
    (show ((58 : UInt8) != 58) = false by decide) (47 :: 47 :: next :: rest)
  rw [parseScheme, bind_of_some (Parse.token_apply taken dropped
    (zero_not_mem_of_clean fun c member => (clean c member).1) fits)]
  have stored : setScheme (some scheme) exec.obj = { exec.obj with scheme } := by
    simp only [setScheme, untaint_of_clean fun c member => (clean c member).1]
  have long : 3 < (58 :: 47 :: 47 :: next :: rest : Bytes).length := by
    simp only [List.length_cons]
    omega
  simp only [bind_apply, Parse.assign, Scanner.update, stored, Scanner.advanceBy, if_pos long,
    List.drop_succ_cons, List.drop_zero]

/-- With a scheme ahead, the parser reads the printed URL. -/
theorem reads_parseParts (safe : WireSafe url) (space : isspace next = true)
    (fresh : exec.obj = {}) (fits : (uriText url).length < kURLMaxSize) :
    Reads (parseParts urlPortNull true) (uriText url) next exec () { exec with obj := url } := by
  have schemeShape : schemeText url.scheme = url.scheme ++ [58, 47, 47] := by
    simp only [schemeText, List.isEmpty_eq_false_iff.mpr safe.scheme_ne_nil, Bool.false_eq_true,
      ↓reduceIte]
    rfl
  have schemeFits : url.scheme.length < kURLMaxSize := by
    simp only [uriText, schemeShape, List.length_append] at fits
    omega
  obtain ⟨first, host, hostShape⟩ := List.exists_cons_of_ne_nil safe.host_ne_nil
  intro rest
  have scheme := parseScheme_apply exec safe.scheme schemeFits first
    (host ++ (portText url.port ++ absPathText url) ++ next :: rest)
  have hierarchy := reads_parseHierarchy { exec with obj := { exec.obj with scheme := url.scheme } }
    safe space (by simp [fresh]) fits rest
  have whole : uriText url ++ next :: rest = url.scheme ++ 58 :: 47 :: 47 :: first ::
      (host ++ (portText url.port ++ absPathText url) ++ next :: rest) := by
    simp only [uriText, schemeShape, hostShape, List.append_assoc, List.cons_append,
      List.nil_append]
  have behind : url.host ++ (portText url.port ++ (pathText url.path ++
        (queryText url.query ++ fragmentText url.fragment))) ++ next :: rest =
      first :: (host ++ (portText url.port ++ absPathText url) ++ next :: rest) := by
    simp only [absPathText, hostShape, List.append_assoc, List.cons_append]
  rw [behind] at hierarchy
  simp only [parseParts, ↓reduceIte]
  rw [whole, bind_of_some scheme]
  exact hierarchy

/-! ## The path form -/

/-- What `print_abs_path` prints of a URL can be told apart again. -/
structure AbsPathSafe (url : URL) : Prop where
  path_ne_nil : url.path ≠ []
  path : ∀ c ∈ url.path, isCleanByte c = true ∧ c ≠ kQueryStart ∧ c ≠ kFragmentStart
  keys : ∀ info ∈ url.query, ∀ c ∈ info.key,
    isCleanByte c = true ∧ c ≠ kKeyValueDelimiter ∧ c ≠ kFragmentStart
  values : ∀ info ∈ url.query, ∀ c ∈ info.value,
    isCleanByte c = true ∧ c ≠ kQueryDelimiter ∧ c ≠ kFragmentStart
  fragment : ∀ c ∈ url.fragment, isCleanByte c = true

/-- The URL on some host. -/
def onHost (url : URL) : URL :=
  { url with scheme := ascii "http", host := ascii "h" }

theorem AbsPathSafe.onHost {url : URL} (safe : AbsPathSafe url) : WireSafe (onHost url) where
  scheme_ne_nil := show ascii "http" ≠ [] by decide
  host_ne_nil := show ascii "h" ≠ [] by decide
  path_ne_nil := safe.path_ne_nil
  scheme := show ∀ c ∈ ascii "http", isCleanByte c = true ∧ c ≠ 58 by decide +kernel
  host := show ∀ c ∈ ascii "h", isCleanByte c = true ∧ c ≠ 58 ∧ c ≠ 47 by decide +kernel
  path := safe.path
  keys := safe.keys
  values := safe.values
  fragment := safe.fragment

/-- Without a scheme ahead, the parser reads the path form; the host is empty and the port
the default. -/
theorem reads_parseParts_absPath (safe : AbsPathSafe url) (space : isspace next = true)
    (fresh : exec.obj = {}) (fits : (absPathText url).length < kURLMaxSize) (defaultPort : UInt16) :
    Reads (parseParts defaultPort false) (absPathText url) next exec ()
      { exec with obj := { url with scheme := [], host := [], port := defaultPort } } := by
  have host : Reads parseHost [] 47 exec () { exec with obj := { exec.obj with host := [] } } :=
    reads_parseHost (fun c member => by cases member) (.inr rfl) (by decide)
  have port : Reads (parsePort defaultPort) [] 47 { exec with obj := { exec.obj with host := [] } } ()
      { exec with obj := { exec.obj with host := [], port := defaultPort } } :=
    reads_whenAt_otherwise (by decide) (reads_assign _)
  intro rest
  have read := reads_absPath { exec with obj := { exec.obj with host := [], port := defaultPort } }
    safe.onHost space (by simp [fresh]) fits rest
  have window : absPathText url ++ next :: rest =
      47 :: (url.path ++ (queryText url.query ++ fragmentText url.fragment) ++ next :: rest) := by
    simp [absPathText, pathText, safe.path_ne_nil]
  have same : pathText url.onHost.path ++ (queryText url.onHost.query ++
      fragmentText url.onHost.fragment) ++ next :: rest = absPathText url ++ next :: rest := by
    simp [absPathText, URL.onHost]
  rw [same, window] at read
  simp only [parseParts, Bool.false_eq_true, ↓reduceIte]
  rw [window]
  refine (bind_of_some (host _)).trans ((bind_of_some (port _)).trans ?_)
  simp only [fresh] at read ⊢
  exact read

end Reads

end URL

end IpUtils
