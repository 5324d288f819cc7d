import IpUtils.Calls.Basic
import IpUtils.URL.Cut
import Mathlib.Data.List.Induction

/-! # Tainted URLs

The mutators replace a string with a back-quote, a bar or a backslash, except for `set_query`,
which stores every key and every value as it is.
-/

namespace IpUtils

open CLib Scanner

namespace URL

/-- A text without a back-quote, a bar or a backslash. -/
def Untainted (text : Bytes) : Prop :=
  ∀ c ∈ text, isTainted c = false

instance (text : Bytes) : Decidable (Untainted text) :=
  inferInstanceAs (Decidable (∀ c ∈ text, isTainted c = false))

/-- Pairs of a query without one. -/
def UntaintedQuery (query : List UrlQueryInfo) : Prop :=
  ∀ info ∈ query, Untainted info.key ∧ Untainted info.value

instance (query : List UrlQueryInfo) : Decidable (UntaintedQuery query) :=
  inferInstanceAs (Decidable (∀ info ∈ query, Untainted info.key ∧ Untainted info.value))

/-- The components other than the query. -/
structure UntaintedParts (url : URL) : Prop where
  scheme : Untainted url.scheme
  host : Untainted url.host
  path : Untainted url.path
  fragment : Untainted url.fragment

/-! ## The pairs that set_query installs -/

/-- What stands behind a value: the delimiter of the next pair is stepped over. -/
def behindValue (text : Bytes) : Bytes :=
  let rest := text.dropWhile isValueByte
  if rest.headD 0 = kQueryDelimiter then rest.tail else rest

/-- The pairs in front of the first key that has no delimiter behind it. -/
def installedPairs (text : Bytes) : List UrlQueryInfo :=
  match _ : text.dropWhile isKeyByte with
  | [] => []
  | c :: rest =>
      if c = kKeyValueDelimiter then
        { key := cstr (text.takeWhile isKeyByte), value := cstr (rest.takeWhile isValueByte) } ::
          installedPairs (behindValue rest)
      else []
termination_by text.length
decreasing_by
  rename_i shape _
  have outer := (List.dropWhile_suffix isKeyByte (l := text)).length_le
  have inner := (List.dropWhile_suffix isValueByte (l := rest)).length_le
  rw [shape, List.length_cons] at outer
  unfold behindValue
  dsimp only
  split
  · rw [List.length_tail]
    omega
  · omega

theorem length_behindValue (text : Bytes) : (behindValue text).length ≤ text.length := by
  have inner := (List.dropWhile_suffix isValueByte (l := text)).length_le
  unfold behindValue
  dsimp only
  split
  · rw [List.length_tail]
    omega
  · exact inner

theorem installedPairs_pair {text rest : Bytes}
    (shape : text.dropWhile isKeyByte = kKeyValueDelimiter :: rest) :
    installedPairs text =
      { key := cstr (text.takeWhile isKeyByte), value := cstr (rest.takeWhile isValueByte) } ::
        installedPairs (behindValue rest) := by
  rw [installedPairs]
  split
  · rename_i empty
    rw [empty] at shape
    cases shape
  · rename_i same
    rw [shape, List.cons.injEq] at same
    obtain ⟨rfl, rfl⟩ := same
    rw [if_pos rfl]

theorem installedPairs_other {text : Bytes}
    (other : (text.dropWhile isKeyByte).headD 0 ≠ kKeyValueDelimiter) :
    installedPairs text = [] := by
  rw [installedPairs]
  split
  · rfl
  · rename_i same
    rw [same, List.headD_cons] at other
    rw [if_neg other]

variable {exec : Exec URL}

/-- Copying a word, whatever its length. -/
theorem copyWhile_run (capacity : Nat) (test : UInt8 → Bool) (text : Bytes) (exec : Exec URL) :
    ∃ overrun, Parse.copyWhile capacity test text exec =
      (some (text.takeWhile test, text.dropWhile test), { exec with overrun }) :=
  ⟨_, rfl⟩

theorem terminate_run (capacity : Nat) (word text : Bytes) (exec : Exec URL) :
    ∃ overrun, Parse.terminate capacity word text exec =
      (some (cstr word, text), { exec with overrun }) :=
  ⟨_, rfl⟩

theorem word_run (capacity : Nat) (test : UInt8 → Bool) (text : Bytes) (exec : Exec URL) :
    ∃ overrun, Parse.word capacity test text exec =
      (some (cstr (text.takeWhile test), text.dropWhile test), { exec with overrun }) :=
  ⟨_, rfl⟩

/-- One round of the loop: a pair is stored, or the loop stops. -/
theorem queryPair_cases (queryBuf text : Bytes) (exec : Exec URL) :
    (∃ rest overrun, text.dropWhile isKeyByte = kKeyValueDelimiter :: rest ∧
        queryPair queryBuf text exec = (some ((), behindValue rest),
          { exec with
            obj := { exec.obj with query := exec.obj.query ++
              [{ key := cstr (text.takeWhile isKeyByte)
                 value := cstr (rest.takeWhile isValueByte) }] }
            overrun })) ∨
      ((text.dropWhile isKeyByte).headD 0 ≠ kKeyValueDelimiter ∧
        ∃ exec', queryPair queryBuf text exec = (none, exec') ∧ exec'.obj = exec.obj) := by
  obtain ⟨copied, copies⟩ := copyWhile_run kURLMaxSize isKeyByte text exec
  by_cases here : (text.dropWhile isKeyByte).headD 0 = kKeyValueDelimiter
  · -- a key and its delimiter
    left
    cases shape : text.dropWhile isKeyByte with
    | nil =>
        rw [shape] at here
        exact absurd here (by decide)
    | cons c rest =>
        rw [shape, List.headD_cons] at here
        subst here
        rw [shape] at copies
        obtain ⟨ended, ends⟩ := terminate_run kURLMaxSize (text.takeWhile isKeyByte)
          (kKeyValueDelimiter :: rest) { exec with overrun := copied }
        obtain ⟨read, reads⟩ := word_run kURLMaxSize isValueByte rest
          { exec with overrun := ended }
        refine ⟨rest, read, rfl, ?_⟩
        rw [queryPair, bind_of_some copies, bind_of_some (Parse.require_cons _ _ _),
          bind_of_some ends,
          bind_of_some (show Scanner.advance (kKeyValueDelimiter :: rest)
            ({ exec with overrun := ended } : Exec URL) = (some ((), rest), _) from rfl),
          bind_of_some reads]
        rw [behindValue, bind_of_some (show Parse.assign _ _ _ = (some ((), _), _) from rfl),
          bind_of_some (show Scanner.current _ _ _ = (some (_, _), _) from rfl)]
        dsimp only
        split
        · rfl
        · rfl
  · -- the key has no delimiter
    right
    have stops := @Parse.require_of_ne _ _ { exec with overrun := copied } _ here
      "URL::set_query(): buf (%s) does not have a '%c'"
      fun _ => [.str (cstr queryBuf), .num kKeyValueDelimiter.toNat]
    refine ⟨here, _, (bind_of_some copies).trans (bind_of_none stops), rfl⟩

/-- The loop stores these pairs behind those that are there, and changes nothing else. -/
theorem obj_queryPairs (queryBuf text : Bytes) (exec : Exec URL) :
    (queryPairs queryBuf text exec).2.obj =
      { exec.obj with query := exec.obj.query ++ installedPairs text } := by
  induction size : text.length using Nat.strongRecOn generalizing text exec with
  | ind size ih =>
      rw [queryPairs, loop_apply]
      cases text with
      | nil =>
          rw [List.isEmpty_nil, if_pos rfl, installedPairs_other (by decide), List.append_nil]
      | cons first others =>
          rw [List.isEmpty_cons, if_neg Bool.false_ne_true]
          rcases queryPair_cases queryBuf (first :: others) exec with
            ⟨rest, overrun, shape, round⟩ | ⟨other, exec', stopped, same⟩
          · have outer := (List.dropWhile_suffix isKeyByte (l := first :: others)).length_le
            have inner := length_behindValue rest
            rw [shape, List.length_cons] at outer
            rw [round, installedPairs_pair shape]
            dsimp only
            rw [if_pos (by omega)]
            refine (ih _ (by omega) (behindValue rest) _ rfl).trans ?_
            rw [List.append_assoc, List.singleton_append]
          · rw [stopped, installedPairs_other other, List.append_nil]
            exact same

/-- What `set_query` installs. -/
def queryInstalls (queryBuf : Option Bytes) (len : Nat) : List UrlQueryInfo :=
  match queryBuf with
  | none => []
  | some queryBuf =>
      if queryBuf.getD len 0 ≠ 0 ∨ kURLMaxSize < len then []
      else installedPairs (readMemory queryBuf len)

theorem obj_setQuery (queryBuf : Option Bytes) (len : Nat) (exec : Exec URL) :
    (setQuery queryBuf len exec).obj =
      { exec.obj with query := exec.obj.query ++ queryInstalls queryBuf len } := by
  cases queryBuf with
  | none => exact (congrArg (fun query => { exec.obj with query }) (List.append_nil _)).symm
  | some queryBuf =>
      unfold setQuery queryInstalls
      dsimp only
      split
      · rw [List.append_nil]
      · exact obj_queryPairs _ _ _

theorem queryInstalls_nil : queryInstalls (some []) 0 = [] := by
  rw [queryInstalls, if_neg (by decide)]
  exact installedPairs_other (by decide)

/-- What `set_path` installs, when a query stands behind the path. -/
def pathInstalls (pathBuf : Option Bytes) (len : Nat) : List UrlQueryInfo :=
  match pathBuf with
  | none => []
  | some pathBuf =>
      let path := (pathBuf.take len).takeWhile isPathByte
      let rest := pathBuf.drop path.length
      if len = 0 ∨ isStrTainted (some pathBuf) = true ∨ rest.headD 0 ≠ kQueryStart then []
      else queryInstalls (some rest) (toSize (len - (path.length + 1 : Nat)))

/-! ## The other components -/

/-- What a mutator stores is not tainted. -/
theorem untainted_untaint (str : Bytes) : Untainted (untaint str) := by
  unfold untaint
  split
  · decide +kernel
  · rename_i clean
    intro c member
    rw [isStrTainted, List.any_eq_true] at clean
    by_contra tainted
    exact clean ⟨c, member, by simpa using tainted⟩

/-- A part of a C string that is not tainted. -/
theorem untainted_of_part {str part : Bytes} (clean : isStrTainted (some str) = false)
    (within : part <+: cstr str) : Untainted part := by
  intro c member
  rw [isStrTainted, List.any_eq_false] at clean
  simpa using clean c (within.subset member)

/-- The path that `set_path` stores is a part of its C string. -/
theorem pathBytes_take (pathBuf : Bytes) (len : Nat) :
    (pathBuf.take len).takeWhile isPathByte <+: cstr pathBuf := by
  unfold cstr
  induction pathBuf generalizing len with
  | nil => simp
  | cons c rest ih =>
      cases len with
      | zero => exact List.nil_prefix
      | succ len =>
          rw [List.take_succ_cons, List.takeWhile_cons]
          split
          · rename_i path
            have other : (c != 0) = true := by
              simp only [isPathByte, Bool.and_eq_true] at path
              exact path.1.1
            rw [List.takeWhile_cons, if_pos other]
            exact (List.prefix_cons_inj c).mpr (ih len)
          · exact List.nil_prefix

theorem untaintedParts_empty : UntaintedParts {} :=
  ⟨by decide +kernel, by decide +kernel, by decide +kernel, by decide +kernel⟩

theorem untaintedParts_setScheme {url : URL} (clean : UntaintedParts url) (scheme : Option Bytes) :
    UntaintedParts (setScheme scheme url) := by
  cases scheme with
  | none => exact clean
  | some scheme => exact ⟨untainted_untaint scheme, clean.host, clean.path, clean.fragment⟩

theorem untaintedParts_setHost {url : URL} (clean : UntaintedParts url) (host : Option Bytes) :
    UntaintedParts (setHost host url) := by
  cases host with
  | none => exact clean
  | some host => exact ⟨clean.scheme, untainted_untaint host, clean.path, clean.fragment⟩

theorem untaintedParts_setFragment {url : URL} (clean : UntaintedParts url)
    (fragment : Option Bytes) : UntaintedParts (setFragment fragment url) := by
  cases fragment with
  | none => exact clean
  | some fragment => exact ⟨clean.scheme, clean.host, clean.path, untainted_untaint fragment⟩

theorem untaintedParts_setQuery (clean : UntaintedParts exec.obj) (queryBuf : Option Bytes)
    (len : Nat) : UntaintedParts (setQuery queryBuf len exec).obj := by
  rw [obj_setQuery]
  exact ⟨clean.scheme, clean.host, clean.path, clean.fragment⟩

theorem untaintedParts_setPath (clean : UntaintedParts exec.obj) (pathBuf : Option Bytes)
    (len : Nat) : UntaintedParts (setPath pathBuf len exec).obj := by
  cases pathBuf with
  | none => exact clean
  | some pathBuf =>
      unfold setPath
      dsimp only
      split
      · exact clean
      split
      · have path : Untainted kStringTainted := by decide +kernel
        exact ⟨clean.scheme, clean.host, path, clean.fragment⟩
      rename_i tainted
      have path := untainted_of_part (by simpa using tainted) (pathBytes_take pathBuf len)
      have stored : UntaintedParts
          { exec.obj with path := (pathBuf.take len).takeWhile isPathByte } :=
        ⟨clean.scheme, clean.host, path, clean.fragment⟩
      split
      · exact untaintedParts_setQuery stored _ _
      split
      · exact untaintedParts_setFragment stored (some _)
      · exact stored

/-- The query that a path leaves behind. -/
theorem query_setPath (pathBuf : Option Bytes) (len : Nat) (exec : Exec URL) :
    (setPath pathBuf len exec).obj.query = exec.obj.query ++ pathInstalls pathBuf len := by
  cases pathBuf with
  | none => exact (List.append_nil _).symm
  | some pathBuf =>
      unfold setPath pathInstalls
      dsimp only
      by_cases empty : len = 0
      · rw [if_pos empty, if_pos (.inl empty), List.append_nil]
      by_cases tainted : isStrTainted (some pathBuf) = true
      · rw [if_neg empty, if_pos tainted, if_pos (.inr (.inl tainted)), List.append_nil]
      rw [if_neg empty, if_neg tainted]
      by_cases query : (pathBuf.drop ((pathBuf.take len).takeWhile isPathByte).length).headD 0 =
          kQueryStart
      · have all : ¬(len = 0 ∨ isStrTainted (some pathBuf) = true ∨
            (pathBuf.drop ((pathBuf.take len).takeWhile isPathByte).length).headD 0 ≠
              kQueryStart) := by
          rintro (none_ | bad | other)
          · exact empty none_
          · exact tainted bad
          · exact other query
        rw [if_pos query, if_neg all, obj_setQuery]
      · have one : len = 0 ∨ isStrTainted (some pathBuf) = true ∨
            (pathBuf.drop ((pathBuf.take len).takeWhile isPathByte).length).headD 0 ≠
              kQueryStart := .inr (.inr query)
        rw [if_neg query, if_pos one, List.append_nil]
        split <;> rfl

/-! ## The query that InitFromBuf comes to -/

/-- What stands behind a part that a byte introduces. -/
def behindPart (introduction : UInt8) (test : UInt8 → Bool) (text : Bytes) : Bytes :=
  if text.head? = some introduction then text.tail.dropWhile test else text

/-- What stands behind the scheme and its delimiter. -/
def behindScheme (stale text : Bytes) : Bytes :=
  if schemeAhead (text ++ stale) then (text.dropWhile (· != 58)).drop 3 else text

/-- What stands behind the path. -/
def behindPath (stale window : Bytes) : Bytes :=
  let text := (behindScheme stale (window.dropWhile isspace)).dropWhile isHostByte
  behindPart 47 isPathWordByte (behindPart 58 isdigit text)

/-- What a text installs that starts where a query may start. -/
def textInstalls (text : Bytes) : List UrlQueryInfo :=
  if text.head? = some kQueryStart then
    let query := cstr (text.tail.takeWhile isQueryWordByte)
    queryInstalls (some query) query.length
  else []

/-- What `InitFromBuf` installs. -/
def bufInstalls (stale window : Bytes) : List UrlQueryInfo :=
  if window.headD 0 = 0 then [] else textInstalls (behindPath stale window)

/-- A parser steps over what `next` steps over and leaves the query alone; where it stops,
there is nothing behind. -/
structure Walks (parser : Parse URL Unit) (next : Bytes → Bytes) : Prop where
  query : ∀ window exec, (parser window exec).2.obj.query = exec.obj.query
  stands : ∀ window exec rest, (parser window exec).1 = some ((), rest) → rest = next window
  stops : ∀ window exec, (parser window exec).1 = none → next window = []

/-- A part is run on what stands behind its introduction, if there is something. -/
theorem whenAt_run (introduction : UInt8) (part otherwise : Parse URL Unit) (window : Bytes)
    (exec : Exec URL) :
    whenAt introduction part otherwise window exec =
      if window.head? = some introduction then
        if window.tail = [] then (none, exec) else part window.tail exec
      else otherwise window exec := by
  by_cases head : window.head? = some introduction
  · rw [if_pos head]
    match window with
    | [c] =>
        obtain rfl := Option.some.inj head
        exact whenAt_last _ _ _
    | c :: d :: rest =>
        obtain rfl := Option.some.inj head
        exact whenAt_part _ _ _ _ _
  · rw [if_neg head]
    exact whenAt_otherwise head

theorem Walks.whenAt {introduction : UInt8} {test : UInt8 → Bool} {part otherwise : Parse URL Unit}
    (inner : Walks part (List.dropWhile test)) (outer : Walks otherwise id) :
    Walks (URL.whenAt introduction part otherwise) (behindPart introduction test) := by
  unfold behindPart
  constructor
  · intro window exec
    rw [whenAt_run]
    split
    · split
      · rfl
      · exact inner.query _ _
    · exact outer.query _ _
  · intro window exec rest ran
    rw [whenAt_run] at ran
    split at ran
    · rename_i head
      rw [if_pos head]
      split at ran
      · cases ran
      · exact inner.stands _ _ _ ran
    · rename_i head
      rw [if_neg head]
      exact outer.stands _ _ _ ran
  · intro window exec ran
    rw [whenAt_run] at ran
    split at ran
    · rename_i head
      rw [if_pos head]
      split at ran
      · rename_i empty
        rw [empty]
        rfl
      · exact inner.stops _ _ ran
    · rename_i head
      rw [if_neg head]
      exact outer.stops _ _ ran

/-- A word is read and stored. -/
theorem Walks.word {test : UInt8 → Bool} {put : Bytes → Exec URL → Exec URL}
    (kept : ∀ text exec, (put text exec).obj.query = exec.obj.query) :
    Walks (Parse.word kURLMaxSize test >>= fun text => Scanner.update (put text))
      (List.dropWhile test) := by
  constructor
  · intro window exec
    exact kept _ _
  · intro window exec rest ran
    cases ran
    rfl
  · intro window exec ran
    cases ran

theorem Walks.update {put : Exec URL → Exec URL}
    (kept : ∀ exec, (put exec).obj.query = exec.obj.query) :
    Walks (Scanner.update put) id := by
  refine ⟨fun _ _ => kept _, ?_, ?_⟩
  · intro window exec rest ran
    cases ran
    rfl
  · intro window exec ran
    cases ran

theorem Walks.pure : Walks (Pure.pure ()) id := by
  refine ⟨fun _ _ => rfl, ?_, ?_⟩
  · intro window exec rest ran
    cases ran
    rfl
  · intro window exec ran
    cases ran

/-- The path that is cut out of a URL has no query behind it. -/
theorem query_setPath_word (word : Bytes) (exec : Exec URL) :
    (setPath (some (cstr (word.takeWhile isPathWordByte)))
      (cstr (word.takeWhile isPathWordByte)).length exec).obj.query = exec.obj.query := by
  generalize shape : cstr (word.takeWhile isPathWordByte) = path
  have all : ∀ c ∈ path, isPathByte c = true := by
    intro c member
    rw [← shape, cstr] at member
    have nonzero := List.mem_takeWhile_imp member
    have inside := List.mem_takeWhile_imp ((List.takeWhile_subset _) member)
    simp only [isPathWordByte, Bool.and_eq_true] at inside
    simp only [isPathByte, Bool.and_eq_true]
    exact ⟨⟨nonzero, inside.1.1⟩, inside.1.2⟩
  have none_ : pathInstalls (some path) path.length = [] := by
    unfold pathInstalls
    dsimp only
    rw [List.take_length, (takeWhile_of_all all).1, List.drop_length]
    rw [if_pos (.inr (.inr (by decide)))]
  rw [query_setPath, none_, List.append_nil]

theorem walks_parsePath : Walks parsePath (behindPart 47 isPathWordByte) := by
  refine Walks.whenAt ⟨?_, ?_, ?_⟩ Walks.pure
  · intro window exec
    obtain ⟨overrun, reads⟩ := word_run kURLMaxSize isPathWordByte window exec
    rw [readPath, bind_of_some reads]
    exact query_setPath_word window _
  · intro window exec rest ran
    cases ran
    rfl
  · intro window exec ran
    cases ran

theorem walks_parsePort (defaultPort : UInt16) :
    Walks (parsePort defaultPort) (behindPart 58 isdigit) :=
  Walks.whenAt (Walks.word fun _ _ => rfl) (Walks.update fun _ => rfl)

theorem walks_parseHost : Walks parseHost (List.dropWhile isHostByte) :=
  Walks.word fun _ _ => rfl

theorem walks_parseScheme : Walks parseScheme fun text => (text.dropWhile (· != 58)).drop 3 := by
  have token (window : Bytes) (exec : Exec URL) :
      ∃ overrun, parseScheme window exec =
        if (window.dropWhile (· != 58)).isEmpty then (none, { exec with overrun })
        else if 3 < (window.dropWhile (· != 58)).length then
          (some ((), (window.dropWhile (· != 58)).drop 3),
            { exec with
              obj := setScheme (some (cstr (window.takeWhile (· != 58)))) exec.obj
              overrun })
        else (none, { exec with
          obj := setScheme (some (cstr (window.takeWhile (· != 58)))) exec.obj
          overrun }) := by
    obtain ⟨copied, copies⟩ := copyWhile_run kURLMaxSize (· != 58) window exec
    cases shape : window.dropWhile (· != 58) with
    | nil =>
        refine ⟨copied, ?_⟩
        rw [shape] at copies
        rw [parseScheme, Parse.token, bind_of_none]
        · rfl
        · rw [bind_of_some copies]
          rfl
    | cons c rest =>
        rw [shape] at copies
        obtain ⟨ended, ends⟩ := terminate_run kURLMaxSize (window.takeWhile (· != 58)) (c :: rest)
          { exec with overrun := copied }
        refine ⟨ended, ?_⟩
        have read : Parse.token kURLMaxSize (· != 58) window exec =
            (some (cstr (window.takeWhile (· != 58)), c :: rest), { exec with overrun := ended }) := by
          rw [Parse.token, bind_of_some copies,
            bind_of_some (show Scanner.need (c :: rest) _ = (some ((), c :: rest), _) from rfl)]
          exact ends
        rw [parseScheme, bind_of_some read,
          bind_of_some (show Parse.assign _ (c :: rest) _ = (some ((), c :: rest), _) from rfl),
          Scanner.advanceBy, List.isEmpty_cons, if_neg Bool.false_ne_true]
  constructor
  · intro window exec
    obtain ⟨overrun, run⟩ := token window exec
    rw [run]
    split
    · rfl
    · split <;> rfl
  · intro window exec rest ran
    obtain ⟨overrun, run⟩ := token window exec
    rw [run] at ran
    split at ran
    · cases ran
    · split at ran
      · cases ran
        rfl
      · cases ran
  · intro window exec ran
    obtain ⟨overrun, run⟩ := token window exec
    rw [run] at ran
    split at ran
    · rename_i empty
      rw [List.isEmpty_iff.mp empty]
      rfl
    · split at ran
      · cases ran
      · exact List.drop_eq_nil_of_le (by omega)

/-- What a parser installs behind one that walks. -/
theorem Walks.installs {first second : Parse URL Unit} {next : Bytes → Bytes}
    (head : Walks first next) {installs : Bytes → List UrlQueryInfo} (empty : installs [] = [])
    (tail : ∀ window exec, (second window exec).2.obj.query = exec.obj.query ++ installs window)
    (window : Bytes) (exec : Exec URL) :
    ((first >>= fun _ => second) window exec).2.obj.query =
      exec.obj.query ++ installs (next window) := by
  have same := head.query window exec
  rw [bind_apply]
  cases outcome : first window exec with
  | mk reply exec' =>
      rw [outcome] at same
      cases reply with
      | none =>
          rw [head.stops window exec (by rw [outcome]), empty, List.append_nil]
          exact same
      | some delivered =>
          rw [← head.stands window exec delivered.2 (by rw [outcome])]
          dsimp only at same ⊢
          rw [tail, same]

theorem query_parseQuery (window : Bytes) (exec : Exec URL) :
    ((parseQuery >>= fun _ => parseFragment) window exec).2.obj.query =
      exec.obj.query ++ textInstalls window := by
  have fragment : Walks parseFragment (behindPart kFragmentStart isFragmentByte) :=
    Walks.whenAt (Walks.word fun _ _ => rfl) Walks.pure
  have query : (parseQuery window exec).2.obj.query = exec.obj.query ++ textInstalls window := by
    rw [parseQuery, whenAt_run, textInstalls]
    split
    · split
      · rename_i empty
        rw [empty]
        change _ = _ ++ queryInstalls (some []) 0
        rw [queryInstalls_nil, List.append_nil]
      · obtain ⟨overrun, reads⟩ := word_run kURLMaxSize isQueryWordByte window.tail exec
        rw [readQuery, bind_of_some reads]
        dsimp only [Scanner.update]
        rw [obj_setQuery]
    · exact (List.append_nil _).symm
  rw [bind_apply]
  cases outcome : parseQuery window exec with
  | mk reply exec' =>
      rw [outcome] at query
      cases reply with
      | none => exact query
      | some delivered => exact (fragment.query _ _).trans query

theorem query_parseHierarchy (defaultPort : UInt16) (window : Bytes) (exec : Exec URL) :
    (parseHierarchy defaultPort window exec).2.obj.query = exec.obj.query ++
      textInstalls (behindPart 47 isPathWordByte (behindPart 58 isdigit
        (window.dropWhile isHostByte))) := by
  unfold parseHierarchy
  refine @Walks.installs _ _ _ walks_parseHost (fun text => textInstalls (behindPart 47
    isPathWordByte (behindPart 58 isdigit text))) rfl ?_ window exec
  refine @Walks.installs _ _ _ (walks_parsePort defaultPort) (fun text => textInstalls
    (behindPart 47 isPathWordByte text)) rfl ?_
  exact @Walks.installs _ _ _ walks_parsePath textInstalls rfl query_parseQuery

theorem parseStart_run (window : Bytes) (exec : Exec URL) :
    parseStart window exec =
      if window.headD 0 = 0 ∨ (window.dropWhile isspace).isEmpty = true then
        (none, { exec with obj := {} })
      else (some ((), window.dropWhile isspace), { exec with obj := {} }) := by
  rw [parseStart, bind_of_some (show Parse.assign clear window exec =
    (some ((), window), { exec with obj := {} }) from rfl),
    bind_of_some (show Scanner.current 0 window ({ exec with obj := {} } : Exec URL) =
      (some (window.headD 0, window), { exec with obj := {} }) from rfl)]
  by_cases zero : window.headD 0 = 0
  · rw [if_pos zero, if_pos (.inl zero)]
    rfl
  · rw [if_neg zero, Scanner.skip, bind_of_some (show Scanner.skipWhile isspace window
      ({ exec with obj := {} } : Exec URL) = (some ((), window.dropWhile isspace), _) from rfl),
      Scanner.need]
    by_cases empty : (window.dropWhile isspace).isEmpty = true
    · rw [if_pos empty, if_pos (.inr empty)]
    · rw [if_neg empty, if_neg (by simp only [not_or]; exact ⟨zero, empty⟩)]

/-- What `InitFromBuf` installs. -/
theorem query_initFromBuf (stale : Bytes) (defaultPort : UInt16) (window : Bytes)
    (exec : Exec URL) :
    (initFromBuf stale defaultPort window exec).2.obj.query = bufInstalls stale window := by
  have start := parseStart_run window exec
  unfold bufInstalls behindPath behindScheme
  dsimp only
  rw [initFromBuf]
  by_cases zero : window.headD 0 = 0
  · rw [if_pos (.inl zero)] at start
    rw [if_pos zero, bind_of_none start]
  rw [if_neg zero]
  by_cases empty : (window.dropWhile isspace).isEmpty = true
  · rw [if_pos (.inr empty)] at start
    rw [bind_of_none start, List.isEmpty_iff.mp empty]
    split <;> rfl
  rw [if_neg (by simp only [not_or]; exact ⟨zero, empty⟩)] at start
  generalize window.dropWhile isspace = text at start ⊢
  rw [bind_of_some start, bind_of_some (show Scanner.lookahead _ text _ =
    (some (schemeAhead (text ++ stale), text), _) from rfl), parseParts]
  cases schemeAhead (text ++ stale) with
  | false => exact query_parseHierarchy defaultPort text _
  | true =>
      exact @Walks.installs _ _ _ walks_parseScheme (fun text => textInstalls (behindPart 47
        isPathWordByte (behindPart 58 isdigit (text.dropWhile isHostByte)))) rfl
        (query_parseHierarchy defaultPort) text _

/-! ## Runs -/

/-- A call of a mutator, of `Init` or of `InitFromBuf`. -/
inductive Mutation where
  | setScheme (scheme : Option Bytes)
  | setHost (host : Option Bytes)
  | setPort (port : UInt16)
  | setPath (pathBuf : Option Bytes) (len : Nat)
  | setQuery (queryBuf : Option Bytes) (len : Nat)
  | setFragment (fragment : Option Bytes)
  | init (scheme host : Option Bytes) (port : UInt16) (pathBuf : Option Bytes) (pathLen : Nat)
      (queryBuf : Option Bytes) (queryLen : Nat) (fragment : Option Bytes)
  | initFromBuf (stale : Bytes) (defaultPort : UInt16) (window : Bytes)

/-- Make a call. -/
def mutate : Machine Mutation (Exec URL)
  | .setScheme scheme, exec => ({ exec with obj := setScheme scheme exec.obj }, true)
  | .setHost host, exec => ({ exec with obj := setHost host exec.obj }, true)
  | .setPort port, exec => ({ exec with obj := setPort port exec.obj }, true)
  | .setPath pathBuf len, exec => (setPath pathBuf len exec, true)
  | .setQuery queryBuf len, exec => (setQuery queryBuf len exec, true)
  | .setFragment fragment, exec => ({ exec with obj := setFragment fragment exec.obj }, true)
  | .init scheme host port pathBuf pathLen queryBuf queryLen fragment, exec =>
      (init scheme host port pathBuf pathLen queryBuf queryLen fragment exec, true)
  | .initFromBuf stale defaultPort window, exec =>
      ((initFromBuf stale defaultPort window exec).2, true)

/-- The pairs that a call stores. -/
def Mutation.installs : Mutation → List UrlQueryInfo
  | .setPath pathBuf len => pathInstalls pathBuf len
  | .setQuery queryBuf len => queryInstalls queryBuf len
  | .init _ _ _ pathBuf pathLen queryBuf queryLen _ =>
      (if pathLen ≠ 0 then pathInstalls pathBuf pathLen else []) ++
        if queryLen ≠ 0 then queryInstalls queryBuf queryLen else []
  | .initFromBuf stale _ window => bufInstalls stale window
  | _ => []

/-- No component has a back-quote, a bar or a backslash. -/
structure NotTainted (url : URL) : Prop where
  parts : UntaintedParts url
  query : UntaintedQuery url.query

theorem untaintedQuery_append {first second : List UrlQueryInfo} (left : UntaintedQuery first)
    (right : UntaintedQuery second) : UntaintedQuery (first ++ second) := by
  intro info member
  rcases List.mem_append.mp member with inFirst | inSecond
  · exact left info inFirst
  · exact right info inSecond

theorem UntaintedQuery.of_append {first second : List UrlQueryInfo}
    (both : UntaintedQuery (first ++ second)) : UntaintedQuery second :=
  fun info member => both info (List.mem_append_right _ member)

/-- `Init` is the mutators one behind the other. -/
theorem obj_init (scheme host : Option Bytes) (port : UInt16) (pathBuf : Option Bytes)
    (pathLen : Nat) (queryBuf : Option Bytes) (queryLen : Nat) (fragment : Option Bytes)
    (clean : UntaintedParts exec.obj) :
    UntaintedParts
        (init scheme host port pathBuf pathLen queryBuf queryLen fragment exec).obj ∧
      (init scheme host port pathBuf pathLen queryBuf queryLen fragment exec).obj.query =
        exec.obj.query ++ ((if pathLen ≠ 0 then pathInstalls pathBuf pathLen else []) ++
          if queryLen ≠ 0 then queryInstalls queryBuf queryLen else []) := by
  have host_ : UntaintedParts (setPort port (setHost host (setScheme scheme exec.obj))) ∧
      (setPort port (setHost host (setScheme scheme exec.obj))).query = exec.obj.query := by
    have parts := untaintedParts_setHost (untaintedParts_setScheme clean scheme) host
    refine ⟨⟨parts.scheme, parts.host, parts.path, parts.fragment⟩, ?_⟩
    cases scheme <;> cases host <;> rfl
  unfold init
  dsimp only
  generalize setPort port (setHost host (setScheme scheme exec.obj)) = url at host_ ⊢
  obtain ⟨parts, same⟩ := host_
  have path : ∀ exec' : Exec URL, exec'.obj = url → UntaintedParts
        (if pathLen ≠ 0 then setPath pathBuf pathLen exec' else exec').obj ∧
      (if pathLen ≠ 0 then setPath pathBuf pathLen exec' else exec').obj.query =
        exec.obj.query ++ if pathLen ≠ 0 then pathInstalls pathBuf pathLen else [] := by
    rintro exec' rfl
    split
    · exact ⟨untaintedParts_setPath parts _ _, by rw [query_setPath, same]⟩
    · exact ⟨parts, by rw [List.append_nil, same]⟩
  specialize path { exec with obj := url } rfl
  generalize (if pathLen ≠ 0 then setPath pathBuf pathLen { exec with obj := url }
    else { exec with obj := url }) = exec' at path ⊢
  obtain ⟨parts, same⟩ := path
  have query : UntaintedParts
        (if queryLen ≠ 0 then setQuery queryBuf queryLen exec' else exec').obj ∧
      (if queryLen ≠ 0 then setQuery queryBuf queryLen exec' else exec').obj.query =
        exec'.obj.query ++ if queryLen ≠ 0 then queryInstalls queryBuf queryLen else [] := by
    split
    · exact ⟨untaintedParts_setQuery parts _ _, by rw [obj_setQuery]⟩
    · exact ⟨parts, (List.append_nil _).symm⟩
  generalize (if queryLen ≠ 0 then setQuery queryBuf queryLen exec' else exec') = exec'' at query ⊢
  obtain ⟨parts, same'⟩ := query
  have fragment_ := untaintedParts_setFragment parts fragment
  have same'' : (setFragment fragment exec''.obj).query = exec''.obj.query := by
    cases fragment <;> rfl
  rw [same', same, List.append_assoc] at same''
  split
  · exact ⟨fragment_, same''⟩
  · exact ⟨fragment_, same''⟩

theorem untaintedParts_initFromBuf (stale : Bytes) (defaultPort : UInt16) :
    Keeps (fun exec : Exec URL => UntaintedParts exec.obj) (initFromBuf stale defaultPort) := by
  have robust : Robust fun exec : Exec URL => UntaintedParts exec.obj := Robust.of_obj _
  have start : Keeps (fun exec : Exec URL => UntaintedParts exec.obj) parseStart := by
    refine (Keeps.assign fun _ _ => ?_).bind fun _ => (Keeps.current 0).bind fun _ =>
      Keeps.ite Keeps.stop ((Keeps.skipWhile _).bind fun _ => Keeps.need)
    exact untaintedParts_empty
  have scheme : Keeps (fun exec : Exec URL => UntaintedParts exec.obj) parseScheme :=
    (Keeps.token robust _ _).bind fun _ =>
      (Keeps.assign fun _ clean => untaintedParts_setScheme clean (some _)).bind fun _ =>
        Keeps.advanceBy 3
  have host : Keeps (fun exec : Exec URL => UntaintedParts exec.obj) parseHost :=
    (Keeps.word robust _ _).bind fun _ =>
      Keeps.assign fun _ clean => untaintedParts_setHost clean (some _)
  have changed (exec : Exec URL) (clean : UntaintedParts exec.obj) (port : UInt16) :
      UntaintedParts (setPort port exec.obj) :=
    ⟨clean.scheme, clean.host, clean.path, clean.fragment⟩
  have port : Keeps (fun exec : Exec URL => UntaintedParts exec.obj) (parsePort defaultPort) :=
    whenAt_keeps ((Keeps.word robust _ _).bind fun _ =>
      Keeps.assign fun exec clean => changed exec clean _)
      (Keeps.assign fun exec clean => changed exec clean _)
  have path : Keeps (fun exec : Exec URL => UntaintedParts exec.obj) parsePath :=
    whenAt_keeps ((Keeps.word robust _ _).bind fun _ =>
      Keeps.update fun _ clean => untaintedParts_setPath clean _ _) (Keeps.pure _)
  have query : Keeps (fun exec : Exec URL => UntaintedParts exec.obj) parseQuery :=
    whenAt_keeps ((Keeps.word robust _ _).bind fun _ =>
      Keeps.update fun _ clean => untaintedParts_setQuery clean _ _) (Keeps.pure _)
  have fragment : Keeps (fun exec : Exec URL => UntaintedParts exec.obj) parseFragment :=
    whenAt_keeps ((Keeps.word robust _ _).bind fun _ =>
      Keeps.assign fun _ clean => untaintedParts_setFragment clean (some _)) (Keeps.pure _)
  have hierarchy : Keeps (fun exec : Exec URL => UntaintedParts exec.obj)
      (parseHierarchy defaultPort) :=
    host.bind fun _ => port.bind fun _ => path.bind fun _ => query.bind fun _ => fragment
  exact start.bind fun _ => (Keeps.lookahead _).bind fun _ =>
    Keeps.ite (scheme.bind fun _ => hierarchy) hierarchy

/-- The step: a call taints a URL exactly when a pair that it stores is tainted. -/
theorem notTainted_mutate_iff (clean : NotTainted exec.obj) (call : Mutation) :
    NotTainted (mutate call exec).1.obj ↔ UntaintedQuery call.installs := by
  have appends {url : URL} (parts : UntaintedParts url) {more : List UrlQueryInfo}
      (query : url.query = exec.obj.query ++ more) : NotTainted url ↔ UntaintedQuery more := by
    constructor
    · intro after
      have both := after.query
      rw [query] at both
      exact both.of_append
    · intro installs
      refine ⟨parts, ?_⟩
      rw [query]
      exact untaintedQuery_append clean.query installs
  have nothing (parts : UntaintedParts (mutate call exec).1.obj)
      (query : (mutate call exec).1.obj.query = exec.obj.query) :
      NotTainted (mutate call exec).1.obj ↔ UntaintedQuery [] :=
    appends parts (query.trans (List.append_nil _).symm)
  cases call with
  | setScheme scheme =>
      refine nothing (untaintedParts_setScheme clean.parts scheme) ?_
      cases scheme <;> rfl
  | setHost host =>
      refine nothing (untaintedParts_setHost clean.parts host) ?_
      cases host <;> rfl
  | setPort port =>
      exact nothing ⟨clean.parts.scheme, clean.parts.host, clean.parts.path,
        clean.parts.fragment⟩ rfl
  | setPath pathBuf len =>
      exact appends (untaintedParts_setPath clean.parts pathBuf len) (query_setPath _ _ _)
  | setQuery queryBuf len =>
      exact appends (untaintedParts_setQuery clean.parts queryBuf len)
        (congrArg URL.query (obj_setQuery queryBuf len exec))
  | setFragment fragment =>
      refine nothing (untaintedParts_setFragment clean.parts fragment) ?_
      cases fragment <;> rfl
  | init scheme host port pathBuf pathLen queryBuf queryLen fragment =>
      obtain ⟨parts, query⟩ := obj_init scheme host port pathBuf pathLen queryBuf queryLen fragment
        clean.parts
      exact appends parts query
  | initFromBuf stale defaultPort window =>
      have parts := untaintedParts_initFromBuf stale defaultPort window exec clean.parts
      have query := query_initFromBuf stale defaultPort window exec
      constructor
      · intro after
        have both := after.query
        change UntaintedQuery (initFromBuf stale defaultPort window exec).2.obj.query at both
        rw [query] at both
        exact both
      · intro installs
        refine ⟨parts, ?_⟩
        change UntaintedQuery (initFromBuf stale defaultPort window exec).2.obj.query
        rw [query]
        exact installs

/-- A URL that starts empty. -/
def emptyUrl (error : ErrorHandler) : Exec URL :=
  { obj := {}, error }

theorem notTainted_emptyUrl (error : ErrorHandler) : NotTainted (emptyUrl error).obj :=
  ⟨untaintedParts_empty, fun _ member => nomatch member⟩

/-- No tainted URL is reached exactly when no call stores a tainted pair. -/
theorem run_notTainted_iff (calls : List Mutation) (error : ErrorHandler) :
    (∀ front, front <+: calls → NotTainted (Machine.run mutate front (emptyUrl error)).1.obj) ↔
      ∀ call ∈ calls, UntaintedQuery call.installs := by
  have returns (calls : List Mutation) (exec : Exec URL) :
      (Machine.run mutate calls exec).2 = true := by
    induction calls generalizing exec with
    | nil => rfl
    | cons call calls ih =>
        have first : (mutate call exec).2 = true := by cases call <;> rfl
        rw [Machine.run_cons_of_returns first]
        exact ih _
  have last (front : List Mutation) (call : Mutation) :
      (Machine.run mutate (front ++ [call]) (emptyUrl error)).1 =
        (mutate call (Machine.run mutate front (emptyUrl error)).1).1 := by
    have first : (mutate call (Machine.run mutate front (emptyUrl error)).1).2 = true := by
      cases call <;> rfl
    rw [Machine.run_append, if_pos (returns front _), Machine.run_cons_of_returns first]
    rfl
  constructor
  · intro reached call member
    obtain ⟨front, behind, rfl⟩ := List.append_of_mem member
    have before := reached front ⟨call :: behind, rfl⟩
    have after := reached (front ++ [call]) ⟨behind, by simp⟩
    rw [last] at after
    exact (notTainted_mutate_iff before call).mp after
  · intro installs front within
    induction front using List.reverseRecOn with
    | nil => exact notTainted_emptyUrl error
    | append_singleton front call ih =>
        rw [last]
        have before := ih ((List.prefix_append front [call]).trans within)
        exact (notTainted_mutate_iff before call).mpr
          (installs call (within.subset (by simp)))

/-- The key and the value of a query are stored as they are. -/
theorem setQuery_tainted :
    ((Machine.run mutate [.setQuery (some (ascii "a=b|c")) 5] (emptyUrl {})).1.obj.query =
        [{ key := ascii "a", value := ascii "b|c" }]) ∧
      ¬NotTainted (Machine.run mutate [.setQuery (some (ascii "a=b|c")) 5] (emptyUrl {})).1.obj := by
  have stored : (Machine.run mutate [.setQuery (some (ascii "a=b|c")) 5] (emptyUrl {})).1.obj.query =
      [{ key := ascii "a", value := ascii "b|c" }] := by decide +kernel
  refine ⟨stored, fun clean => ?_⟩
  have query := clean.query
  rw [stored] at query
  exact absurd query (by decide +kernel)

end URL

end IpUtils
