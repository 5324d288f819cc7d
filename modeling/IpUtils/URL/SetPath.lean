import IpUtils.URL.Init
import IpUtils.URL.WholeText

/-! # Two ways to split a path

`set_path` splits the text of a path by itself, and `InitFromBuf` does it behind a host. The two
agree on a path alone.
-/

namespace IpUtils

open CLib Scanner

namespace URL

/-! ## What a parser makes of a part of the text -/

/-- From a window of the kind, the parser keeps the invariant and leaves a window of the kind. -/
def Within (near : Bytes → Prop) (inv : Exec URL → Prop) (parser : Parse URL Unit) : Prop :=
  ∀ window exec, near window → inv exec → inv (parser window exec).2 ∧
    ∀ rest, (parser window exec).1 = some ((), rest) → near rest

/-- A suffix of a window of the kind is one, too. -/
def SuffixClosed (near : Bytes → Prop) : Prop :=
  ∀ rest window : Bytes, near window → rest <:+ window → near rest

section Within

variable {near : Bytes → Prop} {inv : Exec URL → Prop} {parser first second : Parse URL Unit}

theorem Within.of_local (closed : SuffixClosed near) (moves : Local parser)
    (keeps : ∀ window exec, near window → inv exec → inv (parser window exec).2) :
    Within near inv parser := by
  intro window exec close holds
  refine ⟨keeps window exec close holds, fun rest ran => closed _ _ close ?_⟩
  exact moves.suffix (Prod.ext ran rfl : parser window exec = (some ((), rest), _))

theorem Within.of_keeps (closed : SuffixClosed near) (moves : Local parser)
    (keeps : Keeps inv parser) : Within near inv parser :=
  .of_local closed moves fun window exec _ holds => keeps window exec holds

theorem Within.bind (head : Within near inv first) (tail : Within near inv second) :
    Within near inv (first >>= fun _ => second) := by
  intro window exec close holds
  obtain ⟨after, between⟩ := head window exec close holds
  rw [bind_apply]
  cases outcome : first window exec with
  | mk reply exec' =>
      rw [outcome] at after between
      cases reply with
      | none => exact ⟨after, fun rest ran => nomatch ran⟩
      | some delivered => exact tail delivered.2 exec' (between delivered.2 rfl) after

end Within

/-- All bytes of the text are clean. -/
abbrev Clean (text : Bytes) : Prop :=
  ∀ c ∈ text, isCleanByte c = true

theorem Clean.of_suffix {rest window : Bytes} (clean : Clean window) (suffix : rest <:+ window) :
    Clean rest :=
  fun c member => clean c (suffix.subset member)

theorem Clean.takeWhile {text : Bytes} (clean : Clean text) (test : UInt8 → Bool) :
    Clean (text.takeWhile test) :=
  fun c member => clean c (List.takeWhile_subset _ member)

theorem Clean.untainted {buf text : Bytes} (clean : Clean text) (noNul : cstr buf = text) :
    isStrTainted (some buf) = false := by
  simp only [isStrTainted, noNul, List.any_eq_false]
  intro c member
  simpa using (Bool.and_eq_true_iff.mp (clean c member)).2

/-- The bytes of a path that `set_path` copies. -/
theorem isPathByte_of_clean {c : UInt8} (clean : isCleanByte c = true)
    (plain : c ≠ kQueryStart ∧ c ≠ kFragmentStart) : isPathByte c = true := by
  have zero := (isUrlByte_iff.mp (isUrlByte_of_clean clean)).1
  simp [isPathByte, zero, plain.1, plain.2]

/-- A text that starts with the path, up to `len` bytes. -/
theorem setPath_split {path tail behind : Bytes} {len : Nat} (inhabited : len ≠ 0)
    (untainted : isStrTainted (some (path ++ behind)) = false)
    (passes : ∀ c ∈ path, isPathByte c = true) (stops : StopsBefore isPathByte tail)
    (taken : (path ++ behind).take len = path ++ tail) (exec : Exec URL) :
    setPath (some (path ++ behind)) len exec =
      let exec : Exec URL :=
        { exec with
          obj := { exec.obj with path }
          overrun := exec.overrun || PATH_MAX + 1 ≤ path.length }
      if behind.headD 0 = kQueryStart then
        setQuery (some behind) (toSize (len - (path.length + 1 : Nat))) exec
      else if behind.headD 0 = kFragmentStart then
        { exec with obj := setFragment (some behind) exec.obj }
      else exec := by
  have front : pathFront (path ++ behind) len = path := by
    rw [pathFront, taken, (takeWhile_of_stopsBefore passes stops).1]
  have left : pathBehind (path ++ behind) len = behind := by
    rw [pathBehind, front, List.drop_left]
  rw [setPath_of_untainted inhabited untainted, front, left]

theorem obj_setPath_of_clean {path : Bytes} (inhabited : path ≠ []) (clean : Clean path)
    (plain : ∀ c ∈ path, c ≠ kQueryStart ∧ c ≠ kFragmentStart) (exec : Exec URL) :
    (setPath (some path) path.length exec).obj = { exec.obj with path } := by
  have whole := @setPath_split path [] [] path.length
    (fun empty => inhabited (List.length_eq_zero_iff.mp empty))
    (by rw [List.append_nil]; exact clean.untainted (cstr_eq_self (zero_not_mem_of_clean clean)))
    (fun c member => isPathByte_of_clean (clean c member) (plain c member)) (.nil _)
    (by rw [List.append_nil, List.take_length]) exec
  rw [List.append_nil] at whole
  rw [whole]
  rfl

/-- On clean bytes the path alone is changed, and becomes a part of them. -/
theorem obj_parsePath_of_clean {window : Bytes} (clean : Clean window) (exec : Exec URL) :
    ∃ path, (parsePath window exec).2.obj = { exec.obj with path } ∧
      (path = exec.obj.path ∨ path.length < window.length) := by
  rw [parsePath, whenAt_run]
  split
  · split
    · exact ⟨exec.obj.path, rfl, .inl rfl⟩
    · rename_i slash inhabited
      have cleanTail : Clean window.tail := clean.of_suffix (List.tail_suffix window)
      have cleanWord := cleanTail.takeWhile isPathWordByte
      obtain ⟨overrun, reads⟩ := word_run kURLMaxSize isPathWordByte window.tail exec
      rw [readPath, bind_of_some reads, cstr_eq_self (zero_not_mem_of_clean cleanWord)]
      have shorter : (window.tail.takeWhile isPathWordByte).length < window.length := by
        have inner := (List.takeWhile_prefix isPathWordByte (l := window.tail)).length_le
        have positive : 0 < window.tail.length := List.length_pos_iff.mpr inhabited
        rw [List.length_tail] at inner positive
        omega
      by_cases empty : window.tail.takeWhile isPathWordByte = []
      · refine ⟨exec.obj.path, ?_, .inl rfl⟩
        rw [empty]
        rfl
      · refine ⟨window.tail.takeWhile isPathWordByte, ?_, .inr shorter⟩
        refine obj_setPath_of_clean empty cleanWord (fun c member => ?_) { exec with overrun }
        have inside := List.mem_takeWhile_imp member
        simp only [isPathWordByte, Bool.and_eq_true, bne_iff_ne] at inside
        exact inside.1
  · exact ⟨exec.obj.path, rfl, .inl rfl⟩

section Parts

variable {near : Bytes → Prop} {property : URL → Prop}

/-- The object has the property. -/
abbrev HasObj (property : URL → Prop) (exec : Exec URL) : Prop :=
  property exec.obj

/-- A property that neither the scheme, the host, the port nor the query matters to. -/
structure PathAndFragment (property : URL → Prop) : Prop where
  scheme : ∀ url scheme, property url → property { url with scheme }
  host : ∀ url host, property url → property { url with host }
  port : ∀ url port, property url → property { url with port }
  query : ∀ url query, property url → property { url with query }

theorem within_parseHierarchy (closed : SuffixClosed near) (kept : PathAndFragment property)
    (path : Within near (HasObj property) parsePath)
    (fragment : Within near (HasObj property) parseFragment) (defaultPort : UInt16) :
    Within near (HasObj property) (parseHierarchy defaultPort) := by
  have robust : Robust (HasObj property) := Robust.of_obj property
  have host : Keeps (HasObj property) parseHost :=
    (Keeps.word robust _ _).bind fun _ => Keeps.assign fun _ holds => kept.host _ _ holds
  have port : Keeps (HasObj property) (parsePort defaultPort) :=
    whenAt_keeps ((Keeps.word robust _ _).bind fun _ =>
        Keeps.assign fun _ holds => kept.port _ _ holds)
      (Keeps.assign fun _ holds => kept.port _ _ holds)
  have query : Keeps (HasObj property) parseQuery :=
    whenAt_keeps ((Keeps.word robust _ _).bind fun _ => Keeps.update
        (setQuery_keeps robust (fun _ _ holds => kept.query _ _ holds) _ _))
      (Keeps.pure _)
  exact .bind (.of_keeps closed parseHost_local host)
    (.bind (.of_keeps closed (parsePort_local defaultPort) port)
      (.bind path (.bind (.of_keeps closed parseQuery_local query) fragment)))

/-- What holds of a new URL and behind every scheme holds behind the whole text. -/
theorem obj_parseParts (kept : PathAndFragment property) {window : Bytes} {exec : Exec URL}
    {defaultPort : UInt16} (start : property exec.obj)
    (behind : ∀ first second rest exec', window.dropWhile (· != 58) = 58 :: first :: second :: rest →
      property exec'.obj → property (parseHierarchy defaultPort rest exec').2.obj) :
    property (parseParts defaultPort true window exec).2.obj := by
  have robust : Robust (HasObj property) := Robust.of_obj property
  have scheme : Keeps (HasObj property) parseScheme :=
    (Keeps.token robust _ _).bind fun _ =>
      (Keeps.assign fun _ holds => kept.scheme _ _ holds).bind fun _ => Keeps.advanceBy 3
  have after := scheme window exec start
  rw [parseParts, if_pos rfl, bind_apply]
  cases ran : parseScheme window exec with
  | mk reply exec' =>
      rw [ran] at after
      cases reply with
      | none => exact after
      | some delivered =>
          obtain ⟨-, first, second, shape, -⟩ := parseScheme_eq_some ran
          exact behind first second delivered.2 exec' shape after

end Parts

/-! ## How long the parts can be -/

/-- Clean bytes, not more than a number of them. -/
def Short (count : Nat) (window : Bytes) : Prop :=
  Clean window ∧ window.length ≤ count

theorem suffixClosed_short (count : Nat) : SuffixClosed (Short count) :=
  fun _ _ short suffix => ⟨short.1.of_suffix suffix, suffix.length_le.trans short.2⟩

/-- The path that is read is shorter than the window. -/
theorem length_path_parseHierarchy {count : Nat} {window : Bytes} (short : Short count window)
    (defaultPort : UInt16) {exec : Exec URL} (start : exec.obj.path.length < count) :
    (parseHierarchy defaultPort window exec).2.obj.path.length < count := by
  have kept : PathAndFragment fun url => url.path.length < count :=
    ⟨fun _ _ holds => holds, fun _ _ holds => holds, fun _ _ holds => holds, fun _ _ holds => holds⟩
  have robust : Robust (HasObj fun url => url.path.length < count) :=
    Robust.of_obj fun url : URL => url.path.length < count
  refine (within_parseHierarchy (suffixClosed_short count) kept ?_ ?_ defaultPort window exec short
    start).1
  · refine .of_local (suffixClosed_short count) parsePath_local fun window exec short holds => ?_
    obtain ⟨path, stored, same | shorter⟩ := obj_parsePath_of_clean short.1 exec
    · rw [HasObj, stored, same]
      exact holds
    · rw [HasObj, stored]
      exact Nat.lt_of_lt_of_le shorter short.2
  · exact .of_keeps (suffixClosed_short count) parseFragment_local
      (whenAt_keeps ((Keeps.word robust _ _).bind fun _ => Keeps.assign fun _ holds => holds)
        (Keeps.pure _))

/-- Clean bytes, not more than a number of them behind the first hash. -/
def ShortBehindHash (count : Nat) (window : Bytes) : Prop :=
  Clean window ∧ (window.dropWhile (· != kFragmentStart)).tail.length ≤ count

theorem suffixClosed_shortBehindHash (count : Nat) : SuffixClosed (ShortBehindHash count) := by
  rintro rest _ short ⟨front, rfl⟩
  refine ⟨short.1.of_suffix (List.suffix_append front rest), Nat.le_trans ?_ short.2⟩
  rw [List.dropWhile_append]
  split
  · rfl
  · rename_i hash
    rw [List.tail_append_of_ne_nil (by simpa using hash), List.length_append]
    have := ((List.tail_suffix _).trans
      (List.dropWhile_suffix (· != kFragmentStart) (l := rest))).length_le
    omega

/-- The fragment that is read stands behind a hash. -/
theorem length_fragment_parseHierarchy {count : Nat} {window : Bytes}
    (short : ShortBehindHash count window) (defaultPort : UInt16) {exec : Exec URL}
    (start : exec.obj.fragment.length ≤ count) :
    (parseHierarchy defaultPort window exec).2.obj.fragment.length ≤ count := by
  have kept : PathAndFragment fun url => url.fragment.length ≤ count :=
    ⟨fun _ _ holds => holds, fun _ _ holds => holds, fun _ _ holds => holds, fun _ _ holds => holds⟩
  have closed := suffixClosed_shortBehindHash count
  refine (within_parseHierarchy closed kept ?_ ?_ defaultPort window exec short start).1
  · refine .of_local closed parsePath_local fun window exec short holds => ?_
    obtain ⟨path, stored, -⟩ := obj_parsePath_of_clean short.1 exec
    rw [HasObj, stored]
    exact holds
  · refine .of_local closed parseFragment_local fun window exec short holds => ?_
    rw [parseFragment, whenAt_run]
    split
    · rename_i hash
      split
      · exact holds
      · obtain ⟨overrun, reads⟩ := word_run kURLMaxSize isFragmentByte window.tail exec
        have clean := (short.1.of_suffix (List.tail_suffix window)).takeWhile isFragmentByte
        have stops : window.dropWhile (· != kFragmentStart) = window := by
          cases window with
          | nil => rfl
          | cons c rest =>
              rw [List.head?_cons, Option.some.injEq] at hash
              exact List.dropWhile_cons_of_neg (by simp [hash])
        have behind := short.2
        rw [stops] at behind
        rw [readFragment, bind_of_some reads, cstr_eq_self (zero_not_mem_of_clean clean)]
        change (untaint _).length ≤ count
        rw [untaint_of_clean clean]
        exact (List.takeWhile_prefix isFragmentByte).length_le.trans behind
    · exact holds

/-! ## `InitFromBuf` behind a host -/

/-- `h/` and the bytes behind it. -/
def onH (text : Bytes) : Bytes :=
  104 :: 47 :: text

variable {path : Bytes}

theorem initFromBuf_onH (stale : Bytes) (defaultPort : UInt16) (text : Bytes) (exec : Exec URL) :
    initFromBuf stale defaultPort (onH text) exec =
      parseParts defaultPort (schemeAhead (onH text ++ stale)) (onH text)
        { exec with obj := {} } := by
  have start : parseStart (onH text) exec = (some ((), onH text), { exec with obj := {} }) := by
    have letter : isspace 104 = false := by decide
    rw [onH, parseStart_run, List.dropWhile_cons_of_neg (by simp [letter]),
      if_neg (by simp)]
  rw [initFromBuf, bind_of_some start]
  rfl

/-- Behind the host there is a path, a query and a fragment. -/
theorem parseHierarchy_onH (defaultPort : UInt16) (text : Bytes) (exec : Exec URL) :
    parseHierarchy defaultPort (onH text) exec =
      (parsePath >>= fun _ => parseQuery >>= fun _ => parseFragment) (47 :: text)
        { exec with obj := { exec.obj with host := [104], port := defaultPort } } := by
  have host := @parseHost_in_front exec (47 :: text) [104]
    (List.forall_mem_singleton.mpr (by decide)) (List.forall_mem_singleton.mpr (by decide))
    (.cons (by decide) _) (by decide)
  rw [parseHierarchy, onH]
  have port : parsePort defaultPort (47 :: text)
      { exec with obj := { exec.obj with host := [104] } } = (some ((), 47 :: text),
        { exec with obj := { exec.obj with host := [104], port := defaultPort } }) :=
    whenAt_otherwise (by simp)
  exact (bind_of_some host).trans (bind_of_some port)

/-- A path that fits is read as it is. -/
theorem parseParts_onH_path (clean : Clean path)
    (plain : ∀ c ∈ path, c ≠ kQueryStart ∧ c ≠ kFragmentStart) (fits : path.length < kURLMaxSize)
    (defaultPort : UInt16) {exec : Exec URL} (fresh : exec.obj = {}) :
    (parseParts defaultPort false (onH path) exec).2 =
      { exec with obj := { host := [104], port := defaultPort, path } } := by
  rw [parseParts, if_neg Bool.false_ne_true, parseHierarchy_onH, fresh]
  by_cases empty : path = []
  · rw [empty]
    rfl
  · have shape : pathText path = 47 :: path := by
      rw [pathText, if_neg (by simpa using empty)]
    have read := @parsePath_in_front
      { exec with obj := { host := [104], port := defaultPort } } [] path
      (fun c member => ⟨clean c member, plain c member⟩) (.nil _) (.nil _) fits rfl
    rw [shape, List.append_nil] at read
    rw [bind_of_some read]
    rfl

/-- A path that does not fit is copied past the end of the array. -/
theorem overrun_onH_path (clean : Clean path)
    (plain : ∀ c ∈ path, c ≠ kQueryStart ∧ c ≠ kFragmentStart) (long : kURLMaxSize ≤ path.length)
    (defaultPort : UInt16) (exec : Exec URL) :
    (parseParts defaultPort false (onH path) exec).2.overrun = true := by
  have inhabited : path ≠ [] := by
    rintro rfl
    exact absurd long (by decide)
  have passes : ∀ c ∈ path, isPathWordByte c = true := fun c member => by
    have facts := plain c member
    simp [isPathWordByte, (isUrlByte_iff.mp (isUrlByte_of_clean (clean c member))).2, facts.1,
      facts.2]
  have whole := @setPath_split path [] [] path.length
    (fun empty => inhabited (List.length_eq_zero_iff.mp empty))
    (by rw [List.append_nil]; exact clean.untainted (cstr_eq_self (zero_not_mem_of_clean clean)))
    (fun c member => isPathByte_of_clean (clean c member) (plain c member)) (.nil _)
    (by rw [List.append_nil, List.take_length])
  rw [List.append_nil] at whole
  obtain ⟨taken, dropped⟩ := takeWhile_of_all passes
  have reads (exec : Exec URL) : ∃ exec', parsePath (47 :: path) exec = (some ((), []), exec') ∧
      exec'.overrun = true := by
    have word : Parse.word kURLMaxSize isPathWordByte path exec = (some (path, []),
        { exec with overrun := exec.overrun || kURLMaxSize < path.length ||
            kURLMaxSize ≤ path.length }) := by
      have copied : Parse.word kURLMaxSize isPathWordByte path exec =
          (some (cstr (path.takeWhile isPathWordByte), path.dropWhile isPathWordByte),
            { exec with overrun := exec.overrun ||
                kURLMaxSize < (path.takeWhile isPathWordByte).length ||
                kURLMaxSize ≤ (path.takeWhile isPathWordByte).length }) := rfl
      rw [copied, taken, dropped, cstr_eq_self (zero_not_mem_of_clean clean)]
    rw [parsePath, whenAt_introduced inhabited, readPath, bind_of_some word]
    refine ⟨_, rfl, ?_⟩
    rw [whole]
    simp [long, kQueryStart, kFragmentStart]
  obtain ⟨exec', ran, overrun⟩ := reads
    { exec with obj := { exec.obj with host := [104], port := defaultPort } }
  rw [parseParts, if_neg Bool.false_ne_true, parseHierarchy_onH, bind_of_some ran]
  exact overrun

/-! ## The two ways -/

/-- What may stand behind a path. -/
inductive Tail where
  | nothing
  | query (pairs : List UrlQueryInfo)
  | fragment (text : Bytes)
  deriving DecidableEq, Repr

namespace Tail

def text : Tail → Bytes
  | nothing => []
  | query pairs => kQueryStart :: pairsText pairs
  | fragment text => kFragmentStart :: text

/-- Pairs that can be told apart, or a clean fragment. -/
def Safe : Tail → Prop
  | nothing => True
  | query pairs => pairs ≠ [] ∧ ∀ info ∈ pairs,
      (∀ c ∈ info.key, isCleanByte c = true ∧ c ≠ kKeyValueDelimiter ∧ c ≠ kQueryStart ∧
        c ≠ kQueryDelimiter ∧ c ≠ kFragmentStart) ∧
      ∀ c ∈ info.value, isCleanByte c = true ∧ c ≠ kQueryDelimiter ∧ c ≠ kFragmentStart
  | fragment text => Clean text

theorem Safe.clean {tail : Tail} (safe : tail.Safe) : Clean tail.text := by
  intro c member
  cases tail with
  | nothing => cases member
  | query pairs =>
      rcases List.mem_cons.mp member with rfl | inside
      · decide
      · rcases mem_pairsText inside with rfl | rfl | ⟨info, present, key | value⟩
        · decide
        · decide
        · exact ((safe.2 info present).1 c key).1
        · exact ((safe.2 info present).2 c value).1
  | fragment text =>
      rcases List.mem_cons.mp member with rfl | inside
      · decide
      · exact safe c inside

end Tail

/-- The path and what stands behind it. -/
structure Splittable (path : Bytes) (tail : Tail) : Prop where
  clean : Clean path
  plain : ∀ c ∈ path, c ≠ kQueryStart ∧ c ≠ kFragmentStart
  tail : tail.Safe

/-- `set_path` raises no error and splits the text as `InitFromBuf` does behind `h/`; no array
overflows. -/
structure SplitsAlike (defaultPort : UInt16) (more stale text : Bytes) (exec other : Exec URL) :
    Prop where
  quiet : (setPath (some (text ++ 0 :: more)) text.length exec).error.event = false
  inside : (setPath (some (text ++ 0 :: more)) text.length exec).overrun = false ∧
    (initFromBuf (0 :: stale) defaultPort (onH text) other).2.overrun = false
  path : (setPath (some (text ++ 0 :: more)) text.length exec).obj.path =
    (initFromBuf (0 :: stale) defaultPort (onH text) other).2.obj.path
  query : (setPath (some (text ++ 0 :: more)) text.length exec).obj.query =
    (initFromBuf (0 :: stale) defaultPort (onH text) other).2.obj.query
  fragment : (setPath (some (text ++ 0 :: more)) text.length exec).obj.fragment =
    (initFromBuf (0 :: stale) defaultPort (onH text) other).2.obj.fragment

/-- Nothing stands behind the path, which fits the array and does not look like a scheme behind
`h/`; and the URL has no query and no fragment, and no path that an empty one would leave. -/
structure PathAlone (stale path : Bytes) (tail : Tail) (url : URL) : Prop where
  alone : tail = .nothing
  fits : path.length < kURLMaxSize
  noScheme : schemeAhead (onH path ++ 0 :: stale) = false
  path : path = [] → url.path = []
  query : url.query = []
  fragment : url.fragment = []

section Split

variable {tail : Tail} {more : Bytes} {exec : Exec URL}

theorem Splittable.clean_text (safe : Splittable path tail) : Clean (path ++ tail.text) :=
  fun c member => (List.mem_append.mp member).elim (safe.clean c) (safe.tail.clean c)

theorem Splittable.stops (safe : Splittable path tail) : StopsBefore isPathByte tail.text := by
  cases tail with
  | nothing => exact .nil _
  | query pairs => exact .cons (by decide) _
  | fragment text => exact .cons (by decide) _

/-- What `set_path` does behind the path. -/
def Tail.behindPath (more : Bytes) (exec : Exec URL) (tail : Tail) : Exec URL :=
  match tail with
  | nothing => exec
  | query pairs => setQuery (some (tail.text ++ 0 :: more)) (toSize (pairsText pairs).length) exec
  | fragment _ => { exec with obj := { exec.obj with fragment := tail.text } }

/-- `set_path` finds the path in front of what stands behind it. -/
theorem setPath_tail (safe : Splittable path tail) (inhabited : path ++ tail.text ≠ []) :
    setPath (some (path ++ tail.text ++ 0 :: more)) (path ++ tail.text).length exec =
      let exec : Exec URL :=
        { exec with
          obj := { exec.obj with path }
          overrun := exec.overrun || PATH_MAX + 1 ≤ path.length }
      tail.behindPath more exec := by
  have clean := safe.clean_text
  have noNul := zero_not_mem_of_clean clean
  have split_ := @setPath_split path tail.text (tail.text ++ 0 :: more) (path ++ tail.text).length
    (fun empty => inhabited (List.length_eq_zero_iff.mp empty))
    (by rw [← List.append_assoc]; exact clean.untainted (cstr_append_zero noNul more))
    (fun c member => isPathByte_of_clean (safe.clean c member) (safe.plain c member)) safe.stops
    (by rw [← List.append_assoc, List.take_left]) exec
  rw [List.append_assoc, split_]
  cases tail with
  | nothing => rfl
  | query pairs =>
      have left : (((path ++ (Tail.query pairs).text).length : Int) - (path.length + 1 : Nat)) =
          (pairsText pairs).length := by
        rw [Tail.text, List.length_append, List.length_cons]
        omega
      rw [left]
      exact if_pos rfl
  | fragment text =>
      have stored : untaint ((Tail.fragment text).text ++ 0 :: more) = (Tail.fragment text).text := by
        have noNul := zero_not_mem_of_clean safe.tail.clean
        have same := cstr_append_zero noNul more
        have untainted : isStrTainted (some ((Tail.fragment text).text ++ 0 :: more)) = false :=
          safe.tail.clean.untainted same
        rw [untaint, if_neg (by simp [untainted]), same]
      have head : ((Tail.fragment text).text ++ 0 :: more).headD 0 = kFragmentStart := rfl
      have other : ¬kFragmentStart = kQueryStart := by decide
      rw [head]
      dsimp only
      rw [if_neg other, if_pos rfl, setFragment, stored]
      rfl

/-- A query behind the path always raises an error: its text is not NUL-terminated where
`set_query` looks. -/
theorem event_setPath_query {pairs : List UrlQueryInfo}
    (safe : Splittable path (.query pairs)) :
    (setPath (some (path ++ (Tail.query pairs).text ++ 0 :: more))
      (path ++ (Tail.query pairs).text).length exec).error.event = true := by
  rw [setPath_tail safe (List.append_ne_nil_of_right_ne_nil _ (List.cons_ne_nil _ _))]
  dsimp only
  have inside : toSize (pairsText pairs).length < (Tail.query pairs).text.length := by
    have := Nat.mod_le (pairsText pairs).length (2 ^ 64)
    rw [Tail.text, List.length_cons]
    unfold toSize
    omega
  have byte : ((Tail.query pairs).text ++ 0 :: more).getD (toSize (pairsText pairs).length) 0 ≠ 0 := by
    rw [List.getD_eq_getElem?_getD, List.getElem?_append_left inside,
      List.getElem?_eq_getElem inside, Option.getD_some]
    intro zero
    exact zero_not_mem_of_clean safe.tail.clean (zero ▸ List.getElem_mem inside)
  rw [Tail.behindPath, setQuery, if_pos (.inl byte)]
  exact ErrorHandler.event_init _ _ _ _

end Split

/-- What `InitFromBuf` reads as a fragment stands behind the hash. -/
theorem length_fragment_initFromBuf {text : Bytes} (safe : Splittable path (.fragment text))
    (stale : Bytes) (defaultPort : UInt16) (exec : Exec URL) :
    (initFromBuf stale defaultPort (onH (path ++ (Tail.fragment text).text)) exec).2.obj.fragment.length
      ≤ text.length := by
  have passes : ∀ c ∈ (104 :: 47 :: path : Bytes), (c != kFragmentStart) = true := by
    intro c member
    rcases List.mem_cons.mp member with rfl | member
    · decide
    rcases List.mem_cons.mp member with rfl | member
    · decide
    · simpa using (safe.plain c member).2
  have short : ShortBehindHash text.length (onH (path ++ (Tail.fragment text).text)) := by
    refine ⟨?_, ?_⟩
    · intro c member
      rcases List.mem_cons.mp member with rfl | member
      · decide
      rcases List.mem_cons.mp member with rfl | member
      · decide
      · exact safe.clean_text c member
    · have dropped := (takeWhile_of_delimited passes
        (show (kFragmentStart != kFragmentStart) = false by decide) text).2
      exact Nat.le_of_eq (congrArg (fun window : Bytes => window.tail.length) dropped)
  have kept : PathAndFragment fun url => url.fragment.length ≤ text.length :=
    ⟨fun _ _ holds => holds, fun _ _ holds => holds, fun _ _ holds => holds, fun _ _ holds => holds⟩
  rw [initFromBuf_onH]
  cases schemeAhead (onH (path ++ (Tail.fragment text).text) ++ stale) with
  | false => exact length_fragment_parseHierarchy short defaultPort (Nat.zero_le _)
  | true =>
      refine @obj_parseParts _ kept _ _ _ (Nat.zero_le _) fun first second rest exec' shape start => ?_
      refine length_fragment_parseHierarchy ?_ defaultPort start
      refine suffixClosed_shortBehindHash _ _ _ short (.trans ?_ (List.dropWhile_suffix (· != 58)))
      rw [shape]
      exact List.suffix_append [58, first, second] rest

/-- Behind a scheme the path is cut. -/
theorem length_path_initFromBuf (safe : Splittable path .nothing) (inhabited : path ≠ [])
    {stale : Bytes} (ahead : schemeAhead (onH path ++ stale) = true) (defaultPort : UInt16)
    (exec : Exec URL) :
    (initFromBuf stale defaultPort (onH path) exec).2.obj.path.length < path.length := by
  have kept : PathAndFragment fun url => url.path.length < path.length :=
    ⟨fun _ _ holds => holds, fun _ _ holds => holds, fun _ _ holds => holds, fun _ _ holds => holds⟩
  have positive : 0 < path.length := List.length_pos_iff.mpr inhabited
  rw [initFromBuf_onH, ahead]
  refine @obj_parseParts _ kept _ _ _ positive fun first second rest exec' shape start => ?_
  refine length_path_parseHierarchy ?_ defaultPort start
  have behind : path.dropWhile (· != 58) = 58 :: first :: second :: rest := shape
  have suffix : rest <:+ path := by
    refine .trans ?_ (List.dropWhile_suffix (· != 58))
    rw [behind]
    exact List.suffix_append [58, first, second] rest
  exact ⟨Clean.of_suffix safe.clean suffix, suffix.length_le⟩

/-- A path alone is stored, unless it is empty. -/
theorem setPath_nothing (safe : Splittable path .nothing) (more : Bytes) (exec : Exec URL) :
    setPath (some (path ++ 0 :: more)) path.length exec =
      { exec with
        obj := { exec.obj with path := if path = [] then exec.obj.path else path }
        overrun := exec.overrun || PATH_MAX + 1 ≤ path.length } := by
  by_cases empty : path = []
  · rw [empty, if_pos rfl, setPath, List.length_nil, if_pos rfl]
    simp
  · have whole : path ++ Tail.nothing.text = path := List.append_nil path
    have split_ := @setPath_tail path .nothing more exec safe (by rwa [whole])
    rw [whole] at split_
    rw [if_neg empty]
    exact split_

theorem splitsAlike_nothing_iff (safe : Splittable path .nothing) {exec other : Exec URL}
    (quiet : exec.error.event = false) (inside : exec.overrun = false ∧ other.overrun = false)
    (defaultPort : UInt16) (more stale : Bytes) :
    SplitsAlike defaultPort more stale path exec other ↔ PathAlone stale path .nothing exec.obj := by
  cases ahead : schemeAhead (onH path ++ 0 :: stale) with
  | true =>
      refine ⟨fun alike => ?_, fun alone => nomatch ahead.symm.trans alone.noScheme⟩
      have inhabited : path ≠ [] := by
        rintro rfl
        rw [schemeAhead_eq] at ahead
        exact nomatch ahead
      have short := length_path_initFromBuf safe inhabited ahead defaultPort other
      have stored := alike.path
      rw [setPath_nothing safe, if_neg inhabited] at stored
      rw [← stored] at short
      exact absurd short (Nat.lt_irrefl _)
  | false =>
      have read := initFromBuf_onH (0 :: stale) defaultPort path other
      rw [ahead] at read
      by_cases fits : path.length < kURLMaxSize
      · have arrays : decide (PATH_MAX + 1 ≤ path.length) = false := by
          unfold kURLMaxSize at fits
          unfold PATH_MAX
          exact decide_eq_false (by omega)
        have parsed : (initFromBuf (0 :: stale) defaultPort (onH path) other).2 =
            { other with obj := { host := [104], port := defaultPort, path } } := by
          rw [read]
          exact parseParts_onH_path safe.clean safe.plain fits defaultPort rfl
        constructor
        · rintro ⟨-, -, samePath, sameQuery, sameFragment⟩
          rw [setPath_nothing safe, parsed] at samePath sameQuery sameFragment
          refine ⟨rfl, fits, ahead, fun empty => ?_, sameQuery, sameFragment⟩
          rw [if_pos empty, empty] at samePath
          exact samePath
        · rintro ⟨-, -, -, path_, query, fragment⟩
          constructor <;> rw [setPath_nothing safe]
          · exact quiet
          · rw [parsed]
            exact ⟨by rw [inside.1, arrays]; rfl, inside.2⟩
          · rw [parsed]
            dsimp only
            split
            · rename_i empty
              rw [path_ empty, empty]
            · rfl
          · rw [parsed]
            exact query
          · rw [parsed]
            exact fragment
      · refine ⟨fun alike => ?_, fun alone => absurd alone.fits fits⟩
        have overrun := overrun_onH_path safe.clean safe.plain (Nat.not_lt.mp fits) defaultPort
          { other with obj := {} }
        rw [← read] at overrun
        exact nomatch overrun.symm.trans alike.inside.2

/-- `set_path` and `InitFromBuf` split a text in the same way if and only if it is a path alone. -/
theorem setPath_splitsAlike_iff {tail : Tail} (safe : Splittable path tail) {exec other : Exec URL}
    (quiet : exec.error.event = false) (inside : exec.overrun = false ∧ other.overrun = false)
    (defaultPort : UInt16) (more stale : Bytes) :
    SplitsAlike defaultPort more stale (path ++ tail.text) exec other ↔
      PathAlone stale path tail exec.obj := by
  cases tail with
  | query pairs =>
      refine ⟨fun alike => ?_, fun alone => nomatch alone.alone⟩
      exact nomatch (event_setPath_query safe).symm.trans alike.quiet
  | fragment text =>
      refine ⟨fun alike => ?_, fun alone => nomatch alone.alone⟩
      have short := length_fragment_initFromBuf safe (0 :: stale) defaultPort other
      have stored := alike.fragment
      rw [setPath_tail safe (List.append_ne_nil_of_right_ne_nil _ (List.cons_ne_nil _ _))] at stored
      rw [← stored] at short
      exact absurd short (Nat.not_succ_le_self _)
  | nothing =>
      have whole : path ++ Tail.nothing.text = path := List.append_nil path
      rw [whole]
      exact splitsAlike_nothing_iff safe quiet inside defaultPort more stale

theorem setPath_splitsAlike_iff_sample :
    SplitsAlike 0 [] [] (ascii "p" ++ Tail.nothing.text) { obj := {}, error := {} }
        { obj := {}, error := {} } ↔
      PathAlone [] (ascii "p") .nothing {} :=
  setPath_splitsAlike_iff
    (show Splittable (ascii "p") .nothing from ⟨by decide +kernel, by decide +kernel, trivial⟩)
    rfl ⟨rfl, rfl⟩ 0 [] []

/-- A query is refused, and a fragment keeps its hash. -/
theorem setPath_keeps_delimiter :
    (¬∀ pairs, Splittable (ascii "p") (.query pairs) →
      SplitsAlike 0 [] [] (ascii "p" ++ (Tail.query pairs).text) { obj := {}, error := {} }
        { obj := {}, error := {} }) ∧
      ¬∀ text, Splittable (ascii "p") (.fragment text) →
        SplitsAlike 0 [] [] (ascii "p" ++ (Tail.fragment text).text) { obj := {}, error := {} }
          { obj := {}, error := {} } := by
  refine ⟨fun always => ?_, fun always => ?_⟩
  · have alike := always [{ key := ascii "a", value := ascii "b" }]
      ⟨by decide +kernel, by decide +kernel, by decide +kernel, by decide +kernel⟩
    exact absurd alike.quiet (by decide +kernel)
  · have alike := always (ascii "f") ⟨by decide +kernel, by decide +kernel, by
      unfold Tail.Safe
      decide +kernel⟩
    exact absurd alike.fragment (by decide +kernel)

end URL

end IpUtils
