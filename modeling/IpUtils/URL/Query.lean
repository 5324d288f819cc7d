import IpUtils.URL.Parse

/-! # Query strings

What `set_query` makes of a query string without white space and NUL: it splits it
into pairs, or raises an error when the last key has no delimiter behind it.
-/

namespace IpUtils

open CLib Scanner

namespace URL

/-- What a query string without white space is split into: a key ends at the first `=`
and a value at the next `&`. There is no answer when a key has no `=`. -/
def splitPairs (query : Bytes) : Option (List UrlQueryInfo) :=
  if query = [] then some []
  else
    match _ : query.dropWhile (· != kKeyValueDelimiter) with
    | [] => none
    | _ :: rest =>
        (splitPairs (rest.dropWhile (· != kQueryDelimiter)).tail).map
          ({ key := query.takeWhile (· != kKeyValueDelimiter)
             value := rest.takeWhile (· != kQueryDelimiter) } :: ·)
termination_by query.length
decreasing_by
  rename_i shape
  have outer := (List.dropWhile_suffix (· != kKeyValueDelimiter) (l := query)).length_le
  have inner := (List.dropWhile_suffix (· != kQueryDelimiter) (l := rest)).length_le
  rw [shape, List.length_cons] at outer
  rw [List.length_tail]
  omega

/-- The text that a list of pairs is printed as. -/
def pairsText (query : List UrlQueryInfo) : Bytes :=
  match query with
  | [] => []
  | info :: rest =>
      info.key ++ kKeyValueDelimiter :: info.value ++
        (if rest.isEmpty then [] else kQueryDelimiter :: pairsText rest)

@[simp] theorem splitPairs_nil : splitPairs [] = some [] := by
  rw [splitPairs, if_pos rfl]

/-- A key that is cut off in front of its delimiter. -/
theorem splitPairs_key {query : Bytes} (inhabited : query ≠ [])
    (noDelimiter : ∀ c ∈ query, (c != kKeyValueDelimiter) = true) : splitPairs query = none := by
  rw [splitPairs, if_neg inhabited]
  split
  · rfl
  · rename_i shape
    rw [(takeWhile_of_all noDelimiter).2] at shape
    cases shape

theorem splitPairs_pair {key rest : Bytes}
    (noDelimiter : ∀ c ∈ key, (c != kKeyValueDelimiter) = true) :
    splitPairs (key ++ kKeyValueDelimiter :: rest) =
      (splitPairs (rest.dropWhile (· != kQueryDelimiter)).tail).map
        ({ key, value := rest.takeWhile (· != kQueryDelimiter) } :: ·) := by
  obtain ⟨taken, dropped⟩ := takeWhile_of_delimited noDelimiter
    (show (kKeyValueDelimiter != kKeyValueDelimiter) = false by decide) rest
  rw [splitPairs, if_neg (by simp), taken]
  split
  · rename_i shape
    rw [dropped] at shape
    cases shape
  · rename_i shape
    rw [dropped, List.cons.injEq] at shape
    rw [shape.2]

/-- A query string is a key that is cut off, or starts with a key and its delimiter. -/
theorem eq_key_or_pair (query : Bytes) :
    (∀ c ∈ query, (c != kKeyValueDelimiter) = true) ∨
      ∃ key rest, query = key ++ kKeyValueDelimiter :: rest ∧
        ∀ c ∈ key, (c != kKeyValueDelimiter) = true := by
  have parts := List.takeWhile_append_dropWhile (p := (· != kKeyValueDelimiter)) (l := query)
  cases shape : query.dropWhile (· != kKeyValueDelimiter) with
  | nil => exact .inl (List.dropWhile_eq_nil_iff.mp shape)
  | cons c rest =>
      have stop := List.head?_dropWhile_not (· != kKeyValueDelimiter) query
      rw [shape] at stop parts
      have : c = kKeyValueDelimiter := by simpa using stop
      subst this
      exact .inr ⟨_, rest, parts.symm, 
        fun c member => List.mem_takeWhile_imp (p := (· != kKeyValueDelimiter)) member⟩

/-- Printed pairs are split into themselves. -/
theorem splitPairs_pairsText {query : List UrlQueryInfo}
    (keys : ∀ info ∈ query, ∀ c ∈ info.key, (c != kKeyValueDelimiter) = true)
    (values : ∀ info ∈ query, ∀ c ∈ info.value, (c != kQueryDelimiter) = true) :
    splitPairs (pairsText query) = some query := by
  induction query with
  | nil => exact splitPairs_nil
  | cons info rest ih =>
      have others := ih (fun other member => keys other (by simp [member]))
        (fun other member => values other (by simp [member]))
      have noDelimiter := values info (by simp)
      rw [pairsText, List.append_assoc, List.cons_append, splitPairs_pair (keys info (by simp))]
      cases rest with
      | nil =>
          simp only [List.isEmpty_nil, ↓reduceIte, List.append_nil,
            (takeWhile_of_all noDelimiter).1, (takeWhile_of_all noDelimiter).2, List.tail_nil,
            splitPairs_nil, Option.map_some]
      | cons next rest =>
          obtain ⟨taken, dropped⟩ := takeWhile_of_delimited noDelimiter
            (show (kQueryDelimiter != kQueryDelimiter) = false by decide) (pairsText (next :: rest))
          simp only [List.isEmpty_cons, Bool.false_eq_true, ↓reduceIte, taken, dropped,
            List.tail_cons, others, Option.map_some]

/-! ## The loop of `set_query` -/

theorem takeWhile_congr {first second : UInt8 → Bool} {text : Bytes}
    (same : ∀ c ∈ text, first c = second c) : text.takeWhile first = text.takeWhile second := by
  induction text with
  | nil => rfl
  | cons c text ih =>
      rw [List.takeWhile_cons, List.takeWhile_cons, same c (by simp),
        ih fun d member => same d (by simp [member])]

theorem dropWhile_congr {first second : UInt8 → Bool} {text : Bytes}
    (same : ∀ c ∈ text, first c = second c) : text.dropWhile first = text.dropWhile second := by
  induction text with
  | nil => rfl
  | cons c text ih =>
      rw [List.dropWhile_cons, List.dropWhile_cons, same c (by simp),
        ih fun d member => same d (by simp [member])]

/-- The bytes that may stand in a URL: no white space and no NUL. -/
def isUrlByte (c : UInt8) : Bool :=
  c != 0 && !isspace c

theorem isUrlByte_iff {c : UInt8} : isUrlByte c = true ↔ c ≠ 0 ∧ isspace c = false := by
  simp [isUrlByte]

variable {queryBuf : Bytes} {exec : Exec URL}

theorem isKeyByte_of_urlByte {c : UInt8} (url : isUrlByte c = true) :
    isKeyByte c = (c != kKeyValueDelimiter) := by
  simp [isKeyByte, (isUrlByte_iff.mp url).2]

theorem isValueByte_of_urlByte {c : UInt8} (url : isUrlByte c = true) :
    isValueByte c = (c != kQueryDelimiter) := by
  simp [isValueByte, (isUrlByte_iff.mp url).2]

/-- A round of the loop on a key that is cut off raises an error. -/
theorem queryPair_key {query : Bytes} (url : ∀ c ∈ query, isUrlByte c = true)
    (noDelimiter : ∀ c ∈ query, (c != kKeyValueDelimiter) = true)
    (fits : query.length ≤ kURLMaxSize) :
    (queryPair queryBuf query exec).1 = none ∧
      (queryPair queryBuf query exec).2.error.event = true := by
  have passes : ∀ c ∈ query, isKeyByte c = true := fun c member => by
    rw [isKeyByte_of_urlByte (url c member), noDelimiter c member]
  obtain ⟨taken, dropped⟩ := takeWhile_of_all passes
  rw [queryPair, bind_of_some (Parse.copyWhile_apply taken dropped fits),
    bind_of_none (Parse.require_of_ne (by decide) _ _)]
  exact ⟨rfl, ErrorHandler.event_init _ _ _ _⟩

/-- A round of the loop on a key and its delimiter stores a pair. -/
theorem queryPair_pair {key rest : Bytes}
    (url : ∀ c ∈ key ++ kKeyValueDelimiter :: rest, isUrlByte c = true)
    (noDelimiter : ∀ c ∈ key, (c != kKeyValueDelimiter) = true)
    (fits : (key ++ kKeyValueDelimiter :: rest).length ≤ kURLMaxSize) :
    queryPair queryBuf (key ++ kKeyValueDelimiter :: rest) exec =
      (some ((), (rest.dropWhile (· != kQueryDelimiter)).tail),
        { exec with
          obj := { exec.obj with
            query := exec.obj.query ++
              [{ key, value := rest.takeWhile (· != kQueryDelimiter) }] } }) := by
  rw [List.length_append, List.length_cons] at fits
  have keyUrl : ∀ c ∈ key, isUrlByte c = true := fun c member => url c (by simp [member])
  have restUrl : ∀ c ∈ rest, isUrlByte c = true := fun c member => url c (by simp [member])
  have passes : ∀ c ∈ key, isKeyByte c = true := fun c member => by
    rw [isKeyByte_of_urlByte (keyUrl c member), noDelimiter c member]
  have noNul {text : Bytes} (all : ∀ c ∈ text, isUrlByte c = true) : (0 : UInt8) ∉ text :=
    fun member => (isUrlByte_iff.mp (all 0 member)).1 rfl
  obtain ⟨taken, dropped⟩ := takeWhile_of_delimited passes
    (show isKeyByte kKeyValueDelimiter = false by decide) rest
  have valueTaken : rest.takeWhile isValueByte = rest.takeWhile (· != kQueryDelimiter) :=
    takeWhile_congr fun c member => isValueByte_of_urlByte (restUrl c member)
  have valueDropped : rest.dropWhile isValueByte = rest.dropWhile (· != kQueryDelimiter) :=
    dropWhile_congr fun c member => isValueByte_of_urlByte (restUrl c member)
  have valueUrl : ∀ c ∈ rest.takeWhile (· != kQueryDelimiter), isUrlByte c = true :=
    fun c member => restUrl c (List.takeWhile_subset _ member)
  have valueFits : (rest.takeWhile (· != kQueryDelimiter)).length < kURLMaxSize := by
    have := (List.takeWhile_prefix (· != kQueryDelimiter) (l := rest)).length_le
    omega
  rw [queryPair, bind_of_some (Parse.copyWhile_apply taken dropped (by omega)),
    bind_of_some (Parse.require_cons _ _ _),
    bind_of_some (Parse.terminate_apply (noNul keyUrl) (by omega)),
    bind_of_some (show Scanner.advance _ exec = (some ((), rest), exec) from rfl),
    bind_of_some (Parse.word_apply valueTaken valueDropped (noNul valueUrl) valueFits)]
  -- the value ends with the query or at the delimiter of the next pair
  cases shape : rest.dropWhile (· != kQueryDelimiter) with
  | nil => rfl
  | cons c behind =>
      have stop := List.head?_dropWhile_not (· != kQueryDelimiter) rest
      rw [shape] at stop
      have : c = kQueryDelimiter := by simpa using stop
      subst this
      rfl

/-- What stands behind a pair is a shorter query string. -/
theorem behindPair_suffix (key rest : Bytes) :
    (rest.dropWhile (· != kQueryDelimiter)).tail <:+ rest ∧
      (rest.dropWhile (· != kQueryDelimiter)).tail.length <
        (key ++ kKeyValueDelimiter :: rest).length := by
  have inner := (List.tail_suffix _).trans
    (List.dropWhile_suffix (· != kQueryDelimiter) (l := rest))
  refine ⟨inner, ?_⟩
  have := inner.length_le
  rw [List.length_append, List.length_cons]
  omega

/-- The loop of `set_query` stores the pairs of the query string. -/
theorem queryPairs_of_some {query : Bytes} (url : ∀ c ∈ query, isUrlByte c = true)
    (fits : query.length ≤ kURLMaxSize) {pairs : List UrlQueryInfo}
    (split_ : splitPairs query = some pairs) :
    queryPairs queryBuf query exec =
      (some ((), []), { exec with obj := { exec.obj with query := exec.obj.query ++ pairs } }) := by
  induction size : query.length using Nat.strongRecOn generalizing query pairs exec with
  | ind size ih =>
      rw [queryPairs, loop_apply]
      cases query with
      | nil =>
          rw [splitPairs_nil, Option.some.injEq] at split_
          subst split_
          simp only [List.isEmpty_nil, ↓reduceIte, List.append_nil]
      | cons first others =>
          rw [List.isEmpty_cons, if_neg Bool.false_ne_true]
          rcases eq_key_or_pair (first :: others) with noDelimiter | ⟨key, rest, shape, noDelimiter⟩
          · rw [splitPairs_key (by simp) noDelimiter] at split_
            cases split_
          · rw [shape] at split_ url fits size ⊢
            rw [splitPairs_pair noDelimiter] at split_
            obtain ⟨behind, splitBehind, rfl⟩ := Option.map_eq_some_iff.mp split_
            obtain ⟨inner, shorter⟩ := behindPair_suffix key rest
            rw [queryPair_pair url noDelimiter fits]
            simp only [if_pos shorter]
            refine (ih _ (size ▸ shorter) (fun c member => url c ?_) (by omega) splitBehind rfl).trans ?_
            · simp [inner.subset member]
            · simp only [List.append_assoc, List.singleton_append]

/-- The loop of `set_query` raises an error for a query string that cannot be split. -/
theorem queryPairs_of_none {query : Bytes} (url : ∀ c ∈ query, isUrlByte c = true)
    (fits : query.length ≤ kURLMaxSize) (split_ : splitPairs query = none) :
    (queryPairs queryBuf query exec).2.error.event = true := by
  induction size : query.length using Nat.strongRecOn generalizing query exec with
  | ind size ih =>
      rw [queryPairs, loop_apply]
      cases query with
      | nil =>
          rw [splitPairs_nil] at split_
          cases split_
      | cons first others =>
          rw [List.isEmpty_cons, if_neg Bool.false_ne_true]
          rcases eq_key_or_pair (first :: others) with noDelimiter | ⟨key, rest, shape, noDelimiter⟩
          · have failed := @queryPair_key queryBuf exec _ url noDelimiter fits
            cases outcome : queryPair queryBuf (first :: others) exec with
            | mk reply exec' =>
                rw [outcome] at failed
                obtain ⟨rfl, raised⟩ := failed
                exact raised
          · rw [shape] at split_ url fits size ⊢
            rw [splitPairs_pair noDelimiter, Option.map_eq_none_iff] at split_
            obtain ⟨inner, shorter⟩ := behindPair_suffix key rest
            rw [queryPair_pair url noDelimiter fits]
            simp only [if_pos shorter]
            refine ih _ (size ▸ shorter) (fun c member => url c ?_) (by omega) split_ rfl
            simp [inner.subset member]

/-! ## `set_query` -/

/-- On the C string of a query, `set_query` runs its loop. -/
theorem setQuery_apply {query : Bytes} (fits : query.length ≤ kURLMaxSize) :
    setQuery (some query) query.length exec = (queryPairs query query exec).2 := by
  have terminated : query.getD query.length 0 = 0 := by simp
  simp only [setQuery, terminated, ne_eq, not_true_eq_false, false_or,
    if_neg (Nat.not_lt.mpr fits), readMemory_self]

theorem setQuery_of_some {query : Bytes} (url : ∀ c ∈ query, isUrlByte c = true)
    (fits : query.length ≤ kURLMaxSize) {pairs : List UrlQueryInfo}
    (split_ : splitPairs query = some pairs) :
    setQuery (some query) query.length exec =
      { exec with obj := { exec.obj with query := exec.obj.query ++ pairs } } := by
  rw [setQuery_apply fits, queryPairs_of_some url fits split_]

theorem setQuery_of_none {query : Bytes} (url : ∀ c ∈ query, isUrlByte c = true)
    (fits : query.length ≤ kURLMaxSize) (split_ : splitPairs query = none) :
    (setQuery (some query) query.length exec).error.event = true := by
  rw [setQuery_apply fits]
  exact queryPairs_of_none url fits split_

end URL

end IpUtils
