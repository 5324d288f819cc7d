import IpUtils.HTTP.Parse
import Mathlib.Data.List.DropRight

/-! # Where a header ends

Up to the search for a scheme, the request parser and the response parser decide a
header by its own bytes. A response header is closed: nothing behind its last line
feed is looked at. A request header needs one byte more. The two main results say
how an accepted header reacts to bytes that are added behind it, and to the loss of
the bytes behind it.
-/

namespace IpUtils

open CLib Scanner

/-! ## The parsers are local -/

namespace CLib

theorem startsWithNoCase_append {word front : Bytes} (fits : word.length ≤ front.length)
    (rest : Bytes) : startsWithNoCase word (front ++ rest) = startsWithNoCase word front := by
  unfold startsWithNoCase
  rw [List.take_append_of_le_length fits]

theorem length_le_of_startsWithNoCase {word window : Bytes}
    (starts : startsWithNoCase word window = true) : word.length ≤ window.length := by
  unfold startsWithNoCase at starts
  have sizes := congrArg List.length (beq_iff_eq.mp starts)
  simp only [List.length_map, List.length_take] at sizes
  omega

/-- A buffer that starts with two words starts with the shorter one of them. -/
theorem map_take_of_startsWithNoCase {word window : Bytes} {count : Nat}
    (starts : startsWithNoCase word window = true) (short : count ≤ word.length) :
    (window.take count).map tolower = (word.take count).map tolower := by
  have whole := beq_iff_eq.mp starts
  have cut := congrArg (List.take count) whole
  rwa [← List.map_take, ← List.map_take, List.take_take, Nat.min_eq_left short] at cut

end CLib

theorem keyword_local {ω : Type} {word : Bytes} {found otherwise : Parse ω Unit}
    (inner : Local found) (outer : Local otherwise)
    (reads : ReadsAtLeast word.length otherwise) :
    Local (Parse.keyword word found otherwise) where
  suffix {window state value rest state'} ran := by
    simp only [Parse.keyword, bind_apply, Scanner.lookahead] at ran
    split at ran
    · exact ((Local.advanceBy _).bind fun _ => inner).suffix ran
    · exact outer.suffix ran
  decided {front next rest state value state'} ran other := by
    simp only [Parse.keyword, bind_apply, Scanner.lookahead] at ran ⊢
    have enough : word.length ≤ front.length := by
      split at ran
      · have moved := (ReadsAtLeast.advanceBy word.length).bind_left (fun _ => inner) _ _ _ _ _ ran
        simp only [List.length_append, List.length_cons] at moved
        omega
      · have moved := reads _ _ _ _ _ ran
        simp only [List.length_append, List.length_cons] at moved
        omega
    rw [startsWithNoCase_append enough] at ran ⊢
    split at ran
    · rename_i starts
      rw [if_pos starts]
      exact ((Local.advanceBy _).bind fun _ => inner).decided ran other
    · rename_i differs
      rw [if_neg differs]
      exact outer.decided ran other

theorem keyword_readsAtLeast {ω : Type} {word : Bytes} {found otherwise : Parse ω Unit}
    {count : Nat} (inner : Local found) (short : count ≤ word.length)
    (reads : ReadsAtLeast count otherwise) :
    ReadsAtLeast count (Parse.keyword word found otherwise) := by
  intro window state value rest state' ran
  simp only [Parse.keyword, bind_apply, Scanner.lookahead] at ran
  split at ran
  · exact (((ReadsAtLeast.advanceBy _).mono short).bind_left fun _ => inner) _ _ _ _ _ ran
  · exact reads _ _ _ _ _ ran

theorem number_local {ω : Type} : Local (Parse.number : Parse ω Int) :=
  (Local.token _ _).bind fun _ => Local.pure _

namespace HTTPFraming

theorem atLineEnd_headOnly : HeadOnly atLineEnd :=
  fun _ _ _ => rfl

theorem parseParameter_local (parameters : List Rfc822Parameter) :
    Local (parseParameter parameters) :=
  Local.step.bind fun _ => (Local.skip _).bind fun _ => (Local.token _ _).bind fun _ =>
    Local.step.bind fun _ => (Local.skip _).bind fun _ => (Local.token _ _).bind fun _ =>
      (Local.skip _).bind fun _ => Local.pure _

theorem refuseContinuation_local : Local refuseContinuation :=
  (Local.current _).bind fun _ => Local.ite (Local.fail _ _) (Local.pure _)

theorem parseMsgHdr_local : Local parseMsgHdr :=
  Local.need.bind fun _ => refuseContinuation_local.bind fun _ =>
    (Local.token _ _).bind fun _ => Local.step.bind fun _ => (Local.skip _).bind fun _ =>
      (Local.token _ _).bind fun _ =>
        (Local.loop atLineEnd_headOnly parseParameter_local _).bind fun _ =>
          Local.step.bind fun _ => (Local.expect _ _).bind fun _ =>
            Local.advance.bind fun _ => Local.assign _

theorem parseMsgHdrs_local : Local parseMsgHdrs :=
  Local.loop atLineEnd_headOnly (fun _ => parseMsgHdr_local.bind fun _ => Local.need) _

theorem checkVersion_local (unknown : String) (major minor : Int) :
    Local (checkVersion unknown major minor) :=
  Local.ite (Local.pure _) (Local.fail _ _)

theorem parseVersion_local (dot unknown : String) : Local (parseVersion dot unknown) :=
  (keyword_local (Local.pure _) Local.stop (.of_stops (fun _ _ => rfl) _)).bind fun _ =>
    number_local.bind fun _ => (Local.assign _).bind fun _ => (Local.expectStep _ _).bind fun _ =>
      number_local.bind fun _ => (Local.assign _).bind fun _ => checkVersion_local _ _ _

theorem parseStatusLine_local : Local parseStatusLine :=
  (parseVersion_local _ _).bind fun _ => (Local.expectStep _ _).bind fun _ =>
    number_local.bind fun _ => (Local.assign _).bind fun _ => (Local.expectStep _ _).bind fun _ =>
      (Local.token _ _).bind fun _ => (Local.expectStep _ _).bind fun _ => Local.expectStep _ _

/-- A check of the byte under the pointer, and an update, do not move. -/
theorem expect_assign_stays {wanted : UInt8} {format : String} {change : HTTPFraming → HTTPFraming}
    {window rest : Bytes} {exec exec' : Exec HTTPFraming} (nonzero : wanted ≠ 0)
    (ran : (Parse.expect wanted format >>= fun _ => Parse.assign change) window exec =
      (some ((), rest), exec')) : rest = window ∧ window ≠ [] := by
  obtain ⟨_, between, between', check, set⟩ := bind_eq_some ran
  obtain ⟨rfl, rfl, here⟩ := Parse.require_eq_some check
  refine ⟨(update_eq_some set).1, ?_⟩
  rintro rfl
  exact nonzero here.symm

theorem parseEmptyLine_closed : Closed parseEmptyLine :=
  Closed.onStop _ (Closed.bind Local.step fun _ =>
    bind_assoc (m := Scanner UInt8 (Exec HTTPFraming)) _ _ _ ▸
      Closed.advance_after ((Local.expect _ _).bind fun _ => Local.assign _)
        fun ran => expect_assign_stays (by decide) ran)

/-- A response header is decided by its own bytes. -/
theorem parseResponseHeader_closed : Closed parseResponseHeader :=
  Closed.bind (Local.skipWhile _) fun _ => Closed.bind parseStatusLine_local fun _ =>
    Closed.bind (Local.onStop _ parseMsgHdrs_local) fun _ => parseEmptyLine_closed

theorem parseMethodFrom_readsAtLeast {methods : List HTTPMethod} {count : Nat}
    (short : ∀ method ∈ methods, count ≤ method.name.length) :
    ReadsAtLeast count (parseMethodFrom methods) := by
  induction methods with
  | nil => exact .of_stops (fun _ _ => rfl) _
  | cons method others ih =>
      exact keyword_readsAtLeast (Local.assign _) (short method (by simp))
        (ih fun other member => short other (by simp [member]))

/-- No method is looked for behind a longer one. -/
theorem parseMethodFrom_local {methods : List HTTPMethod}
    (sorted : methods.Pairwise fun first second => first.name.length ≤ second.name.length) :
    Local (parseMethodFrom methods) := by
  induction methods with
  | nil => exact Local.fail _ _
  | cons method others ih =>
      obtain ⟨shortest, rest⟩ := List.pairwise_cons.mp sorted
      exact keyword_local (Local.assign _) (ih rest) (parseMethodFrom_readsAtLeast shortest)

theorem parseMethod_local : Local parseMethod :=
  parseMethodFrom_local (by decide)

/-- A method is found where one of the names stands. -/
theorem parseMethodFrom_eq_some {methods : List HTTPMethod} {window rest : Bytes}
    {exec exec' : Exec HTTPFraming}
    (ran : parseMethodFrom methods window exec = (some ((), rest), exec')) :
    ∃ method, methods.find? (fun method => startsWithNoCase method.name window) = some method ∧
      rest = window.drop method.name.length := by
  induction methods with
  | nil => cases ran
  | cons method others ih =>
      simp only [parseMethodFrom, Parse.keyword, bind_apply, Scanner.lookahead] at ran
      split at ran
      · rename_i starts
        refine ⟨method, List.find?_cons_of_pos starts, ?_⟩
        obtain ⟨_, between, between', moved, set⟩ := bind_eq_some ran
        obtain ⟨rfl, rfl, -⟩ := advanceBy_eq_some moved
        exact (update_eq_some set).1
      · rename_i differs
        obtain ⟨found, first, here⟩ := ih ran
        exact ⟨found, by simpa only [List.find?_cons, differs] using first, here⟩

/-- The method whose name is found is stored. -/
theorem parseMethodFrom_of_find {methods : List HTTPMethod} {method : HTTPMethod} {window : Bytes}
    {exec : Exec HTTPFraming}
    (found : methods.find? (fun other => startsWithNoCase other.name window) = some method)
    (long : method.name.length < window.length) :
    parseMethodFrom methods window exec =
      (some ((), window.drop method.name.length),
        { exec with obj := { exec.obj with method } }) := by
  induction methods with
  | nil => cases found
  | cons other methods ih =>
      rw [List.find?_cons] at found
      split at found
      · rename_i starts
        rw [Option.some.injEq] at found
        subst found
        simp only [parseMethodFrom, Parse.keyword, bind_apply, Scanner.lookahead, starts,
          ↓reduceIte, Scanner.advanceBy, if_pos long]
        rfl
      · rename_i differs
        simp only [parseMethodFrom, Parse.keyword, bind_apply, Scanner.lookahead, differs,
          Bool.false_eq_true, ↓reduceIte]
        exact ih found

theorem parseRequestVersion_local : Local parseRequestVersion :=
  Local.need.bind fun _ => (Local.expectStep _ _).bind fun _ => (parseVersion_local _ _).bind fun _ =>
    (Local.expectStep _ _).bind fun _ => Local.expectStep _ _

theorem parseRequestFields_local : Local parseRequestFields :=
  Local.onStop _ (parseMsgHdrs_local.bind fun _ => (Local.expectStep _ _).bind fun _ =>
    Local.expectStep _ _)

/-! ## The search for a scheme in a request -/

/-- A request up to the first byte of its URI. -/
def parseBeforeUri : Parse HTTPFraming Unit := do
  parseMethod
  Parse.expectStep 32 (requestExpected "SP, got char: %s")
  onUri URL.parseStart

/-- A request from the first byte of its URI on. -/
def parseFromUri (defaultPort : UInt16) (hasScheme : Bool) : Parse HTTPFraming Unit := do
  onUri (URL.parseParts defaultPort hasScheme)
  parseRequestVersion
  parseRequestFields
  Parse.assign fun http => { http with msgType := .request }

theorem onUri_bind {α β : Type} (first : Parse URL α) (next : α → Parse URL β) :
    onUri (first >>= next) = onUri first >>= fun value => onUri (next value) := by
  unfold onUri
  apply zoom_bind
  · exact fun _ _ => rfl
  · exact fun _ _ _ => rfl

/-- The search for a scheme is the only place where a request looks ahead. -/
theorem parseMethod_bind_parseAfterMethod (stale : Bytes) (defaultPort : UInt16) :
    (parseMethod >>= fun _ => parseAfterMethod stale defaultPort) =
      parseBeforeUri >>= fun _ =>
        Scanner.lookahead (fun window => URL.schemeAhead (window ++ stale)) >>=
          parseFromUri defaultPort := by
  simp only [parseAfterMethod, parseBeforeUri, URL.initFromBuf, onUri_bind, bind_assoc]
  rfl

theorem onUri_local {α : Type} {body : Parse URL α} (inner : Local body) : Local (onUri body) :=
  Local.zoom _ _ inner

theorem parseBeforeUri_local : Local parseBeforeUri :=
  parseMethod_local.bind fun _ => (Local.expectStep _ _).bind fun _ =>
    onUri_local URL.parseStart_local

theorem parseFromUri_local (defaultPort : UInt16) (hasScheme : Bool) :
    Local (parseFromUri defaultPort hasScheme) :=
  (onUri_local (URL.parseParts_local _ _)).bind fun _ => parseRequestVersion_local.bind fun _ =>
    parseRequestFields_local.bind fun _ => Local.assign _

/-- The bytes from the URI on, for a window that starts with a request. -/
def uriBytes (window : Bytes) : Bytes :=
  match parsedMethods.find? fun method => startsWithNoCase method.name window with
  | some method => (window.drop (method.name.length + 1)).dropWhile isspace
  | none => []

/-- Where the URI starts. -/
theorem parseBeforeUri_eq_some {window rest : Bytes} {exec exec' : Exec HTTPFraming}
    (ran : parseBeforeUri window exec = (some ((), rest), exec')) :
    rest = uriBytes window ∧ rest ≠ [] ∧ exec'.obj.uri = {} := by
  obtain ⟨_, afterMethod, exec₁, method, ran⟩ := bind_eq_some ran
  obtain ⟨_, afterSpace, exec₂, space, start⟩ := bind_eq_some ran
  obtain ⟨found, first, rfl⟩ := parseMethodFrom_eq_some method
  obtain ⟨rfl, rfl, -, -⟩ := Parse.expectStep_eq_some space
  obtain ⟨url, skipped, rfl⟩ := zoom_eq_some start
  obtain ⟨rfl, inhabited, -, rfl⟩ := URL.parseStart_eq_some skipped
  refine ⟨?_, inhabited, rfl⟩
  simp only [uriBytes, first, List.tail_drop]

theorem parseRequestHdr_apply {window : Bytes} (trimmed : window.dropWhile isspace = window)
    (stale : Bytes) (defaultPort : UInt16) (exec : Exec HTTPFraming) :
    parseRequestHdr stale defaultPort window exec =
      if window.length < 16 then (none, exec)
      else (parseMethod >>= fun _ => parseAfterMethod stale defaultPort) window exec := by
  by_cases short : window.length < 16
  · simp only [parseRequestHdr, bind_apply, Scanner.skipWhile, trimmed, atLeast, if_pos short]
  · simp only [parseRequestHdr, bind_apply, Scanner.skipWhile, trimmed, atLeast, if_neg short]

/-- A request is accepted when its start is, and the rest of it is for what the search
for a scheme says. -/
theorem parseRequestHdr_eq_some_iff {stale window rest : Bytes} {defaultPort : UInt16}
    {exec exec' : Exec HTTPFraming} (trimmed : window.dropWhile isspace = window) :
    parseRequestHdr stale defaultPort window exec = (some ((), rest), exec') ↔
      16 ≤ window.length ∧ ∃ exec₁,
        parseBeforeUri window exec = (some ((), uriBytes window), exec₁) ∧
        parseFromUri defaultPort (URL.schemeAhead (uriBytes window ++ stale)) (uriBytes window)
          exec₁ = (some ((), rest), exec') := by
  rw [parseRequestHdr_apply trimmed, parseMethod_bind_parseAfterMethod]
  constructor
  · intro ran
    split at ran
    · cases ran
    · rename_i enough
      obtain ⟨_, between, exec₁, start, finish⟩ := bind_eq_some ran
      obtain ⟨rfl, -, -⟩ := parseBeforeUri_eq_some start
      exact ⟨Nat.not_lt.mp enough, exec₁, start, finish⟩
  · rintro ⟨enough, exec₁, start, finish⟩
    rw [if_neg (Nat.not_lt.mpr enough), bind_of_some start]
    exact finish

/-- An accepted request leaves a byte. -/
theorem parseFromUri_rest_ne_nil {defaultPort : UInt16} {hasScheme : Bool} {window rest : Bytes}
    {exec exec' : Exec HTTPFraming}
    (ran : parseFromUri defaultPort hasScheme window exec = (some ((), rest), exec')) :
    rest ≠ [] := by
  obtain ⟨_, window₁, exec₁, uri, ran⟩ := bind_eq_some ran
  obtain ⟨_, window₂, exec₂, version, ran⟩ := bind_eq_some ran
  obtain ⟨_, window₃, exec₃, fields, type⟩ := bind_eq_some ran
  obtain ⟨rfl, -⟩ := update_eq_some type
  unfold parseRequestFields Scanner.onStop at fields
  split at fields
  · cases fields
  · rename_i outcome
    obtain ⟨_, window₄, exec₄, hdrs, ran⟩ := bind_eq_some (outcome.trans fields)
    obtain ⟨_, window₅, exec₅, cr, lf⟩ := bind_eq_some ran
    exact (Parse.expectStep_eq_some lf).2.2.1

/-! ## The outcome of `InitFromBuf` -/

theorem parseRequestHdr_suffix {stale window rest : Bytes} {defaultPort : UInt16}
    {exec exec' : Exec HTTPFraming} (trimmed : window.dropWhile isspace = window)
    (ran : parseRequestHdr stale defaultPort window exec = (some ((), rest), exec')) :
    rest <:+ window := by
  obtain ⟨-, exec₁, start, finish⟩ := (parseRequestHdr_eq_some_iff trimmed).mp ran
  exact ((parseFromUri_local _ _).suffix finish).trans (parseBeforeUri_local.suffix start)

/-- The bytes used, counted from the start of the buffer. -/
theorem bytesUsed_eq {buf rest : Bytes} (inner : rest <:+ buf.dropWhile isspace) :
    buf.length - (buf.dropWhile isspace).length + ((buf.dropWhile isspace).length - rest.length) =
      buf.length - rest.length := by
  have := inner.length_le
  have := (List.dropWhile_suffix isspace (l := buf)).length_le
  omega

variable {env : ParseEnv} {buf : Bytes} {exec : Exec HTTPFraming} {chunked : ChunkBuf}

variable (env chunked) in
/-- The outcome for a buffer that starts with a request. -/
theorem initFromBuf_of_request (starts : startsRequest (buf.dropWhile isspace) = true)
    {reply : Option (Unit × Bytes)} {exec' : Exec HTTPFraming}
    (ran : parseRequestHdr env.stale env.defaultPort (buf.dropWhile isspace)
      { exec with obj := {} } = (reply, exec')) (quiet : exec'.error.event = false) :
    initFromBuf env buf exec chunked =
      { bytesUsed := reply.map fun delivered => buf.length - delivered.2.length
        exec := exec'
        chunked } := by
  simp only [initFromBuf, parseStartLine, clear, starts, Bool.true_or, ↓reduceIte, ran]
  cases reply with
  | none => simp only [quiet, Bool.false_eq_true, ↓reduceIte, Option.map_none]
  | some delivered =>
      have inner := parseRequestHdr_suffix (List.dropWhile_idempotent _ _) ran
      simp only [quiet, Bool.false_eq_true, ↓reduceIte, Option.map_some, bytesUsed_eq inner]

/-- What an accepted request has gone through. -/
theorem initFromBuf_request_eq_some (starts : startsRequest (buf.dropWhile isspace) = true)
    {used : Nat} (accepted : (initFromBuf env buf exec chunked).bytesUsed = some used) :
    ∃ rest exec', parseRequestHdr env.stale env.defaultPort (buf.dropWhile isspace)
        { exec with obj := {} } = (some ((), rest), exec') ∧ exec'.error.event = false ∧
      used = buf.length - rest.length ∧ (initFromBuf env buf exec chunked).exec = exec' := by
  cases outcome : parseRequestHdr env.stale env.defaultPort (buf.dropWhile isspace)
      { exec with obj := {} } with
  | mk reply exec' =>
      cases quiet : exec'.error.event with
      | true =>
          simp only [initFromBuf, parseStartLine, clear, starts, Bool.true_or, ↓reduceIte,
            outcome] at accepted
          cases reply with
          | none => simp only [quiet, ↓reduceIte, reduceCtorEq] at accepted
          | some delivered => simp only [quiet, ↓reduceIte, reduceCtorEq] at accepted
      | false =>
          rw [initFromBuf_of_request env chunked starts outcome quiet] at accepted ⊢
          cases reply with
          | none => simp only [Option.map_none, reduceCtorEq] at accepted
          | some delivered =>
              simp only [Option.map_some, Option.some.injEq] at accepted
              exact ⟨delivered.2, exec', rfl, quiet, accepted.symm, rfl⟩

variable (env chunked) in
/-- The outcome for a buffer that starts with a response. -/
theorem initFromBuf_of_response (other : startsRequest (buf.dropWhile isspace) = false)
    (starts : startsResponse (buf.dropWhile isspace) = true)
    {reply : Option (Unit × Bytes)} {exec' : Exec HTTPFraming}
    (ran : parseResponseHeader (buf.dropWhile isspace) { exec with obj := {} } = (reply, exec'))
    (quiet : exec'.error.event = false)
    (plain : reply.isSome → exec'.obj.isChunked = false) :
    initFromBuf env buf exec chunked =
      { bytesUsed := reply.map fun delivered => buf.length - delivered.2.length
        exec := exec'
        chunked } := by
  simp only [initFromBuf, parseStartLine, clear, other, starts, Bool.or_true, ↓reduceIte,
    Bool.false_eq_true, parseResponseHdr, ran]
  cases reply with
  | none => simp only [quiet, Bool.false_eq_true, ↓reduceIte, Option.map_none]
  | some delivered =>
      have inner := parseResponseHeader_closed.suffix ran
      simp only [finishResponse, plain rfl, Bool.not_false, ↓reduceIte, quiet, Bool.false_eq_true,
        Option.map_some, bytesUsed_eq inner]

/-- A response is accepted only when its header is, and keeps that header. -/
theorem parseResponseHdr_eq_some {window : Bytes} {used : Nat}
    (accepted : (parseResponseHdr env window exec chunked).bytesUsed = some used) :
    ∃ rest exec', parseResponseHeader window exec = (some ((), rest), exec') ∧
      (parseResponseHdr env window exec chunked).exec.obj = exec'.obj ∧
      parseResponseHdr env window exec chunked =
        finishResponse env (window.length - rest.length) rest exec' chunked := by
  cases outcome : parseResponseHeader window exec with
  | mk reply exec' =>
      cases reply with
      | none => simp only [parseResponseHdr, outcome, reduceCtorEq] at accepted
      | some delivered =>
          refine ⟨delivered.2, exec', rfl, ?_, by simp only [parseResponseHdr, outcome]⟩
          simp only [parseResponseHdr, outcome, finishResponse] at accepted ⊢
          split
          · rfl
          · rename_i chunkedBody
            rw [if_neg chunkedBody] at accepted
            split
            · rename_i empty
              simp only [if_pos empty, reduceCtorEq] at accepted
            · rename_i inhabited
              rw [if_neg inhabited] at accepted
              split at accepted
              · cases accepted
              · rfl

/-- What an accepted response that is not chunked has gone through. -/
theorem initFromBuf_response_eq_some (other : startsRequest (buf.dropWhile isspace) = false)
    {used : Nat} (accepted : (initFromBuf env buf exec chunked).bytesUsed = some used)
    (plain : (initFromBuf env buf exec chunked).exec.obj.isChunked = false) :
    startsResponse (buf.dropWhile isspace) = true ∧
    ∃ rest exec', parseResponseHeader (buf.dropWhile isspace) { exec with obj := {} } =
        (some ((), rest), exec') ∧ exec'.error.event = false ∧
      exec'.obj.isChunked = false ∧
      used = buf.length - rest.length ∧ (initFromBuf env buf exec chunked).exec = exec' := by
  simp only [initFromBuf, parseStartLine, clear, other, Bool.false_or, Bool.false_eq_true,
    ↓reduceIte] at accepted plain ⊢
  split at accepted
  · rename_i starts
    refine ⟨starts, ?_⟩
    rw [if_pos starts] at plain ⊢
    split at accepted
    · cases accepted
    · rename_i quiet
      rw [if_neg quiet] at plain ⊢
      obtain ⟨inner, parsed, -⟩ := Option.map_eq_some_iff.mp accepted
      obtain ⟨rest, exec', ran, sameObj, whole⟩ := parseResponseHdr_eq_some parsed
      have notChunked : exec'.obj.isChunked = false := sameObj ▸ plain
      simp only [finishResponse, notChunked, Bool.not_false, ↓reduceIte] at whole
      rw [whole] at accepted quiet ⊢
      simp only [Option.map_some, Option.some.injEq,
        bytesUsed_eq (parseResponseHeader_closed.suffix ran)] at accepted
      exact ⟨rest, exec', ran, by simpa using quiet, notChunked, accepted.symm, rfl⟩
  · split at accepted
    · cases accepted
    · cases accepted

/-! ## What the parsers leave alone -/

section Keeps

variable {inv : Exec HTTPFraming → Prop}

theorem parseMsgHdrs_keeps (robust : Robust inv)
    (kept : ∀ exec msgHdrs, inv exec → inv { exec with obj := { exec.obj with msgHdrs } }) :
    Keeps inv parseMsgHdrs := by
  have parameter (parameters : List Rfc822Parameter) : Keeps inv (parseParameter parameters) :=
    Keeps.step.bind fun _ => (Keeps.skip _).bind fun _ => (Keeps.token robust _ _).bind fun _ =>
      Keeps.step.bind fun _ => (Keeps.skip _).bind fun _ => (Keeps.token robust _ _).bind fun _ =>
        (Keeps.skip _).bind fun _ => Keeps.pure _
  have continuation : Keeps inv refuseContinuation :=
    (Keeps.current _).bind fun _ => Keeps.ite (Keeps.fail robust _ _) (Keeps.pure _)
  have msgHdr : Keeps inv parseMsgHdr :=
    Keeps.need.bind fun _ => continuation.bind fun _ => (Keeps.token robust _ _).bind fun _ =>
      Keeps.step.bind fun _ => (Keeps.skip _).bind fun _ => (Keeps.token robust _ _).bind fun _ =>
        (Keeps.loop parameter _).bind fun _ => Keeps.step.bind fun _ =>
          (Keeps.require robust _ _ _).bind fun _ => Keeps.advance.bind fun _ =>
            Keeps.assign fun exec holds => kept exec _ holds
  exact Keeps.loop (fun _ => msgHdr.bind fun _ => Keeps.need) _

theorem parseVersion_keeps (robust : Robust inv)
    (kept : ∀ exec major minor, inv exec → inv { exec with obj := { exec.obj with major, minor } })
    (dot unknown : String) : Keeps inv (parseVersion dot unknown) := by
  have number : Keeps inv (Parse.number : Parse HTTPFraming Int) :=
    (Keeps.token robust _ _).bind fun _ => Keeps.pure _
  have slash : Keeps inv (Parse.keyword kHTTPSlash (pure ()) Scanner.stop) :=
    (Keeps.lookahead _).bind fun _ =>
      Keeps.ite ((Keeps.advanceBy _).bind fun _ => Keeps.pure _) Keeps.stop
  exact slash.bind fun _ => number.bind fun _ =>
    (Keeps.assign fun exec holds => kept exec _ exec.obj.minor holds).bind fun _ =>
      (Keeps.expectStep robust _ _).bind fun _ => number.bind fun _ =>
        (Keeps.assign fun exec holds => kept exec exec.obj.major _ holds).bind fun _ =>
          Keeps.ite (Keeps.pure _) (Keeps.fail robust _ _)

theorem atLeast_keeps (count : Nat) : Keeps inv (atLeast count) := by
  intro window exec holds
  unfold atLeast
  split
  · exact holds
  · exact holds

theorem parseMethodFrom_keeps (robust : Robust inv)
    (kept : ∀ exec method, inv exec → inv { exec with obj := { exec.obj with method } })
    (methods : List HTTPMethod) : Keeps inv (parseMethodFrom methods) := by
  induction methods with
  | nil => exact Keeps.fail robust _ _
  | cons method methods ih =>
      exact (Keeps.lookahead _).bind fun _ => Keeps.ite
        ((Keeps.advanceBy _).bind fun _ => Keeps.assign fun exec holds => kept exec _ holds) ih

theorem parseRequestVersion_keeps (robust : Robust inv)
    (kept : ∀ exec major minor, inv exec → inv { exec with obj := { exec.obj with major, minor } }) :
    Keeps inv parseRequestVersion :=
  Keeps.need.bind fun _ => (Keeps.expectStep robust _ _).bind fun _ =>
    (parseVersion_keeps robust kept _ _).bind fun _ => (Keeps.expectStep robust _ _).bind fun _ =>
      Keeps.expectStep robust _ _

theorem parseRequestFields_keeps (robust : Robust inv)
    (kept : ∀ exec msgHdrs, inv exec → inv { exec with obj := { exec.obj with msgHdrs } }) :
    Keeps inv parseRequestFields :=
  Keeps.onStop ((parseMsgHdrs_keeps robust kept).bind fun _ =>
    (Keeps.expectStep robust _ _).bind fun _ => Keeps.expectStep robust _ _)
    fun exec holds => kept exec _ holds

theorem parseStatusLine_keeps (robust : Robust inv)
    (kept : ∀ exec major minor statusCode, inv exec →
      inv { exec with obj := { exec.obj with major, minor, statusCode } }) :
    Keeps inv parseStatusLine :=
  (parseVersion_keeps robust (fun exec _ _ holds => kept exec _ _ exec.obj.statusCode holds)
      _ _).bind fun _ =>
    (Keeps.expectStep robust _ _).bind fun _ =>
      ((Keeps.token robust _ _).bind fun _ => Keeps.pure _).bind fun _ =>
        Keeps.bind (Keeps.assign fun exec holds =>
          kept exec exec.obj.major exec.obj.minor _ holds) fun _ =>
          (Keeps.expectStep robust _ _).bind fun _ => (Keeps.token robust _ _).bind fun _ =>
            (Keeps.expectStep robust _ _).bind fun _ => Keeps.expectStep robust _ _

/-- Behind the URI a request does not touch it. -/
theorem parseRequestRest_keeps_uri (property : URL → Prop) :
    Keeps (fun exec => property exec.obj.uri) (parseRequestVersion >>= fun _ =>
      parseRequestFields >>= fun _ =>
        Parse.assign fun http : HTTPFraming => { http with msgType := .request }) := by
  have robust : Robust fun exec : Exec HTTPFraming => property exec.obj.uri :=
    Robust.of_obj fun http : HTTPFraming => property http.uri
  have version : Keeps (fun exec => property exec.obj.uri) parseRequestVersion :=
    parseRequestVersion_keeps robust fun _ _ _ holds => holds
  have fields : Keeps (fun exec => property exec.obj.uri) parseRequestFields :=
    parseRequestFields_keeps robust fun _ _ holds => holds
  exact version.bind fun _ => fields.bind fun _ => Keeps.assign fun _ holds => holds

end Keeps

/-! ## A scheme that only appears with what follows -/

theorem parseVersion_readsAtLeast (dot unknown : String) :
    ReadsAtLeast 5 (parseVersion dot unknown) := by
  have slash : ReadsAtLeast 5 (Parse.keyword kHTTPSlash (pure ()) Scanner.stop
      : Parse HTTPFraming Unit) :=
    keyword_readsAtLeast (Local.pure _) (by decide) (.of_stops (fun _ _ => rfl) _)
  exact .bind_left slash fun _ => number_local.bind fun _ => (Local.assign _).bind fun _ =>
    (Local.expectStep _ _).bind fun _ => number_local.bind fun _ =>
      (Local.assign _).bind fun _ => checkVersion_local _ _ _

theorem parseRequestVersion_readsAtLeast : ReadsAtLeast 5 parseRequestVersion := by
  exact .bind_right Local.need fun _ => .bind_right (Local.expectStep _ _) fun _ =>
    .bind_left (parseVersion_readsAtLeast _ _) fun _ =>
      (Local.expectStep _ _).bind fun _ => Local.expectStep _ _

variable {defaultPort : UInt16} {window rest : Bytes} {exec' : Exec HTTPFraming}

theorem parseFromUri_readsAtLeast {hasScheme : Bool} :
    ReadsAtLeast 5 (parseFromUri defaultPort hasScheme) :=
  .bind_right (onUri_local (URL.parseParts_local _ _)) fun _ =>
    .bind_left parseRequestVersion_readsAtLeast fun _ =>
      parseRequestFields_local.bind fun _ => Local.assign _

/-- From the URI on, a request has at least the five bytes of `HTTP/`. -/
theorem five_le_length_of_parseFromUri {hasScheme : Bool}
    (ran : parseFromUri defaultPort hasScheme window exec = (some ((), rest), exec')) :
    5 ≤ window.length := by
  have := parseFromUri_readsAtLeast _ _ _ _ _ ran
  omega

/-- Without a scheme ahead the request has none. -/
theorem parseFromUri_scheme_eq_nil (fresh : exec.obj.uri.scheme = [])
    (ran : parseFromUri defaultPort false window exec = (some ((), rest), exec')) :
    exec'.obj.uri.scheme = [] := by
  obtain ⟨_, window₁, exec₁, parts, ran⟩ := bind_eq_some ran
  obtain ⟨url, hierarchy, rfl⟩ := zoom_eq_some parts
  have kept := URL.parseHierarchy_keeps_scheme (· = []) defaultPort window
    { obj := exec.obj.uri, error := exec.error, overrun := exec.overrun } fresh
  have same : (URL.parseHierarchy defaultPort window
      { obj := exec.obj.uri, error := exec.error, overrun := exec.overrun }).2 = url :=
    congrArg Prod.snd hierarchy
  rw [same] at kept
  have after := parseRequestRest_keeps_uri (fun uri => uri.scheme = []) window₁
    { obj := { exec.obj with uri := url.obj }, error := url.error, overrun := url.overrun } kept
  rwa [ran] at after

theorem untaint_ne_nil {c : UInt8} (nonzero : c ≠ 0) (rest : Bytes) :
    URL.untaint (c :: rest) ≠ [] := by
  unfold URL.untaint
  split
  · decide
  · rw [cstr, List.takeWhile_cons_of_pos (by simpa using nonzero)]
    exact List.cons_ne_nil _ _

/-- What the parser of the parts has done when there is a scheme. -/
theorem parseFromUri_true_eq_some
    (ran : parseFromUri defaultPort true window exec = (some ((), rest), exec')) :
    exec'.obj.uri.scheme = URL.untaint (cstr (window.takeWhile (· != 58))) ∧
      ∃ first second behind, window.dropWhile (· != 58) = 58 :: first :: second :: behind := by
  obtain ⟨_, window₁, exec₁, parts, ran⟩ := bind_eq_some ran
  obtain ⟨url, split, rfl⟩ := zoom_eq_some parts
  obtain ⟨_, window₂, url₁, scheme, hierarchy⟩ := bind_eq_some split
  obtain ⟨stored, first, second, shape, -⟩ := URL.parseScheme_eq_some scheme
  refine ⟨?_, first, second, window₂, shape⟩
  have kept := URL.parseHierarchy_keeps_scheme
    (· = URL.untaint (cstr (window.takeWhile (· != 58)))) defaultPort window₂ _ stored
  rw [hierarchy] at kept
  have after := parseRequestRest_keeps_uri
    (fun uri => uri.scheme = URL.untaint (cstr (window.takeWhile (· != 58)))) window₁
    { obj := { exec.obj with uri := url.obj }, error := url.error, overrun := url.overrun } kept
  rwa [ran] at after

/-- With a scheme ahead the request has one. -/
theorem parseFromUri_scheme_ne_nil {c : UInt8} (inside : URL.isSchemeByte c = true)
    (ran : parseFromUri defaultPort true (c :: window) exec = (some ((), rest), exec')) :
    exec'.obj.uri.scheme ≠ [] := by
  simp only [URL.isSchemeByte, Bool.and_eq_true, bne_iff_ne, ne_eq] at inside
  rw [(parseFromUri_true_eq_some ran).1, List.takeWhile_cons_of_pos (by simpa using inside.1),
    cstr, List.takeWhile_cons_of_pos (by simpa using inside.2)]
  exact untaint_ne_nil inside.2 _

/-- A request that was accepted with a scheme decides by itself that it has one. -/
theorem schemeDecided_of_parseFromUri
    (ran : parseFromUri defaultPort true window exec = (some ((), rest), exec')) :
    URL.schemeDecided window = true := by
  obtain ⟨-, first, second, behind, shape⟩ := parseFromUri_true_eq_some ran
  rw [← List.takeWhile_append_dropWhile (p := (· != 58)) (l := window), shape]
  exact URL.schemeDecided_of_colon _ _ _ _

/-- A request without a scheme that does not decide this by itself starts with a
byte that a scheme may start with. -/
theorem exists_head_of_not_decided {hasScheme : Bool}
    (ran : parseFromUri defaultPort hasScheme window exec = (some ((), rest), exec'))
    (undecided : URL.schemeDecided window ≠ true) :
    ∃ c behind, window = c :: behind ∧ URL.isSchemeByte c = true := by
  have long := five_le_length_of_parseFromUri ran
  match window with
  | [] | [_] | [_, _] => simp at long
  | c :: first :: second :: behind =>
      refine ⟨c, _, rfl, ?_⟩
      cases inside : URL.isSchemeByte c with
      | true => rfl
      | false =>
          refine absurd ?_ undecided
          simp [URL.schemeDecided, inside]

end HTTPFraming

end IpUtils
