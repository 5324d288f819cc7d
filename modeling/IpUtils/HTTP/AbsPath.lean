import IpUtils.HTTP.RoundTrip
import IpUtils.HTTP.Window

/-! # Requests in the path form

`print_hdr` prints a request with its path only when it is told to. Such a request is
read as it was printed when `InitFromBuf` knows its method and the search for a scheme
finds none; the search runs over the fields and over what follows the header.
-/

namespace IpUtils

open CLib Scanner

namespace HTTPFraming

/-- The requests that the mutators build, whatever the method. -/
inductive BuiltRequest : HTTPFraming → Prop
  | initRequest {method : HTTPMethod} (named : method ≠ .methodNull) (uri : URL)
      (old : HTTPFraming) : BuiltRequest (initRequest method uri old)
  | appendMsgHdr {http : HTTPFraming} (built : BuiltRequest http) (msgHdr : Rfc822MsgHdr)
      {error : ErrorHandler} (success : (appendMsgHdr msgHdr http error).2 = error) :
      BuiltRequest (appendMsgHdr msgHdr http error).1
  | appendField {http : HTTPFraming} (built : BuiltRequest http)
      (fieldName fieldValue key value : Option Bytes) {error : ErrorHandler}
      (success : (appendField fieldName fieldValue key value http error).2 = error) :
      BuiltRequest (appendField fieldName fieldValue key value http error).1

theorem BuiltRequest.shape {http : HTTPFraming} (built : BuiltRequest http) :
    ∃ method uri msgHdrs, method ≠ .methodNull ∧
      http = { msgType := .request, method, uri, msgHdrs } := by
  induction built with
  | initRequest named uri old => exact ⟨_, uri, [], named, rfl⟩
  | appendMsgHdr built msgHdr success ih =>
      obtain ⟨method, uri, _, named, rfl⟩ := ih
      obtain ⟨msgHdrs, same⟩ := appendMsgHdr_fst msgHdr _ _
      exact ⟨method, uri, msgHdrs, named, same⟩
  | appendField built fieldName fieldValue key value success ih =>
      obtain ⟨method, uri, _, named, rfl⟩ := ih
      obtain ⟨msgHdrs, same⟩ := appendField_fst fieldName fieldValue key value _ _
      exact ⟨method, uri, msgHdrs, named, same⟩

/-- What a request sends in its path form can be told apart again. -/
structure AbsPathSafe (http : HTTPFraming) : Prop where
  uri : http.uri.AbsPathSafe
  msgHdrs : ∀ msgHdr ∈ http.msgHdrs, WireSafeHdr msgHdr

/-- A request is accepted, and what was printed of it is read. -/
structure ReadsBack (http : HTTPFraming) (result : ParseResult) : Prop where
  accepted : result.bytesUsed.isSome = true
  method : result.exec.obj.method = http.method
  path : result.exec.obj.uri.path = http.uri.path
  query : result.exec.obj.uri.query = http.uri.query
  fragment : result.exec.obj.uri.fragment = http.uri.fragment
  msgHdrs : result.exec.obj.msgHdrs = http.msgHdrs
  scheme : result.exec.obj.uri.scheme = []
  host : result.exec.obj.uri.host = []

/-! ## The printed text -/

section Printed

variable {method : HTTPMethod} {uri : URL} {msgHdrs : List Rfc822MsgHdr}

theorem printAbsPath_of_safe (safe : uri.AbsPathSafe) :
    uri.printAbsPath = uri.absPathText.take (URL.kURLMaxSize - 1) := by
  have onHost := URL.printAbsPath_eq (URL.AbsPathSafe.onHost safe).nulFree
  exact onHost

/-- A request that is shorter than the buffers is printed completely. -/
theorem printHdr_absPath (named : method ≠ .methodNull) (safe : uri.AbsPathSafe)
    (hdrs : ∀ msgHdr ∈ msgHdrs, WireSafeHdr msgHdr)
    (fits : (printHdrText true { msgType := .request, method, uri, msgHdrs }).length <
      scratchBufSize) :
    printHdr 0 true { msgType := .request, method, uri, msgHdrs } =
        method.name ++ 32 :: (uri.absPathText ++ requestTailText msgHdrs) ∧
      (method.name ++ 32 :: (uri.absPathText ++ requestTailText msgHdrs)).length <
        scratchBufSize := by
  generalize whole : ({ msgType := .request, method, uri, msgHdrs } : HTTPFraming) = http at fits ⊢
  have uncut : printHdr 0 true http = printHdrText true http := by
    rw [printHdr, if_pos (Nat.zero_le _), List.drop_zero, append_nil]
    exact List.take_of_length_le (by omega)
  have sizes : (printStartLine true http).length + 2 + (printMsgHdrs http).length + 2 <
      scratchBufSize := by
    simpa only [printHdrText, List.length_append, show crlf.length = 2 from rfl] using fits
  have fields : printMsgHdrs http = hdrsText msgHdrs := by
    have cut : printMsgHdrs http = (hdrsText msgHdrs).take (scratchBufSize - 1) := by
      rw [← whole]
      exact printMsgHdrs_eq hdrs
    rw [cut] at sizes ⊢
    exact eq_of_length_take_lt (by omega)
  have startLine : printStartLine true http =
      method.name ++ 32 :: uri.absPathText ++ 32 :: versionText := by
    have one : printInt 1 = [49] := by decide
    have cut : printStartLine true http =
        (method.name ++ 32 :: uri.printAbsPath ++ 32 :: versionText).take (scratchBufSize - 1) := by
      rw [← whole, printStartLine, if_pos named, append_nil]
      simp [one, versionText, ascii]
    have printed : (method.name ++ 32 :: uri.printAbsPath ++ 32 :: versionText).take
        (scratchBufSize - 1) = method.name ++ 32 :: uri.printAbsPath ++ 32 :: versionText := by
      rw [cut] at sizes
      exact eq_of_length_take_lt (by omega)
    rw [cut, printed] at sizes ⊢
    have path : uri.printAbsPath = uri.absPathText := by
      rw [printAbsPath_of_safe safe] at sizes ⊢
      refine eq_of_length_take_lt ?_
      simp only [List.length_append, List.length_cons, scratchBufSize, URL.kURLMaxSize] at sizes ⊢
      omega
    rw [path]
  have text : printHdrText true http =
      method.name ++ 32 :: (uri.absPathText ++ requestTailText msgHdrs) := by
    rw [printHdrText, startLine, fields, requestTailText]
    simp
  exact ⟨uncut.trans text, text ▸ fits⟩

end Printed

/-! ## Reading it -/

section Reading

variable {method : HTTPMethod} {uri : URL} {msgHdrs : List Rfc822MsgHdr}
  {exec : Exec HTTPFraming}

/-- The path form of a URI is read as it was printed. -/
theorem onUri_parseParts_absPath (safe : uri.AbsPathSafe)
    (fits : uri.absPathText.length < URL.kURLMaxSize) (fresh : exec.obj.uri = {})
    (defaultPort : UInt16) (rest : Bytes) :
    onUri (URL.parseParts defaultPort false) (uri.absPathText ++ 32 :: rest) exec =
      (some ((), 32 :: rest),
        { exec with
          obj := { exec.obj with
            uri := { uri with scheme := [], host := [], port := defaultPort } } }) := by
  have read := @URL.reads_parseParts_absPath
    { obj := exec.obj.uri, error := exec.error, overrun := exec.overrun } 32 uri safe rfl fresh fits
    defaultPort rest
  simp only [onUri, Scanner.zoom, read]

theorem absPathText_cons (safe : uri.AbsPathSafe) :
    ∃ rest, uri.absPathText = 47 :: rest ∧ rest ≠ [] := by
  refine ⟨uri.path ++ URL.queryText uri.query ++ URL.fragmentText uri.fragment, ?_, ?_⟩
  · simp [URL.absPathText, URL.pathText, safe.path_ne_nil]
  · simp [safe.path_ne_nil]

/-- Up to the URI, a request in the path form is parsed like any other. -/
theorem parseRequestHdr_absPath (exec : Exec HTTPFraming) (listed : method ∈ requestMethods)
    (safe : uri.AbsPathSafe) (stale : Bytes) (defaultPort : UInt16) (suffix : Bytes) :
    parseRequestHdr stale defaultPort
        (method.name ++ 32 :: (uri.absPathText ++ requestTailText msgHdrs) ++ suffix) exec =
      parseFromUri defaultPort
        (URL.schemeAhead (uri.absPathText ++ requestTailText msgHdrs ++ suffix ++ stale))
        (uri.absPathText ++ requestTailText msgHdrs ++ suffix)
        { exec with obj := { exec.obj with method, uri := {} } } := by
  obtain ⟨path, shape, inhabited⟩ := absPathText_cons safe
  have long := List.length_pos_iff.mpr inhabited
  have solid : URL.isUrlByte 47 = true := by decide
  have three : 3 ≤ method.name.length := by cases method <;> decide
  have enough : 16 ≤ (method.name ++ 32 :: 47 ::
      (path ++ requestTailText msgHdrs ++ suffix)).length := by
    simp only [requestTailText, List.length_append, List.length_cons,
      show versionText.length = 8 from rfl, show crlf.length = 2 from rfl]
    omega
  have run := parseRequestHdr_from_uri exec listed solid enough stale defaultPort
  simp only [shape, List.cons_append, List.append_assoc] at run ⊢
  exact run

/-- Without a scheme ahead, the request is parsed as it was printed. -/
theorem parseRequestHdr_absPath_reads (error : ErrorHandler) (listed : method ∈ requestMethods)
    (safe : uri.AbsPathSafe) (hdrs : ∀ msgHdr ∈ msgHdrs, WireSafeHdr msgHdr)
    (fits : (method.name ++ 32 :: (uri.absPathText ++ requestTailText msgHdrs)).length <
      scratchBufSize) (stale : Bytes) (defaultPort : UInt16) (next : UInt8) (rest : Bytes)
    (none_ : URL.schemeAhead (uri.absPathText ++ requestTailText msgHdrs ++ next :: rest ++ stale) =
      false) :
    parseRequestHdr stale defaultPort
        (method.name ++ 32 :: (uri.absPathText ++ requestTailText msgHdrs) ++ next :: rest)
        { obj := {}, error } =
      (some ((), next :: rest),
        { obj := { msgType := .request, method, msgHdrs
                   uri := { uri with scheme := [], host := [], port := defaultPort } }
          error }) := by
  simp only [List.length_append, List.length_cons, requestTailText] at fits
  have tail := (@feeds_requestTail error
    { obj := { method, uri := { uri with scheme := [], host := [], port := defaultPort } }, error }
    next msgHdrs hdrs (by omega) ⟨rfl, rfl⟩).reads rest
  have pathFits : uri.absPathText.length < URL.kURLMaxSize := by
    simp only [URL.kURLMaxSize, scratchBufSize] at fits ⊢
    omega
  have window : uri.absPathText ++ requestTailText msgHdrs ++ next :: rest =
      uri.absPathText ++ 32 :: (versionText ++ crlf ++ (hdrsText msgHdrs ++ crlf) ++ next :: rest) := by
    simp [requestTailText]
  rw [parseRequestHdr_absPath _ listed safe, none_, window, parseFromUri_eq,
    bind_of_some (onUri_parseParts_absPath safe pathFits rfl defaultPort _)]
  refine Eq.trans ?_ tail
  simp [requestTailText]

/-- The names that `InitFromBuf` does not know. -/
theorem starts_unlisted (named : method ≠ .methodNull) (unlisted : method ∉ requestMethods)
    (rest : Bytes) :
    (method.name ++ 32 :: rest).dropWhile isspace = method.name ++ 32 :: rest ∧
      (startsRequest (method.name ++ 32 :: rest) ||
        startsResponse (method.name ++ 32 :: rest)) = false := by
  cases method with
  | methodNull => exact absurd rfl named
  | get | head | post | put | delete => exact absurd (by decide) unlisted
  | trace | connect | options => exact ⟨rfl, rfl⟩

end Reading

/-- A request in the path form is read back exactly if `InitFromBuf` knows its method and
the first colon from the path on, wherever it stands, does not look like that of a scheme. -/
theorem absPath_readsBack_iff {http : HTTPFraming} (built : BuiltRequest http)
    (safe : AbsPathSafe http) (fits : (printHdrText true http).length < scratchBufSize)
    {suffix : Bytes} (behind : suffix ≠ []) (env : ParseEnv) (old : HTTPFraming)
    {error : ErrorHandler} (noEvent : error.event = false) (chunked : ChunkBuf) :
    ReadsBack http
        (initFromBuf env (printHdr 0 true http ++ suffix) { obj := old, error } chunked) ↔
      http.method ∈ requestMethods ∧
        URL.schemeAhead (http.uri.absPathText ++ requestTailText http.msgHdrs ++ suffix ++
          env.stale) = false := by
  obtain ⟨method, uri, msgHdrs, named, rfl⟩ := built.shape
  obtain ⟨printed, short⟩ := printHdr_absPath named safe.uri safe.msgHdrs fits
  rw [printed]
  dsimp only
  by_cases listed : method ∈ requestMethods
  · have trimmed := dropWhile_isspace_name listed
      (32 :: (uri.absPathText ++ requestTailText msgHdrs) ++ suffix)
    have starts := startsRequest_name listed
      (32 :: (uri.absPathText ++ requestTailText msgHdrs) ++ suffix)
    rw [← List.append_assoc] at trimmed starts
    rw [← trimmed] at starts
    cases ahead : URL.schemeAhead (uri.absPathText ++ requestTailText msgHdrs ++ suffix ++
      env.stale) with
    | false =>
        obtain ⟨next, rest, rfl⟩ := List.exists_cons_of_ne_nil behind
        have ran := parseRequestHdr_absPath_reads error listed safe.uri safe.msgHdrs short env.stale
          env.defaultPort next rest ahead
        rw [← trimmed] at ran
        rw [initFromBuf_of_request env chunked starts ran noEvent]
        exact iff_of_true ⟨rfl, rfl, rfl, rfl, rfl, rfl, rfl, rfl⟩ ⟨listed, rfl⟩
    | true =>
        refine iff_of_false (fun back => ?_) (fun condition => by cases condition.2)
        obtain ⟨used, accepted⟩ := Option.isSome_iff_exists.mp back.accepted
        obtain ⟨rest, exec', ran, -, -, same⟩ := initFromBuf_request_eq_some starts accepted
        obtain ⟨path, shape, -⟩ := absPathText_cons safe.uri
        rw [trimmed, parseRequestHdr_absPath _ listed safe.uri, ahead, shape, List.cons_append,
          List.cons_append] at ran
        have scheme := back.scheme
        rw [same] at scheme
        exact parseFromUri_scheme_ne_nil (by decide) ran scheme
  · obtain ⟨trimmed, other⟩ := starts_unlisted named listed
      (uri.absPathText ++ requestTailText msgHdrs ++ suffix)
    refine iff_of_false (fun back => ?_) (fun condition => listed condition.1)
    have whole : method.name ++ 32 :: (uri.absPathText ++ requestTailText msgHdrs) ++ suffix =
        method.name ++ 32 :: (uri.absPathText ++ requestTailText msgHdrs ++ suffix) := by
      simp
    rw [← trimmed, ← whole] at other
    have accepted := back.accepted
    rw [(@initFromBuf_of_not_starts env env _ _ _ other).2] at accepted
    cases accepted

/-- A request for a path, with one pair in its query and one field. -/
def pathRequest (method : HTTPMethod) (value : String) : HTTPFraming :=
  (appendField (some (ascii "A")) (some (ascii "b")) none none
    (initRequest method { path := ascii "p", query := [{ key := ascii "q", value := ascii value }] }
      {}) {}).1

theorem pathRequest_built {method : HTTPMethod} (named : method ≠ .methodNull) (value : String) :
    BuiltRequest (pathRequest method value) :=
  .appendField (.initRequest named _ _) _ _ _ _ rfl

theorem pathRequest_safe (method : HTTPMethod) {value : String}
    (clean : ∀ c ∈ ascii value,
      URL.isCleanByte c = true ∧ c ≠ URL.kQueryDelimiter ∧ c ≠ URL.kFragmentStart) :
    AbsPathSafe (pathRequest method value) where
  uri :=
    { path_ne_nil := show ascii "p" ≠ [] by decide
      path := show ∀ c ∈ ascii "p", URL.isCleanByte c = true ∧ c ≠ URL.kQueryStart ∧
        c ≠ URL.kFragmentStart by decide +kernel
      keys := List.forall_mem_singleton.mpr (show ∀ c ∈ ascii "q", URL.isCleanByte c = true ∧
        c ≠ URL.kKeyValueDelimiter ∧ c ≠ URL.kFragmentStart by decide +kernel)
      values := List.forall_mem_singleton.mpr clean
      fragment := fun c member => by cases member }
  msgHdrs := List.forall_mem_singleton.mpr
    { fieldName_head := ⟨_, _, rfl, by decide⟩, fieldValue_head := ⟨_, _, rfl, by decide⟩
      fieldName := show ∀ c ∈ ascii "A", c ≠ 0 ∧ c ≠ 13 ∧ c ≠ 58 by decide +kernel
      fieldValue := show ∀ c ∈ ascii "b", c ≠ 0 ∧ c ≠ 13 ∧ c ≠ 59 by decide +kernel
      parameters := fun param member => by cases member }

theorem absPath_readsBack_iff_sample :
    ReadsBack (pathRequest .get "a:/b")
      (initFromBuf { stale := [], realloc := fun _ _ => none }
        (printHdr 0 true (pathRequest .get "a:/b") ++ ascii "P") { obj := {}, error := {} }
        ⟨none, 0⟩) :=
  (absPath_readsBack_iff (pathRequest_built (by decide) _)
    (pathRequest_safe .get (by decide +kernel)) (by decide +kernel) (by decide) _ {} rfl _).mpr
    ⟨by decide, by decide +kernel⟩

/-- A request that is fit to be sent and not read back. -/
def Lost (http : HTTPFraming) : Prop :=
  BuiltRequest http ∧ AbsPathSafe http ∧ (printHdrText true http).length < scratchBufSize ∧
    ¬ ReadsBack http (initFromBuf { stale := [], realloc := fun _ _ => none }
      (printHdr 0 true http ++ ascii "P") { obj := {}, error := {} } ⟨none, 0⟩)

/-- `InitFromBuf` does not know `TRACE`, and a URL in the query looks like a scheme. -/
theorem absPath_lost : Lost (pathRequest .trace "r") ∧ Lost (pathRequest .get "http://r") :=
  ⟨⟨pathRequest_built (by decide) _, pathRequest_safe _ (by decide +kernel), by decide +kernel,
      fun back => absurd back.accepted (by decide +kernel)⟩,
    pathRequest_built (by decide) _, pathRequest_safe _ (by decide +kernel), by decide +kernel,
      fun back => absurd back.scheme (by decide +kernel)⟩

end HTTPFraming

end IpUtils
