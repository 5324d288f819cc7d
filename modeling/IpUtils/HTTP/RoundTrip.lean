import IpUtils.HTTP.Feeding
import IpUtils.URL.Cut

/-! # The header that was printed is the header that is read

A header built by `InitRequest` or `InitResponse` and successful calls of
`AppendMsgHdr` is printed and parsed again. What the parser makes of the first bytes
of the printed header is treated here as well: for a response it always waits for
more, for a request it does so unless the bytes end inside a key of the query.
-/

namespace IpUtils

open CLib Scanner

namespace HTTPFraming

/-! ## Headers that are built -/

/-- The headers that the mutators build. A call of `AppendMsgHdr` is successful when it
leaves the error alone. -/
inductive Built : HTTPFraming → Prop
  | initRequest {method : HTTPMethod} (listed : method ∈ requestMethods) (uri : URL)
      (old : HTTPFraming) : Built (initRequest method uri old)
  | initResponse {code : Int} (nonneg : 0 ≤ code) (small : code < 2 ^ 31) (connection : Int)
      (old : HTTPFraming) : Built (initResponse code connection old)
  | appendMsgHdr {http : HTTPFraming} (built : Built http) (msgHdr : Rfc822MsgHdr)
      {error : ErrorHandler} (success : (appendMsgHdr msgHdr http error).2 = error) :
      Built (appendMsgHdr msgHdr http error).1
  | appendField {http : HTTPFraming} (built : Built http)
      (fieldName fieldValue key value : Option Bytes) {error : ErrorHandler}
      (success : (appendField fieldName fieldValue key value http error).2 = error) :
      Built (appendField fieldName fieldValue key value http error).1

/-- The fields of a header are fit to be sent. -/
structure WireSafe (http : HTTPFraming) : Prop where
  uri : http.method ≠ .methodNull → http.uri.WireSafe
  msgHdrs : ∀ msgHdr ∈ http.msgHdrs, WireSafeHdr msgHdr

/-- Appending a field changes nothing but the list of fields. -/
theorem appendMsgHdr_fst (msgHdr : Rfc822MsgHdr) (http : HTTPFraming) (error : ErrorHandler) :
    ∃ msgHdrs, (appendMsgHdr msgHdr http error).1 = { http with msgHdrs } := by
  unfold appendMsgHdr
  split
  · exact ⟨http.msgHdrs, rfl⟩
  · exact ⟨_, rfl⟩

theorem appendField_fst (fieldName fieldValue key value : Option Bytes) (http : HTTPFraming)
    (error : ErrorHandler) :
    ∃ msgHdrs, (appendField fieldName fieldValue key value http error).1 = { http with msgHdrs } := by
  unfold appendField
  split
  · exact ⟨http.msgHdrs, rfl⟩
  · exact ⟨http.msgHdrs, rfl⟩
  · exact appendMsgHdr_fst _ _ _

/-- What a request that has been built looks like. -/
def IsRequest (http : HTTPFraming) : Prop :=
  ∃ method ∈ requestMethods, ∃ uri msgHdrs,
    http = { msgType := .request, method, uri, msgHdrs }

/-- What a response that has been built looks like. -/
def IsResponse (http : HTTPFraming) : Prop :=
  ∃ statusCode : Int, 0 ≤ statusCode ∧ statusCode < 2 ^ 31 ∧ ∃ msgHdrs,
    http = { msgType := .response, statusCode, msgHdrs }

theorem Built.kind {http : HTTPFraming} (built : Built http) : IsRequest http ∨ IsResponse http := by
  have more {http : HTTPFraming} (before : IsRequest http ∨ IsResponse http)
      (msgHdrs : List Rfc822MsgHdr) :
      IsRequest { http with msgHdrs } ∨ IsResponse { http with msgHdrs } := by
    rcases before with ⟨method, listed, uri, _, rfl⟩ | ⟨code, nonneg, small, _, rfl⟩
    · exact .inl ⟨method, listed, uri, msgHdrs, rfl⟩
    · exact .inr ⟨code, nonneg, small, msgHdrs, rfl⟩
  induction built with
  | initRequest listed uri old => exact .inl ⟨_, listed, uri, [], rfl⟩
  | initResponse nonneg small connection old => exact .inr ⟨_, nonneg, small, _, rfl⟩
  | appendMsgHdr built msgHdr success ih =>
      obtain ⟨msgHdrs, same⟩ := appendMsgHdr_fst msgHdr _ _
      exact same ▸ more ih msgHdrs
  | appendField built fieldName fieldValue key value success ih =>
      obtain ⟨msgHdrs, same⟩ := appendField_fst fieldName fieldValue key value _ _
      exact same ▸ more ih msgHdrs

/-! ## The start of a request -/

variable {method : HTTPMethod} {exec : Exec HTTPFraming}

theorem requestMethod_ne_null (listed : method ∈ requestMethods) : method ≠ .methodNull := by
  rintro rfl
  exact absurd listed (by decide)

/-- The names of the methods start with a letter and do not continue each other. -/
theorem find_parsedMethods (listed : method ∈ requestMethods) (rest : Bytes) :
    parsedMethods.find? (fun other => startsWithNoCase other.name (method.name ++ 32 :: rest)) =
      some method := by
  simp only [requestMethods, List.mem_cons, List.not_mem_nil, or_false] at listed
  rcases listed with rfl | rfl | rfl | rfl | rfl <;> rfl

theorem startsRequest_name (listed : method ∈ requestMethods) (rest : Bytes) :
    startsRequest (method.name ++ rest) = true := by
  refine List.any_eq_true.mpr ⟨method, listed, ?_⟩
  rw [startsWithNoCase_append (Nat.le_refl _), startsWithNoCase, List.take_length, beq_self_eq_true]

theorem dropWhile_isspace_name (listed : method ∈ requestMethods) (rest : Bytes) :
    (method.name ++ rest).dropWhile isspace = method.name ++ rest := by
  simp only [requestMethods, List.mem_cons, List.not_mem_nil, or_false] at listed
  rcases listed with rfl | rfl | rfl | rfl | rfl <;> rfl

/-- A request up to its URI. -/
theorem parseBeforeUri_apply (exec : Exec HTTPFraming) (listed : method ∈ requestMethods) {c : UInt8}
    (solid : URL.isUrlByte c = true) (rest : Bytes) :
    parseBeforeUri (method.name ++ 32 :: c :: rest) exec =
        (some ((), c :: rest), { exec with obj := { exec.obj with method, uri := {} } }) ∧
      uriBytes (method.name ++ 32 :: c :: rest) = c :: rest := by
  have ran : parseBeforeUri (method.name ++ 32 :: c :: rest) exec =
      (some ((), c :: rest), { exec with obj := { exec.obj with method, uri := {} } }) := by
    obtain ⟨nonzero, noSpace⟩ := URL.isUrlByte_iff.mp solid
    have stored := @parseMethodFrom_of_find parsedMethods method _ exec
      (find_parsedMethods listed (c :: rest)) (by
        simp only [List.length_append, List.length_cons]
        omega)
    rw [List.drop_left] at stored
    have stays : (c :: rest).dropWhile isspace = c :: rest :=
      List.dropWhile_cons_of_neg (by simp [noSpace])
    have start : URL.parseStart (c :: rest)
        { obj := exec.obj.uri, error := exec.error, overrun := exec.overrun } =
        (some ((), c :: rest), { obj := {}, error := exec.error, overrun := exec.overrun }) := by
      simp only [URL.parseStart, bind_apply, Parse.assign, Scanner.update, Scanner.current,
        List.headD_cons, if_neg nonzero, Scanner.skip, Scanner.skipWhile, stays, Scanner.need,
        List.isEmpty_cons, Bool.false_eq_true, ↓reduceIte, URL.clear]
    rw [parseBeforeUri, parseMethod, bind_of_some stored,
      bind_of_some (Parse.expectStep_cons 32 _ c)]
    simp only [onUri, Scanner.zoom, start]
  exact ⟨ran, (parseBeforeUri_eq_some ran).1.symm⟩

/-- With 16 bytes a request is parsed from its URI on. -/
theorem parseRequestHdr_from_uri (exec : Exec HTTPFraming) (listed : method ∈ requestMethods) {c : UInt8}
    (solid : URL.isUrlByte c = true) {rest : Bytes}
    (enough : 16 ≤ (method.name ++ 32 :: c :: rest).length) (stale : Bytes)
    (defaultPort : UInt16) :
    parseRequestHdr stale defaultPort (method.name ++ 32 :: c :: rest) exec =
      parseFromUri defaultPort (URL.schemeAhead (c :: rest ++ stale)) (c :: rest)
        { exec with obj := { exec.obj with method, uri := {} } } := by
  rw [parseRequestHdr_apply (dropWhile_isspace_name listed _), if_neg (Nat.not_lt.mpr enough),
    parseMethod_bind_parseAfterMethod, bind_of_some (parseBeforeUri_apply exec listed solid rest).1]
  rfl

/-! ## The round trip -/

/-- The parser of a request behind the first byte of the URI. -/
theorem parseFromUri_eq (defaultPort : UInt16) (hasScheme : Bool) :
    parseFromUri defaultPort hasScheme =
      onUri (URL.parseParts defaultPort hasScheme) >>= fun _ => requestTail := rfl

variable {error : ErrorHandler} {old : HTTPFraming} {uri : URL} {msgHdrs : List Rfc822MsgHdr}

theorem schemeAhead_uriText (safe : uri.WireSafe) (rest : Bytes) :
    URL.schemeAhead (uri.uriText ++ rest) = true := by
  rw [safe.uriText_eq, List.append_assoc, List.append_assoc]
  refine URL.schemeAhead_of_scheme (fun c member => ?_) _
  have facts := safe.scheme c member
  simp [URL.isSchemeByte, (URL.isUrlByte_iff.mp (URL.isUrlByte_of_clean facts.1)).1, facts.2]

/-- The URI of a request is read as it was printed. -/
theorem onUri_parseParts (safe : uri.WireSafe) (fits : uri.uriText.length < URL.kURLMaxSize)
    (fresh : exec.obj.uri = {}) (rest : Bytes) :
    onUri (URL.parseParts urlPortNull true) (uri.uriText ++ 32 :: rest) exec =
      (some ((), 32 :: rest), { exec with obj := { exec.obj with uri } }) := by
  have read := @URL.reads_parseParts
    { obj := exec.obj.uri, error := exec.error, overrun := exec.overrun } 32 uri safe rfl fresh fits
    rest
  simp only [onUri, Scanner.zoom, read]

theorem headerText_request (uri : URL) (msgHdrs : List Rfc822MsgHdr) (listed : method ∈ requestMethods) :
    headerText { msgType := .request, method, uri, msgHdrs } =
      method.name ++ 32 :: (uri.uriText ++ requestTailText msgHdrs) := by
  have one : printInt 1 = [49] := by decide
  simp only [headerText, startLineText, if_pos (requestMethod_ne_null listed), one]
  simp [requestTailText, versionText, ascii]

theorem uriText_cons (safe : uri.WireSafe) :
    ∃ c rest, uri.uriText = c :: rest ∧ URL.isUrlByte c = true ∧ 6 ≤ uri.uriText.length := by
  obtain ⟨c, rest, shape⟩ := List.exists_cons_of_ne_nil safe.scheme_ne_nil
  have whole := safe.uriText_eq
  rw [shape, List.cons_append, List.cons_append] at whole
  refine ⟨c, _, whole, safe.urlBytes c (by rw [whole]; simp), ?_⟩
  have host := List.length_pos_iff.mpr safe.host_ne_nil
  rw [whole]
  simp only [List.length_cons, List.length_append]
  omega

/-- A printed request is parsed as the request that was printed. -/
theorem parseRequestHdr_headerText (error : ErrorHandler) (listed : method ∈ requestMethods) (safe : uri.WireSafe)
    (hdrs : ∀ msgHdr ∈ msgHdrs, WireSafeHdr msgHdr)
    (fits : (headerText { msgType := .request, method, uri, msgHdrs }).length < scratchBufSize)
    (stale : Bytes) (next : UInt8) (rest : Bytes) :
    parseRequestHdr stale urlPortNull
        (headerText { msgType := .request, method, uri, msgHdrs } ++ next :: rest)
        { obj := {}, error } =
      (some ((), next :: rest),
        { obj := { msgType := .request, method, uri, msgHdrs }, error }) := by
  rw [headerText_request _ _ listed] at fits ⊢
  obtain ⟨c, uriRest, shape, solid, long⟩ := uriText_cons safe
  simp only [List.length_append, List.length_cons, requestTailText] at fits
  have window : method.name ++ 32 :: (uri.uriText ++ requestTailText msgHdrs) ++ next :: rest =
      method.name ++ 32 :: c :: (uriRest ++ requestTailText msgHdrs ++ next :: rest) := by
    simp [shape]
  have behind : c :: (uriRest ++ requestTailText msgHdrs ++ next :: rest) =
      uri.uriText ++ 32 :: (versionText ++ crlf ++ (hdrsText msgHdrs ++ crlf) ++ next :: rest) := by
    simp [shape, requestTailText]
  have enough : 16 ≤ (method.name ++ 32 :: c ::
      (uriRest ++ requestTailText msgHdrs ++ next :: rest)).length := by
    rw [behind]
    simp only [List.length_append, List.length_cons, show versionText.length = 8 from rfl]
    omega
  have tail := (@feeds_requestTail error { obj := { method, uri }, error } next msgHdrs
    hdrs (by omega) ⟨rfl, rfl⟩).reads rest
  have uriFits : uri.uriText.length < URL.kURLMaxSize := by
    simp only [URL.kURLMaxSize, scratchBufSize] at fits ⊢
    omega
  rw [window, parseRequestHdr_from_uri _ listed solid enough, behind, List.append_assoc,
    schemeAhead_uriText safe, parseFromUri_eq, bind_of_some (onUri_parseParts safe uriFits rfl _)]
  refine Eq.trans ?_ tail
  simp [requestTailText]

theorem headerText_response (msgHdrs : List Rfc822MsgHdr) (statusCode : Int) :
    headerText { msgType := .response, statusCode, msgHdrs } =
      statusLineText statusCode ++ hdrsText msgHdrs ++ crlf := by
  have one : printInt 1 = [49] := by decide
  simp only [headerText, startLineText, one]
  simp [statusLineText, versionText, ascii]

theorem parseEmptyLine_apply (rest : Bytes) :
    parseEmptyLine (13 :: 10 :: rest) exec =
      (some ((), rest), { exec with obj := { exec.obj with msgType := .response } }) := rfl

/-- A printed response is parsed as the response that was printed. -/
theorem parseResponseHeader_headerText {statusCode : Int} (nonneg : 0 ≤ statusCode)
    (small : statusCode < 2 ^ 31) (hdrs : ∀ msgHdr ∈ msgHdrs, WireSafeHdr msgHdr)
    (fits : (headerText { msgType := .response, statusCode, msgHdrs }).length < scratchBufSize)
    (noEvent : error.event = false) (rest : Bytes) :
    parseResponseHeader (headerText { msgType := .response, statusCode, msgHdrs } ++ rest)
        { obj := {}, error } =
      (some ((), rest), { obj := { msgType := .response, statusCode, msgHdrs }, error }) := by
  rw [headerText_response] at fits ⊢
  simp only [statusLineText, List.length_append, List.length_cons] at fits
  have front := (@feeds_responseFront error { obj := {}, error } msgHdrs _ nonneg small hdrs
    (by omega) noEvent ⟨rfl, rfl⟩).reads (10 :: rest)
  have window : statusLineText statusCode ++ hdrsText msgHdrs ++ crlf ++ rest =
      statusLineText statusCode ++ hdrsText msgHdrs ++ 13 :: 10 :: rest := by
    simp [crlf]
  rw [window, parseResponseHeader_eq, bind_of_some front, parseEmptyLine_apply]
  simp

/-- A printed response starts like one. -/
theorem statusLineText_starts (statusCode : Int) (rest : Bytes) :
    (statusLineText statusCode ++ rest).dropWhile isspace = statusLineText statusCode ++ rest ∧
      startsRequest (statusLineText statusCode ++ rest) = false ∧
      startsResponse (statusLineText statusCode ++ rest) = true :=
  ⟨rfl, rfl, rfl⟩

theorem nulFree_empty : URL.NulFree {} where
  scheme member := by cases member
  host member := by cases member
  path member := by cases member
  keys info member := by cases member
  values info member := by cases member
  fragment member := by cases member

/-- A header that has been built and fits the buffers is printed completely. -/
theorem Built.printHdr_eq {http : HTTPFraming} (built : Built http) (safe : WireSafe http)
    (fits : (printHdrText false http).length < scratchBufSize) :
    printHdr 0 false http = headerText http ∧ (headerText http).length < scratchBufSize := by
  refine HTTPFraming.printHdr_eq safe.msgHdrs ?_ fits
  rcases built.kind with ⟨method, listed, uri, msgHdrs, rfl⟩ | ⟨code, -, -, msgHdrs, rfl⟩
  · exact (safe.uri (requestMethod_ne_null listed)).nulFree
  · exact nulFree_empty

/-- `InitFromBuf` reads the header that `print_hdr` has printed, whatever stands behind
it; behind a request something must. -/
theorem initFromBuf_printHdr {http : HTTPFraming} (built : Built http) (safe : WireSafe http)
    (plain : http.msgType = .response → http.isChunked = false)
    (fits : (printHdrText false http).length < scratchBufSize) {suffix : Bytes}
    (behind : http.msgType = .request → suffix ≠ []) (stale : Bytes) (realloc : Realloc)
    (old : HTTPFraming) {error : ErrorHandler} (noEvent : error.event = false)
    (chunked : ChunkBuf) :
    initFromBuf { stale, realloc } (printHdr 0 false http ++ suffix) { obj := old, error } chunked =
      { bytesUsed := some (printHdr 0 false http).length
        exec := { obj := http, error }
        chunked } := by
  obtain ⟨printed, short⟩ := built.printHdr_eq safe fits
  rw [printed]
  have used (text : Bytes) : (text ++ suffix).length - suffix.length = text.length := by
    rw [List.length_append, Nat.add_sub_cancel]
  rcases built.kind with ⟨method, listed, uri, msgHdrs, rfl⟩ | ⟨code, nonneg, small, msgHdrs, rfl⟩
  · -- a request
    obtain ⟨next, rest, rfl⟩ := List.exists_cons_of_ne_nil (behind rfl)
    have ran := parseRequestHdr_headerText error listed
      (safe.uri (requestMethod_ne_null listed)) safe.msgHdrs short stale next rest
    have text := headerText_request uri msgHdrs listed
    have trimmed : (headerText { msgType := .request, method, uri, msgHdrs } ++
        next :: rest).dropWhile isspace =
        headerText { msgType := .request, method, uri, msgHdrs } ++ next :: rest := by
      rw [text, List.append_assoc]
      exact dropWhile_isspace_name listed _
    have starts : startsRequest ((headerText { msgType := .request, method, uri, msgHdrs } ++
        next :: rest).dropWhile isspace) = true := by
      rw [trimmed, text, List.append_assoc]
      exact startsRequest_name listed _
    rw [← trimmed] at ran
    have result := @initFromBuf_of_request { stale, realloc } _ { obj := old, error } chunked starts
      _ _ ran noEvent
    rw [result, Option.map_some, used]
  · -- a response
    have ran := parseResponseHeader_headerText nonneg small safe.msgHdrs short noEvent suffix
    have text := headerText_response msgHdrs code
    obtain ⟨trimmed, other, starts⟩ :=
      statusLineText_starts code (hdrsText msgHdrs ++ (crlf ++ suffix))
    rw [← List.append_assoc, ← List.append_assoc, ← text] at trimmed other starts
    rw [← trimmed] at ran other starts
    have notChunked := plain rfl
    have result := @initFromBuf_of_response { stale, realloc } _ { obj := old, error } chunked other
      starts _ _ ran noEvent fun _ => notChunked
    rw [result, Option.map_some, used]

/-- A printed request is read, whatever stands behind it, as long as something does. -/
theorem initFromBuf_printHdr_of_request {http : HTTPFraming} (built : Built http)
    (safe : WireSafe http) (request : http.msgType = .request)
    (fits : (printHdrText false http).length < scratchBufSize) (next : UInt8) (rest stale : Bytes)
    (realloc : Realloc) (old : HTTPFraming) {error : ErrorHandler} (noEvent : error.event = false)
    (chunked : ChunkBuf) :
    initFromBuf { stale, realloc } (printHdr 0 false http ++ next :: rest) { obj := old, error }
        chunked =
      { bytesUsed := some (printHdr 0 false http).length
        exec := { obj := http, error }
        chunked } := by
  obtain ⟨printed, short⟩ := built.printHdr_eq safe fits
  rw [printed]
  rcases built.kind with ⟨method, listed, uri, msgHdrs, rfl⟩ | ⟨code, -, -, msgHdrs, rfl⟩
  · have ran := parseRequestHdr_headerText error listed
      (safe.uri (requestMethod_ne_null listed)) safe.msgHdrs short stale next rest
    have text := headerText_request uri msgHdrs listed
    have trimmed : (headerText { msgType := .request, method, uri, msgHdrs } ++
        next :: rest).dropWhile isspace =
        headerText { msgType := .request, method, uri, msgHdrs } ++ next :: rest := by
      rw [text, List.append_assoc]
      exact dropWhile_isspace_name listed _
    have starts : startsRequest ((headerText { msgType := .request, method, uri, msgHdrs } ++
        next :: rest).dropWhile isspace) = true := by
      rw [trimmed, text, List.append_assoc]
      exact startsRequest_name listed _
    rw [← trimmed] at ran
    rw [@initFromBuf_of_request { stale, realloc } _ { obj := old, error } chunked starts
      _ _ ran noEvent, Option.map_some, List.length_append, Nat.add_sub_cancel]
  · cases request

/-- A printed response is read, whatever stands behind it. -/
theorem initFromBuf_printHdr_of_response {http : HTTPFraming} (built : Built http)
    (safe : WireSafe http) (response : http.msgType = .response) (plain : http.isChunked = false)
    (fits : (printHdrText false http).length < scratchBufSize) (rest stale : Bytes)
    (realloc : Realloc) (old : HTTPFraming) {error : ErrorHandler} (noEvent : error.event = false)
    (chunked : ChunkBuf) :
    initFromBuf { stale, realloc } (printHdr 0 false http ++ rest) { obj := old, error } chunked =
      { bytesUsed := some (printHdr 0 false http).length
        exec := { obj := http, error }
        chunked } := by
  obtain ⟨printed, short⟩ := built.printHdr_eq safe fits
  rw [printed]
  rcases built.kind with ⟨method, listed, uri, msgHdrs, rfl⟩ | ⟨code, nonneg, small, msgHdrs, rfl⟩
  · cases response
  · have ran := parseResponseHeader_headerText nonneg small safe.msgHdrs short noEvent rest
    have text := headerText_response msgHdrs code
    obtain ⟨trimmed, other, starts⟩ :=
      statusLineText_starts code (hdrsText msgHdrs ++ (crlf ++ rest))
    rw [← List.append_assoc, ← List.append_assoc, ← text] at trimmed other starts
    rw [← trimmed] at ran other starts
    rw [@initFromBuf_of_response { stale, realloc } _ { obj := old, error } chunked other
      starts _ _ ran noEvent fun _ => plain, Option.map_some, List.length_append,
      Nat.add_sub_cancel]

/-- A request with a query and a field with a parameter. -/
def sampleRequest : HTTPFraming :=
  (appendField (some (ascii "A")) (some (ascii "b")) (some (ascii "k")) (some (ascii "v"))
    (initRequest .get
      { scheme := ascii "http", host := ascii "h", port := 80, path := ascii "p"
        query := [{ key := ascii "q", value := ascii "r" }] } {}) {}).1

theorem sampleRequest_built : Built sampleRequest :=
  .appendField (.initRequest (by decide) _ _) _ _ _ _ (by decide)

theorem sampleRequest_safe : WireSafe sampleRequest where
  uri _ :=
    { scheme_ne_nil := by decide, host_ne_nil := by decide, path_ne_nil := by decide
      scheme := by decide +kernel, host := by decide +kernel, path := by decide +kernel
      keys := by decide +kernel, values := by decide +kernel, fragment := by decide +kernel }
  msgHdrs := List.forall_mem_singleton.mpr
    { fieldName_head := ⟨_, _, rfl, by decide⟩, fieldValue_head := ⟨_, _, rfl, by decide⟩
      fieldName := by decide +kernel, fieldValue := by decide +kernel
      parameters := List.forall_mem_singleton.mpr
        { key_head := ⟨_, _, rfl, by decide⟩, value_head := ⟨_, _, rfl, by decide⟩
          key := by decide +kernel, value := by decide +kernel } }

theorem initFromBuf_printHdr_sample :
    initFromBuf { stale := [], realloc := fun _ _ => none }
        (printHdr 0 false sampleRequest ++ ascii "P") { obj := {}, error := {} } ⟨none, 0⟩ =
      { bytesUsed := some (printHdr 0 false sampleRequest).length
        exec := { obj := sampleRequest, error := {} }
        chunked := ⟨none, 0⟩ } :=
  initFromBuf_printHdr sampleRequest_built sampleRequest_safe (by decide) (by decide +kernel)
    (by decide) [] _ {} rfl _

end HTTPFraming

end IpUtils
