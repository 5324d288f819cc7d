import IpUtils.HTTP.RoundTrip

/-! # A header that has only partly arrived

`InitFromBuf` on the first bytes of a printed header. It never accepts them. For a
response it never raises an error either; for a request it does when the bytes end
inside the URI and the query that is there so far ends in a key without its delimiter.
-/

namespace IpUtils

open CLib Scanner

namespace HTTPFraming

/-- The bytes end inside the URI of a request, and the last key of its query is not
followed by a delimiter yet. Fewer than 16 bytes are not looked at. -/
def cutsQueryKey (window : Bytes) : Bool :=
  decide (16 ≤ window.length) && (uriBytes window).all (fun c => !isspace c) &&
    (URL.splitPairs (URL.querySoFar (uriBytes window))).isNone

variable {method : HTTPMethod} {uri : URL} {msgHdrs : List Rfc822MsgHdr} {exec : Exec HTTPFraming}
  {window : Bytes}

/-- A parser that needs another byte makes a part that uses up the window stop. -/
theorem onUri_bind_of_exhausts {body : Parse URL Unit} {raises : Bool}
    (exhausts : Exhausts body window
      { obj := exec.obj.uri, error := exec.error, overrun := exec.overrun } raises) :
    ∃ exec', (onUri body >>= fun _ => requestTail) window exec = (none, exec') ∧
      exec'.error.event = (exec.error.event || raises) := by
  cases outcome : body window
      { obj := exec.obj.uri, error := exec.error, overrun := exec.overrun } with
  | mk reply url =>
      have event := exhausts.event
      rw [outcome] at event
      have here : onUri body window exec = (reply,
          { obj := { exec.obj with uri := url.obj }, error := url.error,
            overrun := url.overrun }) := by
        simp only [onUri, Scanner.zoom, outcome]
      cases reply with
      | none => exact ⟨_, bind_of_none here, event⟩
      | some delivered =>
          obtain ⟨value, rest⟩ := delivered
          obtain rfl := exhausts.drained outcome
          exact ⟨_, bind_of_some here, event⟩

/-- From the first byte of the URI on, a cut request waits for more, after the error that
the query may have raised. -/
theorem parseFromUri_of_part (safe : uri.WireSafe)
    (hdrs : ∀ msgHdr ∈ msgHdrs, WireSafeHdr msgHdr)
    (fits : (uri.uriText ++ requestTailText msgHdrs).length < scratchBufSize)
    (within : window <+: uri.uriText ++ requestTailText msgHdrs) (stale : Bytes)
    (fresh : exec.obj.uri = {}) (calm : exec.overrun = false) :
    ∃ exec', parseFromUri urlPortNull (URL.schemeAhead (window ++ stale)) window exec =
        (none, exec') ∧
      exec'.error.event = (exec.error.event ||
        (window.all (fun c => !isspace c) && (URL.splitPairs (URL.querySoFar window)).isNone &&
          (URL.schemeAhead (window ++ stale) == URL.schemeAhead window))) := by
  have uriFits : uri.uriText.length < URL.kURLMaxSize := by
    rw [List.length_append] at fits
    simp only [URL.kURLMaxSize, scratchBufSize] at fits ⊢
    omega
  rw [parseFromUri_eq]
  rcases prefix_append_cases within with inside | ⟨more, rfl, beyond⟩
  · have noSpace : window.all (fun c => !isspace c) = true :=
      List.all_eq_true.mpr fun c member => by
        simp [(URL.isUrlByte_iff.mp (safe.urlBytes c (inside.subset member))).2]
    rw [noSpace, Bool.true_and, Bool.and_comm]
    exact onUri_bind_of_exhausts (URL.exhausts_parseParts safe uriFits inside urlPortNull stale)
  · cases more with
    | nil =>
        rw [List.append_nil]
        have noSpace : uri.uriText.all (fun c => !isspace c) = true :=
          List.all_eq_true.mpr fun c member => by
            simp [(URL.isUrlByte_iff.mp (safe.urlBytes c member)).2]
        rw [noSpace, Bool.true_and, Bool.and_comm]
        exact onUri_bind_of_exhausts
          (URL.exhausts_parseParts safe uriFits List.prefix_rfl urlPortNull stale)
    | cons c more =>
        obtain rfl : c = 32 := (List.cons_prefix_cons.mp beyond).1
        have space : (uri.uriText ++ 32 :: more).all (fun c => !isspace c) = false := by
          rw [List.all_append, List.all_cons]
          simp [isspace]
        have tailFits : (hdrsText msgHdrs).length < scratchBufSize := by
          simp only [requestTailText, List.length_append, List.length_cons] at fits
          omega
        have waits := (@feeds_requestTail exec.error
          { exec with obj := { exec.obj with uri } } 0 msgHdrs hdrs tailFits ⟨rfl, calm⟩).starves
        obtain ⟨stopped, ran, sameError, -⟩ := waits (32 :: more) (List.cons_ne_nil _ _) beyond
        refine ⟨stopped, ?_, ?_⟩
        · rw [List.append_assoc, schemeAhead_uriText safe,
            bind_of_some (onUri_parseParts safe uriFits fresh more)]
          exact ran
        · rw [sameError, space, Bool.false_and, Bool.false_and, Bool.or_false]

/-- A prefix of a text that starts with a word is a part of the word or reaches behind it. -/
theorem prefix_word_cases {word text : Bytes} (within : window <+: word ++ text) :
    (∃ count < word.length, window = word.take count) ∨
      ∃ rest, window = word ++ rest ∧ rest <+: text := by
  rcases prefix_append_cases within with inside | beyond
  · by_cases whole : window = word
    · exact .inr ⟨[], by rw [whole, List.append_nil], List.nil_prefix⟩
    · refine .inl ⟨window.length, ?_, List.prefix_iff_eq_take.mp inside⟩
      exact Nat.lt_of_le_of_ne inside.length_le fun same => whole (inside.eq_of_length same)
  · exact .inr beyond

variable {env : ParseEnv} {chunked : ChunkBuf} {exec' : Exec HTTPFraming}

/-- A request that is not accepted. -/
theorem initFromBuf_of_request_none (starts : startsRequest (window.dropWhile isspace) = true)
    (ran : parseRequestHdr env.stale env.defaultPort (window.dropWhile isspace)
      { exec with obj := {} } = (none, exec')) :
    (initFromBuf env window exec chunked).bytesUsed = none ∧
      (initFromBuf env window exec chunked).exec.error.event = exec'.error.event := by
  simp only [initFromBuf, parseStartLine, clear, starts, Bool.true_or, ↓reduceIte, ran,
    Option.map_none]
  split
  · rename_i raised
    exact ⟨rfl, by rw [ErrorHandler.event_appendMsg, raised]⟩
  · exact ⟨rfl, rfl⟩

/-- Few bytes that start neither a request nor a response. -/
theorem initFromBuf_of_neither (other : startsRequest (window.dropWhile isspace) = false)
    (neither : startsResponse (window.dropWhile isspace) = false)
    (short : (window.dropWhile isspace).length < 6) :
    initFromBuf env window exec chunked =
      { bytesUsed := none, exec := { exec with obj := {} }, chunked } := by
  have few : ¬ (ascii "DELETE").length ≤ (window.dropWhile isspace).length :=
    Nat.not_le.mpr short
  simp only [initFromBuf, other, neither, Bool.or_self, Bool.false_eq_true, ↓reduceIte,
    if_neg few, clear]

theorem cutsQueryKey_of_short (short : window.length < 16) : cutsQueryKey window = false := by
  simp only [cutsQueryKey, decide_eq_false (Nat.not_le.mpr short), Bool.false_and]

/-- A part of a method's name is not enough to tell. -/
theorem part_of_method : ∀ method ∈ requestMethods, ∀ count < method.name.length,
    (method.name.take count).dropWhile isspace = method.name.take count ∧
      startsRequest (method.name.take count) = false ∧
      startsResponse (method.name.take count) = false ∧
      (method.name.take count).length < 6 := by
  decide

/-- What `InitFromBuf` makes of the first bytes of a request. -/
theorem initFromBuf_of_request_part (listed : method ∈ requestMethods) (safe : uri.WireSafe)
    (hdrs : ∀ msgHdr ∈ msgHdrs, WireSafeHdr msgHdr)
    (fits : (headerText { msgType := .request, method, uri, msgHdrs }).length < scratchBufSize)
    (within : window <+: headerText { msgType := .request, method, uri, msgHdrs })
    (stale : Bytes) (realloc : Realloc) (old : HTTPFraming) {error : ErrorHandler}
    (noEvent : error.event = false) (chunked : ChunkBuf) :
    (initFromBuf { stale, realloc } window { obj := old, error } chunked).bytesUsed = none ∧
      (initFromBuf { stale, realloc } window { obj := old, error } chunked).exec.error.event =
        (cutsQueryKey window && (URL.schemeAhead (uriBytes window ++ stale) ==
          URL.schemeAhead (uriBytes window))) := by
  rw [headerText_request _ _ listed] at fits within
  rcases prefix_word_cases within with ⟨count, short, rfl⟩ | ⟨rest, rfl, behind⟩
  · obtain ⟨trimmed, other, neither, few⟩ := part_of_method method listed count short
    rw [cutsQueryKey_of_short (by omega), Bool.false_and,
      initFromBuf_of_neither (by rw [trimmed, other]) (by rw [trimmed, neither])
        (by rw [trimmed]; exact few)]
    exact ⟨rfl, noEvent⟩
  · have trimmed := dropWhile_isspace_name listed rest
    have starts : startsRequest ((method.name ++ rest).dropWhile isspace) = true := by
      rw [trimmed]
      exact startsRequest_name listed rest
    by_cases few : (method.name ++ rest).length < 16
    · have ran := parseRequestHdr_apply trimmed stale urlPortNull { obj := {}, error }
      rw [if_pos few, ← trimmed] at ran
      have result := @initFromBuf_of_request_none { obj := old, error } _ { stale, realloc } chunked
        _ starts ran
      rw [cutsQueryKey_of_short few, Bool.false_and]
      exact ⟨result.1, result.2.trans noEvent⟩
    · -- the first byte of the URI is there
      have nameShort : method.name.length ≤ 6 :=
        (show ∀ method ∈ requestMethods, method.name.length ≤ 6 by decide) method listed
      rw [List.length_append] at few
      obtain ⟨c, uriRest, shape, solid, -⟩ := uriText_cons safe
      match rest with
      | [] | [_] =>
          simp only [List.length_cons, List.length_nil] at few
          omega
      | space :: first :: more =>
          obtain ⟨rfl, inner⟩ := List.cons_prefix_cons.mp behind
          rw [shape, List.cons_append] at inner
          obtain ⟨rfl, -⟩ := List.cons_prefix_cons.mp inner
          rw [List.cons_prefix_cons] at behind
          have uriFits : (uri.uriText ++ requestTailText msgHdrs).length < scratchBufSize := by
            simp only [List.length_append, List.length_cons] at fits ⊢
            omega
          obtain ⟨stopped, ran, event⟩ := @parseFromUri_of_part uri msgHdrs
            { obj := { method }, error } _ safe hdrs uriFits behind.2 stale rfl rfl
          have enough : 16 ≤ (method.name ++ 32 :: first :: more).length := by
            rw [List.length_append]
            omega
          have whole := parseRequestHdr_from_uri { obj := {}, error } listed solid enough
            stale urlPortNull
          have bytes := (parseBeforeUri_apply { obj := {}, error } listed solid more).2
          rw [ran, ← trimmed] at whole
          have result := @initFromBuf_of_request_none { obj := old, error } _ { stale, realloc }
            chunked _ starts whole
          refine ⟨result.1, result.2.trans (event.trans ?_)⟩
          rw [cutsQueryKey, decide_eq_true enough, Bool.true_and, bytes, noEvent, Bool.false_or]

/-! ## Responses -/

theorem parseEmptyLine_starves {quiet : Exec HTTPFraming → Prop}
    (calm : quiet (clearHdrs exec)) : Starves parseEmptyLine [13] exec quiet := by
  intro window inhabited front
  obtain ⟨first, rest, rfl⟩ := List.exists_cons_of_ne_nil inhabited
  obtain ⟨rfl, empty⟩ := List.cons_prefix_cons.mp front
  rw [List.prefix_nil.mp empty]
  exact ⟨clearHdrs exec, rfl, calm⟩

/-- A part of `HTTP/` is not enough to tell. -/
theorem part_of_slash : ∀ count < kHTTPSlash.length,
    (kHTTPSlash.take count).dropWhile isspace = kHTTPSlash.take count ∧
      startsRequest (kHTTPSlash.take count) = false ∧
      startsResponse (kHTTPSlash.take count) = false ∧
      (kHTTPSlash.take count).length < 6 := by
  decide

/-- `InitFromBuf` waits for more on a response that is not complete. -/
theorem initFromBuf_of_response_part {statusCode : Int} (nonneg : 0 ≤ statusCode)
    (small : statusCode < 2 ^ 31) (hdrs : ∀ msgHdr ∈ msgHdrs, WireSafeHdr msgHdr)
    (fits : (headerText { msgType := .response, statusCode, msgHdrs }).length < scratchBufSize)
    (within : window <+: headerText { msgType := .response, statusCode, msgHdrs })
    (proper : window ≠ headerText { msgType := .response, statusCode, msgHdrs })
    (env : ParseEnv) (old : HTTPFraming) {error : ErrorHandler} (noEvent : error.event = false)
    (chunked : ChunkBuf) :
    ∃ exec', initFromBuf env window { obj := old, error } chunked =
        { bytesUsed := none, exec := exec', chunked } ∧ exec'.error = error := by
  have text := headerText_response msgHdrs statusCode
  rw [text] at fits within proper
  simp only [statusLineText, List.length_append, List.length_cons] at fits
  have front := @feeds_responseFront error { obj := {}, error } msgHdrs _ nonneg small hdrs
    (by omega) noEvent ⟨rfl, rfl⟩
  have last : Starves parseEmptyLine [13] { obj := { statusCode, msgHdrs }, error } (Quiet error) :=
    parseEmptyLine_starves ⟨rfl, rfl⟩
  have read : Reads responseFront (statusLineText statusCode ++ hdrsText msgHdrs)
      (([13] : Bytes).headD 13) { obj := {}, error } ()
      { obj := { statusCode, msgHdrs }, error } := front.reads
  have waits : Starves parseResponseHeader (statusLineText statusCode ++ hdrsText msgHdrs ++ [13])
      { obj := {}, error } (Quiet error) := by
    rw [parseResponseHeader_eq]
    exact Starves.bind read front.starves last
  -- the last byte is missing
  have cut : window <+: statusLineText statusCode ++ hdrsText msgHdrs ++ [13] := by
    have whole : statusLineText statusCode ++ hdrsText msgHdrs ++ crlf =
        statusLineText statusCode ++ hdrsText msgHdrs ++ [13] ++ [10] := by
      simp [crlf]
    rw [whole] at within proper
    exact (List.prefix_concat_iff.mp within).resolve_left proper
  have slash : statusLineText statusCode ++ hdrsText msgHdrs ++ crlf = kHTTPSlash ++
      (ascii "1.1" ++ 32 :: (printInt statusCode ++ 32 :: (statusCodePhrase statusCode ++ crlf)) ++
        hdrsText msgHdrs ++ crlf) := by
    simp [statusLineText, versionText, kHTTPSlash, ascii]
  rw [slash] at within
  rcases prefix_word_cases within with ⟨count, short, rfl⟩ | ⟨rest, rfl, -⟩
  · obtain ⟨trimmed, other, neither, few⟩ := part_of_slash count short
    rw [initFromBuf_of_neither (by rw [trimmed, other]) (by rw [trimmed, neither])
      (by rw [trimmed]; exact few)]
    exact ⟨_, rfl, rfl⟩
  · obtain ⟨stopped, ran, sameError, -⟩ := waits (kHTTPSlash ++ rest) (by simp [kHTTPSlash, ascii]) cut
    have result := @initFromBuf_of_response env (kHTTPSlash ++ rest) { obj := old, error } chunked
      rfl rfl _ _ ran (by rw [sameError, noEvent]) (fun some_ => by cases some_)
    exact ⟨stopped, result, sameError⟩

end HTTPFraming

end IpUtils
