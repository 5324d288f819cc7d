import IpUtils.HTTP.Locality

/-! # What stands behind a header

A header that has been accepted is read again with other bytes behind it: with more
bytes, or with none. More bytes change a request exactly when they make `strchr` find
a scheme that the request itself does not have. Without the bytes behind it, a
response is still accepted and a request never is.
-/

namespace IpUtils

open CLib Scanner

namespace HTTPFraming

theorem startsRequest_append {window : Bytes} (long : 6 ≤ window.length) (more : Bytes) :
    startsRequest (window ++ more) = startsRequest window := by
  have short : ∀ method ∈ requestMethods, method.name.length ≤ 6 := by decide
  rw [startsRequest, startsRequest, Bool.eq_iff_iff, List.any_eq_true, List.any_eq_true]
  refine exists_congr fun method => and_congr_right fun member => ?_
  rw [startsWithNoCase_append (Nat.le_trans (short method member) long)]

theorem startsResponse_append {window : Bytes} (long : 6 ≤ window.length) (more : Bytes) :
    startsResponse (window ++ more) = startsResponse window :=
  startsWithNoCase_append (Nat.le_trans (by decide) long) more

/-- No start line is that of a request and that of a response. -/
theorem startsResponse_eq_false {window : Bytes} (starts : startsRequest window = true) :
    startsResponse window = false := by
  by_contra other
  have response : startsWithNoCase kHTTPSlash window = true := by simpa [startsResponse] using other
  obtain ⟨method, member, begins⟩ := List.any_eq_true.mp starts
  -- the first two letters tell the methods from `HTTP/`
  have long : ∀ method ∈ requestMethods, 2 ≤ method.name.length := by decide
  have differs : ∀ method ∈ requestMethods,
      (kHTTPSlash.take 2).map tolower ≠ (method.name.take 2).map tolower := by decide
  exact differs method member
    ((map_take_of_startsWithNoCase response (by decide)).symm.trans
      (map_take_of_startsWithNoCase begins (long method member)))

/-- Bytes that are not all white space start at the same place when more follow. -/
theorem dropWhile_isspace_append {buf : Bytes} (inhabited : buf.dropWhile isspace ≠ [])
    (more : Bytes) : (buf ++ more).dropWhile isspace = buf.dropWhile isspace ++ more := by
  rw [List.dropWhile_append, if_neg (by simpa using inhabited)]

/-- A response header starts with `HTTP/` and another byte. -/
theorem six_le_length_of_parseResponseHeader {window rest : Bytes} {exec exec' : Exec HTTPFraming}
    (trimmed : window.dropWhile isspace = window)
    (ran : parseResponseHeader window exec = (some ((), rest), exec')) : 6 ≤ window.length := by
  obtain ⟨_, window₁, exec₁, skipped, header⟩ := bind_eq_some ran
  obtain ⟨rfl, rfl⟩ := skipWhile_eq_some skipped
  obtain ⟨_, window₂, exec₂, status, -⟩ := bind_eq_some header
  obtain ⟨_, window₃, exec₃, version, -⟩ := bind_eq_some status
  obtain ⟨_, window₄, exec₄, slash, -⟩ := bind_eq_some version
  simp only [trimmed, Parse.keyword, bind_apply, Scanner.lookahead] at slash
  split at slash
  · obtain ⟨_, window₅, exec₅, moved, -⟩ := bind_eq_some slash
    exact (advanceBy_eq_some moved).2.2
  · cases slash

/-! ## More bytes -/

/-- The request has no scheme ahead of its URI, and with `more` behind it there is one. -/
def SchemeBehind (buf stale more stale' : Bytes) : Prop :=
  startsRequest (buf.dropWhile isspace) = true ∧
    URL.schemeAhead (uriBytes (buf.dropWhile isspace) ++ stale) = false ∧
    URL.schemeAhead (uriBytes (buf.dropWhile isspace) ++ more ++ stale') = true

instance (buf stale more stale' : Bytes) : Decidable (SchemeBehind buf stale more stale') :=
  inferInstanceAs (Decidable (_ ∧ _ ∧ _))

/-- The header that has been read, its end and the absence of an error event. -/
def AcceptsHeader (result : ParseResult) (used : Nat) (header : HTTPFraming) : Prop :=
  result.bytesUsed = some used ∧ result.exec.error.event = false ∧ result.exec.obj = header

instance (result : ParseResult) (used : Nat) (header : HTTPFraming) :
    Decidable (AcceptsHeader result used header) :=
  inferInstanceAs (Decidable (_ ∧ _ ∧ _))

variable {env : ParseEnv} {buf : Bytes} {exec : Exec HTTPFraming} {chunked : ChunkBuf} {used : Nat}

theorem length_append_sub_length_append (buf rest more : Bytes) :
    (buf ++ more).length - (rest ++ more).length = buf.length - rest.length := by
  simp only [List.length_append]
  omega

/-- An accepted response is read the same with more bytes behind it. -/
theorem acceptsHeader_append_of_response
    (other : startsRequest (buf.dropWhile isspace) = false)
    (accepted : (initFromBuf env buf exec chunked).bytesUsed = some used)
    (plain : (initFromBuf env buf exec chunked).exec.obj.isChunked = false)
    (more stale' : Bytes) :
    AcceptsHeader (initFromBuf { env with stale := stale' } (buf ++ more) exec chunked) used
      (initFromBuf env buf exec chunked).exec.obj := by
  obtain ⟨starts, rest, exec', ran, quiet, notChunked, rfl, same⟩ :=
    initFromBuf_response_eq_some other accepted plain
  have long := six_le_length_of_parseResponseHeader (List.dropWhile_idempotent _ _) ran
  have inhabited : buf.dropWhile isspace ≠ [] := by
    intro empty
    simp [empty] at long
  have shifted := dropWhile_isspace_append inhabited more
  have again := parseResponseHeader_closed.extend ran more
  rw [← shifted] at again
  have result := initFromBuf_of_response { env with stale := stale' } chunked
    (by rw [shifted, startsRequest_append long, other])
    (by rw [shifted, startsResponse_append long, starts]) again quiet (fun _ => notChunked)
  rw [result, same]
  refine ⟨?_, quiet, rfl⟩
  simp only [Option.map_some, length_append_sub_length_append]

/-- The bytes from the URI on get longer with the window. -/
theorem uriBytes_append {window : Bytes} {exec exec₁ : Exec HTTPFraming}
    (ran : parseBeforeUri window exec = (some ((), uriBytes window), exec₁)) (more : Bytes) :
    uriBytes (window ++ more) = uriBytes window ++ more ∧
      parseBeforeUri (window ++ more) exec = (some ((), uriBytes (window ++ more)), exec₁) := by
  have again := parseBeforeUri_local.extend ran (parseBeforeUri_eq_some ran).2.1 more
  have same := (parseBeforeUri_eq_some again).1
  exact ⟨same.symm, same ▸ again⟩

/-- An accepted request is read the same with more bytes behind it, unless they make
up a scheme for it. -/
theorem acceptsHeader_append_of_request (starts : startsRequest (buf.dropWhile isspace) = true)
    (accepted : (initFromBuf env buf exec chunked).bytesUsed = some used)
    (more stale' : Bytes) :
    AcceptsHeader (initFromBuf { env with stale := stale' } (buf ++ more) exec chunked) used
      (initFromBuf env buf exec chunked).exec.obj ↔ ¬ SchemeBehind buf env.stale more stale' := by
  obtain ⟨rest, exec', ran, quiet, rfl, same⟩ := initFromBuf_request_eq_some starts accepted
  have trimmed := List.dropWhile_idempotent isspace buf
  obtain ⟨long, exec₁, start, finish⟩ := (parseRequestHdr_eq_some_iff trimmed).mp ran
  have inhabited : buf.dropWhile isspace ≠ [] := by
    intro empty
    simp [empty] at long
  have shifted := dropWhile_isspace_append inhabited more
  have trimmed' := List.dropWhile_idempotent isspace (buf ++ more)
  have starts' : startsRequest ((buf ++ more).dropWhile isspace) = true := by
    rw [shifted, startsRequest_append (by omega), starts]
  obtain ⟨longer, start'⟩ := uriBytes_append start more
  rw [← shifted] at longer start'
  have long' : 16 ≤ ((buf ++ more).dropWhile isspace).length := by
    rw [shifted, List.length_append]
    omega
  rw [same]
  by_cases agree : URL.schemeAhead (uriBytes (buf.dropWhile isspace) ++ env.stale) =
      URL.schemeAhead (uriBytes (buf.dropWhile isspace) ++ more ++ stale')
  · -- the same search for a scheme, so the parser is local
    refine iff_of_true ?_ fun behind => ?_
    · have finish' := (parseFromUri_local _ _).extend finish (parseFromUri_rest_ne_nil finish) more
      rw [agree, ← longer] at finish'
      have result := initFromBuf_of_request { env with stale := stale' } chunked starts'
        ((parseRequestHdr_eq_some_iff trimmed').mpr ⟨long', exec₁, start', finish'⟩) quiet
      rw [result]
      refine ⟨?_, quiet, rfl⟩
      simp only [Option.map_some, length_append_sub_length_append]
    · rw [behind.2.1, behind.2.2] at agree
      cases agree
  · have undecided : URL.schemeDecided (uriBytes (buf.dropWhile isspace)) ≠ true := by
      intro decided
      rw [List.append_assoc] at agree
      exact agree ((URL.schemeAhead_append_of_decided decided _).trans
        (URL.schemeAhead_append_of_decided decided _).symm)
    cases ahead : URL.schemeAhead (uriBytes (buf.dropWhile isspace) ++ env.stale) with
    | true =>
        rw [ahead] at finish
        exact absurd (schemeDecided_of_parseFromUri finish) undecided
    | false =>
        have behind : URL.schemeAhead (uriBytes (buf.dropWhile isspace) ++ more ++ stale') = true := by
          cases found : URL.schemeAhead (uriBytes (buf.dropWhile isspace) ++ more ++ stale') with
          | true => rfl
          | false => exact absurd (ahead.trans found.symm) agree
        refine iff_of_false ?_ fun never => never ⟨starts, ahead, behind⟩
        -- the first reading has no scheme, the second one would have one
        rintro ⟨accepted', -, sameHeader⟩
        obtain ⟨rest', exec'', ran', -, -, same'⟩ := initFromBuf_request_eq_some starts' accepted'
        obtain ⟨-, exec₂, start'', finish''⟩ := (parseRequestHdr_eq_some_iff trimmed').mp ran'
        obtain ⟨c, front, shape, inside⟩ := exists_head_of_not_decided finish undecided
        rw [ahead] at finish
        rw [longer, behind, shape] at finish''
        have without := parseFromUri_scheme_eq_nil
          (by rw [(parseBeforeUri_eq_some start).2.2]) finish
        have with_ := parseFromUri_scheme_ne_nil inside finish''
        rw [same'] at sameHeader
        rw [sameHeader] at with_
        exact with_ without

/-- An accepted header that is not chunked is read the same, and ends at the same
place, with any bytes behind it, except when they give a request without a scheme one. -/
theorem initFromBuf_append_iff (accepted : (initFromBuf env buf exec chunked).bytesUsed = some used)
    (plain : (initFromBuf env buf exec chunked).exec.obj.isChunked = false)
    (more stale' : Bytes) :
    AcceptsHeader (initFromBuf { env with stale := stale' } (buf ++ more) exec chunked) used
      (initFromBuf env buf exec chunked).exec.obj ↔ ¬ SchemeBehind buf env.stale more stale' := by
  cases kind : startsRequest (buf.dropWhile isspace) with
  | true => exact acceptsHeader_append_of_request kind accepted more stale'
  | false =>
      refine iff_of_true (acceptsHeader_append_of_response kind accepted plain more stale') ?_
      intro behind
      rw [behind.1] at kind
      cases kind

/-- `InitFromBuf` on a fresh object, with nothing behind the buffer. -/
def readFresh (buf : Bytes) : ParseResult :=
  initFromBuf { stale := [], realloc := fun _ _ => none } buf { obj := {}, error := {} } ⟨none, 0⟩

/-- A request whose header has a colon of its own keeps its reading. -/
theorem initFromBuf_append_iff_host :
    AcceptsHeader
      (readFresh (ascii "GET /index HTTP/1.1\r\nHost: x\r\n\r\nP" ++
        ascii "OST http://x/ HTTP/1.1\r\n\r\nP")) 32
      (readFresh (ascii "GET /index HTTP/1.1\r\nHost: x\r\n\r\nP")).exec.obj :=
  (@initFromBuf_append_iff { stale := [], realloc := fun _ _ => none }
    (ascii "GET /index HTTP/1.1\r\nHost: x\r\n\r\nP") { obj := {}, error := {} } ⟨none, 0⟩ 32
    (by decide +kernel) (by decide +kernel) (ascii "OST http://x/ HTTP/1.1\r\n\r\nP") []).mpr
    (by decide +kernel)

/-- A request without a colon takes the scheme of the request behind it. -/
theorem initFromBuf_append_pipelined :
    (readFresh (ascii "GET /index HTTP/1.1\r\n\r\nP")).bytesUsed = some 23 ∧
      (readFresh (ascii "GET /index HTTP/1.1\r\n\r\nP")).exec.obj.isChunked = false ∧
      (readFresh (ascii "GET /index HTTP/1.1\r\n\r\nP" ++
        ascii "OST http://x/ HTTP/1.1\r\n\r\nP")).bytesUsed = some 50 ∧
      ¬ AcceptsHeader (readFresh (ascii "GET /index HTTP/1.1\r\n\r\nP" ++
        ascii "OST http://x/ HTTP/1.1\r\n\r\nP")) 23
        (readFresh (ascii "GET /index HTTP/1.1\r\n\r\nP")).exec.obj := by
  decide +kernel

/-! ## No bytes -/

/-- The bytes used are the white space in front and what the parser has read. -/
theorem take_used {front rest : Bytes} (whole : front ++ rest = buf.dropWhile isspace) :
    buf.take (buf.length - rest.length) = buf.takeWhile isspace ++ front := by
  have parts : buf.takeWhile isspace ++ front ++ rest = buf := by
    rw [List.append_assoc, whole, List.takeWhile_append_dropWhile]
  have size : (buf.takeWhile isspace ++ front).length = buf.length - rest.length := by
    have sizes := congrArg List.length parts
    simp only [List.length_append] at sizes ⊢
    omega
  calc buf.take (buf.length - rest.length)
      = (buf.takeWhile isspace ++ front ++ rest).take (buf.takeWhile isspace ++ front).length := by
        rw [parts, size]
    _ = buf.takeWhile isspace ++ front := List.take_left

theorem dropWhile_isspace_take {front rest : Bytes} (inhabited : front ≠ [])
    (whole : front ++ rest = buf.dropWhile isspace) :
    (buf.takeWhile isspace ++ front).dropWhile isspace = front := by
  obtain ⟨c, behind, rfl⟩ := List.exists_cons_of_ne_nil inhabited
  have head := List.head?_dropWhile_not isspace buf
  rw [← whole, List.cons_append, List.head?_cons] at head
  rw [List.dropWhile_append_of_pos fun c member => List.mem_takeWhile_imp member,
    List.dropWhile_cons_of_neg (by simpa using head)]

/-- A response is accepted as soon as its last byte is there. -/
theorem acceptsHeader_take_of_response
    (other : startsRequest (buf.dropWhile isspace) = false)
    (accepted : (initFromBuf env buf exec chunked).bytesUsed = some used)
    (plain : (initFromBuf env buf exec chunked).exec.obj.isChunked = false) (stale' : Bytes) :
    AcceptsHeader (initFromBuf { env with stale := stale' } (buf.take used) exec chunked) used
      (initFromBuf env buf exec chunked).exec.obj := by
  obtain ⟨starts, rest, exec', ran, quiet, notChunked, rfl, same⟩ :=
    initFromBuf_response_eq_some other accepted plain
  obtain ⟨front, whole⟩ := parseResponseHeader_closed.suffix ran
  have trimmed := List.dropWhile_idempotent isspace buf
  have size := congrArg List.length whole
  have read := parseResponseHeader_closed.reads ran
  have inhabited : front ≠ [] := by
    rintro rfl
    simp only [List.nil_append] at size
    omega
  have cut := dropWhile_isspace_take inhabited whole
  rw [take_used whole]
  rw [← whole] at ran other starts
  have short := parseResponseHeader_closed.cut ran
  have frontTrimmed : front.dropWhile isspace = front := by
    have := List.dropWhile_idempotent isspace (buf.takeWhile isspace ++ front)
    rwa [cut] at this
  have long := six_le_length_of_parseResponseHeader frontTrimmed short
  rw [startsRequest_append long] at other
  rw [startsResponse_append long] at starts
  rw [← cut] at other starts short
  have result := initFromBuf_of_response { env with stale := stale' } chunked
    other starts short quiet (fun _ => notChunked)
  rw [result, same]
  refine ⟨?_, quiet, rfl⟩
  have cutLength := congrArg List.length (take_used whole)
  rw [List.length_take, Nat.min_eq_left (Nat.sub_le _ _)] at cutLength
  simp only [Option.map_some, List.length_nil, Nat.sub_zero, ← cutLength]

/-- Only what starts like a request or like a response is accepted. -/
theorem startsRequest_or_startsResponse
    (accepted : (initFromBuf env buf exec chunked).bytesUsed = some used) :
    startsRequest (buf.dropWhile isspace) = true ∨ startsResponse (buf.dropWhile isspace) = true := by
  by_contra neither
  simp only [not_or, Bool.not_eq_true] at neither
  simp only [initFromBuf, neither.1, neither.2, Bool.or_self, Bool.false_eq_true, ↓reduceIte]
    at accepted
  split at accepted
  · cases accepted
  · cases accepted

/-- A request is not accepted without a byte behind it. -/
theorem bytesUsed_take_of_request (starts : startsRequest (buf.dropWhile isspace) = true)
    (stale' : Bytes) (used : Nat) :
    (initFromBuf { env with stale := stale' } (buf.take used) exec chunked).bytesUsed ≠ some used := by
  intro accepted
  cases kind : startsRequest ((buf.take used).dropWhile isspace) with
  | true =>
      obtain ⟨rest, exec', ran, -, sizes, -⟩ := initFromBuf_request_eq_some kind accepted
      have trimmed := List.dropWhile_idempotent isspace (buf.take used)
      obtain ⟨-, exec₁, start, finish⟩ := (parseRequestHdr_eq_some_iff trimmed).mp ran
      have left := List.length_pos_iff.mpr (parseFromUri_rest_ne_nil finish)
      have inner := (parseRequestHdr_suffix trimmed ran).length_le
      have outer := (List.dropWhile_suffix isspace (l := buf.take used)).length_le
      have cut := List.length_take_le used buf
      omega
  | false =>
      have response := (startsRequest_or_startsResponse accepted).resolve_left (by simp [kind])
      have inhabited : (buf.take used).dropWhile isspace ≠ [] := by
        intro empty
        rw [empty] at response
        cases response
      have whole := dropWhile_isspace_append inhabited (buf.drop used)
      rw [List.take_append_drop] at whole
      have never := startsResponse_eq_false starts
      rw [whole, startsResponse,
        startsWithNoCase_append (length_le_of_startsWithNoCase response)] at never
      rw [startsResponse, never] at response
      cases response

/-- On its own bytes alone, an accepted header that is not chunked is accepted again
exactly when it is a response. -/
theorem initFromBuf_take_iff (accepted : (initFromBuf env buf exec chunked).bytesUsed = some used)
    (plain : (initFromBuf env buf exec chunked).exec.obj.isChunked = false) (stale' : Bytes) :
    AcceptsHeader (initFromBuf { env with stale := stale' } (buf.take used) exec chunked) used
      (initFromBuf env buf exec chunked).exec.obj ↔
        startsResponse (buf.dropWhile isspace) = true := by
  cases kind : startsRequest (buf.dropWhile isspace) with
  | true =>
      rw [startsResponse_eq_false kind]
      exact iff_of_false (fun again => bytesUsed_take_of_request kind stale' used again.1) (by simp)
  | false =>
      exact iff_of_true (acceptsHeader_take_of_response kind accepted plain stale')
        ((startsRequest_or_startsResponse accepted).resolve_left (by simp [kind]))

theorem initFromBuf_take_iff_ok :
    AcceptsHeader (readFresh ((ascii "HTTP/1.1 200 OK\r\nA: b\r\n\r\nrest").take 25)) 25
      (readFresh (ascii "HTTP/1.1 200 OK\r\nA: b\r\n\r\nrest")).exec.obj :=
  (@initFromBuf_take_iff { stale := [], realloc := fun _ _ => none }
    (ascii "HTTP/1.1 200 OK\r\nA: b\r\n\r\nrest") { obj := {}, error := {} } ⟨none, 0⟩ 25
    (by decide +kernel) (by decide +kernel) []).mpr (by decide +kernel)

/-- A request that has arrived completely is not accepted. -/
theorem initFromBuf_take_request :
    (readFresh (ascii "GET /index HTTP/1.1\r\n\r\nP")).bytesUsed = some 23 ∧
      (readFresh (ascii "GET /index HTTP/1.1\r\n\r\nP")).exec.obj.isChunked = false ∧
      (readFresh ((ascii "GET /index HTTP/1.1\r\n\r\nP").take 23)).bytesUsed = none := by
  decide +kernel

end HTTPFraming

end IpUtils
