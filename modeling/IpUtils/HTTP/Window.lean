import IpUtils.HTTP.ChunkScan
import IpUtils.HTTP.Locality

/-! # Where the parser leaves its window

Two searches of `InitFromBuf` can run on into the stale bytes behind its window: the one
for a scheme in a request, and the chunk decoder, which is handed the length of the
header instead of what is left of the window. The main result says for which windows
that makes a difference.
-/

namespace IpUtils

open CLib Scanner

namespace HTTPFraming

/-- Whatever stands behind the window, the outcome is the same, and no more than the
window is used. -/
def StaysInWindow (buf : Bytes) (exec : Exec HTTPFraming) : Prop :=
  ∀ (defaultPort : UInt16) (realloc : Realloc) (chunked : ChunkBuf) (stale : Bytes),
    (∀ stale', initFromBuf { stale := stale', defaultPort, realloc } buf exec chunked =
      initFromBuf { stale, defaultPort, realloc } buf exec chunked) ∧
    ∀ used, (initFromBuf { stale, defaultPort, realloc } buf exec chunked).bytesUsed = some used →
      used ≤ buf.length

/-- Behind the method there are a space and the first byte of a URI. -/
def reachesUri (window : Bytes) : Bool :=
  match parsedMethods.find? fun method => startsWithNoCase method.name window with
  | none => false
  | some method =>
      match window.drop method.name.length with
      | 32 :: first :: _ => first != 0 && !(uriBytes window).isEmpty
      | _ => false

/-- The URI of a request has bytes that do not tell whether there is a scheme. With a
colon alone, or a colon and a slash, this does not matter. -/
def searchesBehind (window : Bytes) : Bool :=
  decide (16 ≤ window.length) && reachesUri window && !URL.schemeDecided (uriBytes window) &&
    uriBytes window != ascii ":" && uriBytes window != ascii ":/"

/-- The response is chunked, and the bytes behind its header do not settle the decoder, which
is called with the length of the header. -/
def decodesBehind (window : Bytes) (exec : Exec HTTPFraming) : Bool :=
  match parseResponseHeader window { exec with obj := {} } with
  | (none, _) => false
  | (some (_, rest), exec') =>
      exec'.obj.isChunked && !rest.isEmpty && !chunksSettled rest (window.length - rest.length)

/-- What stands behind the window makes a difference. -/
def readsBehind (buf : Bytes) (exec : Exec HTTPFraming) : Bool :=
  if startsRequest (buf.dropWhile isspace) then searchesBehind (buf.dropWhile isspace)
  else startsResponse (buf.dropWhile isspace) && decodesBehind (buf.dropWhile isspace) exec

/-- The end of `InitFromBuf`, behind `front` bytes of white space. -/
def concluded (front : Nat) (result : ParseResult) : ParseResult :=
  if result.exec.error.event then
    { result with
      bytesUsed := none
      exec := { result.exec with
        error := result.exec.error.appendMsg "HTTPFraming::InitFromBuf(): " [] } }
  else { result with bytesUsed := result.bytesUsed.map fun used => front + used }

section Result

variable {env env' : ParseEnv} {buf window : Bytes} {exec : Exec HTTPFraming} {chunked : ChunkBuf}

theorem initFromBuf_of_starts
    (starts : (startsRequest (buf.dropWhile isspace) || startsResponse (buf.dropWhile isspace)) =
      true) :
    initFromBuf env buf exec chunked =
      concluded (buf.length - (buf.dropWhile isspace).length)
        (parseStartLine env (buf.dropWhile isspace) { exec with obj := {} } chunked) := by
  unfold initFromBuf
  exact if_pos starts

/-- What starts neither a request nor a response is not parsed. -/
theorem initFromBuf_of_not_starts
    (other : (startsRequest (buf.dropWhile isspace) || startsResponse (buf.dropWhile isspace)) =
      false) :
    initFromBuf env buf exec chunked = initFromBuf env' buf exec chunked ∧
      (initFromBuf env buf exec chunked).bytesUsed = none := by
  simp only [initFromBuf, other, Bool.false_eq_true, ↓reduceIte, true_and]
  split <;> rfl

theorem concluded_chunked (front : Nat) (result : ParseResult) :
    (concluded front result).chunked = result.chunked := by
  unfold concluded
  split <;> rfl

theorem concluded_obj (front : Nat) (result : ParseResult) :
    (concluded front result).exec.obj = result.exec.obj := by
  unfold concluded
  split <;> rfl

theorem concluded_bytesUsed {front used : Nat} {result : ParseResult}
    (accepted : (concluded front result).bytesUsed = some used) :
    ∃ inner, result.bytesUsed = some inner ∧ used = front + inner := by
  unfold concluded at accepted
  split at accepted
  · cases accepted
  · obtain ⟨inner, parsed, rfl⟩ := Option.map_eq_some_iff.mp accepted
    exact ⟨inner, parsed, rfl⟩

end Result

/-! ## Requests -/

section Request

variable {window : Bytes} {defaultPort : UInt16} {stale stale' : Bytes} {exec : Exec HTTPFraming}

theorem parseRequestHdr_of_short (trimmed : window.dropWhile isspace = window)
    (short : window.length < 16) (stale : Bytes) :
    parseRequestHdr stale defaultPort window exec = (none, exec) := by
  rw [parseRequestHdr_apply trimmed, if_pos short]

/-- Up to the URI, a request is read without looking ahead. -/
theorem parseRequestHdr_of_start (trimmed : window.dropWhile isspace = window)
    (enough : 16 ≤ window.length) (stale : Bytes) :
    parseRequestHdr stale defaultPort window exec =
      match parseBeforeUri window exec with
      | (none, exec') => (none, exec')
      | (some (_, rest), exec') =>
          parseFromUri defaultPort (URL.schemeAhead (rest ++ stale)) rest exec' := by
  rw [parseRequestHdr_apply trimmed, if_neg (Nat.not_lt.mpr enough),
    parseMethod_bind_parseAfterMethod, bind_apply]
  cases parseBeforeUri window exec with
  | mk reply exec' => cases reply <;> rfl

/-- A request that gets to its URI reaches it. -/
theorem reachesUri_of_some {exec' : Exec HTTPFraming} {rest : Bytes}
    (ran : parseBeforeUri window exec = (some ((), rest), exec')) : reachesUri window = true := by
  have inhabited := (parseBeforeUri_eq_some ran).2.1
  rw [(parseBeforeUri_eq_some ran).1] at inhabited
  obtain ⟨_, afterMethod, exec₁, parsed, ran⟩ := bind_eq_some ran
  obtain ⟨_, afterSpace, exec₂, space, start⟩ := bind_eq_some ran
  obtain ⟨method, found, rfl⟩ := parseMethodFrom_eq_some parsed
  obtain ⟨rfl, rfl, more, here⟩ := Parse.expectStep_eq_some space
  obtain ⟨url, skipped, rfl⟩ := zoom_eq_some start
  obtain ⟨-, -, nonzero, -⟩ := URL.parseStart_eq_some skipped
  have some_ : (uriBytes window).isEmpty = false := by simpa using inhabited
  simp only [reachesUri, found]
  match shape : window.drop method.name.length with
  | [] => simp [shape] at more
  | [c] => simp [shape] at more
  | c :: first :: behind =>
      rw [shape] at here nonzero
      simp only [List.headD_cons, List.tail_cons] at here nonzero
      subst here
      simp [nonzero, some_]

/-- A request that reaches its URI gets to it. -/
theorem parseBeforeUri_of_reachesUri (enough : 16 ≤ window.length)
    (reaches : reachesUri window = true) (exec : Exec HTTPFraming) :
    ∃ exec', parseBeforeUri window exec = (some ((), uriBytes window), exec') := by
  unfold reachesUri at reaches
  split at reaches
  · cases reaches
  · rename_i method found
    have short : method.name.length ≤ 6 :=
      (show ∀ method ∈ parsedMethods, method.name.length ≤ 6 by decide) method
        (List.mem_of_find?_eq_some found)
    have stored := @parseMethodFrom_of_find _ _ _ exec found (by omega)
    split at reaches
    · rename_i first more shape
      simp only [Bool.and_eq_true, bne_iff_ne, ne_eq, Bool.not_eq_true', List.isEmpty_eq_false_iff]
        at reaches
      obtain ⟨nonzero, inhabited⟩ := reaches
      have bytes : uriBytes window = (first :: more).dropWhile isspace := by
        simp only [uriBytes, found, ← List.drop_drop, shape, List.drop_succ_cons, List.drop_zero]
      rw [bytes] at inhabited ⊢
      have start : ∃ url, URL.parseStart (first :: more)
          { obj := exec.obj.uri, error := exec.error, overrun := exec.overrun } =
          (some ((), (first :: more).dropWhile isspace), url) := by
        refine ⟨{ obj := {}, error := exec.error, overrun := exec.overrun }, ?_⟩
        have some_ : ((first :: more).dropWhile isspace).isEmpty = false := by simpa using inhabited
        simp only [URL.parseStart, bind_apply, Parse.assign, Scanner.update, Scanner.current,
          List.headD_cons, if_neg nonzero, Scanner.skip, Scanner.skipWhile, Scanner.need, some_,
          Bool.false_eq_true, ↓reduceIte, URL.clear]
      obtain ⟨url, start⟩ := start
      refine ⟨{ obj := { exec.obj with method, uri := url.obj }, error := url.error,
                overrun := url.overrun }, ?_⟩
      rw [parseBeforeUri, parseMethod, bind_of_some stored, shape,
        bind_of_some (Parse.expectStep_cons 32 _ first)]
      simp only [onUri, Scanner.zoom, start]
    · cases reaches

/-- A colon alone, or a colon and a slash, is read the same with and without a scheme. -/
theorem parseFromUri_of_colon (fresh : exec.obj.uri = {})
    (colon : window = ascii ":" ∨ window = ascii ":/") (hasScheme : Bool) :
    parseFromUri defaultPort hasScheme window exec = (none, exec) := by
  obtain ⟨obj, error, overrun⟩ := exec
  obtain ⟨msgType, major, minor, method, statusCode, uri, msgHdrs⟩ := obj
  dsimp only at fresh
  subst fresh
  rcases colon with rfl | rfl <;> cases hasScheme <;> cases overrun <;> rfl

/-- What stands behind the window makes no difference to a request that does not need it. -/
theorem parseRequestHdr_stays (trimmed : window.dropWhile isspace = window)
    (stays : searchesBehind window = false) (stale stale' : Bytes) :
    parseRequestHdr stale' defaultPort window exec =
      parseRequestHdr stale defaultPort window exec := by
  by_cases enough : 16 ≤ window.length
  · rw [parseRequestHdr_of_start trimmed enough, parseRequestHdr_of_start trimmed enough]
    match outcome : parseBeforeUri window exec with
    | (none, exec') => rfl
    | (some (_, rest), exec') =>
        have reaches := reachesUri_of_some outcome
        obtain ⟨rfl, -, fresh⟩ := parseBeforeUri_eq_some outcome
        simp only [searchesBehind, enough, decide_true, reaches, Bool.true_and,
          Bool.and_eq_false_iff, Bool.not_eq_false', bne_eq_false_iff_eq] at stays
        dsimp only
        rcases stays with (decided | colon) | colon
        · rw [URL.schemeAhead_append_of_decided decided, URL.schemeAhead_append_of_decided decided]
        · rw [parseFromUri_of_colon fresh (.inl colon), parseFromUri_of_colon fresh (.inl colon)]
        · rw [parseFromUri_of_colon fresh (.inr colon), parseFromUri_of_colon fresh (.inr colon)]
  · rw [parseRequestHdr_of_short trimmed (by omega), parseRequestHdr_of_short trimmed (by omega)]

/-- Bytes that do not tell whether there is a scheme end in front of, or inside, what
stands behind a scheme. -/
theorem undecided_cases (undecided : URL.schemeDecided window = false) :
    ∃ front tail, window = front ++ tail ∧ (∀ c ∈ front, URL.isSchemeByte c = true) ∧
      (tail = [] ∨ tail = [58] ∨ tail = [58, 47]) := by
  refine ⟨window.takeWhile URL.isSchemeByte, window.dropWhile URL.isSchemeByte,
    List.takeWhile_append_dropWhile.symm, fun _ member => List.mem_takeWhile_imp member, ?_⟩
  unfold URL.schemeDecided at undecided
  match shape : window.dropWhile URL.isSchemeByte with
  | [] => exact .inl rfl
  | [c] =>
      rw [shape] at undecided
      exact .inr (.inl (by simpa using undecided))
  | [c, d] =>
      rw [shape] at undecided
      exact .inr (.inr (by simpa using undecided))
  | c :: d :: e :: rest => simp [shape] at undecided

/-- The stale bytes can make up the rest of a scheme, or not. -/
theorem schemeAhead_of_undecided {front tail : Bytes}
    (passes : ∀ c ∈ front, URL.isSchemeByte c = true)
    (tails : tail = [] ∨ tail = [58] ∨ tail = [58, 47]) :
    URL.schemeAhead (front ++ tail ++ (ascii "://").drop tail.length) = true ∧
      URL.schemeAhead (front ++ tail ++ []) = false := by
  have complete : tail ++ (ascii "://").drop tail.length = [58, 47, 47] := by
    rcases tails with rfl | rfl | rfl <;> rfl
  constructor
  · rw [List.append_assoc, complete]
    exact URL.schemeAhead_of_scheme passes []
  · rw [List.append_nil, URL.schemeAhead_eq]
    rcases tails with rfl | rfl | rfl
    · rw [List.append_nil, (takeWhile_of_all passes).2]
    · rw [(takeWhile_of_delimited passes (by decide) []).2]
      rfl
    · rw [(takeWhile_of_delimited passes (by decide) [47]).2]
      rfl

/-- A part of a URL that stops keeps what it has stored. -/
theorem obj_parseFromUri_of_none {hasScheme : Bool} {url : Exec URL}
    (stopped : URL.parseParts defaultPort hasScheme window
      { obj := exec.obj.uri, error := exec.error, overrun := exec.overrun } = (none, url)) :
    (parseFromUri defaultPort hasScheme window exec).2.obj.uri = url.obj := by
  have here : onUri (URL.parseParts defaultPort hasScheme) window exec =
      (none, { obj := { exec.obj with uri := url.obj }, error := url.error,
               overrun := url.overrun }) := by
    simp only [onUri, Scanner.zoom, stopped]
  rw [parseFromUri, bind_of_none here]

/-- Behind the URI nothing changes it. -/
theorem obj_parseFromUri {property : URL → Prop} {hasScheme : Bool}
    (holds : property (URL.parseParts defaultPort hasScheme window
      { obj := exec.obj.uri, error := exec.error, overrun := exec.overrun }).2.obj) :
    property (parseFromUri defaultPort hasScheme window exec).2.obj.uri := by
  cases outcome : URL.parseParts defaultPort hasScheme window
      { obj := exec.obj.uri, error := exec.error, overrun := exec.overrun } with
  | mk reply url =>
      rw [outcome] at holds
      cases reply with
      | none =>
          rw [obj_parseFromUri_of_none outcome]
          exact holds
      | some delivered =>
          have here : onUri (URL.parseParts defaultPort hasScheme) window exec =
              (some delivered, { obj := { exec.obj with uri := url.obj }, error := url.error,
                                 overrun := url.overrun }) := by
            simp only [onUri, Scanner.zoom, outcome]
          rw [parseFromUri, bind_of_some here]
          exact parseRequestRest_keeps_uri property _ _ holds

/-- With a scheme ahead that is not in the window, the parser stops at it. -/
theorem parseParts_of_undecided {front tail : Bytes} {exec : Exec URL}
    (passes : ∀ c ∈ front, URL.isSchemeByte c = true)
    (tails : tail = [] ∨ tail = [58] ∨ tail = [58, 47]) :
    ∃ url, URL.parseParts defaultPort true (front ++ tail) exec = (none, url) ∧
      url.obj = if tail = [] then exec.obj else URL.setScheme (some front) exec.obj := by
  have upTo : ∀ c ∈ front, (c != 58) = true := fun c member =>
    (Bool.and_eq_true_iff.mp (passes c member)).1
  have noNul : (0 : UInt8) ∉ front := fun member => absurd (passes 0 member) (by decide)
  have colon (rest : Bytes) (short : rest.length < 3) :
      ∃ url, URL.parseParts defaultPort true (front ++ 58 :: rest) exec = (none, url) ∧
        url.obj = URL.setScheme (some front) exec.obj := by
    obtain ⟨taken, dropped⟩ :=
      takeWhile_of_delimited upTo (show ((58 : UInt8) != 58) = false by decide) rest
    have few : ¬ 3 < (58 :: rest : Bytes).length := by
      simp only [List.length_cons]
      omega
    refine ⟨{ exec with
        obj := URL.setScheme (some front) exec.obj
        overrun := exec.overrun || decide (URL.kURLMaxSize < front.length) ||
          decide (URL.kURLMaxSize ≤ front.length) }, bind_of_none ?_, rfl⟩
    simp only [URL.parseScheme, Parse.token, Parse.copyWhile, Parse.terminate, bind_apply,
      Scanner.takeWhile, taken, dropped, Scanner.update, pure_apply, Scanner.need,
      List.isEmpty_cons, Bool.false_eq_true, ↓reduceIte, Parse.assign, Scanner.advanceBy,
      if_neg few, cstr_eq_self noNul]
  rcases tails with rfl | rfl | rfl
  · rw [List.append_nil, if_pos rfl]
    obtain ⟨taken, dropped⟩ := takeWhile_of_all upTo
    refine ⟨{ exec with overrun := exec.overrun || decide (URL.kURLMaxSize < front.length) },
      bind_of_none ?_, rfl⟩
    simp only [URL.parseScheme, Parse.token, Parse.copyWhile, bind_apply, Scanner.takeWhile, taken,
      dropped, Scanner.update, pure_apply, Scanner.need, List.isEmpty_nil, ↓reduceIte]
  · rw [if_neg (List.cons_ne_nil _ _)]
    exact colon [] (by simp)
  · rw [if_neg (List.cons_ne_nil _ _)]
    exact colon [47] (by simp)

/-- A request whose URI does not tell whether there is a scheme is read differently. -/
theorem parseRequestHdr_leaves (trimmed : window.dropWhile isspace = window)
    (leaves : searchesBehind window = true) (exec : Exec HTTPFraming) :
    ∃ stale stale', (parseRequestHdr stale 1 window exec).2.obj.uri ≠
      (parseRequestHdr stale' 1 window exec).2.obj.uri := by
  simp only [searchesBehind, Bool.and_eq_true, decide_eq_true_eq, Bool.not_eq_true', bne_iff_ne,
    ne_eq] at leaves
  obtain ⟨⟨⟨⟨enough, reaches⟩, undecided⟩, notColon⟩, notSlash⟩ := leaves
  obtain ⟨exec', start⟩ := parseBeforeUri_of_reachesUri enough reaches exec
  have fresh := (parseBeforeUri_eq_some start).2.2
  obtain ⟨front, tail, shape, passes, tails⟩ := undecided_cases undecided
  obtain ⟨ahead, notAhead⟩ := schemeAhead_of_undecided passes tails
  refine ⟨(ascii "://").drop tail.length, [], ?_⟩
  rw [parseRequestHdr_of_start trimmed enough, parseRequestHdr_of_start trimmed enough, start]
  dsimp only
  rw [shape, ahead, notAhead]
  obtain ⟨url, stopped, stored⟩ := @parseParts_of_undecided 1 _ _
    { obj := exec'.obj.uri, error := exec'.error, overrun := exec'.overrun } passes tails
  rw [obj_parseFromUri_of_none stopped, stored]
  by_cases empty : tail = []
  · -- the port is stored only without a scheme
    subst empty
    have noColon : ∀ c ∈ front ++ [], c ≠ 58 := fun c member => by
      rw [List.append_nil] at member
      exact bne_iff_ne.mp (Bool.and_eq_true_iff.mp (passes c member)).1
    have port := @obj_parseFromUri (front ++ []) 1 exec' (fun url => url.port = 1) false
      (URL.port_parseHierarchy noColon 1 _)
    intro same
    rw [if_pos rfl, fresh] at same
    rw [← same] at port
    change urlPortNull = 1 at port
    exact absurd port (by decide)
  · -- the scheme is stored only with one
    have frontNotNil : front ≠ [] := by
      rintro rfl
      rcases tails with rfl | rfl | rfl
      · exact empty rfl
      · exact notColon shape
      · exact notSlash shape
    obtain ⟨c, rest, rfl⟩ := List.exists_cons_of_ne_nil frontNotNil
    have nonzero : c ≠ 0 := bne_iff_ne.mp (Bool.and_eq_true_iff.mp (passes c (by simp))).2
    have scheme := @obj_parseFromUri (c :: rest ++ tail) 1 exec' (fun url => url.scheme = []) false
      (URL.parseHierarchy_keeps_scheme (· = []) 1 _ _ (by rw [fresh]))
    intro same
    rw [if_neg empty] at same
    rw [← same] at scheme
    exact untaint_ne_nil nonzero rest scheme

end Request

/-! ## Responses -/

section Response

variable {env : ParseEnv} {used : Nat} {rest : Bytes} {exec : Exec HTTPFraming} {chunked : ChunkBuf}

/-- What `ParseResponseHdr` makes of the outcome of the chunk decoder. -/
def decoded (used : Nat) (exec : Exec HTTPFraming) :
    Option (Unit × Bytes) × Exec ChunkBuf → ParseResult
  | (none, body) =>
      { bytesUsed := none
        exec := abandonResponse { exec with error := body.error, overrun := body.overrun }
        chunked := body.obj }
  | (some (_, left), body) =>
      { bytesUsed := some (used + (used - left.length))
        exec := { exec with error := body.error, overrun := body.overrun }
        chunked := body.obj }

/-- The chunk decoder is called with the length of the header. -/
theorem finishResponse_of_chunked (isChunked : exec.obj.isChunked = true) (inhabited : rest ≠ []) :
    finishResponse env used rest exec chunked =
      decoded used exec (parseChunkedMsgBody env.realloc (memoryOf (rest ++ env.stale)) used
        { obj := chunked, error := exec.error, overrun := exec.overrun }) := by
  have some_ : rest.isEmpty = false := by simpa using inhabited
  simp only [finishResponse, isChunked, Bool.not_true, Bool.false_eq_true, ↓reduceIte, some_]
  split <;> rename_i outcome <;> rw [outcome] <;> rfl

theorem decoded_bytesUsed {outcome : Option (Unit × Bytes) × Exec ChunkBuf} {total : Nat}
    (accepted : (decoded used exec outcome).bytesUsed = some total) :
    ∃ left, outcome.1 = some ((), left) ∧ total = used + (used - left.length) := by
  match outcome with
  | (none, _) => cases accepted
  | (some (_, left), _) => exact ⟨left, rfl, (Option.some.inj accepted).symm⟩

/-- Of the bytes that are left, their number matters. -/
theorem decoded_of_seen {one other : Option (Unit × Bytes) × Exec ChunkBuf}
    (same : seen one = seen other) : decoded used exec one = decoded used exec other := by
  obtain ⟨reply, body⟩ := one
  obtain ⟨reply', body'⟩ := other
  simp only [seen, Prod.mk.injEq] at same
  obtain ⟨left, rfl⟩ := same
  cases reply with
  | none =>
      cases reply' with
      | none => rfl
      | some delivered => cases left
  | some delivered =>
      cases reply' with
      | none => cases left
      | some delivered' =>
          simp only [Option.map_some, Option.some.injEq] at left
          simp only [decoded, left]

/-- What stands behind the window makes no difference to a response that does not need
it, and the bytes used are inside it. -/
theorem finishResponse_stays
    (stays : exec.obj.isChunked = false ∨ rest = [] ∨ chunksSettled rest used = true)
    (env : ParseEnv) (stale' : Bytes) :
    finishResponse { env with stale := stale' } used rest exec chunked =
        finishResponse env used rest exec chunked ∧
      ∀ total, (finishResponse env used rest exec chunked).bytesUsed = some total →
        total ≤ used + rest.length := by
  by_cases isChunked : exec.obj.isChunked = true
  swap
  · have plain : (!exec.obj.isChunked) = true := by simpa using isChunked
    simp only [finishResponse, plain, ↓reduceIte, Option.some.injEq, true_and]
    omega
  by_cases empty : rest = []
  · subst empty
    simp [finishResponse, isChunked]
  have settled := (stays.resolve_left (by simp [isChunked])).resolve_left empty
  obtain ⟨outcome, same, few⟩ := settles_parseChunkedMsgBody settled env.realloc
    { obj := chunked, error := exec.error, overrun := exec.overrun }
  rw [finishResponse_of_chunked isChunked empty, finishResponse_of_chunked isChunked empty,
    memoryOf_append, memoryOf_append]
  refine ⟨decoded_of_seen ((same _).trans (same _).symm), fun total accepted => ?_⟩
  obtain ⟨left, delivered, rfl⟩ := decoded_bytesUsed accepted
  have := few left.length (by rw [← same (memoryOf env.stale), seen, delivered, Option.map_some])
  omega

theorem decoded_chunked (outcome : Option (Unit × Bytes) × Exec ChunkBuf) :
    (decoded used exec outcome).chunked = outcome.2.obj := by
  match outcome with
  | (none, _) | (some _, _) => rfl

/-- Without an event there is no new message on the way out, with one there is one. -/
theorem length_msgs_appendIfEvent {ω : Type} (format : String) (exec : Exec ω) :
    (appendIfEvent format exec).error.msgs.length =
      exec.error.msgs.length + if exec.error.event then 1 else 0 := by
  unfold appendIfEvent
  split
  · rename_i raised
    exact ErrorHandler.length_msgs_appendMsg raised _ _
  · rfl

theorem event_appendIfEvent {ω : Type} (format : String) (exec : Exec ω) :
    (appendIfEvent format exec).error.event = exec.error.event := by
  unfold appendIfEvent
  split
  · rename_i raised
    exact (ErrorHandler.event_appendMsg _ _ _).trans raised.symm
  · rfl

theorem concluded_error (front : Nat) (result : ParseResult) :
    (concluded front result).exec.error =
      (appendIfEvent "HTTPFraming::InitFromBuf(): " result.exec).error := by
  unfold concluded appendIfEvent
  split <;> rfl

theorem length_msgs_decoded (front : Nat) (outcome : Option (Unit × Bytes) × Exec ChunkBuf) :
    (concluded front (decoded used exec outcome)).exec.error.msgs.length =
      outcome.2.error.msgs.length +
        if outcome.2.error.event then (if outcome.1.isNone then 2 else 1) else 0 := by
  rw [concluded_error, length_msgs_appendIfEvent]
  match outcome with
  | (none, body) =>
      have event := event_appendIfEvent "HTTPFraming::ParseResponseHdr(): "
        { exec with error := body.error, overrun := body.overrun }
      have length := length_msgs_appendIfEvent "HTTPFraming::ParseResponseHdr(): "
        { exec with error := body.error, overrun := body.overrun }
      change (appendIfEvent _ _).error.msgs.length + (if (appendIfEvent _ _).error.event then 1 else 0) = _
      rw [event, length]
      dsimp only
      split <;> simp
  | (some _, body) => rfl

/-- Outcomes of the decoder that can be told apart are told apart. -/
theorem concluded_ne_of_told {one other : Option (Unit × Bytes) × Exec ChunkBuf}
    (told : Told exec.error one other) (front : Nat) :
    concluded front (decoded used exec one) ≠ concluded front (decoded used exec other) := by
  intro same
  rcases told with buffers | ⟨stopped, longer, raised, kept⟩
  · have alike := congrArg ParseResult.chunked same
    rw [concluded_chunked, concluded_chunked, decoded_chunked, decoded_chunked] at alike
    exact buffers alike
  · have alike := congrArg (fun result => result.exec.error.msgs.length) same
    simp only [length_msgs_decoded, stopped, raised, kept, Option.isNone_none, ↓reduceIte] at alike
    split at alike
    · split at alike <;> omega
    · omega

/-- A response whose chunks are not settled is read differently. -/
theorem finishResponse_leaves (isChunked : exec.obj.isChunked = true) (inhabited : rest ≠ [])
    (unsettled : chunksSettled rest used = false) (defaultPort : UInt16) (realloc : Realloc)
    (front : Nat) :
    ∃ chunked stale stale',
      concluded front (finishResponse { stale, defaultPort, realloc } used rest exec chunked) ≠
        concluded front
          (finishResponse { stale := stale', defaultPort, realloc } used rest exec chunked) := by
  -- a buffer that is never too small
  let size := 2 ^ 64 + used
  let chunked : ChunkBuf := ⟨some (List.replicate size 0), size⟩
  have roomy : Roomy used { obj := chunked, error := exec.error, overrun := exec.overrun }
      (List.replicate size 0) :=
    { obj := by rw [List.length_replicate]
      addressable := by
        rw [List.length_replicate]
        exact Nat.le_add_right _ _
      enough := by
        rw [List.length_replicate]
        exact Nat.le_add_left _ _ }
  obtain ⟨one, other, told⟩ := @tears_parseChunkedMsgBody realloc _ _ _ _ unsettled roomy
  refine ⟨chunked, one, other, ?_⟩
  rw [finishResponse_of_chunked isChunked inhabited, finishResponse_of_chunked isChunked inhabited,
    memoryOf_append, memoryOf_append]
  exact concluded_ne_of_told told front

end Response

/-! ## All windows -/

section All

variable {env : ParseEnv} {buf window : Bytes} {exec : Exec HTTPFraming} {chunked : ChunkBuf}

theorem parseStartLine_of_request (starts : startsRequest window = true) :
    parseStartLine env window exec chunked =
      { bytesUsed := (parseRequestHdr env.stale env.defaultPort window exec).1.map
          fun delivered => window.length - delivered.2.length
        exec := (parseRequestHdr env.stale env.defaultPort window exec).2
        chunked } := by
  rw [parseStartLine, if_pos starts]
  rcases parseRequestHdr env.stale env.defaultPort window exec with ⟨_ | ⟨_, _⟩, _⟩
  · rfl
  · rfl

theorem parseStartLine_of_response (other : startsRequest window = false) :
    parseStartLine env window exec chunked = parseResponseHdr env window exec chunked := by
  rw [parseStartLine, other]
  rfl

/-- A window that settles everything is enough. -/
theorem parseStartLine_stays (trimmed : window.dropWhile isspace = window)
    (stays : (if startsRequest window then searchesBehind window
      else decodesBehind window exec) = false) (fresh : exec.obj = {}) (env : ParseEnv)
    (chunked : ChunkBuf) (stale' : Bytes) :
    parseStartLine { env with stale := stale' } window exec chunked =
        parseStartLine env window exec chunked ∧
      ∀ used, (parseStartLine env window exec chunked).bytesUsed = some used →
        used ≤ window.length := by
  cases starts : startsRequest window with
  | true =>
      rw [if_pos starts] at stays
      rw [parseStartLine_of_request starts, parseStartLine_of_request starts]
      refine ⟨?_, fun used accepted => ?_⟩
      · rw [parseRequestHdr_stays trimmed stays env.stale stale']
      · obtain ⟨delivered, -, rfl⟩ := Option.map_eq_some_iff.mp accepted
        exact Nat.sub_le _ _
  | false =>
      rw [if_neg (by simp [starts])] at stays
      rw [parseStartLine_of_response starts, parseStartLine_of_response starts]
      have same : { exec with obj := {} } = exec := by rw [← fresh]
      unfold decodesBehind at stays
      rw [same] at stays
      unfold parseResponseHdr
      match outcome : parseResponseHeader window exec with
      | (none, exec') => exact ⟨rfl, fun used accepted => by cases accepted⟩
      | (some (_, rest), exec') =>
          rw [outcome] at stays
          have read := parseResponseHeader_closed.reads outcome
          have enough : exec'.obj.isChunked = false ∨ rest = [] ∨
              chunksSettled rest (window.length - rest.length) = true := by
            simp only [Bool.and_eq_false_iff, Bool.not_eq_false', List.isEmpty_iff] at stays
            tauto
          obtain ⟨alike, within⟩ := @finishResponse_stays _ _ exec' chunked enough env stale'
          refine ⟨alike, fun used accepted => ?_⟩
          have := within used accepted
          omega

/-- A window is all that matters, and no more than it is used, exactly when nothing
behind it makes a difference to the search for a scheme or to the chunk decoder. -/
theorem staysInWindow_iff (buf : Bytes) (exec : Exec HTTPFraming) :
    StaysInWindow buf exec ↔ readsBehind buf exec = false := by
  have trimmed := List.dropWhile_idempotent isspace buf
  have shorter := (List.dropWhile_suffix isspace (l := buf)).length_le
  constructor
  · intro stays
    by_contra reads
    rw [Bool.not_eq_false, readsBehind] at reads
    split at reads
    · -- a request
      rename_i starts
      obtain ⟨stale, stale', differ⟩ := parseRequestHdr_leaves trimmed reads { exec with obj := {} }
      have same := (stays 1 (fun _ _ => none) ⟨none, 0⟩ stale).1 stale'
      rw [initFromBuf_of_starts (by rw [starts, Bool.true_or]),
        initFromBuf_of_starts (by rw [starts, Bool.true_or]), parseStartLine_of_request starts,
        parseStartLine_of_request starts] at same
      have alike := congrArg (fun result => result.exec.obj.uri) same
      simp only [concluded_obj] at alike
      exact differ alike.symm
    · -- a response
      rename_i other
      rw [Bool.and_eq_true_iff] at reads
      obtain ⟨starts, reads⟩ := reads
      have other : startsRequest (buf.dropWhile isspace) = false := by simpa using other
      unfold decodesBehind at reads
      split at reads
      · cases reads
      · rename_i rest exec' outcome
        simp only [Bool.and_eq_true, Bool.not_eq_true', List.isEmpty_eq_false_iff] at reads
        obtain ⟨⟨isChunked, inhabited⟩, unsettled⟩ := reads
        obtain ⟨chunked, stale, stale', differ⟩ := finishResponse_leaves isChunked inhabited
          unsettled urlPortNull (fun _ _ => none) (buf.length - (buf.dropWhile isspace).length)
        have same := (stays urlPortNull (fun _ _ => none) chunked stale).1 stale'
        rw [initFromBuf_of_starts (by rw [starts, Bool.or_true]),
          initFromBuf_of_starts (by rw [starts, Bool.or_true]), parseStartLine_of_response other,
          parseStartLine_of_response other, parseResponseHdr, parseResponseHdr, outcome] at same
        exact differ same.symm
  · intro quiet defaultPort realloc chunked stale
    rw [readsBehind] at quiet
    cases starts : startsRequest (buf.dropWhile isspace) ||
        startsResponse (buf.dropWhile isspace) with
    | false =>
        refine ⟨fun stale' => (initFromBuf_of_not_starts starts).1, fun used accepted => ?_⟩
        rw [(@initFromBuf_of_not_starts _ { stale, defaultPort, realloc } _ _ _ starts).2] at accepted
        cases accepted
    | true =>
        have stays : (if startsRequest (buf.dropWhile isspace) then
            searchesBehind (buf.dropWhile isspace)
            else decodesBehind (buf.dropWhile isspace) { exec with obj := {} }) = false := by
          split at quiet
          · rename_i request
            rw [if_pos request]
            exact quiet
          · rename_i other
            rw [if_neg other]
            have response := (Bool.or_eq_true_iff.mp starts).resolve_left other
            rw [response, Bool.true_and] at quiet
            exact quiet
        have settled := parseStartLine_stays trimmed stays rfl { stale, defaultPort, realloc } chunked
        constructor
        · intro stale'
          rw [initFromBuf_of_starts starts, initFromBuf_of_starts starts, (settled stale').1]
        · intro used accepted
          rw [initFromBuf_of_starts starts] at accepted
          obtain ⟨inner, parsed, rfl⟩ := concluded_bytesUsed accepted
          have := (settled []).2 inner parsed
          omega

/-- The stale end of a request with a scheme makes up a scheme for a new request, and
the stale end of a chunked body is decoded as if it were new. -/
theorem initFromBuf_leaves_window :
    ¬ StaysInWindow (ascii "GET /index HTTP/1.1\r\n\r\nP") { obj := {}, error := {} } ∧
      (initFromBuf { stale := ascii "lo\r\n0\r\n\r\n", realloc := fun _ _ => none }
        (ascii "HTTP/1.1 200 OK\r\nTransfer-Encoding: chunked\r\n\r\n5\r\nhel")
        { obj := {}, error := {} } ⟨some (List.replicate 16 0), 16⟩).bytesUsed = some 59 ∧
      (ascii "HTTP/1.1 200 OK\r\nTransfer-Encoding: chunked\r\n\r\n5\r\nhel").length < 59 := by
  refine ⟨fun stays => ?_, by decide +kernel, by decide⟩
  have same := (stays urlPortNull (fun _ _ => none) ⟨none, 0⟩ []).1 (ascii "OST http://x/")
  exact absurd same (by decide +kernel)

end All

end HTTPFraming

end IpUtils
