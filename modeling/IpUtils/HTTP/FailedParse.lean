import IpUtils.HTTP.HeaderGrammar
import IpUtils.HTTP.Outcome

/-! # What a failed parse leaves behind

A header that is not read leaves nothing behind. One that has been read is taken back only in part
when `InitFromBuf` returns false after all: for an event that was there before or that the query
has raised, and for a chunked body that is not complete.
-/

namespace IpUtils

open CLib Scanner

/-! ## Parsers that do not look at the error -/

section Blind

variable {ω α β : Type}

/-- What the parser answers and stores does not depend on the error, and it goes on with the
error as it was. -/
def Blind (parser : Parse ω α) : Prop :=
  ∀ window obj, ∃ reply obj', ∀ error overrun, ∃ error' overrun',
    parser window { obj, error, overrun } =
        (reply, { obj := obj', error := error', overrun := overrun' }) ∧
      (reply.isSome = true → error' = error)

namespace Blind

/-- What does not look at the error, does not with another behind it. -/
theorem bind {first : Parse ω α} {next : α → Parse ω β} (head : Blind first)
    (tail : ∀ value, Blind (next value)) : Blind (first >>= next) := by
  intro window obj
  obtain ⟨reply, obj₁, runs⟩ := head window obj
  cases reply with
  | none =>
      refine ⟨none, obj₁, fun error overrun => ?_⟩
      obtain ⟨error', overrun', ran, -⟩ := runs error overrun
      exact ⟨error', overrun', bind_of_none ran, fun some_ => absurd some_ (by simp)⟩
  | some delivered =>
      obtain ⟨reply, obj₂, runs'⟩ := tail delivered.1 delivered.2 obj₁
      refine ⟨reply, obj₂, fun error overrun => ?_⟩
      obtain ⟨error₁, overrun₁, ran, same⟩ := runs error overrun
      obtain ⟨error₂, overrun₂, ran', same'⟩ := runs' error₁ overrun₁
      refine ⟨error₂, overrun₂, ?_, fun some_ => (same' some_).trans (same rfl)⟩
      rw [← ran']
      exact bind_of_some ran

/-- A parser that only moves in the window. -/
theorem of_moves {parser : Parse ω α} {move : Bytes → Option (α × Bytes)}
    (moves : ∀ window exec, parser window exec = (move window, exec)) : Blind parser :=
  fun window obj => ⟨move window, obj, fun error overrun => ⟨error, overrun, moves _ _, fun _ => rfl⟩⟩

theorem pure (value : α) : Blind (Pure.pure value : Parse ω α) :=
  of_moves fun _ _ => rfl

theorem need : Blind (Scanner.need : Parse ω Unit) := by
  refine @of_moves _ _ _ (fun window => if window.isEmpty then none else some ((), window)) ?_
  intro window exec
  unfold Scanner.need
  split
  · rfl
  · rfl

theorem step : Blind (Scanner.step : Parse ω Unit) :=
  bind (of_moves fun _ _ => rfl) fun _ => need

theorem overflow (flag : Bool → Bool) :
    Blind (Scanner.update fun exec => { exec with overrun := flag exec.overrun } : Parse ω Unit) :=
  fun window obj => ⟨some ((), window), obj, fun error overrun =>
    ⟨error, flag overrun, rfl, fun _ => rfl⟩⟩

theorem copyWhile (capacity : Nat) (test : UInt8 → Bool) :
    Blind (Parse.copyWhile capacity test : Parse ω Bytes) :=
  bind (of_moves fun _ _ => rfl) fun text =>
    (overflow fun overrun => overrun || capacity < text.length).bind fun _ => pure _

theorem token (capacity : Nat) (test : UInt8 → Bool) :
    Blind (Parse.token capacity test : Parse ω Bytes) :=
  (copyWhile _ _).bind fun text => need.bind fun _ =>
    (overflow fun overrun => overrun || capacity ≤ text.length).bind fun _ => pure _

theorem fail (format : String) (args : Nat → List FmtArg) :
    Blind (Parse.fail format args : Parse ω α) :=
  fun _ obj => ⟨none, obj, fun _ _ => ⟨_, _, rfl, fun some_ => absurd some_ (by simp)⟩⟩

theorem require (wanted : UInt8) (format : String) (args : Nat → List FmtArg) :
    Blind (Parse.require wanted format args : Parse ω Unit) := by
  refine bind (of_moves fun _ _ => rfl) fun here => ?_
  split
  · exact fail _ _
  · exact pure _

theorem expectStep (wanted : UInt8) (format : String) :
    Blind (Parse.expectStep wanted format : Parse ω Unit) :=
  (require _ _ _).bind fun _ => step

/-- A round that does not look at the error, over and over. -/
theorem iterate {body : α → Parse ω (α ⊕ β)} (round : ∀ value, Blind (body value)) (value : α) :
    Blind (Scanner.iterate body value) := by
  intro window
  induction size : window.length using Nat.strongRecOn generalizing value window with
  | ind size ih =>
      intro obj
      by_cases empty : window.isEmpty = true
      · refine ⟨none, obj, fun error overrun => ⟨error, overrun, ?_, fun _ => rfl⟩⟩
        rw [iterate_apply, if_pos empty]
      obtain ⟨reply, obj₁, runs⟩ := round value window obj
      rcases reply with none_ | ⟨value' | result, rest⟩
      · refine ⟨none, obj₁, fun error overrun => ?_⟩
        obtain ⟨error', overrun', ran, -⟩ := runs error overrun
        refine ⟨error', overrun', ?_, fun some_ => absurd some_ (by simp)⟩
        rw [iterate_apply, if_neg empty, ran]
      · by_cases shorter : rest.length < window.length
        · obtain ⟨reply, obj₂, runs'⟩ := ih rest.length (size ▸ shorter) value' rest rfl obj₁
          refine ⟨reply, obj₂, fun error overrun => ?_⟩
          obtain ⟨error₁, overrun₁, ran, same⟩ := runs error overrun
          obtain ⟨error₂, overrun₂, ran', same'⟩ := runs' error₁ overrun₁
          refine ⟨error₂, overrun₂, ?_, fun some_ => (same' some_).trans (same rfl)⟩
          rw [iterate_apply, if_neg empty, ran]
          dsimp only
          rw [if_pos shorter, ran']
        · refine ⟨none, obj₁, fun error overrun => ?_⟩
          obtain ⟨error', overrun', ran, -⟩ := runs error overrun
          refine ⟨error', overrun', ?_, fun some_ => absurd some_ (by simp)⟩
          rw [iterate_apply, if_neg empty, ran]
          dsimp only
          rw [if_neg shorter]
      · refine ⟨some (result, rest), obj₁, fun error overrun => ?_⟩
        obtain ⟨error', overrun', ran, same⟩ := runs error overrun
        refine ⟨error', overrun', ?_, same⟩
        rw [iterate_apply, if_neg empty, ran]

end Blind

end Blind

namespace HTTPFraming

/-! ## Chunked bodies -/

theorem blind_storeBody (count : Nat) (data : Bytes) :
    Blind (Scanner.update (storeBody count data)) :=
  fun window obj => ⟨some ((), window),
    { obj with msgBody := some (store (obj.msgBody.getD []) count data) },
    fun error overrun => ⟨error, overrun || (obj.msgBody.getD []).length < count + data.length,
      rfl, fun _ => rfl⟩⟩

/-- Making room asks `realloc`, not the error. -/
theorem blind_reserve (realloc : Realloc) (count : Nat) (chunkSize : Int) :
    Blind (reserve realloc count chunkSize) := by
  intro window obj
  by_cases fits : sizeAfter chunkSize count < obj.size
  · refine ⟨some ((), window), obj, fun error overrun => ⟨error, overrun, ?_, fun _ => rfl⟩⟩
    rw [reserve, if_pos fits]
  cases got : realloc (obj.msgBody.getD []) (grownSize obj.size chunkSize) with
  | none =>
      refine ⟨none, { obj with msgBody := none }, fun error overrun => ?_⟩
      rw [reserve, if_neg fits]
      simp only [got]
      exact ⟨_, _, rfl, fun some_ => absurd some_ (by simp)⟩
  | some array =>
      refine ⟨some ((), window), ⟨some array, grownSize obj.size chunkSize⟩,
        fun error overrun => ⟨error, overrun, ?_, fun _ => rfl⟩⟩
      rw [reserve, if_neg fits]
      simp only [got]

/-- A chunk is decoded without a look at the error. -/
theorem blind_parseChunk (realloc : Realloc) (place : Nat × Stream' UInt8) :
    Blind (parseChunk realloc place) := by
  have size : Blind parseChunkSize :=
    (Blind.token _ _).bind fun _ => (Blind.expectStep _ _).bind fun _ =>
      (Blind.expectStep _ _).bind fun _ => .pure _
  have data (beyond : Stream' UInt8) (count : Nat) : Blind (parseChunkData beyond count) :=
    .bind (.of_moves fun _ _ => rfl) fun _ => (blind_storeBody _ _).bind fun _ =>
      Blind.need.bind fun _ => (Blind.expectStep _ _).bind fun _ =>
        (Blind.require _ _ _).bind fun _ => .bind (.of_moves fun _ _ => rfl) fun _ => .pure _
  obtain ⟨count, beyond⟩ := place
  refine size.bind fun chunkSize => ?_
  split
  · exact (blind_storeBody _ _).bind fun _ => .pure _
  · exact (blind_reserve _ _ _).bind fun _ => (data _ _).bind fun _ => .pure _

/-- A body is decoded, up to its last chunk. -/
def decodes (realloc : Realloc) (buf : Stream' UInt8) (len : Nat) (chunked : ChunkBuf) : Bool :=
  (parseChunkedMsgBody realloc buf len { obj := chunked, error := {} }).1.isSome

/-- Whether a body is decoded does not depend on the error, and then no event is raised. -/
theorem decodes_spec (realloc : Realloc) (buf : Stream' UInt8) (len : Nat) (chunked : ChunkBuf)
    (error : ErrorHandler) (overrun : Bool) :
    (parseChunkedMsgBody realloc buf len { obj := chunked, error, overrun }).1.isSome =
        decodes realloc buf len chunked ∧
      (decodes realloc buf len chunked = true →
        (parseChunkedMsgBody realloc buf len { obj := chunked, error, overrun }).2.error =
          error) := by
  unfold decodes parseChunkedMsgBody
  cases null : chunked.msgBody.isNone with
  | true =>
      simp only [↓reduceIte]
      exact ⟨rfl, fun decoded => by cases decoded⟩
  | false =>
      have chunks : Blind (parseChunks realloc (buf.drop len)) :=
        .bind (.of_moves fun _ _ => rfl) fun _ => .iterate (blind_parseChunk realloc) _
      obtain ⟨reply, obj', runs⟩ := chunks (buf.take len) chunked
      obtain ⟨error₁, overrun₁, fresh, -⟩ := runs {} false
      obtain ⟨error₂, overrun₂, ran, same⟩ := runs error overrun
      simp only [Bool.false_eq_true, ↓reduceIte, fresh, ran]
      exact ⟨trivial, same⟩

/-- The fields say that the body is chunked. -/
def saysChunked (fields : List (Bytes × Bytes)) : Bool :=
  equalsNoCase mimeChunked
    (((fields.find? fun field => equalsNoCase field.1 mimeTransferEncoding).map Prod.snd).getD [])

/-- Whether the body is chunked can be read in the entries of the header. -/
theorem isChunked_eq (http : HTTPFraming) : http.isChunked = saysChunked (entries http) := by
  unfold isChunked saysChunked transferEncoding msgHdr? entries
  rw [List.find?_map]
  change _ = equalsNoCase mimeChunked (((http.msgHdrs.find? fun msgHdr =>
    equalsNoCase msgHdr.fieldName mimeTransferEncoding).map _).map Prod.snd |>.getD [])
  cases http.msgHdrs.find? fun msgHdr => equalsNoCase msgHdr.fieldName mimeTransferEncoding with
  | none => rfl
  | some msgHdr => rfl

variable {env : ParseEnv} {buf window rest : Bytes} {exec exec' : Exec HTTPFraming}
  {chunked : ChunkBuf} {used : Nat}

/-! ## Headers that are not read -/

/-- The object has no header to show. -/
def Unready (exec : Exec HTTPFraming) : Prop :=
  exec.obj.msgType = .notReady

theorem keeps_unready_onUri {α : Type} (body : Parse URL α) : Keeps Unready (onUri body) := by
  refine @Keeps.zoom _ _ _ _ _ (fun _ => True) _ _ _ ?_ ?_ ?_
  · exact fun _ _ _ => trivial
  · exact fun _ _ => trivial
  · exact fun _ _ holds _ => holds

theorem unready_abandonResponse (holds : Unready exec) : Unready (abandonResponse exec) := by
  unfold abandonResponse appendIfEvent
  split
  · exact holds
  · exact holds

/-- A request that is not accepted has no type. -/
theorem parseRequestHdr_unready (stale : Bytes) (defaultPort : UInt16) :
    StopsIn Unready (parseRequestHdr stale defaultPort) := by
  have robust : Robust Unready := Robust.of_obj fun http : HTTPFraming => http.msgType = .notReady
  have method : Keeps Unready parseMethod :=
    parseMethodFrom_keeps robust (fun _ _ holds => holds) _
  have version : Keeps Unready parseRequestVersion :=
    parseRequestVersion_keeps robust fun _ _ _ holds => holds
  have fields : Keeps Unready parseRequestFields :=
    parseRequestFields_keeps robust fun _ _ holds => holds
  exact .bind (Keeps.skipWhile _) fun _ => .bind (atLeast_keeps 16) fun _ => .bind method fun _ =>
    .bind (Keeps.expectStep robust _ _) fun _ => .bind (keeps_unready_onUri _) fun _ =>
      .bind version fun _ => .bind fields fun _ _ _ _ stopped => by cases stopped

/-- A response whose header is not accepted has no type. -/
theorem parseResponseHeader_unready : StopsIn Unready parseResponseHeader := by
  have robust : Robust Unready := Robust.of_obj fun http : HTTPFraming => http.msgType = .notReady
  have line : Keeps Unready parseStatusLine :=
    parseStatusLine_keeps robust fun _ _ _ _ holds => holds
  have fields : Keeps Unready (Scanner.onStop abandonResponse parseMsgHdrs) :=
    Keeps.onStop (parseMsgHdrs_keeps robust fun _ _ holds => holds)
      fun _ holds => unready_abandonResponse holds
  have line_ : StopsIn Unready parseEmptyLine := by
    have inner : StopsIn Unready (Scanner.step >>= fun _ =>
        Parse.expect 10 (responseExpected "'\n', got: %s") >>= fun _ =>
          Parse.assign (fun http : HTTPFraming => { http with msgType := .response }) >>= fun _ =>
            Scanner.advance) :=
      .bind Keeps.step fun _ => .bind (Keeps.require robust _ _ _) fun _ _ _ _ stopped => by
        cases stopped
    intro window exec holds stopped
    unfold parseEmptyLine Scanner.onStop at stopped ⊢
    have after := inner window exec holds
    split at stopped
    · rename_i outcome
      rw [outcome] at after
      exact after rfl
    · cases stopped
  exact .bind (Keeps.skipWhile _) fun _ => .bind line fun _ => .bind fields fun _ => line_

/-- The header that a window begins with, as the dispatcher looks at it. -/
def headerGrammar (stale : Bytes) : Grammar UInt8 :=
  Grammar.cond startsRequest (requestGrammar stale)
    (Grammar.cond startsResponse responseGrammar fun _ => none)

/-- No header can be seen. -/
def ShowsNothing (http : HTTPFraming) : Prop :=
  http.msgType = .notReady ∧ http.msgHdrs = []

/-- White space that has been skipped is not there. -/
theorem run_seq_of_trimmed (trimmed : window.dropWhile isspace = window)
    (grammar : Grammar UInt8) : (Grammar.run isspace).seq grammar window = grammar window := by
  unfold Grammar.seq Grammar.run
  rw [trimmed]
  rfl

/-- A header that is not read leaves nothing behind. -/
theorem parseStartLine_of_none (trimmed : window.dropWhile isspace = window)
    (fresh : ShowsNothing exec.obj)
    (unread : Grammar.cond startsRequest (requestGrammar env.stale) responseGrammar window = none) :
    ShowsNothing (parseStartLine env window exec chunked).exec.obj := by
  unfold Grammar.cond at unread
  cases starts : startsRequest window with
  | true =>
      rw [if_pos starts, ← run_seq_of_trimmed trimmed (requestGrammar env.stale)] at unread
      have stopped := (recognizes_parseRequestHdr env.stale env.defaultPort).stops unread exec
      rw [parseStartLine_of_request starts]
      exact ⟨parseRequestHdr_unready _ _ _ _ fresh.1 stopped,
        parseRequestHdr_stopsIn _ _ _ _ fresh.2 stopped⟩
  | false =>
      rw [if_neg (by simp [starts]), ← run_seq_of_trimmed trimmed responseGrammar] at unread
      have stopped := (recognizes_parseResponseHeader ofError_error).stops unread exec
      rw [parseStartLine_of_response starts, parseResponseHdr]
      have unready := parseResponseHeader_unready window exec fresh.1 stopped
      have empty := parseResponseHeader_stopsIn window exec fresh.2 stopped
      rcases outcome : parseResponseHeader window exec with ⟨none_ | ⟨value, rest⟩, exec'⟩
      · rw [outcome] at unready empty
        exact ⟨unready, empty⟩
      · rw [outcome] at stopped
        cases stopped

/-! ## Headers that are read -/

/-- A result that `InitFromBuf` returns true for. -/
def Succeeds (result : ParseResult) : Prop :=
  result.bytesUsed.isSome = true ∧ result.exec.error.event = false

/-- A request that is read shows, with the event that was there or that its query has raised. -/
theorem parseRequestHdr_shows {stale : Bytes} {defaultPort : UInt16}
    (trimmed : window.dropWhile isspace = window)
    (ran : parseRequestHdr stale defaultPort window exec = (some ((), rest), exec')) :
    exec'.obj.msgType = .request ∧
      exec'.error.event = (exec.error.event || queryRefused (queryText stale (uriBytes window))) := by
  obtain ⟨-, exec₁, before, behind⟩ := (parseRequestHdr_eq_some_iff trimmed).mp ran
  have same₁ := (recognizes_parseBeforeUri.eq_some before).2
  obtain ⟨_, window₂, exec₂, url, ran₂⟩ := bind_eq_some behind
  have event : exec₂.error.event =
      (exec₁.error.event || queryRefused (queryText stale (uriBytes window))) := by
    refine Eq.trans ?_ (event_parseParts stale (uriBytes window) defaultPort
      { obj := exec₁.obj.uri, error := exec₁.error, overrun := exec₁.overrun })
    exact congrArg (fun outcome => outcome.2.error.event) url.symm
  obtain ⟨_, window₃, exec₃, version, ran₃⟩ := bind_eq_some ran₂
  have same₃ := ((recognizes_parseRequestVersion ofError_error).eq_some version).2
  obtain ⟨_, window₄, exec₄, fields, typed⟩ := bind_eq_some ran₃
  have same₄ := ((recognizes_parseRequestFields ofError_error).eq_some fields).2
  obtain ⟨rfl, rfl⟩ := update_eq_some typed
  refine ⟨rfl, ?_⟩
  change exec₄.error.event = _
  rw [same₄, same₃, event, same₁]

/-- The type has been set with the header, whatever becomes of the body. -/
theorem msgType_finishResponse (exec : Exec HTTPFraming) :
    (finishResponse env used rest exec chunked).exec.obj.msgType = exec.obj.msgType := by
  unfold finishResponse
  split
  · rfl
  split
  · rfl
  split
  · unfold abandonResponse appendIfEvent
    split
    · rfl
    · rfl
  · rfl

/-- Behind the header of a response, `InitFromBuf` succeeds unless an event is there or a chunked
body is not decoded. -/
theorem finishResponse_succeeds_iff (exec : Exec HTTPFraming) :
    Succeeds (finishResponse env used rest exec chunked) ↔
      exec.error.event = false ∧ (exec.obj.isChunked = true →
        rest ≠ [] ∧ decodes env.realloc (memoryOf (rest ++ env.stale)) used chunked = true) := by
  unfold finishResponse Succeeds
  cases isChunked : exec.obj.isChunked with
  | false => simp
  | true =>
      by_cases empty : rest = []
      · simp [empty]
      obtain ⟨same, quiet⟩ := decodes_spec env.realloc (memoryOf (rest ++ env.stale)) used
        chunked exec.error exec.overrun
      have left : rest.isEmpty = false := List.isEmpty_eq_false_iff.mpr empty
      generalize memoryOf (rest ++ env.stale) = memory at same quiet ⊢
      simp only [left, Bool.not_true, Bool.false_eq_true, if_false, ne_eq, empty,
        not_false_eq_true, true_and, true_implies]
      rcases outcome : parseChunkedMsgBody env.realloc memory used
        { obj := chunked, error := exec.error, overrun := exec.overrun } with
        ⟨none_ | ⟨value, behind⟩, decoded⟩
      · rw [outcome] at same
        simp [← same]
      · rw [outcome] at same quiet
        have error : decoded.error = exec.error := quiet same.symm
        simp [← same, error]

/-- What it takes to return true with a header that has been read up to `rest`. -/
def Completes (env : ParseEnv) (window rest : Bytes) (error : ErrorHandler) (chunked : ChunkBuf) :
    Prop :=
  error.event = false ∧
    if startsRequest window then queryRefused (queryText env.stale (uriBytes window)) = false
    else saysChunked (fieldEntries (behindLine window)) = true →
      rest ≠ [] ∧ decodes env.realloc (memoryOf (rest ++ env.stale))
        (window.length - rest.length) chunked = true

/-- A header that is read shows, and what the parsers return true for. -/
theorem parseStartLine_of_some (trimmed : window.dropWhile isspace = window)
    (fresh : exec.obj.msgHdrs = [])
    (read : Grammar.cond startsRequest (requestGrammar env.stale) responseGrammar window =
      some rest) :
    (parseStartLine env window exec chunked).exec.obj.msgType ≠ .notReady ∧
      (Succeeds (parseStartLine env window exec chunked) ↔
        Completes env window rest exec.error chunked) := by
  unfold Grammar.cond at read
  unfold Completes
  cases starts : startsRequest window with
  | true =>
      rw [if_pos starts, ← run_seq_of_trimmed trimmed (requestGrammar env.stale)] at read
      obtain ⟨_, exec', ran, -⟩ :=
        (recognizes_parseRequestHdr env.stale env.defaultPort).goes read exec
      obtain ⟨typed, event⟩ := parseRequestHdr_shows trimmed ran
      rw [parseStartLine_of_request starts, ran]
      refine ⟨by simp [typed], ?_⟩
      simp [Succeeds, event]
  | false =>
      rw [if_neg (by simp [starts]), ← run_seq_of_trimmed trimmed responseGrammar] at read
      obtain ⟨_, exec', ran, same⟩ := (recognizes_parseResponseHeader ofError_error).goes read exec
      have typed := parseResponseHeader_shows ran
      have stored := (parseResponseHeader_reads trimmed fresh ran).2.2.2
      rw [parseStartLine_of_response starts, parseResponseHdr, ran]
      dsimp only
      refine ⟨by rw [msgType_finishResponse, typed]; decide, ?_⟩
      rw [finishResponse_succeeds_iff, same, isChunked_eq, stored]
      simp

/-! ## InitFromBuf -/

/-- When `InitFromBuf` returns false, no header can be seen. -/
def FailsClean (env : ParseEnv) (buf : Bytes) (exec : Exec HTTPFraming) (chunked : ChunkBuf) :
    Prop :=
  (initFromBuf env buf exec chunked).bytesUsed = none →
    ShowsNothing (initFromBuf env buf exec chunked).exec.obj

theorem obj_concluded (front : Nat) (result : ParseResult) :
    (concluded front result).exec.obj = result.exec.obj := by
  unfold concluded
  split
  · rfl
  · rfl

/-- `InitFromBuf` returns false for what its parsers refuse and for an event. -/
theorem concluded_eq_none_iff (front : Nat) (result : ParseResult) :
    (concluded front result).bytesUsed = none ↔ ¬Succeeds result := by
  unfold concluded Succeeds
  cases result.exec.error.event with
  | true => simp
  | false => simp

/-- `InitFromBuf` leaves nothing behind when it returns false, exactly when it returns true for
every header that it reads: no event is pending and the query of a request is not refused; a
chunked body that the fields of a response announce is there and is decoded. -/
theorem initFromBuf_failsClean_iff (env : ParseEnv) (buf : Bytes) (exec : Exec HTTPFraming)
    (chunked : ChunkBuf) :
    FailsClean env buf exec chunked ↔
      ∀ rest, headerGrammar env.stale (buf.dropWhile isspace) = some rest →
        Completes env (buf.dropWhile isspace) rest exec.error chunked := by
  have trimmed : (buf.dropWhile isspace).dropWhile isspace = buf.dropWhile isspace :=
    List.dropWhile_idempotent _ _
  cases starts : startsRequest (buf.dropWhile isspace) || startsResponse (buf.dropWhile isspace) with
  | false =>
      refine iff_of_true ?_ ?_
      · intro _
        unfold initFromBuf
        simp only [starts, Bool.false_eq_true, ↓reduceIte]
        split
        · exact ⟨rfl, rfl⟩
        · exact ⟨rfl, rfl⟩
      · intro rest read
        rw [Bool.or_eq_false_iff] at starts
        simp [headerGrammar, Grammar.cond, starts] at read
  | true =>
      have same : headerGrammar env.stale (buf.dropWhile isspace) =
          Grammar.cond startsRequest (requestGrammar env.stale) responseGrammar
            (buf.dropWhile isspace) := by
        unfold headerGrammar Grammar.cond
        cases request : startsRequest (buf.dropWhile isspace) with
        | true => rfl
        | false =>
            rw [request, Bool.false_or] at starts
            simp [starts]
      unfold FailsClean
      rw [initFromBuf_of_starts starts, obj_concluded, concluded_eq_none_iff, same]
      cases read : Grammar.cond startsRequest (requestGrammar env.stale) responseGrammar
        (buf.dropWhile isspace) with
      | none =>
          refine iff_of_true (fun _ => parseStartLine_of_none trimmed ⟨rfl, rfl⟩ read) ?_
          intro rest found
          cases found
      | some rest =>
          obtain ⟨shows, succeeds⟩ := @parseStartLine_of_some env (buf.dropWhile isspace) rest
            { exec with obj := {} } chunked trimmed rfl read
          rw [succeeds]
          constructor
          · intro clean rest' found
            cases found
            by_contra incomplete
            exact shows (clean incomplete).1
          · intro complete incomplete
            exact absurd (complete rest rfl) incomplete

/-- The header of a response that announces a chunked body. -/
def announcesChunks : Bytes :=
  ascii "HTTP/1.1 200 OK\r\nTransfer-Encoding: chunked\r\n\r\n"

/-- Nothing of the body has come yet: the fields are cleared, the type is not. -/
theorem initFromBuf_shows_response :
    ¬ ∀ (env : ParseEnv) (buf : Bytes) (exec : Exec HTTPFraming) (chunked : ChunkBuf),
        FailsClean env buf exec chunked := by
  intro always
  have clean := always { stale := [], realloc := fun _ _ => none } announcesChunks
    { obj := {}, error := {} } { msgBody := some [], size := 0 } (by decide +kernel)
  exact absurd clean.1 (by decide +kernel)

end HTTPFraming

end IpUtils
