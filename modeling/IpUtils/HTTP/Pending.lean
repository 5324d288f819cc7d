import IpUtils.HTTP.Locality

/-! # A pending error

The parsers only ever add to the error: what holds of the error before a call and of every
event holds behind it. An event that is raised before a call is still raised then, and
`InitFromBuf` takes it for one of its own.
-/

namespace IpUtils

open CLib

open Scanner

/-- An error that is no event is empty. -/
def ErrorHandler.Proper (error : ErrorHandler) : Prop :=
  error.event = true ∨ error = {}

theorem ErrorHandler.Proper.of_event {error : ErrorHandler} (raised : error.event = true) :
    error.Proper :=
  Or.inl raised

variable {kept : ErrorHandler → Prop}

namespace URL

/-- Reading a URL only adds to the error. -/
theorem initFromBuf_keepsError (raised : ∀ error, error.event = true → kept error) (stale : Bytes)
    (defaultPort : UInt16) :
    Keeps (fun exec : Exec URL => kept exec.error) (initFromBuf stale defaultPort) := by
  have robust : Robust fun exec : Exec URL => kept exec.error := Robust.of_error raised
  have change {change : URL → URL} :
      Keeps (fun exec : Exec URL => kept exec.error) (Parse.assign change) :=
    Keeps.assign fun _ holds => holds
  have scheme : Keeps (fun exec : Exec URL => kept exec.error) parseScheme :=
    (Keeps.token robust _ _).bind fun _ => change.bind fun _ => Keeps.advanceBy 3
  have host : Keeps (fun exec : Exec URL => kept exec.error) parseHost :=
    (Keeps.word robust _ _).bind fun _ => change
  have port : Keeps (fun exec : Exec URL => kept exec.error) (parsePort defaultPort) :=
    whenAt_keeps ((Keeps.word robust _ _).bind fun _ => change) change
  have path : Keeps (fun exec : Exec URL => kept exec.error) parsePath :=
    whenAt_keeps ((Keeps.word robust _ _).bind fun _ =>
      Keeps.update (setPath_keeps robust (fun _ _ _ _ holds => holds) _ _)) (Keeps.pure _)
  have query : Keeps (fun exec : Exec URL => kept exec.error) parseQuery :=
    whenAt_keeps ((Keeps.word robust _ _).bind fun _ =>
      Keeps.update (setQuery_keeps robust (fun _ _ holds => holds) _ _)) (Keeps.pure _)
  have fragment : Keeps (fun exec : Exec URL => kept exec.error) parseFragment :=
    whenAt_keeps ((Keeps.word robust _ _).bind fun _ => change) (Keeps.pure _)
  have hierarchy : Keeps (fun exec : Exec URL => kept exec.error)
      (parseHierarchy defaultPort) :=
    host.bind fun _ => port.bind fun _ => path.bind fun _ => query.bind fun _ => fragment
  have start : Keeps (fun exec : Exec URL => kept exec.error) parseStart :=
    change.bind fun _ => (Keeps.current _).bind fun _ => Keeps.ite Keeps.stop (Keeps.skip _)
  exact start.bind fun _ => (Keeps.lookahead _).bind fun _ =>
    Keeps.ite (scheme.bind fun _ => hierarchy) hierarchy

end URL

namespace HTTPFraming

theorem error_abandonResponse (raised : ∀ error, error.event = true → kept error)
    {exec : Exec HTTPFraming} (holds : kept exec.error) : kept (abandonResponse exec).error := by
  unfold abandonResponse appendIfEvent
  split
  · exact raised _ (ErrorHandler.event_appendMsg ..)
  · exact holds

/-- Reading on behind the URI only adds to the error. -/
theorem parseBehindUri_keepsError (raised : ∀ error, error.event = true → kept error) :
    Keeps (fun exec : Exec HTTPFraming => kept exec.error)
      (parseRequestVersion >>= fun _ => parseRequestFields >>= fun _ =>
        Parse.assign fun http : HTTPFraming => { http with msgType := .request }) := by
  have robust : Robust fun exec : Exec HTTPFraming => kept exec.error := Robust.of_error raised
  have version : Keeps (fun exec : Exec HTTPFraming => kept exec.error)
      parseRequestVersion :=
    parseRequestVersion_keeps robust fun _ _ _ holds => holds
  have fields : Keeps (fun exec : Exec HTTPFraming => kept exec.error)
      parseRequestFields :=
    parseRequestFields_keeps robust fun _ _ holds => holds
  exact version.bind fun _ => fields.bind fun _ => Keeps.assign fun _ holds => holds

theorem parseRequestHdr_keepsError (raised : ∀ error, error.event = true → kept error)
    (stale : Bytes) (defaultPort : UInt16) :
    Keeps (fun exec : Exec HTTPFraming => kept exec.error)
      (parseRequestHdr stale defaultPort) := by
  have robust : Robust fun exec : Exec HTTPFraming => kept exec.error := Robust.of_error raised
  have method : Keeps (fun exec : Exec HTTPFraming => kept exec.error) parseMethod :=
    parseMethodFrom_keeps robust (fun _ _ holds => holds) _
  have uri : Keeps (fun exec : Exec HTTPFraming => kept exec.error)
      (onUri (URL.initFromBuf stale defaultPort)) :=
    Keeps.zoom (URL.initFromBuf_keepsError raised stale defaultPort) (fun _ holds => holds)
      fun _ _ _ holds => holds
  exact (Keeps.skipWhile _).bind fun _ => (atLeast_keeps 16).bind fun _ =>
    method.bind fun _ => (Keeps.expectStep robust _ _).bind fun _ =>
      uri.bind fun _ => parseBehindUri_keepsError raised

theorem parseResponseHeader_keepsError (raised : ∀ error, error.event = true → kept error) :
    Keeps (fun exec : Exec HTTPFraming => kept exec.error) parseResponseHeader := by
  have robust : Robust fun exec : Exec HTTPFraming => kept exec.error := Robust.of_error raised
  have status : Keeps (fun exec : Exec HTTPFraming => kept exec.error) parseStatusLine :=
    parseStatusLine_keeps robust fun _ _ _ _ holds => holds
  have ended : Keeps (fun exec : Exec HTTPFraming => kept exec.error) parseEmptyLine :=
    Keeps.onStop (Keeps.step.bind fun _ => (Keeps.require robust _ _ _).bind fun _ =>
      Keeps.bind (Keeps.assign fun _ holds => holds) fun _ => Keeps.advance) fun _ holds => holds
  exact (Keeps.skipWhile _).bind fun _ => status.bind fun _ =>
    (Keeps.onStop (parseMsgHdrs_keeps robust fun _ _ holds => holds) fun _ holds =>
      error_abandonResponse raised holds).bind fun _ => ended

theorem parseChunkedMsgBody_keepsError (raised : ∀ error, error.event = true → kept error)
    (realloc : Realloc) (buf : Stream' UInt8) (len : Nat)
    {exec : Exec ChunkBuf} (holds : kept exec.error) :
    kept (parseChunkedMsgBody realloc buf len exec).2.error := by
  have robust : Robust fun exec : Exec ChunkBuf => kept exec.error := Robust.of_error raised
  have size : Keeps (fun exec : Exec ChunkBuf => kept exec.error) parseChunkSize :=
    (Keeps.token robust _ _).bind fun _ => (Keeps.expectStep robust _ _).bind fun _ =>
      (Keeps.expectStep robust _ _).bind fun _ => Keeps.pure _
  have room (count : Nat) (chunkSize : Int) :
      Keeps (fun exec : Exec ChunkBuf => kept exec.error)
        (reserve realloc count chunkSize) := by
    intro window exec holds
    unfold reserve
    split
    · exact holds
    · dsimp only
      split
      · exact raised _ (ErrorHandler.event_init ..)
      · exact holds
  have stored (count : Nat) (data : Bytes) :
      Keeps (fun exec : Exec ChunkBuf => kept exec.error)
        (Scanner.update (storeBody count data) : Parse ChunkBuf Unit) :=
    Keeps.update fun _ holds => holds
  have data (beyond : Stream' UInt8) (count : Nat) :
      Keeps (fun exec : Exec ChunkBuf => kept exec.error) (parseChunkData beyond count) :=
    (Keeps.takeWhile _).bind fun _ => (stored _ _).bind fun _ => Keeps.need.bind fun _ =>
      (Keeps.expectStep robust _ _).bind fun _ => (Keeps.require robust _ _ _).bind fun _ =>
        (Keeps.slide _).bind fun _ => Keeps.pure _
  have round (place : Nat × Stream' UInt8) :
      Keeps (fun exec : Exec ChunkBuf => kept exec.error) (parseChunk realloc place) :=
    size.bind fun _ => Keeps.ite ((stored _ _).bind fun _ => Keeps.pure _)
      ((room _ _).bind fun _ => (data _ _).bind fun _ => Keeps.pure _)
  unfold parseChunkedMsgBody
  split
  · exact raised _ (ErrorHandler.event_init ..)
  · exact ((Keeps.skipWhile _).bind fun _ => Keeps.iterate round _) _ exec holds

theorem finishResponse_keepsError (raised : ∀ error, error.event = true → kept error)
    {exec : Exec HTTPFraming} (holds : kept exec.error) (env : ParseEnv) (used : Nat)
    (rest : Bytes) (chunked : ChunkBuf) :
    kept (finishResponse env used rest exec chunked).exec.error := by
  unfold finishResponse
  split
  · exact holds
  split
  · exact holds
  have decoded := @parseChunkedMsgBody_keepsError kept raised env.realloc
    (memoryOf (rest ++ env.stale)) used
    { obj := chunked, error := exec.error, overrun := exec.overrun } holds
  split
  · rename_i ran
    rw [ran] at decoded
    exact error_abandonResponse raised decoded
  · rename_i ran
    rw [ran] at decoded
    exact decoded

theorem parseStartLine_keepsError (raised : ∀ error, error.event = true → kept error)
    {exec : Exec HTTPFraming} (holds : kept exec.error) (env : ParseEnv) (window : Bytes)
    (chunked : ChunkBuf) : kept (parseStartLine env window exec chunked).exec.error := by
  unfold parseStartLine
  split
  · have after := parseRequestHdr_keepsError raised env.stale env.defaultPort window exec holds
    split
    · rename_i ran
      rw [ran] at after
      exact after
    · rename_i ran
      rw [ran] at after
      exact after
  · have after := parseResponseHeader_keepsError raised window exec holds
    unfold parseResponseHdr
    split
    · rename_i ran
      rw [ran] at after
      exact after
    · rename_i ran
      rw [ran] at after
      exact finishResponse_keepsError raised after ..

/-- With an event pending nothing is accepted. -/
theorem initFromBuf_pending {exec : Exec HTTPFraming} (raised : exec.error.event = true)
    (env : ParseEnv) (buf : Bytes) (chunked : ChunkBuf) :
    (initFromBuf env buf exec chunked).bytesUsed = none ∧
      (initFromBuf env buf exec chunked).exec.error.event = true := by
  unfold initFromBuf
  dsimp only
  split
  · rw [if_pos (@parseStartLine_keepsError (fun error => error.event = true)
      (fun _ event => event) _ (by exact raised) ..)]
    exact ⟨rfl, ErrorHandler.event_appendMsg ..⟩
  · split
    · exact ⟨rfl, ErrorHandler.event_init ..⟩
    · exact ⟨rfl, raised⟩

theorem initFromBuf_proper {exec : Exec HTTPFraming} (proper : exec.error.Proper)
    (env : ParseEnv) (buf : Bytes) (chunked : ChunkBuf) :
    (initFromBuf env buf exec chunked).exec.error.Proper := by
  unfold initFromBuf
  dsimp only
  split
  · split_ifs
    · exact .of_event (ErrorHandler.event_appendMsg ..)
    · exact parseStartLine_keepsError (fun _ => .of_event) (by exact proper) ..
  · split
    · exact .of_event (ErrorHandler.event_init ..)
    · exact proper

/-- An event that the parser raises makes it refuse. -/
theorem initFromBuf_of_event {exec : Exec HTTPFraming} {env : ParseEnv} {buf : Bytes}
    {chunked : ChunkBuf} (raised : (initFromBuf env buf exec chunked).exec.error.event = true) :
    (initFromBuf env buf exec chunked).bytesUsed = none := by
  unfold initFromBuf at raised ⊢
  dsimp only at raised ⊢
  split at raised
  · rename_i starts
    rw [if_pos starts]
    split at raised
    · rename_i event
      rw [if_pos event]
    · rename_i calm
      exact absurd raised calm
  · rename_i other
    rw [if_neg other]
    split <;> rfl

end HTTPFraming

end IpUtils
