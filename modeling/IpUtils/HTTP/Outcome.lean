import IpUtils.HTTP.FieldNames
import IpUtils.HTTP.Bound

/-! # What the outcome of `InitFromBuf` tells

Without an error, a header that is not accepted leaves no field behind. One that is
accepted has taken a byte at least, and the body that has been decoded with it is shorter
than what was looked at and what was taken.
-/

namespace IpUtils

open CLib Scanner

namespace HTTPFraming

/-- No field has been stored. -/
def Empty (exec : Exec HTTPFraming) : Prop :=
  exec.obj.msgHdrs = []

theorem empty_clearHdrs (exec : Exec HTTPFraming) : Empty (clearHdrs exec) :=
  rfl

theorem empty_abandonResponse (exec : Exec HTTPFraming) : Empty (abandonResponse exec) :=
  rfl

variable {env : ParseEnv} {buf window rest : Bytes} {exec exec' : Exec HTTPFraming}
  {chunked : ChunkBuf} {used : Nat}

/-! ## Headers that are not accepted -/

theorem parseRequestHdr_stopsIn (stale : Bytes) (defaultPort : UInt16) :
    StopsIn Empty (parseRequestHdr stale defaultPort) := by
  have robust : Robust Empty := robust_empty
  have fields : StopsIn Empty parseRequestFields :=
    fun window exec _ => onStop_stops empty_clearHdrs _ window exec
  exact .bind (Keeps.skipWhile _) fun _ => .bind (atLeast_keeps 16) fun _ =>
    .bind (keeps_parseMethodFrom _) fun _ => .bind (Keeps.expectStep robust _ _) fun _ =>
      .bind (keeps_onUri _) fun _ => .bind keeps_parseRequestVersion fun _ =>
        .bind_of_stops fields fun _ _ _ stopped => nomatch stopped

theorem parseResponseHeader_stopsIn : StopsIn Empty parseResponseHeader := by
  have fields : StopsIn Empty (Scanner.onStop abandonResponse parseMsgHdrs) :=
    fun window exec _ => onStop_stops empty_abandonResponse _ window exec
  exact .bind (Keeps.skipWhile _) fun _ => .bind keeps_parseStatusLine fun _ =>
    .bind_of_stops fields fun _ => onStop_stops empty_clearHdrs _

theorem parseStartLine_unread (env : ParseEnv) (window : Bytes) (clean : Empty exec)
    (unread : (parseStartLine env window exec chunked).bytesUsed = none) :
    Empty (parseStartLine env window exec chunked).exec := by
  unfold parseStartLine at unread ⊢
  split
  · rename_i starts
    rw [if_pos starts] at unread
    have stops := parseRequestHdr_stopsIn env.stale env.defaultPort window exec clean
    cases outcome : parseRequestHdr env.stale env.defaultPort window exec with
    | mk reply exec' =>
        rw [outcome] at unread stops
        cases reply with
        | none => exact stops rfl
        | some delivered => cases unread
  · rename_i other
    rw [if_neg other] at unread
    unfold parseResponseHdr at unread ⊢
    have stops := parseResponseHeader_stopsIn window exec clean
    cases outcome : parseResponseHeader window exec with
    | mk reply exec' =>
        rw [outcome] at unread stops
        cases reply with
        | none => exact stops rfl
        | some delivered =>
            dsimp only at unread ⊢
            unfold finishResponse at unread ⊢
            split
            · rename_i plain
              rw [if_pos plain] at unread
              cases unread
            · rename_i notPlain
              rw [if_neg notPlain] at unread
              split
              · rfl
              · rename_i inhabited
                rw [if_neg inhabited] at unread
                split
                · rfl
                · rename_i decoded
                  rw [decoded] at unread
                  cases unread

/-- A header that is not accepted, without an error, leaves no field behind. -/
theorem initFromBuf_unread (unread : (initFromBuf env buf exec chunked).bytesUsed = none)
    (quiet : (initFromBuf env buf exec chunked).exec.error.event = false) :
    Empty (initFromBuf env buf exec chunked).exec := by
  cases starts : startsRequest (buf.dropWhile isspace) || startsResponse (buf.dropWhile isspace) with
  | false =>
      unfold initFromBuf
      simp only [starts, Bool.false_eq_true, ↓reduceIte]
      split <;> rfl
  | true =>
      rw [initFromBuf_of_starts starts] at unread quiet ⊢
      unfold concluded at unread quiet ⊢
      split
      · rename_i raised
        rw [if_pos raised, ErrorHandler.event_appendMsg] at quiet
        cases quiet
      · rename_i calm
        rw [if_neg calm] at unread
        exact parseStartLine_unread env _ rfl (Option.map_eq_none_iff.mp unread)

/-! ## Headers that are accepted -/

/-- A byte has been taken at least, and what was decoded is shorter than what was looked
at and what was taken. -/
def Consumes (length : Nat) (chunked : ChunkBuf) (result : ParseResult) : Prop :=
  ∀ used, result.bytesUsed = some used →
    0 < used ∧
      (result.chunked = chunked ∨
        (cstr (result.chunked.msgBody.getD [])).length < min length used)

theorem parseRequestHdr_shorter {stale : Bytes} {defaultPort : UInt16}
    (trimmed : window.dropWhile isspace = window)
    (ran : parseRequestHdr stale defaultPort window exec = (some ((), rest), exec')) :
    rest.length < window.length := by
  obtain ⟨-, exec₁, start, finish⟩ := (parseRequestHdr_eq_some_iff trimmed).mp ran
  have taken := parseFromUri_readsAtLeast _ _ _ _ _ finish
  have front := (parseBeforeUri_local.suffix start).length_le
  omega

theorem parseResponseHeader_shorter
    (ran : parseResponseHeader window exec = (some ((), rest), exec')) :
    rest.length < window.length := by
  obtain ⟨_, window₁, exec₁, skipped, ran⟩ := bind_eq_some ran
  have front := ((Local.skipWhile isspace).suffix skipped).length_le
  obtain ⟨_, window₂, exec₂, line, ran⟩ := bind_eq_some ran
  have status : ReadsAtLeast 5 parseStatusLine :=
    .bind_left (parseVersion_readsAtLeast _ _) fun _ => (Local.expectStep _ _).bind fun _ =>
      number_local.bind fun _ => (Local.assign _).bind fun _ => (Local.expectStep _ _).bind fun _ =>
        (Local.token _ _).bind fun _ => (Local.expectStep _ _).bind fun _ => Local.expectStep _ _
  have taken := status _ _ _ _ _ line
  have behind := ((Closed.bind (Local.onStop _ parseMsgHdrs_local) fun _ =>
    parseEmptyLine_closed).suffix ran).length_le
  omega

theorem finishResponse_consumes (env : ParseEnv) {length : Nat} (taken : 0 < used)
    (whole : used + rest.length ≤ length) (exec : Exec HTTPFraming) (chunked : ChunkBuf) :
    Consumes length chunked (finishResponse env used rest exec chunked) := by
  intro total accepted
  unfold finishResponse at accepted ⊢
  split at accepted
  · rename_i plain
    rw [if_pos plain]
    cases accepted
    exact ⟨taken, Or.inl rfl⟩
  · rename_i notPlain
    rw [if_neg notPlain]
    split at accepted
    · cases accepted
    · rename_i inhabited
      rw [if_neg inhabited]
      have some_ : 0 < rest.length := List.length_pos_iff.mpr (by simpa using inhabited)
      generalize ran : parseChunkedMsgBody env.realloc (memoryOf (rest ++ env.stale)) used
        { obj := chunked, error := exec.error, overrun := exec.overrun } = outcome at accepted ⊢
      match outcome, accepted with
      | (some ((), left), decoded), accepted =>
          have bound := parseChunkedMsgBody_bound ran
          cases accepted
          dsimp only
          exact ⟨by omega, Or.inr (by omega)⟩

theorem parseStartLine_consumes (env : ParseEnv) (trimmed : window.dropWhile isspace = window)
    (exec : Exec HTTPFraming) (chunked : ChunkBuf) :
    Consumes window.length chunked (parseStartLine env window exec chunked) := by
  unfold parseStartLine
  split
  · intro used accepted
    cases outcome : parseRequestHdr env.stale env.defaultPort window exec with
    | mk reply exec' =>
        rw [outcome] at accepted
        cases reply with
        | none => cases accepted
        | some delivered =>
            have shorter := parseRequestHdr_shorter trimmed outcome
            cases accepted
            exact ⟨by omega, Or.inl rfl⟩
  · unfold parseResponseHdr
    cases outcome : parseResponseHeader window exec with
    | mk reply exec' =>
        cases reply with
        | none =>
            intro used accepted
            cases accepted
        | some delivered =>
            have shorter := parseResponseHeader_shorter outcome
            exact finishResponse_consumes env (by omega) (by omega) _ _

/-- What an accepted header has taken. -/
theorem initFromBuf_consumes (env : ParseEnv) (buf : Bytes) (exec : Exec HTTPFraming)
    (chunked : ChunkBuf) : Consumes buf.length chunked (initFromBuf env buf exec chunked) := by
  have shorter := (List.dropWhile_suffix isspace (l := buf)).length_le
  intro used accepted
  cases starts : startsRequest (buf.dropWhile isspace) || startsResponse (buf.dropWhile isspace) with
  | false =>
      rw [(@initFromBuf_of_not_starts env env _ _ _ starts).2] at accepted
      cases accepted
  | true =>
      rw [initFromBuf_of_starts starts] at accepted ⊢
      obtain ⟨inner, given, rfl⟩ := concluded_bytesUsed accepted
      rw [concluded_chunked]
      have consumes := parseStartLine_consumes env (List.dropWhile_idempotent _ _)
        { exec with obj := {} } chunked inner given
      rcases consumes with ⟨some_, same | short⟩
      · exact ⟨by omega, Or.inl same⟩
      · exact ⟨by omega, Or.inr (by omega)⟩

/-! ## Bodies that are not decoded -/

/-- A response header that is read shows. -/
theorem parseResponseHeader_shows
    (ran : parseResponseHeader window exec = (some ((), rest), exec')) :
    exec'.obj.msgType = .response := by
  obtain ⟨_, window₁, exec₁, -, ran₁⟩ := bind_eq_some ran
  obtain ⟨_, window₂, exec₂, -, ran₂⟩ := bind_eq_some ran₁
  obtain ⟨_, window₃, exec₃, -, ended⟩ := bind_eq_some ran₂
  obtain ⟨_, window₄, exec₄, -, ran₄⟩ := bind_eq_some (onStop_eq_some ended)
  obtain ⟨_, window₅, exec₅, -, ran₅⟩ := bind_eq_some ran₄
  obtain ⟨_, window₆, exec₆, typed, moved⟩ := bind_eq_some ran₅
  obtain ⟨rfl, rfl⟩ := update_eq_some typed
  obtain ⟨-, rfl⟩ := advance_eq_some moved
  rfl

theorem parseStartLine_undecoded (env : ParseEnv) {window : Bytes}
    (accepted : (parseStartLine env window exec chunked).bytesUsed = some used)
    (plain : (parseStartLine env window exec chunked).exec.obj.msgType = .response →
      (parseStartLine env window exec chunked).exec.obj.isChunked = false) :
    used ≤ window.length ∧ (parseStartLine env window exec chunked).chunked = chunked := by
  cases starts : startsRequest window with
  | true =>
      rw [parseStartLine_of_request starts] at accepted ⊢
      obtain ⟨delivered, -, rfl⟩ := Option.map_eq_some_iff.mp accepted
      exact ⟨Nat.sub_le _ _, rfl⟩
  | false =>
      rw [parseStartLine_of_response starts] at accepted plain ⊢
      obtain ⟨rest, exec', ran, same, whole⟩ := parseResponseHdr_eq_some accepted
      rw [same] at plain
      have notChunked := plain (parseResponseHeader_shows ran)
      rw [whole] at accepted ⊢
      simp only [finishResponse, notChunked, Bool.not_false, ↓reduceIte, Option.some.injEq]
        at accepted ⊢
      exact ⟨accepted ▸ Nat.sub_le _ _, trivial⟩

/-- A header that is accepted, unless it is that of a chunked response, ends inside the buffer,
and nothing is decoded. -/
theorem initFromBuf_undecoded (env : ParseEnv) {buf : Bytes}
    (accepted : (initFromBuf env buf exec chunked).bytesUsed = some used)
    (plain : (initFromBuf env buf exec chunked).exec.obj.msgType = .response →
      (initFromBuf env buf exec chunked).exec.obj.isChunked = false) :
    used ≤ buf.length ∧ (initFromBuf env buf exec chunked).chunked = chunked := by
  have shorter := (List.dropWhile_suffix isspace (l := buf)).length_le
  cases starts : startsRequest (buf.dropWhile isspace) || startsResponse (buf.dropWhile isspace) with
  | false =>
      rw [(@initFromBuf_of_not_starts env env _ _ _ starts).2] at accepted
      cases accepted
  | true =>
      rw [initFromBuf_of_starts starts] at accepted plain ⊢
      rw [concluded_obj] at plain
      obtain ⟨inner, given, rfl⟩ := concluded_bytesUsed accepted
      obtain ⟨within, same⟩ := parseStartLine_undecoded env given plain
      rw [concluded_chunked]
      exact ⟨by omega, same⟩

end HTTPFraming

end IpUtils
