import IpUtils.HTTP.ChunkScan
import IpUtils.HTTP.Parse

/-! # How much a header can claim

A header and the decoded body behind it are not longer than the bytes that were looked at.
The decoder looks at as many bytes behind the header as the header has.
-/

namespace IpUtils

open CLib Scanner

namespace HTTPFraming

/-- A string that has been ended with a NUL is not longer than that. -/
theorem length_cstr_store_zero (array : Bytes) (count : Nat) :
    (cstr (store array count [0])).length ≤ count := by
  by_cases fits : count + ([0] : Bytes).length ≤ array.length
  · rw [store_of_fits fits, List.append_assoc]
    have front : (array.take count).length = count := by
      rw [List.length_take]
      rw [List.length_singleton] at fits
      omega
    unfold cstr
    rw [List.takeWhile_append]
    split
    · rw [List.length_append, List.cons_append, List.takeWhile_cons_of_neg (by simp), List.length_nil,
        front]
      exact le_refl _
    · exact ((List.takeWhile_prefix _).length_le).trans front.le
  · refine ((List.takeWhile_prefix _).length_le).trans ?_
    rw [List.length_singleton] at fits
    have beyond : array.length ≤ count := by omega
    simp only [store, List.length_append, List.length_take, List.length_drop, List.length_singleton]
    omega

section Decoder

variable {realloc : Realloc} {count len : Nat} {exec exec' : Exec ChunkBuf} {text rest : Bytes}
  {beyond buf : Stream' UInt8}

/-- The decoded body is not longer than the bytes that have been counted. -/
theorem iterate_bound
    (ran : Scanner.iterate (parseChunk realloc) (count, beyond) text exec =
      (some ((), rest), exec')) :
    (cstr (exec'.obj.msgBody.getD [])).length + rest.length ≤ count + text.length := by
  induction size : text.length using Nat.strongRecOn generalizing count beyond text exec with
  | ind size ih =>
      rcases iterate_eq_some ran with
        ⟨line, rfl, -, -, -, rfl⟩ | ⟨line, data, more, ready, rfl, -, -, -, -, ran⟩
      · have short := length_cstr_store_zero ((sized line exec).obj.msgBody.getD []) count
        simp only [storeBody, Option.getD_some]
        simp only [List.length_append, List.length_cons] at size
        omega
      · simp only [List.length_append, List.length_cons] at size
        have inner := ih (more.length + 1) (by omega) ran (by simp)
        omega

theorem parseChunkedMsgBody_bound
    (ran : parseChunkedMsgBody realloc buf len exec = (some ((), rest), exec')) :
    (cstr (exec'.obj.msgBody.getD [])).length + rest.length ≤ len := by
  rw [parseChunkedMsgBody] at ran
  split at ran
  · cases ran
  · have bound := @iterate_bound realloc 0 exec exec' ((buf.take len).dropWhile isspace) rest _ ran
    have shorter := (List.dropWhile_suffix isspace (l := buf.take len)).length_le
    rw [Stream'.length_take] at shorter
    omega

end Decoder

/-- The outcome of a parser on a window of some length: what it has used, and the decoded
body. -/
def Bounded (length : Nat) (chunked : ChunkBuf) (result : ParseResult) : Prop :=
  ∀ used, result.bytesUsed = some used →
    used ≤ 2 * length ∧
      (result.chunked = chunked ∨
        (cstr (result.chunked.msgBody.getD [])).length ≤ min length used)

theorem finishResponse_bounded (env : ParseEnv) {used length : Nat} (within : used ≤ length)
    (rest : Bytes) (exec : Exec HTTPFraming) (chunked : ChunkBuf) :
    Bounded length chunked (finishResponse env used rest exec chunked) := by
  intro total accepted
  unfold finishResponse at accepted ⊢
  split at accepted
  · rename_i plain
    rw [if_pos plain]
    cases accepted
    exact ⟨by omega, Or.inl rfl⟩
  · rename_i notPlain
    rw [if_neg notPlain]
    split at accepted
    · cases accepted
    · rename_i inhabited
      rw [if_neg inhabited]
      generalize ran : parseChunkedMsgBody env.realloc (memoryOf (rest ++ env.stale)) used
        { obj := chunked, error := exec.error, overrun := exec.overrun } = outcome at accepted ⊢
      match outcome, accepted with
      | (some ((), left), decoded), accepted =>
          have bound := parseChunkedMsgBody_bound ran
          cases accepted
          dsimp only
          exact ⟨by omega, Or.inr (by omega)⟩

theorem parseStartLine_bounded (env : ParseEnv) (window : Bytes) (exec : Exec HTTPFraming)
    (chunked : ChunkBuf) : Bounded window.length chunked (parseStartLine env window exec chunked) := by
  unfold parseStartLine
  split
  · intro used accepted
    split at accepted
    · cases accepted
    · cases accepted
      exact ⟨by omega, Or.inl rfl⟩
  · unfold parseResponseHdr
    split
    · intro used accepted
      cases accepted
    · exact finishResponse_bounded env (Nat.sub_le _ _) _ _ _

/-- What `InitFromBuf` says that it has used, and the body that it has decoded. -/
theorem initFromBuf_bounded (env : ParseEnv) (buf : Bytes) (exec : Exec HTTPFraming)
    (chunked : ChunkBuf) : Bounded buf.length chunked (initFromBuf env buf exec chunked) := by
  have shorter := (List.dropWhile_suffix isspace (l := buf)).length_le
  have inner := parseStartLine_bounded env (buf.dropWhile isspace) { exec with obj := clear exec.obj }
    chunked
  unfold initFromBuf
  dsimp only
  intro total accepted
  split at accepted
  · rename_i starts
    rw [if_pos starts]
    split at accepted
    · cases accepted
    · rename_i quiet
      rw [if_neg quiet]
      obtain ⟨used, given, rfl⟩ := Option.map_eq_some_iff.mp accepted
      obtain ⟨most, same | short⟩ := inner used given
      · exact ⟨by omega, Or.inl same⟩
      · exact ⟨by omega, Or.inr (by dsimp only; omega)⟩
  · split at accepted
    · cases accepted
    · cases accepted

end HTTPFraming

end IpUtils
