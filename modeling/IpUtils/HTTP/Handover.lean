import IpUtils.HTTP.BodyStores
import IpUtils.HTTP.Window

/-! # What the chunk decoder is handed

`ParseResponseHdr` calls the chunk decoder with the length of the header in place of the number
of bytes that are left. The decoder comes to the same when the last chunk stands in both or in
neither.
-/

namespace IpUtils

open CLib Scanner

namespace HTTPFraming

/-! ## The last chunk -/

/-- The size of the last chunk stands in a text that starts with the size of a chunk, and a byte
behind its line. Behind every chunk the text goes on for one byte of the memory. -/
def reachesLast (beyond : Stream' UInt8) (text : Bytes) : Bool :=
  match _ : text.dropWhile isLineByte with
  | [] => false
  | [_] => false
  | _ :: lf :: body =>
      if lf ≠ 10 then false
      else if strtol 16 (cstr (text.takeWhile isLineByte)) = 0 then !body.isEmpty
      else
        match _ : body.dropWhile isLineByte with
        | [] => false
        | [_] => false
        | _ :: lf :: more =>
            if lf ≠ 10 then false else reachesLast beyond.tail (more ++ [beyond.head])
termination_by text.length
decreasing_by
  rename_i outer _ _ _ inner _
  have first := (List.dropWhile_suffix isLineByte (l := text)).length_le
  have second := (List.dropWhile_suffix isLineByte (l := body)).length_le
  rw [outer, List.length_cons, List.length_cons] at first
  rw [inner, List.length_cons, List.length_cons] at second
  rw [List.length_append, List.length_singleton]
  omega

/-- The last chunk stands in the first bytes of a memory, in front of which there may be white
space. -/
def hasLastChunk (buf : Stream' UInt8) (len : Nat) : Bool :=
  reachesLast (buf.drop len) ((buf.take len).dropWhile isspace)

section Reaches

variable {line data rest body : Bytes} {lf : UInt8} {beyond : Stream' UInt8}

theorem reachesLast_sizeLine (passes : ∀ c ∈ line, isLineByte c = true) :
    reachesLast beyond line = false := by
  have dropped := (takeWhile_of_all passes).2
  rw [reachesLast]
  split <;> rename_i shape <;> rw [dropped] at shape
  cases shape

theorem reachesLast_sizeCr (passes : ∀ c ∈ line, isLineByte c = true) :
    reachesLast beyond (line ++ [13]) = false := by
  have dropped := (takeWhile_of_delimited passes (show isLineByte 13 = false by decide) []).2
  rw [reachesLast]
  split <;> rename_i shape <;> rw [dropped] at shape
  cases shape

theorem reachesLast_body (passes : ∀ c ∈ line, isLineByte c = true) (lf : UInt8) (body : Bytes) :
    reachesLast beyond (line ++ 13 :: lf :: body) =
      if lf ≠ 10 then false
      else if strtol 16 (cstr line) = 0 then !body.isEmpty
      else
        match body.dropWhile isLineByte with
        | [] => false
        | [_] => false
        | _ :: lf :: more =>
            if lf ≠ 10 then false else reachesLast beyond.tail (more ++ [beyond.head]) := by
  obtain ⟨taken, dropped⟩ :=
    takeWhile_of_delimited passes (show isLineByte 13 = false by decide) (lf :: body)
  rw [reachesLast, taken]
  split <;> rename_i shape <;> rw [dropped] at shape
  · cases shape
  · cases shape
  · cases shape
    split
    · rfl
    · split
      · rfl
      · split <;> rename_i inner <;> rw [inner]

theorem reachesLast_data (passes : ∀ c ∈ line, isLineByte c = true)
    (size : strtol 16 (cstr line) ≠ 0) (body : Bytes) :
    reachesLast beyond (line ++ 13 :: 10 :: body) =
      match body.dropWhile isLineByte with
      | [] => false
      | [_] => false
      | _ :: lf :: more =>
          if lf ≠ 10 then false else reachesLast beyond.tail (more ++ [beyond.head]) := by
  rw [reachesLast_body passes, if_neg (by simp), if_neg size]

theorem reachesLast_chunk (passes : ∀ c ∈ line, isLineByte c = true)
    (size : strtol 16 (cstr line) ≠ 0) (inside : ∀ c ∈ data, isLineByte c = true)
    (rest : Bytes) :
    reachesLast beyond (line ++ 13 :: 10 :: (data ++ 13 :: 10 :: rest)) =
      reachesLast beyond.tail (rest ++ [beyond.head]) := by
  rw [reachesLast_data passes size, dropWhile_line inside]
  exact if_neg (by simp)

/-- A text with the last chunk starts with it, or with a chunk that is complete. -/
theorem reachesLast_cases {text : Bytes} (reaches : reachesLast beyond text = true) :
    (∃ line rest, text = line ++ 13 :: 10 :: rest ∧ (∀ c ∈ line, isLineByte c = true) ∧
      strtol 16 (cstr line) = 0 ∧ rest ≠ []) ∨
    ∃ line data rest, text = line ++ 13 :: 10 :: (data ++ 13 :: 10 :: rest) ∧
      (∀ c ∈ line, isLineByte c = true) ∧ strtol 16 (cstr line) ≠ 0 ∧
      (∀ c ∈ data, isLineByte c = true) ∧
      reachesLast beyond.tail (rest ++ [beyond.head]) = true := by
  cases chunkText text with
  | sizeLine passes => simp [reachesLast_sizeLine passes] at reaches
  | sizeCr passes => simp [reachesLast_sizeCr passes] at reaches
  | badSize passes other rest => simp [reachesLast_body passes, other] at reaches
  | @last line passes zero rest =>
      rw [reachesLast_body passes, if_neg (by simp), if_pos zero] at reaches
      exact .inl ⟨line, rest, rfl, passes, zero, by simpa using reaches⟩
  | data passes size inside =>
      rw [reachesLast_data passes size, (takeWhile_of_all inside).2] at reaches
      cases reaches
  | dataCr passes size inside =>
      rw [reachesLast_data passes size, dropWhile_line inside] at reaches
      cases reaches
  | badData passes size inside other rest =>
      rw [reachesLast_data passes size, dropWhile_line inside] at reaches
      simp [other] at reaches
  | @chunk line data passes size inside rest =>
      rw [reachesLast_chunk passes size inside] at reaches
      exact .inr ⟨line, data, rest, rfl, passes, size, inside, reaches⟩

end Reaches

section Decoder

variable {realloc : Realloc} {count len : Nat} {exec : Exec ChunkBuf} {text : Bytes}
  {beyond buf : Stream' UInt8}

/-- The decoder comes to an end with the last chunk only. -/
theorem reachesLast_of_iterate {left : Bytes} {exec' : Exec ChunkBuf}
    (ran : Scanner.iterate (parseChunk realloc) (count, beyond) text exec =
      (some ((), left), exec')) : reachesLast beyond text = true := by
  induction size : text.length using Nat.strongRecOn generalizing text beyond count exec with
  | ind size ih =>
      rcases iterate_eq_some ran with
        ⟨line, rfl, passes, zero, inhabited, -⟩ | ⟨line, data, rest, _, rfl, passes, more, inside, -, ran⟩
      · rw [reachesLast_body passes, if_neg (by simp), if_pos zero]
        simpa using inhabited
      · simp only [List.length_append, List.length_cons] at size
        rw [reachesLast_chunk passes more inside]
        exact ih (rest.length + 1) (by omega) ran (by simp)

/-- A text with the last chunk comes to the same when the window holds more of the memory: to
the end, unless there is no memory. -/
theorem iterate_of_reaches (more : Bytes) (beyond : Stream' UInt8)
    (reaches : reachesLast (more ++ₛ beyond) text = true) :
    (∃ left left' exec', left'.length = left.length + more.length ∧
      Scanner.iterate (parseChunk realloc) (count, more ++ₛ beyond) text exec =
        (some ((), left), exec') ∧
      Scanner.iterate (parseChunk realloc) (count, beyond) (text ++ more) exec =
        (some ((), left'), exec')) ∨
    ¬Reallocates realloc ∧
      (Scanner.iterate (parseChunk realloc) (count, more ++ₛ beyond) text exec).1 = none ∧
      (Scanner.iterate (parseChunk realloc) (count, beyond) (text ++ more) exec).1 = none := by
  induction size : text.length using Nat.strongRecOn
    generalizing text more beyond count exec with
  | ind size ih =>
      rcases reachesLast_cases reaches with
        ⟨line, rest, rfl, passes, zero, inhabited⟩ |
        ⟨line, data, rest, rfl, passes, nonzero, inside, reaches⟩
      · refine .inl ⟨rest, rest ++ more, _, List.length_append, iterate_last passes zero inhabited, ?_⟩
        rw [List.append_assoc, List.cons_append, List.cons_append,
          iterate_last passes zero (by simp [inhabited])]
      · simp only [List.length_append, List.length_cons] at size
        have shape : line ++ 13 :: 10 :: (data ++ 13 :: 10 :: rest) ++ more =
            line ++ 13 :: 10 :: (data ++ 13 :: 10 :: (rest ++ more)) := by simp
        rcases reserve_cases realloc count (strtol 16 (cstr line)) (sized line exec) with
          ⟨full, noRoom⟩ | ⟨ready, making⟩
        · refine .inr ⟨fun success => ?_, ?_, ?_⟩
          · obtain ⟨ready, -, making⟩ :=
              reserve_of_reallocates success count (strtol 16 (cstr line)) (sized line exec)
            have both := (noRoom []).symm.trans (making [])
            cases both
          · rw [iterate_noRoom passes nonzero (by simp) noRoom]
          · rw [shape, iterate_noRoom passes nonzero (by simp) noRoom]
        · rw [shape, iterate_chunk passes nonzero inside making,
            iterate_chunk passes nonzero inside making]
          -- the byte that comes into the shorter window is the first of `more`
          cases more with
          | nil =>
              rw [List.append_nil, Stream'.nil_append_stream]
              rw [Stream'.nil_append_stream] at reaches
              have next := @ih (rest.length + 1) (by omega) (count + data.length)
                (storeBody count data ready) (rest ++ [beyond.head]) [] beyond.tail reaches (by simp)
              rw [List.append_nil, Stream'.nil_append_stream] at next
              exact next
          | cons c more =>
              have shifted : (c :: more ++ₛ beyond).tail =
                  (more ++ [beyond.head]) ++ₛ beyond.tail := by
                rw [Stream'.cons_append_stream, Stream'.tail_cons, Stream'.append_append_stream,
                  Stream'.append_stream_head_tail]
              have first : (c :: more ++ₛ beyond).head = c := rfl
              rw [shifted, first] at reaches ⊢
              have next := @ih (rest.length + 1) (by omega) (count + data.length)
                (storeBody count data ready) (rest ++ [c]) (more ++ [beyond.head]) beyond.tail
                reaches (by simp)
              have longer : rest ++ [c] ++ (more ++ [beyond.head]) =
                  rest ++ c :: more ++ [beyond.head] := by simp
              have length : (more ++ [beyond.head]).length = (c :: more).length := by simp
              rw [longer, length] at next
              exact next

/-- The same for the whole decoder. -/
theorem parseChunkedMsgBody_of_not (misses : hasLastChunk buf len = false) :
    (parseChunkedMsgBody realloc buf len exec).1 = none := by
  unfold parseChunkedMsgBody
  split
  · rfl
  · rw [parseChunks_apply]
    cases ran : Scanner.iterate (parseChunk realloc) (0, buf.drop len)
        ((buf.take len).dropWhile isspace) exec with
    | mk reply exec' =>
        cases reply with
        | none => rfl
        | some delivered =>
            have reaches := reachesLast_of_iterate ran
            rw [hasLastChunk, reaches] at misses
            cases misses

/-- When the last chunk is in the shorter of two windows, both come to the same. -/
theorem parseChunkedMsgBody_of_has (has : hasLastChunk buf len = true) (behind : Nat) :
    (∃ left left' exec', left'.length = left.length + behind ∧
      parseChunkedMsgBody realloc buf len exec = (some ((), left), exec') ∧
      parseChunkedMsgBody realloc buf (len + behind) exec = (some ((), left'), exec')) ∨
    (Reallocates realloc → exec.obj.msgBody = none) ∧
      (parseChunkedMsgBody realloc buf len exec).1 = none ∧
      (parseChunkedMsgBody realloc buf (len + behind) exec).1 = none := by
  have memory : buf.drop len = (buf.drop len).take behind ++ₛ buf.drop (len + behind) := by
    rw [← Stream'.drop_drop, Stream'.append_take_drop]
  have window : (buf.take (len + behind)).dropWhile isspace =
      (buf.take len).dropWhile isspace ++ (buf.drop len).take behind := by
    rw [Stream'.take_add, List.dropWhile_append, if_neg]
    intro blank
    rw [List.isEmpty_iff] at blank
    rw [hasLastChunk, blank, reachesLast_sizeLine fun _ member => absurd member List.not_mem_nil] at has
    cases has
  cases body : exec.obj.msgBody with
  | none =>
      refine .inr ⟨fun _ => rfl, ?_, ?_⟩
      · simp only [parseChunkedMsgBody, body, Option.isNone_none, ↓reduceIte]
        rfl
      · simp only [parseChunkedMsgBody, body, Option.isNone_none, ↓reduceIte]
        rfl
  | some array =>
      rw [parseChunkedMsgBody_of_some body, parseChunkedMsgBody_of_some body, parseChunks_apply,
        parseChunks_apply, window]
      rw [hasLastChunk] at has
      have length : ((buf.drop len).take behind).length = behind := Stream'.length_take _ _
      generalize (buf.drop len).take behind = more at memory length ⊢
      rw [memory] at has ⊢
      rcases @iterate_of_reaches realloc 0 exec _ more _ has with
        ⟨left, left', exec', longer, runs, runs'⟩ | ⟨failing, stops, stops'⟩
      · exact .inl ⟨left, left', exec', length ▸ longer, runs, runs'⟩
      · exact .inr ⟨fun success => absurd success failing, stops, stops'⟩

end Decoder

/-! ## The response -/

section Response

variable {env : ParseEnv} {window rest : Bytes} {exec exec' : Exec HTTPFraming}
  {chunked : ChunkBuf}

/-- What `ParseResponseHdr` returns is what the decoder makes of the bytes behind the header:
with the same buffer, and as many bytes more as the header has. -/
def HandsUnread (env : ParseEnv) (header : Nat) (rest : Bytes) (exec : Exec HTTPFraming)
    (chunked : ChunkBuf) (result : ParseResult) : Prop :=
  match parseChunkedMsgBody env.realloc (memoryOf (rest ++ env.stale)) rest.length
      { obj := chunked, error := exec.error, overrun := exec.overrun } with
  | (none, _) => result.bytesUsed = none
  | (some (_, left), body) =>
      result.bytesUsed = some (header + (rest.length - left.length)) ∧ result.chunked = body.obj

/-- Two calls on one memory of which both or neither have a last chunk. -/
theorem parseChunkedMsgBody_alike {realloc : Realloc} {buf : Stream' UInt8} {first second : Nat}
    {state : Exec ChunkBuf} (same : hasLastChunk buf first = hasLastChunk buf second) :
    (∃ left left' body, first + left'.length = second + left.length ∧
      parseChunkedMsgBody realloc buf first state = (some ((), left), body) ∧
      parseChunkedMsgBody realloc buf second state = (some ((), left'), body)) ∨
    (parseChunkedMsgBody realloc buf first state).1 = none ∧
      (parseChunkedMsgBody realloc buf second state).1 = none := by
  by_cases has : hasLastChunk buf first = true
  swap
  · have misses : hasLastChunk buf first = false := by simpa using has
    exact .inr ⟨parseChunkedMsgBody_of_not misses, parseChunkedMsgBody_of_not (same ▸ misses)⟩
  rcases Nat.le_total first second with shorter | shorter
  · obtain ⟨behind, rfl⟩ := Nat.exists_eq_add_of_le shorter
    rcases @parseChunkedMsgBody_of_has realloc _ state _ has behind with
      ⟨left, left', body, longer, runs, runs'⟩ | ⟨-, stops, stops'⟩
    · exact .inl ⟨left, left', body, by omega, runs, runs'⟩
    · exact .inr ⟨stops, stops'⟩
  · obtain ⟨behind, rfl⟩ := Nat.exists_eq_add_of_le shorter
    rcases @parseChunkedMsgBody_of_has realloc _ state _ (same ▸ has) behind with
      ⟨left, left', body, longer, runs, runs'⟩ | ⟨-, stops, stops'⟩
    · exact .inl ⟨left', left, body, by omega, runs', runs⟩
    · exact .inr ⟨stops', stops⟩

variable {header : Nat} {result : ParseResult}

theorem handsUnread_of_none
    (ideal : (parseChunkedMsgBody env.realloc (memoryOf (rest ++ env.stale)) rest.length
      { obj := chunked, error := exec.error, overrun := exec.overrun }).1 = none) :
    HandsUnread env header rest exec chunked result ↔ result.bytesUsed = none := by
  unfold HandsUnread
  generalize parseChunkedMsgBody env.realloc _ rest.length _ = outcome at ideal ⊢
  obtain ⟨reply, body⟩ := outcome
  subst ideal
  exact Iff.rfl

theorem handsUnread_of_some {left : Bytes} {body : Exec ChunkBuf}
    (ideal : parseChunkedMsgBody env.realloc (memoryOf (rest ++ env.stale)) rest.length
      { obj := chunked, error := exec.error, overrun := exec.overrun } = (some ((), left), body)) :
    HandsUnread env header rest exec chunked result ↔
      result.bytesUsed = some (header + (rest.length - left.length)) ∧
        result.chunked = body.obj := by
  unfold HandsUnread
  rw [ideal]

theorem decoded_eq_none_iff {outcome : Option (Unit × Bytes) × Exec ChunkBuf} :
    (decoded header exec outcome).bytesUsed = none ↔ outcome.1 = none := by
  match outcome with
  | (none, _) => exact iff_of_true rfl rfl
  | (some _, _) => exact iff_of_false (Option.some_ne_none _) (Option.some_ne_none _)

/-- Then the one accepts what the other does. -/
theorem HandsUnread.eq_none_iff (hands : HandsUnread env header rest exec chunked result) :
    result.bytesUsed = none ↔
      (parseChunkedMsgBody env.realloc (memoryOf (rest ++ env.stale)) rest.length
        { obj := chunked, error := exec.error, overrun := exec.overrun }).1 = none := by
  cases outcome : parseChunkedMsgBody env.realloc (memoryOf (rest ++ env.stale)) rest.length
      { obj := chunked, error := exec.error, overrun := exec.overrun } with
  | mk reply body =>
      cases reply with
      | none =>
          rw [handsUnread_of_none (congrArg Prod.fst outcome)] at hands
          exact iff_of_true hands rfl
      | some delivered =>
          rw [handsUnread_of_some outcome] at hands
          rw [hands.1]
          exact iff_of_false (Option.some_ne_none _) (Option.some_ne_none _)

/-- The last chunk is reached with the number of the bytes behind the header and with the length
of the header, or with neither. -/
def SameLast (env : ParseEnv) (header : Nat) (rest : Bytes) : Prop :=
  rest = [] ∨ hasLastChunk (memoryOf (rest ++ env.stale)) header =
    hasLastChunk (memoryOf (rest ++ env.stale)) rest.length

theorem handsUnread_finishResponse (isChunked : exec.obj.isChunked = true)
    (same : SameLast env header rest) :
    HandsUnread env header rest exec chunked (finishResponse env header rest exec chunked) := by
  by_cases empty : rest = []
  · subst empty
    have misses : hasLastChunk (memoryOf ([] ++ env.stale)) 0 = false :=
      reachesLast_sizeLine fun _ member => absurd member List.not_mem_nil
    rw [handsUnread_of_none (parseChunkedMsgBody_of_not misses)]
    simp [finishResponse, isChunked]
  · rw [finishResponse_of_chunked isChunked empty]
    rcases @parseChunkedMsgBody_alike env.realloc _ _ _
        { obj := chunked, error := exec.error, overrun := exec.overrun }
        (same.resolve_left empty) with
      ⟨left, left', body, lengths, handedRuns, runs⟩ | ⟨handedStops, stops⟩
    · rw [handsUnread_of_some runs, handedRuns]
      refine ⟨congrArg some ?_, rfl⟩
      omega
    · rw [handsUnread_of_none stops]
      exact decoded_eq_none_iff.mpr handedStops

/-- With memory and a buffer, a text with the last chunk is decoded. -/
theorem parseChunkedMsgBody_of_reallocates {realloc : Realloc} (success : Reallocates realloc)
    {state : Exec ChunkBuf} (buffer : state.obj.msgBody ≠ none) {buf : Stream' UInt8} {len : Nat} :
    ((parseChunkedMsgBody realloc buf len state).1 = none) ↔ hasLastChunk buf len = false := by
  constructor
  · intro stops
    by_contra has
    rcases @parseChunkedMsgBody_of_has realloc len state buf (by simpa using has) 0 with
      ⟨left, _, body, -, runs, -⟩ | ⟨failing, -⟩
    · rw [runs] at stops
      cases stops
    · exact buffer (failing success)
  · exact parseChunkedMsgBody_of_not

theorem sameLast_of_handsUnread (isChunked : exec.obj.isChunked = true)
    (success : Reallocates env.realloc) (buffer : chunked.msgBody ≠ none)
    (hands : HandsUnread env header rest exec chunked
      (finishResponse env header rest exec chunked)) : SameLast env header rest := by
  by_cases empty : rest = []
  · exact .inl empty
  right
  rw [finishResponse_of_chunked isChunked empty] at hands
  have handedDecodes := @parseChunkedMsgBody_of_reallocates _ success
    { obj := chunked, error := exec.error, overrun := exec.overrun } buffer
    (memoryOf (rest ++ env.stale)) header
  have decodes := @parseChunkedMsgBody_of_reallocates _ success
    { obj := chunked, error := exec.error, overrun := exec.overrun } buffer
    (memoryOf (rest ++ env.stale)) rest.length
  have alike := hands.eq_none_iff
  rw [decoded_eq_none_iff, decodes] at alike
  have both := handedDecodes.symm.trans alike
  cases has : hasLastChunk (memoryOf (rest ++ env.stale)) rest.length with
  | true =>
      rw [has] at both
      simpa using both
  | false => exact both.mpr has

/-- A response whose header says that it is chunked is returned as the decoder returns the bytes
behind the header exactly when the last chunk is reached with their number and with the length of
the header, or with neither. -/
theorem parseResponseHdr_handsUnread
    (parsed : parseResponseHeader window exec = (some ((), rest), exec'))
    (isChunked : exec'.obj.isChunked = true) :
    (SameLast env (window.length - rest.length) rest →
      HandsUnread env (window.length - rest.length) rest exec' chunked
        (parseResponseHdr env window exec chunked)) ∧
    (Reallocates env.realloc → chunked.msgBody ≠ none →
      HandsUnread env (window.length - rest.length) rest exec' chunked
        (parseResponseHdr env window exec chunked) →
      SameLast env (window.length - rest.length) rest) := by
  have finishes : parseResponseHdr env window exec chunked =
      finishResponse env (window.length - rest.length) rest exec' chunked := by
    simp only [parseResponseHdr, parsed]
  rw [finishes]
  exact ⟨handsUnread_finishResponse isChunked, sameLast_of_handsUnread isChunked⟩

/-- A header that announces chunks. -/
def chunkedHeader : Bytes :=
  ascii "HTTP/1.1 200 OK\r\nTransfer-Encoding: chunked\r\n\r\n"

/-- A buffer that the decoder can fill. -/
def roomyBuf : ChunkBuf :=
  ⟨some (List.replicate 128 0), 128⟩

/-- A body with a chunk that is longer than the header. -/
def longBody : Bytes :=
  ascii "40\r\n" ++ List.replicate 64 97 ++ ascii "\r\n0\r\n\r\n"

theorem parseResponseHdr_handsUnread_sample :
    HandsUnread { stale := [], realloc := zeroed } 47 (ascii "3\r\nabc\r\n0\r\n\r\n")
      (parseResponseHeader (chunkedHeader ++ ascii "3\r\nabc\r\n0\r\n\r\n")
        { obj := {}, error := {} }).2 roomyBuf
      (parseResponseHdr { stale := [], realloc := zeroed }
        (chunkedHeader ++ ascii "3\r\nabc\r\n0\r\n\r\n") { obj := {}, error := {} } roomyBuf) :=
  (parseResponseHdr_handsUnread (Prod.ext (by decide +kernel) rfl) (by decide +kernel)).1
    (.inr (by decide +kernel))

/-- The decoder is handed the front of the long body, which it could decode whole. -/
theorem parseResponseHdr_cuts_body :
    ¬∀ window rest exec', parseResponseHeader window { obj := {}, error := {} } =
        (some ((), rest), exec') → exec'.obj.isChunked = true →
      HandsUnread { stale := [], realloc := zeroed } (window.length - rest.length) rest exec'
        roomyBuf (parseResponseHdr { stale := [], realloc := zeroed } window
          { obj := {}, error := {} } roomyBuf) := by
  intro always
  have accepted : (parseResponseHeader (chunkedHeader ++ longBody)
      { obj := {}, error := {} }).1 = some ((), longBody) := by decide +kernel
  have isChunked : (parseResponseHeader (chunkedHeader ++ longBody)
      { obj := {}, error := {} }).2.obj.isChunked = true := by decide +kernel
  have refused : (parseResponseHdr { stale := [], realloc := zeroed } (chunkedHeader ++ longBody)
      { obj := {}, error := {} } roomyBuf).bytesUsed = none := by decide +kernel
  cases outcome : parseResponseHeader (chunkedHeader ++ longBody) { obj := {}, error := {} } with
  | mk reply exec' =>
      rw [outcome] at accepted isChunked
      dsimp only at accepted isChunked
      subst accepted
      have hands := always _ _ _ outcome isChunked
      have stops := hands.eq_none_iff.mp refused
      rw [parseChunkedMsgBody_of_reallocates reallocates_zeroed (by simp [roomyBuf])] at stops
      revert stops
      decide +kernel

end Response

end HTTPFraming

end IpUtils
