import IpUtils.CLib.Memory
import IpUtils.Session.Conn

/-! # Lines from a connection

`TCPConn::ReadLine` asks `read(2)` for one byte at a time. A line ends at the delimiter,
at a carriage return and at a NUL, and what ends it is not stored; it also ends when the
buffer is full or the stream is over.
-/

namespace IpUtils

open CLib

namespace TCPConn

/-- What `read(2)` does when one byte is asked for. -/
inductive ByteReply where
  | received (c : UInt8)
  | endOfFile
  | failed (reason : Bytes)
  deriving DecidableEq, Repr

/-- What a call has done: the return value if it has returned, and the replies that are
left for the next call. -/
structure LineRead where
  value : Option Int
  eof : Bool
  buf : Bytes
  overrun : Bool
  error : ErrorHandler
  rest : List ByteReply
  deriving DecidableEq, Repr

/-- A byte that ends a line. -/
def endsLine (delimiter c : UInt8) : Bool :=
  c == 0 || c == 13 || c == delimiter

/-- Behind the loop: `*ptr = '\0'`. -/
def endLine (bytesRead : Nat) (eof : Bool) (buf : Bytes) (overrun : Bool) (error : ErrorHandler)
    (rest : List ByteReply) : LineRead :=
  { value := some bytesRead, eof, buf := storeAt buf bytesRead [0]
    overrun := overrun || !inside buf bytesRead 1, error, rest }

/-- The loop of `ReadLine`. `ptr` is always `bytes_read` bytes into `buf`. -/
def readLineLoop (conn : SSLConn) (delimiter : UInt8) (bufLen : Int) :
    List ByteReply → Nat → Bytes → Bool → ErrorHandler → LineRead
  | [], bytesRead, buf, overrun, error =>
      if bytesRead < bufLen - 1 then
        { value := none, eof := false, buf, overrun, error, rest := [] }
      else endLine bytesRead false buf overrun error []
  | reply :: rest, bytesRead, buf, overrun, error =>
      if bytesRead < bufLen - 1 then
        match reply with
        | .received c =>
            if endsLine delimiter c then endLine bytesRead false buf overrun error rest
            else
              readLineLoop conn delimiter bufLen rest (bytesRead + 1) (storeAt buf bytesRead [c])
                (overrun || !inside buf bytesRead 1) error
        | .endOfFile =>
            if bytesRead = 0 then { value := some 0, eof := true, buf, overrun, error, rest }
            else endLine bytesRead true buf overrun error rest
        | .failed reason =>
            { value := some 0, eof := false, buf, overrun
              error := error.init ErrorHandler.EX_IOERR "TCPConn::ReadLine(): read(fd: %d): %s"
                [.num conn.fd, .str reason]
              rest }
      else endLine bytesRead false buf overrun error (reply :: rest)

/-- `TCPConn::ReadLine`. -/
def readLine (conn : SSLConn) (delimiter : UInt8) (bufLen : Int) (buf : Bytes)
    (error : ErrorHandler) (replies : List ByteReply) : LineRead :=
  readLineLoop conn delimiter bufLen replies 0 buf false error

variable {conn : SSLConn} {delimiter : UInt8} {error : ErrorHandler}

/-! ## One call -/

/-- A buffer that a line and its NUL go into. -/
structure Holds (buf line : Bytes) (bufLen : Int) : Prop where
  within : line <+: buf
  size : (buf.length : Int) = bufLen
  room : (line.length : Int) < bufLen

theorem Holds.storeAt {buf line : Bytes} {bufLen : Int} (holds : Holds buf line bufLen) (c : UInt8) :
    line ++ [c] <+: CLib.storeAt buf line.length [c] ∧
      ((CLib.storeAt buf line.length [c]).length : Int) = bufLen ∧
      inside buf line.length 1 = true := by
  obtain ⟨within, size, room⟩ := holds
  refine ⟨prefix_storeAt within ?_, ?_, inside_of_le (by omega) (by omega) (by omega)⟩
  · rw [List.length_singleton]
    omega
  · rw [length_storeAt]
    exact size

/-- The text of a line that has been ended. -/
theorem Holds.endLine {buf line : Bytes} {bufLen : Int} (holds : Holds buf line bufLen)
    (noNul : (0 : UInt8) ∉ line) (eof : Bool) (rest : List ByteReply) :
    let ended := TCPConn.endLine line.length eof buf false error rest
    ended.value = some (line.length : Int) ∧ ended.eof = eof ∧ ended.overrun = false ∧
      ended.error = error ∧ ended.rest = rest ∧ cstr ended.buf = line ∧
      (ended.buf.length : Int) = bufLen := by
  obtain ⟨stored, size, within⟩ := holds.storeAt 0
  refine ⟨rfl, rfl, ?_, rfl, rfl, ?_, size⟩
  · change (false || !inside buf line.length 1) = false
    rw [within]
    rfl
  · obtain ⟨behind, whole⟩ := stored
    change cstr (CLib.storeAt buf line.length [0]) = line
    rw [← whole, List.append_assoc, List.singleton_append, cstr_append_zero noNul]

/-- Bytes that do not end the line are stored as long as there is room. -/
theorem readLineLoop_append {line : Bytes} {bufLen : Int} (more : Bytes)
    (inner : ∀ c ∈ more, endsLine delimiter c = false)
    (room : (line.length + more.length : Int) < bufLen) :
    ∀ {buf : Bytes}, Holds buf line bufLen → ∀ next : List ByteReply,
      ∃ buf', Holds buf' (line ++ more) bufLen ∧
        readLineLoop conn delimiter bufLen (more.map .received ++ next) line.length buf false error =
          readLineLoop conn delimiter bufLen next (line ++ more).length buf' false error := by
  induction more generalizing line with
  | nil =>
      intro buf holds next
      exact ⟨buf, by rwa [List.append_nil], by rw [List.append_nil]; rfl⟩
  | cons c more ih =>
      intro buf holds next
      obtain ⟨stored, size, within⟩ := holds.storeAt c
      rw [List.length_cons] at room
      have kept : endsLine delimiter c = false := inner c List.mem_cons_self
      have next_ : Holds (CLib.storeAt buf line.length [c]) (line ++ [c]) bufLen :=
        ⟨stored, size, by rw [List.length_append, List.length_singleton]; omega⟩
      obtain ⟨buf', holds', same⟩ := ih (fun other member => inner other (List.mem_cons_of_mem _ member))
        (by rw [List.length_append, List.length_singleton]; omega) next_ next
      refine ⟨buf', by rwa [List.append_assoc] at holds', ?_⟩
      rw [List.append_assoc, @List.length_append _ line, List.length_singleton] at same
      rw [List.map_cons, List.cons_append, readLineLoop, if_pos (by omega)]
      rw [if_neg (by rw [kept]; simp), within]
      exact same

/-- What a call makes of the bytes up to the end of a line, of the buffer or of the stream. -/
inductive Ends (delimiter : UInt8) (bufLen : Int) (line : Bytes) :
    List ByteReply → Bool → List ByteReply → Prop
  | byte {c : UInt8} (ends : endsLine delimiter c = true) (room : (line.length : Int) < bufLen - 1)
      (rest : List ByteReply) : Ends delimiter bufLen line (.received c :: rest) false rest
  | full (full : (line.length : Int) = bufLen - 1) (rest : List ByteReply) :
      Ends delimiter bufLen line rest false rest
  | streamEnd (room : (line.length : Int) < bufLen - 1) (rest : List ByteReply) :
      Ends delimiter bufLen line (.endOfFile :: rest) true rest

/-- **One line.** The call returns the number of bytes in front of what ends the line, and
`buf` holds them as a string, unless the stream was over before the first of them. -/
theorem readLine_spec {line buf : Bytes} {bufLen : Int} {next rest : List ByteReply} {eof : Bool}
    (positive : 0 < bufLen) (size : (buf.length : Int) = bufLen)
    (inner : ∀ c ∈ line, endsLine delimiter c = false)
    (ends : Ends delimiter bufLen line next eof rest) :
    let read := readLine conn delimiter bufLen buf error (line.map .received ++ next)
    read.value = some (line.length : Int) ∧ read.eof = eof ∧ read.overrun = false ∧ read.error = error ∧
      read.rest = rest ∧ (read.buf.length : Int) = bufLen ∧
      (line ≠ [] ∨ eof = false → cstr read.buf = line) := by
  have noNul : (0 : UInt8) ∉ line := fun member => by
    have kept := inner 0 member
    simp [endsLine] at kept
  have room : (line.length : Int) < bufLen := by
    cases ends <;> omega
  have start : Holds buf [] bufLen := ⟨List.nil_prefix, size, by simpa using positive⟩
  obtain ⟨buf', holds, same⟩ := @readLineLoop_append conn delimiter error [] bufLen line inner
    (by simpa using room) buf start next
  rw [List.nil_append] at holds same
  change readLine conn delimiter bufLen buf error (line.map .received ++ next) = _ at same
  intro read
  change read = _ at same
  rw [same]
  cases ends with
  | @byte c ended few rest =>
      obtain ⟨value, eof, overrun, quiet, left, text, length⟩ :=
        @Holds.endLine error buf' line bufLen holds noNul false rest
      have result : readLineLoop conn delimiter bufLen (.received c :: rest) line.length buf' false
          error = endLine line.length false buf' false error rest := by
        rw [readLineLoop, if_pos few, if_pos ended]
      rw [result]
      exact ⟨value, eof, overrun, quiet, left, length, fun _ => text⟩
  | full full rest =>
      obtain ⟨value, eof, overrun, quiet, left, text, length⟩ :=
        @Holds.endLine error buf' line bufLen holds noNul false next
      have result : readLineLoop conn delimiter bufLen next line.length buf' false error =
          endLine line.length false buf' false error next := by
        cases next with
        | nil => rw [readLineLoop, if_neg (by omega)]
        | cons reply others => cases reply <;> rw [readLineLoop, if_neg (by omega)]
      rw [result]
      exact ⟨value, eof, overrun, quiet, left, length, fun _ => text⟩
  | streamEnd few rest =>
      rw [readLineLoop, if_pos few]
      by_cases none_ : line = []
      · subst none_
        rw [if_pos List.length_nil]
        exact ⟨rfl, rfl, rfl, rfl, rfl, holds.size, fun either => by simp at either⟩
      · rw [if_neg (by simpa using none_)]
        obtain ⟨value, eof, overrun, quiet, left, text, length⟩ :=
          @Holds.endLine error buf' line bufLen holds noNul true rest
        exact ⟨value, eof, overrun, quiet, left, length, fun _ => text⟩

/-! ## Call after call -/

/-- The lines that a caller gets who calls again until the stream is over, if at most
`count` calls are enough. -/
def readLines (conn : SSLConn) (delimiter : UInt8) (bufLen : Int) :
    Nat → Bytes → ErrorHandler → List ByteReply → Option (List Bytes)
  | 0, _, _, _ => none
  | count + 1, buf, error, replies =>
      let read := readLine conn delimiter bufLen buf error replies
      read.value.bind fun value =>
        if read.eof then some [read.buf.take value.toNat]
        else
          (readLines conn delimiter bufLen count read.buf read.error read.rest).map
            (read.buf.take value.toNat :: ·)

/-- A line in pieces that fill the buffer, and the piece that does not. -/
def cut (room : Nat) (line : Bytes) : List Bytes :=
  if _ : 0 < room ∧ room ≤ line.length then line.take room :: cut room (line.drop room)
  else [line]
termination_by line.length
decreasing_by
  rw [List.length_drop]
  omega

theorem cut_of_lt {room : Nat} {line : Bytes} (short : line.length < room) :
    cut room line = [line] := by
  rw [cut, dif_neg (by omega)]

theorem cut_of_le {room : Nat} {line : Bytes} (positive : 0 < room) (long : room ≤ line.length) :
    cut room line = line.take room :: cut room (line.drop room) := by
  rw [cut, dif_pos ⟨positive, long⟩]

theorem flatten_cut (room : Nat) (line : Bytes) : (cut room line).flatten = line := by
  induction size : line.length using Nat.strong_induction_on generalizing line with
  | _ size_ ih =>
      by_cases long : 0 < room ∧ room ≤ line.length
      · have shorter : (line.drop room).length < line.length := by
          rw [List.length_drop]
          omega
        rw [cut_of_le long.1 long.2, List.flatten_cons, ih _ (size ▸ shorter) _ rfl,
          List.take_append_drop]
      · rw [cut, dif_neg long]
        simp

/-- A line is in one piece exactly when it does not fill the buffer. -/
theorem cut_eq_singleton_iff {room : Nat} (positive : 0 < room) (line : Bytes) :
    (cut room line).length = 1 ↔ line.length < room := by
  constructor
  · intro single
    by_contra long
    rw [cut_of_le positive (Nat.le_of_not_lt long), List.length_cons] at single
    have none_ := List.length_eq_zero_iff.mp (Nat.succ.inj single)
    rw [cut] at none_
    split at none_ <;> cases none_
  · intro short
    rw [cut_of_lt short, List.length_singleton]

theorem length_cut_pos (room : Nat) (line : Bytes) : 0 < (cut room line).length := by
  rw [cut]
  split <;> simp

/-- A stream starts with a line, which something ends unless the stream is over. -/
theorem stream_cases (delimiter : UInt8) (stream : Bytes) :
    ∃ line, (∀ c ∈ line, endsLine delimiter c = false) ∧
      (stream = line ∧ stream.splitOnP (endsLine delimiter) = [line] ∨
        ∃ c rest, stream = line ++ c :: rest ∧ endsLine delimiter c = true ∧
          stream.splitOnP (endsLine delimiter) = line :: rest.splitOnP (endsLine delimiter)) := by
  refine ⟨stream.takeWhile fun c => !endsLine delimiter c, fun c member => ?_, ?_⟩
  · simpa using List.mem_takeWhile_imp member
  · have inner : ∀ c ∈ stream.takeWhile (fun c => !endsLine delimiter c),
        endsLine delimiter c = false := fun c member => by
      simpa using List.mem_takeWhile_imp member
    have split := List.takeWhile_append_dropWhile (p := fun c => !endsLine delimiter c) (l := stream)
    cases behind : stream.dropWhile fun c => !endsLine delimiter c with
    | nil =>
        rw [behind, List.append_nil] at split
        left
        rw [split] at inner ⊢
        exact ⟨rfl, List.splitOnP_eq_singleton inner⟩
    | cons c rest =>
        rw [behind] at split
        have ends : endsLine delimiter c = true := by
          have first := List.head?_dropWhile_not (fun c => !endsLine delimiter c) stream
          rw [behind] at first
          simpa using first
        right
        refine ⟨c, rest, split.symm, ends, ?_⟩
        conv_lhs => rw [← split]
        exact List.splitOnP_append_cons_of_forall_mem inner c ends rest

/-- What the buffer holds as a string is what the return value counts. -/
theorem take_of_cstr {buf line : Bytes} (text : cstr buf = line) : buf.take line.length = line := by
  subst text
  exact (List.prefix_iff_eq_take.mp (List.takeWhile_prefix _)).symm

/-- A call that does not see the end of the stream yields a line. -/
theorem readLines_succ {line buf : Bytes} {bufLen : Int} {next rest : List ByteReply}
    (positive : 0 < bufLen) (size : (buf.length : Int) = bufLen)
    (inner : ∀ c ∈ line, endsLine delimiter c = false)
    (ends : Ends delimiter bufLen line next false rest) (count : Nat) :
    ∃ buf' : Bytes, (buf'.length : Int) = bufLen ∧
      readLines conn delimiter bufLen (count + 1) buf error (line.map .received ++ next) =
        (readLines conn delimiter bufLen count buf' error rest).map (line :: ·) := by
  obtain ⟨value, eof, -, quiet, left, length, text⟩ :=
    @readLine_spec conn delimiter error line buf bufLen next rest false positive size inner ends
  refine ⟨_, length, ?_⟩
  rw [readLines, value, eof, quiet, left, Option.bind_some, if_neg (by simp), Int.toNat_natCast,
    take_of_cstr (text (Or.inr rfl))]

/-- The last call. -/
theorem readLines_last {line buf : Bytes} {bufLen : Int} {rest : List ByteReply}
    (size : (buf.length : Int) = bufLen) (inner : ∀ c ∈ line, endsLine delimiter c = false)
    (room : (line.length : Int) < bufLen - 1) (count : Nat) :
    readLines conn delimiter bufLen (count + 1) buf error
      (line.map .received ++ .endOfFile :: rest) = some [line] := by
  obtain ⟨value, eof, -, -, -, -, text⟩ :=
    @readLine_spec conn delimiter error line buf bufLen (.endOfFile :: rest) rest true (by omega)
      size inner (.streamEnd room rest)
  rw [readLines, value, eof, Option.bind_some, if_pos rfl, Int.toNat_natCast]
  by_cases none_ : line = []
  · rw [none_, List.length_nil, List.take_zero]
  · rw [take_of_cstr (text (Or.inl none_))]

/-- **Call after call.** A caller gets the lines of the stream in order, each cut into
pieces of the size of the buffer, and a further piece, empty at times, that ends it. -/
theorem readLines_eq {bufLen : Int} (enough : 2 ≤ bufLen) (rest : List ByteReply) (stream : Bytes) :
    ∀ (count : Nat) (buf : Bytes), stream.length < count → (buf.length : Int) = bufLen →
      readLines conn delimiter bufLen count buf error
          (stream.map .received ++ .endOfFile :: rest) =
        some ((stream.splitOnP (endsLine delimiter)).flatMap (cut (bufLen - 1).toNat)) := by
  induction size : stream.length using Nat.strong_induction_on generalizing stream with
  | _ size_ ih =>
      intro count buf calls length
      obtain ⟨count, rfl⟩ := Nat.exists_eq_add_one_of_ne_zero (Nat.ne_of_gt (Nat.zero_lt_of_lt calls))
      set room : Nat := (bufLen - 1).toNat with roomDef
      have positive : 0 < room := by omega
      obtain ⟨line, inner, shape⟩ := stream_cases delimiter stream
      by_cases long : room ≤ line.length
      · -- the buffer is full in front of the end of the line
        have front : ∀ c ∈ line.take room, endsLine delimiter c = false :=
          fun c member => inner c (List.mem_of_mem_take member)
        have back : ∀ c ∈ line.drop room, endsLine delimiter c = false :=
          fun c member => inner c (List.mem_of_mem_drop member)
        have filled : (line.take room).length = room := List.length_take_of_le long
        have pieces : stream.take room = line.take room ∧
            (stream.splitOnP (endsLine delimiter)).flatMap (cut room) =
              line.take room ::
                ((stream.drop room).splitOnP (endsLine delimiter)).flatMap (cut room) := by
          rcases shape with ⟨rfl, single⟩ | ⟨c, others, rfl, ends, split⟩
          · rw [single, List.splitOnP_eq_singleton back]
            simp [cut_of_le positive long]
          · have dropped : (line ++ c :: others).drop room = line.drop room ++ c :: others :=
              List.drop_append_of_le_length long
            rw [split, dropped, List.splitOnP_append_cons_of_forall_mem back c ends,
              List.take_append_of_le_length long]
            simp [cut_of_le positive long]
        have cutHere : stream.map ByteReply.received ++ .endOfFile :: rest =
            (line.take room).map .received ++
              ((stream.drop room).map .received ++ .endOfFile :: rest) := by
          conv_lhs => rw [← List.take_append_drop room stream, pieces.1]
          rw [List.map_append, List.append_assoc]
        obtain ⟨buf', length', step⟩ := @readLines_succ conn delimiter error (line.take room) buf
          bufLen _ _ (by omega) length front (.full (by rw [filled]; omega)
            ((stream.drop room).map .received ++ .endOfFile :: rest)) count
        have longEnough : room ≤ stream.length := by
          rcases shape with ⟨rfl, -⟩ | ⟨c, others, rfl, -, -⟩
          · exact long
          · rw [List.length_append]
            omega
        have shorter : (stream.drop room).length < size_ := by
          rw [List.length_drop]
          omega
        rw [cutHere, step, ih _ shorter _ rfl _ _ (by omega) length', Option.map_some, pieces.2]
      · rcases shape with ⟨rfl, single⟩ | ⟨c, others, rfl, ends, split⟩
        · rw [readLines_last length inner (by omega), single]
          simp [cut_of_lt (Nat.lt_of_not_le long)]
        · have cutHere : (line ++ c :: others).map ByteReply.received ++ .endOfFile :: rest =
              line.map .received ++ .received c :: (others.map .received ++ .endOfFile :: rest) := by
            rw [List.map_append, List.map_cons, List.append_assoc, List.cons_append]
          obtain ⟨buf', length', step⟩ := @readLines_succ conn delimiter error line buf bufLen _ _
            (by omega) length inner
            (.byte ends (by omega) (others.map .received ++ .endOfFile :: rest)) count
          rw [List.length_append, List.length_cons] at size
          rw [cutHere, step, ih others.length (by omega) _ rfl _ _ (by omega) length',
            Option.map_some, split, List.flatMap_cons, cut_of_lt (Nat.lt_of_not_le long)]
          rfl

theorem length_flatMap_cut {room : Nat} (positive : 0 < room) (lines : List Bytes) :
    (lines.flatMap (cut room)).length = lines.length ↔ ∀ line ∈ lines, line.length < room := by
  induction lines with
  | nil => simp
  | cons line lines ih =>
      have one := length_cut_pos room line
      have others : lines.length ≤ (lines.flatMap (cut room)).length := by
        clear ih
        induction lines with
        | nil => simp
        | cons next lines more =>
            have first := length_cut_pos room next
            rw [List.flatMap_cons, List.length_append, List.length_cons]
            omega
      rw [List.flatMap_cons, List.length_append, List.length_cons, List.forall_mem_cons, ← ih,
        ← cut_eq_singleton_iff positive]
      omega

theorem flatMap_cut_of_lt {room : Nat} {lines : List Bytes}
    (short : ∀ line ∈ lines, line.length < room) : lines.flatMap (cut room) = lines := by
  induction lines with
  | nil => rfl
  | cons line lines ih =>
      obtain ⟨first, others⟩ := List.forall_mem_cons.mp short
      rw [List.flatMap_cons, ih others, cut_of_lt first]
      rfl

theorem flatten_splitOnP (test : UInt8 → Bool) (stream : Bytes) :
    (stream.splitOnP test).flatten = stream.filter fun c => !test c := by
  induction stream with
  | nil => rfl
  | cons c stream ih =>
      rw [List.splitOnP_cons_eq_if_modifyHead]
      by_cases sep : test c = true
      · rw [if_pos sep, List.flatten_cons, ih, List.filter_cons_of_neg (by simp [sep]),
          List.nil_append]
      · rw [if_neg sep, List.filter_cons_of_pos (by simpa using sep), ← ih]
        cases shape : stream.splitOnP test with
        | nil => exact absurd shape (List.splitOnP_ne_nil _ _)
        | cons first others => rfl

/-- **Lines.** A caller who reads a stream to its end gets every byte of it that ends no
line, in order: each line of the stream, which is split at every delimiter, carriage return
and NUL, in pieces that fill the buffer and one that does not. The pieces are the lines exactly
when each line leaves room for two more bytes. -/
theorem readLines_lines_iff (conn : SSLConn) (delimiter : UInt8) {bufLen : Int}
    (enough : 2 ≤ bufLen) (stream buf : Bytes) (length : (buf.length : Int) = bufLen)
    (error : ErrorHandler) (rest : List ByteReply) :
    ∃ lines, (∀ count, stream.length < count →
        readLines conn delimiter bufLen count buf error
          (stream.map .received ++ .endOfFile :: rest) = some lines) ∧
      lines = (stream.splitOnP (endsLine delimiter)).flatMap (cut (bufLen - 1).toNat) ∧
      lines.flatten = stream.filter (fun c => !endsLine delimiter c) ∧
      (lines = stream.splitOnP (endsLine delimiter) ↔
        ∀ line ∈ stream.splitOnP (endsLine delimiter), (line.length : Int) + 2 ≤ bufLen) := by
  set room : Nat := (bufLen - 1).toNat with roomDef
  refine ⟨(stream.splitOnP (endsLine delimiter)).flatMap (cut room), fun count calls =>
    readLines_eq enough rest stream count buf calls length, rfl, ?_, ?_⟩
  · rw [← flatten_splitOnP]
    induction stream.splitOnP (endsLine delimiter) with
    | nil => rfl
    | cons line lines ih =>
        rw [List.flatMap_cons, List.flatten_append, ih, flatten_cut, List.flatten_cons]
  · have positive : 0 < room := by omega
    have fits (line : Bytes) : line.length < room ↔ (line.length : Int) + 2 ≤ bufLen := by omega
    have counts := length_flatMap_cut positive (stream.splitOnP (endsLine delimiter))
    simp only [fits] at counts
    rw [← counts]
    constructor
    · intro same
      exact congrArg List.length same
    · intro same
      exact flatMap_cut_of_lt fun line member => (fits line).mpr (counts.mp same line member)

/-- A line of two bytes and one of three, for which the buffer is too small. -/
theorem readLines_lines_iff_crlf :
    ∃ lines, (∀ count, (ascii "ab\x0d\ncde").length < count →
        readLines {} 10 4 count [0, 0, 0, 0] {}
          ((ascii "ab\x0d\ncde").map .received ++ [.endOfFile]) = some lines) ∧
      lines = ((ascii "ab\x0d\ncde").splitOnP (endsLine 10)).flatMap (cut 3) ∧
      lines.flatten = (ascii "ab\x0d\ncde").filter (fun c => !endsLine 10 c) ∧
      (lines = (ascii "ab\x0d\ncde").splitOnP (endsLine 10) ↔
        ∀ line ∈ (ascii "ab\x0d\ncde").splitOnP (endsLine 10), (line.length : Int) + 2 ≤ 4) :=
  @readLines_lines_iff {} 10 4 (by decide) (ascii "ab\x0d\ncde") [0, 0, 0, 0] rfl {} []

end TCPConn

end IpUtils
