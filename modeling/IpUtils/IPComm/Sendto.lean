import IpUtils.IPComm.Basic

/-! # Sending a datagram

`Sendto` repeats `sendto(2)` until the buffer has been taken. Each call is told where the
rest of the buffer starts, and that there is as much left as at the beginning.
-/

namespace IpUtils

open CLib IPComm

/-- A call of `sendto(2)`: it is offered `count` bytes from `buf + start` on. -/
structure Offer where
  start : Nat
  count : Nat
  peer : Bytes
  deriving DecidableEq, Repr

/-- The calls that `Sendto` makes, the bytes that they take one behind the other, and the
return value if there is one yet. -/
structure SentTo where
  offers : List Offer := []
  data : Bytes := []
  value : Option Int
  error : ErrorHandler
  deriving DecidableEq, Repr

/-- What a call adds in front of those that follow it. -/
def SentTo.after (rest : SentTo) (offer : Offer) (data : Bytes) : SentTo :=
  { rest with offers := offer :: rest.offers, data := data ++ rest.data }

/-- The bytes that stand in memory from a place on. -/
def bytesAt (memory : Nat → UInt8) (start count : Nat) : Bytes :=
  (List.range' start count).map memory

/-- A call takes at most what it is offered, and returns a `ssize_t`. -/
def WriteReply.Within (count : Nat) : WriteReply → Prop
  | .accepted taken => taken ≤ count ∧ taken < 2 ^ 63
  | .failed _ _ => True

namespace Endpoint

/-- The peer that `Sendto` sends to, or the event for a family it does not know. -/
def destination (comm : Endpoint) (newPeer : Option Bytes) : Except Msg Bytes :=
  match newPeer with
  | some peer => .ok peer
  | none =>
      if comm.addressFamily = afUnspec then
        .error { format := "IPComm::Sendto(): address_family is AF_UNSPEC" }
      else if comm.addressFamily = afInet then .ok (comm.sockaddr.take sizeofSockaddrIn)
      else if comm.addressFamily = afInet6 then .ok (comm.sockaddr.take sizeofSockaddrIn6)
      else
        .error
          { format := "IPComm::Sendto(): unknown address_family: %d."
            args := [.num comm.addressFamily] }

/-- `len - bytes_left`, computed as `size_t` and returned as `ssize_t`. -/
def returned (len : Nat) (bytesLeft : Int) : Int :=
  toSsize (toSize (len - bytesLeft))

/-- The loop of `Sendto`. `bytes_left` is a `ssize_t`; where it overflows, which C leaves
undefined, it wraps around here. -/
def sendtoLoop (comm : Endpoint) (error : ErrorHandler) (memory : Nat → UInt8) (len : Nat)
    (peer : Bytes) (bytesLeft : Int) (offset : Nat) : List WriteReply → SentTo
  | [] => { offers := [{ start := offset, count := len, peer }], value := none, error }
  | .failed again reason :: _ =>
      if !comm.blocking && again then
        { offers := [{ start := offset, count := len, peer }]
          value := some (returned len bytesLeft), error }
      else
        { offers := [{ start := offset, count := len, peer }], value := some 0
          error := error.init ErrorHandler.EX_IOERR "IPComm::Sendto(): write(fd: %d) failed: %s"
            [.num comm.fd, .str reason] }
  | .accepted taken :: replies =>
      let bytesLeft := Int.bmod (bytesLeft - taken) (2 ^ 64)
      if bytesLeft ≤ 0 then
        { offers := [{ start := offset, count := len, peer }], data := bytesAt memory offset taken
          value := some (returned len bytesLeft), error }
      else
        (sendtoLoop comm error memory len peer bytesLeft (offset + taken) replies).after
          { start := offset, count := len, peer } (bytesAt memory offset taken)

/-- `Sendto`, for the bytes that stand in memory from `buf` on. -/
def sendto (comm : Endpoint) (newPeer : Option Bytes) (memory : Nat → UInt8) (len : Nat)
    (replies : List WriteReply) (error : ErrorHandler) : SentTo :=
  match comm.destination newPeer with
  | .error message =>
      { value := some 0
        error := error.init ErrorHandler.EX_SOFTWARE message.format message.args }
  | .ok peer => sendtoLoop comm error memory len peer (toSsize len) 0 replies

end Endpoint

/-- Every call is offered bytes of the buffer only, the bytes taken are the first ones of the
buffer, and a return without an event counts them. -/
structure SentTo.SendsOnce (sent : SentTo) (memory : Nat → UInt8) (len : Nat)
    (before : ErrorHandler) : Prop where
  inside : ∀ offer ∈ sent.offers, offer.start + offer.count ≤ len
  front : sent.data <+: bytesAt memory 0 len
  counts : sent.error = before → ∀ value, sent.value = some value →
    value = sent.data.length ∧ value ≤ len

/-- The first call that takes any bytes takes all of them. A length that is not a `ssize_t`
ends the loop after the first call, unless `bytes_left` overflows. -/
def takesAllAtOnce (len : Nat) (replies : List WriteReply) : Prop :=
  if len < 2 ^ 63 then
    ∀ taken, replies.find? (· ≠ .accepted 0) = some (.accepted taken) → len ≤ taken
  else ∀ taken, replies.head? = some (.accepted taken) → taken ≤ len - 2 ^ 63

theorem ErrorHandler.init_ne (error : ErrorHandler) (realm : Int) (format : String)
    (args : List FmtArg) : error.init realm format args ≠ error := by
  intro same
  have lengths := congrArg (fun error => error.msgs.length) same
  unfold ErrorHandler.init at lengths
  split at lengths <;> simp at lengths

namespace Endpoint

variable {comm : Endpoint} {error : ErrorHandler} {memory : Nat → UInt8} {len : Nat} {peer : Bytes}

theorem bmod_eq_add {value turn : Int} (shifted : value + turn * 2 ^ 64 < 2 ^ 63)
    (above : -2 ^ 63 ≤ value + turn * 2 ^ 64) :
    Int.bmod value (2 ^ 64) = value + turn * 2 ^ 64 := by
  rw [← Int.bmod_eq_of_le (n := value + turn * 2 ^ 64) (m := 2 ^ 64) (by omega) (by omega)]
  exact (Int.add_mul_bmod_self_right value turn (2 ^ 64)).symm

theorem returned_eq {left : Int} {sent : Nat} (turn : Int)
    (whole : (len : Int) - left = sent + turn * 2 ^ 64) (small : sent < 2 ^ 63) :
    returned len left = sent := by
  unfold returned toSize toSsize
  have modulo : (((len : Int) - left) % (2 ^ 64 : Nat)).toNat = sent := by omega
  rw [modulo]
  exact Int.bmod_eq_of_le (by omega) (by omega)

theorem peer_of_mem_offers {bytesLeft : Int} {offset : Nat} {replies : List WriteReply}
    {offer : Offer}
    (member : offer ∈ (sendtoLoop comm error memory len peer bytesLeft offset replies).offers) :
    offer.peer = peer := by
  induction replies generalizing bytesLeft offset with
  | nil => rw [List.mem_singleton.mp member]
  | cons reply replies ih =>
      cases reply with
      | failed again reason =>
          simp only [sendtoLoop] at member
          split at member <;> rw [List.mem_singleton.mp member]
      | accepted taken =>
          simp only [sendtoLoop] at member
          split at member
          · rw [List.mem_singleton.mp member]
          · rcases List.mem_cons.mp member with rfl | later
            · rfl
            · exact ih later

/-- Every call of `Sendto` goes to the same peer: the one that is given, or the one of the
object. -/
theorem destination_of_mem_offers {newPeer : Option Bytes} {replies : List WriteReply}
    {offer : Offer} (member : offer ∈ (comm.sendto newPeer memory len replies error).offers) :
    comm.destination newPeer = .ok offer.peer := by
  unfold sendto at member
  cases known : comm.destination newPeer with
  | error message =>
      rw [known] at member
      exact absurd member List.not_mem_nil
  | ok peer =>
      rw [known] at member
      rw [peer_of_mem_offers member]

/-- Whatever the first call answers, it has been made. -/
theorem mem_offers_sendtoLoop (bytesLeft : Int) (offset : Nat) (replies : List WriteReply) :
    { start := offset, count := len, peer } ∈
      (sendtoLoop comm error memory len peer bytesLeft offset replies).offers := by
  rcases replies with _ | ⟨taken | ⟨again, reason⟩, replies⟩
  · simp [sendtoLoop]
  · simp only [sendtoLoop]
    split <;> simp [SentTo.after]
  · simp only [sendtoLoop]
    split <;> simp

/-- A call behind the start of the buffer is offered bytes behind its end. -/
theorem not_sendsOnce_of_offset {bytesLeft : Int} {offset : Nat} (moved : 0 < offset)
    (replies : List WriteReply) {first : Offer} {data : Bytes} :
    ¬ ((sendtoLoop comm error memory len peer bytesLeft offset replies).after first data).SendsOnce
      memory len error := by
  intro sends
  have offered := sends.inside _ (List.mem_cons_of_mem _ (mem_offers_sendtoLoop bytesLeft offset replies))
  simp only at offered
  omega

theorem sendsOnce_after_nothing {rest : SentTo} :
    (rest.after { start := 0, count := len, peer } []).SendsOnce memory len error ↔
      rest.SendsOnce memory len error := by
  constructor
  · intro sends
    exact ⟨fun offer mem => sends.inside offer (List.mem_cons_of_mem _ mem), sends.front, sends.counts⟩
  · intro sends
    refine ⟨?_, sends.front, sends.counts⟩
    intro offer mem
    rcases List.mem_cons.mp mem with rfl | mem
    · simp
    · exact sends.inside offer mem

theorem bytesAt_prefix {count : Nat} (within : count ≤ len) :
    bytesAt memory 0 count <+: bytesAt memory 0 len := by
  have whole : List.range' 0 count ++ List.range' (0 + count) (len - count) = List.range' 0 len := by
    rw [List.range'_append_1, Nat.add_sub_cancel' within]
  unfold bytesAt
  rw [← whole, List.map_append]
  exact List.prefix_append _ _

theorem length_bytesAt (start count : Nat) : (bytesAt memory start count).length = count := by
  simp [bytesAt]

/-- The call that has taken everything, or that has ended the loop otherwise. -/
theorem sendsOnce_single {taken : Nat} {value : Option Int} (within : taken ≤ len)
    (counted : ∀ result, value = some result → result = taken) :
    SentTo.SendsOnce
      { offers := [{ start := 0, count := len, peer }], data := bytesAt memory 0 taken, value, error }
      memory len error := by
  refine ⟨by simp, bytesAt_prefix within, ?_⟩
  intro _ result returns
  rw [length_bytesAt]
  have equal := counted result returns
  omega

theorem sendsOnce_raised {value : Option Int} {realm : Int} {format : String} {args : List FmtArg} :
    SentTo.SendsOnce
      { offers := [{ start := 0, count := len, peer }], value, error := error.init realm format args }
      memory len error :=
  ⟨by simp, List.nil_prefix, fun same => absurd same (ErrorHandler.init_ne _ _ _ _)⟩

theorem sendsOnce_nothing {value : Option Int} (counted : ∀ result, value = some result → result = 0) :
    SentTo.SendsOnce { offers := [{ start := 0, count := len, peer }], data := [], value, error }
      memory len error :=
  sendsOnce_single (Nat.zero_le len) counted

/-- A first call that fails leaves nothing to repeat. -/
theorem sendsOnce_failed (again : Bool) (reason : Bytes) (replies : List WriteReply)
    {bytesLeft : Int} (none : returned len bytesLeft = 0) :
    (sendtoLoop comm error memory len peer bytesLeft 0 (.failed again reason :: replies)).SendsOnce
      memory len error := by
  unfold sendtoLoop
  split
  · exact sendsOnce_nothing (by simpa using none)
  · exact sendsOnce_raised

/-- The loop for a length that is a `ssize_t`, as long as nothing has been taken. -/
theorem sendtoLoop_sendsOnce_iff (small : len < 2 ^ 63) (replies : List WriteReply)
    (within : ∀ reply ∈ replies, reply.Within len) :
    (sendtoLoop comm error memory len peer len 0 replies).SendsOnce memory len error ↔
      ∀ taken, replies.find? (· ≠ .accepted 0) = some (.accepted taken) → len ≤ taken := by
  induction replies with
  | nil =>
      refine iff_of_true (sendsOnce_nothing (by simp)) ?_
      simp
  | cons reply replies ih =>
      rcases reply with taken | ⟨again, reason⟩
      · have bound : taken ≤ len := (within _ List.mem_cons_self).1
        have left : Int.bmod ((len : Int) - taken) (2 ^ 64) = (len : Int) - taken :=
          Int.bmod_eq_of_le (by omega) (by omega)
        rw [sendtoLoop, left]
        by_cases whole : (len : Int) - taken ≤ 0
        · have all : len ≤ taken := by omega
          rw [if_pos whole]
          refine iff_of_true (sendsOnce_single bound ?_) ?_
          · intro result returns
            rw [← Option.some.inj returns]
            exact returned_eq 0 (by omega) (by omega)
          · intro first found
            rcases Nat.eq_zero_or_pos taken with rfl | positive
            · omega
            · have self : first = taken := by
                simpa [Nat.pos_iff_ne_zero.mp positive, eq_comm] using found
              omega
        · rw [if_neg whole]
          rcases Nat.eq_zero_or_pos taken with rfl | positive
          · have empty : bytesAt memory 0 0 = [] := rfl
            rw [Int.natCast_zero, Int.sub_zero, empty, sendsOnce_after_nothing,
              ih (List.forall_mem_cons.mp within).2]
            simp
          · refine iff_of_false (not_sendsOnce_of_offset (by omega) replies) ?_
            intro given
            have all := given taken (by simp [Nat.pos_iff_ne_zero.mp positive])
            omega
      · have nothing : returned len len = 0 :=
          @returned_eq _ _ 0 0 (by simp) (by omega)
        refine iff_of_true (sendsOnce_failed again reason replies nothing) ?_
        simp

/-- A length that is not a `ssize_t` makes `bytes_left` negative from the start. -/
theorem sendtoLoop_sendsOnce_iff_of_large (large : 2 ^ 63 ≤ len) (size : len < 2 ^ 64)
    (replies : List WriteReply) (within : ∀ reply ∈ replies, reply.Within len) :
    (sendtoLoop comm error memory len peer (toSsize len) 0 replies).SendsOnce memory len error ↔
      ∀ taken, replies.head? = some (.accepted taken) → taken ≤ len - 2 ^ 63 := by
  have start : toSsize len = (len : Int) - 2 ^ 64 := by
    have modulo : (len : Int) % (2 ^ 64 : Nat) = len := by omega
    unfold toSsize
    rw [Int.bmod_def, modulo]
    split
    · omega
    · norm_num
  rcases replies with _ | ⟨taken | ⟨again, reason⟩, replies⟩
  · refine iff_of_true (sendsOnce_nothing (by simp)) ?_
    simp
  · obtain ⟨bound, signed⟩ := within _ List.mem_cons_self
    rw [sendtoLoop, start]
    by_cases fits : taken ≤ len - 2 ^ 63
    · have left : Int.bmod ((len : Int) - 2 ^ 64 - taken) (2 ^ 64) = (len : Int) - 2 ^ 64 - taken :=
        Int.bmod_eq_of_le (by omega) (by omega)
      rw [left, if_pos (by omega)]
      refine iff_of_true (sendsOnce_single bound ?_) (by simpa using fits)
      intro result returns
      rw [← Option.some.inj returns]
      exact returned_eq 1 (by omega) signed
    · have left : Int.bmod ((len : Int) - 2 ^ 64 - taken) (2 ^ 64) = (len : Int) - taken := by
        have wrapped : Int.bmod ((len : Int) - 2 ^ 64 - taken) (2 ^ 64) =
            (len : Int) - 2 ^ 64 - taken + 1 * 2 ^ 64 := bmod_eq_add (by omega) (by omega)
        omega
      rw [left, if_neg (by omega)]
      refine iff_of_false (not_sendsOnce_of_offset (by omega) replies) ?_
      simpa using fits
  · have nothing : returned len (toSsize len) = 0 :=
      @returned_eq _ _ 0 1 (by omega) (by omega)
    refine iff_of_true (sendsOnce_failed again reason replies nothing) ?_
    simp

/-- `Sendto` sends its buffer once and stays inside it exactly when it has no peer to send to, or
when the first call that takes any bytes takes all of them. -/
theorem sendto_sendsOnce_iff (comm : Endpoint) (newPeer : Option Bytes) (memory : Nat → UInt8)
    (len : Nat) (replies : List WriteReply) (error : ErrorHandler) (size : len < 2 ^ 64)
    (within : ∀ reply ∈ replies, reply.Within len) :
    (comm.sendto newPeer memory len replies error).SendsOnce memory len error ↔
      (∃ message, comm.destination newPeer = .error message) ∨ takesAllAtOnce len replies := by
  unfold sendto
  rcases known : comm.destination newPeer with message | peer
  · refine iff_of_true ⟨by simp, List.nil_prefix, ?_⟩ (Or.inl ⟨message, rfl⟩)
    intro same
    exact absurd same (ErrorHandler.init_ne _ _ _ _)
  · simp only [reduceCtorEq, exists_false, false_or]
    unfold takesAllAtOnce
    split
    · next small =>
        have start : toSsize len = len := Int.bmod_eq_of_le (by omega) (by omega)
        rw [start]
        exact sendtoLoop_sendsOnce_iff small replies within
    · next large =>
        exact sendtoLoop_sendsOnce_iff_of_large (by omega) size replies within

theorem sendto_sendsOnce_iff_sample :
    (Endpoint.sendto {} (some [2, 0]) (fun place => place.toUInt8) 2
      [.accepted 0, .accepted 2] {}).SendsOnce (fun place => place.toUInt8) 2 {} :=
  (sendto_sendsOnce_iff {} (some [2, 0]) (fun place => place.toUInt8) 2 [.accepted 0, .accepted 2] {}
    (by decide) (by simp [WriteReply.Within])).mpr (Or.inr (by simp [takesAllAtOnce]))

/-- Two bytes, of which the first call takes one: the second call is offered a byte behind them. -/
theorem sendto_offers_behind :
    ¬ ∀ (comm : Endpoint) (newPeer : Option Bytes) (memory : Nat → UInt8) (len : Nat)
        (replies : List WriteReply) (error : ErrorHandler), len < 2 ^ 64 →
        (∀ reply ∈ replies, reply.Within len) →
        (comm.sendto newPeer memory len replies error).SendsOnce memory len error := by
  intro always
  have sends := always {} (some [2, 0]) (fun place => place.toUInt8) 2 [.accepted 1, .accepted 2] {}
    (by decide) (by simp [WriteReply.Within])
  have offered := sends.inside { start := 1, count := 2, peer := [2, 0] } (by decide)
  simp only at offered
  omega

end Endpoint

end IpUtils
