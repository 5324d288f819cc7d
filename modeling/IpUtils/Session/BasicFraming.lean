import IpUtils.Session.Representation

/-! # The basic framing

A header of ten bytes, as the sender puts it into `wbuf_` and as the receiver copies it
from its buffer.
-/

namespace IpUtils

open CLib

namespace BasicFramingHdr

theorem half_halfBytes (value : UInt16) :
    half value.toUInt8 (value >>> 8).toUInt8 = value := by
  have small : value.toNat < 65536 := value.toNat_lt
  apply UInt16.toNat_inj.mp
  have low : value.toNat % 2 ^ 8 < 2 ^ 8 := Nat.mod_lt _ (by norm_num)
  have high : (value.toNat >>> 8 % 256) <<< 8 % 65536 = 2 ^ 8 * (value.toNat / 256) := by
    rw [Nat.shiftRight_eq_div_pow, Nat.shiftLeft_eq]
    omega
  simp only [half, UInt16.toNat_or, UInt8.toNat_toUInt16, UInt16.toNat_toUInt8,
    UInt16.toNat_shiftLeft, UInt16.toNat_shiftRight]
  change value.toNat % 2 ^ 8 ||| (value.toNat >>> 8 % 256) <<< 8 % 65536 = value.toNat
  rw [high, Nat.or_comm, ← Nat.two_pow_add_eq_or_of_lt low]
  omega

theorem halfBytes_half (low high : UInt8) : halfBytes (half low high) = [low, high] := by
  unfold half halfBytes
  congr 1
  · apply UInt8.eq_of_toBitVec_eq
    apply BitVec.eq_of_getLsbD_eq
    intro i small
    simp
  · congr 1
    apply UInt8.eq_of_toBitVec_eq
    apply BitVec.eq_of_getLsbD_eq
    intro i small
    simp
    interval_cases i <;> simp

@[simp] theorem length_toBytes (hdr : BasicFramingHdr) : hdr.toBytes.length = size := rfl

/-- The bytes of a header make it again. -/
theorem ofBytes_toBytes (hdr : BasicFramingHdr) : ofBytes hdr.toBytes = hdr := by
  obtain ⟨id, type, typeId, opt, msgId, lamport, len⟩ := hdr
  simp only [ofBytes, toBytes, halfBytes, List.cons_append, List.nil_append, List.getD_cons_zero,
    List.getD_cons_succ, half_halfBytes]

/-- Ten bytes are those of the header that they make. -/
theorem toBytes_ofBytes {bytes : Bytes} (ten : bytes.length = size) :
    (ofBytes bytes).toBytes = bytes := by
  obtain ⟨a, b, c, d, e, f, g, h, i, j, rfl⟩ :
      ∃ a b c d e f g h i j, bytes = [a, b, c, d, e, f, g, h, i, j] := by
    match bytes, ten with
    | [a, b, c, d, e, f, g, h, i, j], _ => exact ⟨a, b, c, d, e, f, g, h, i, j, rfl⟩
  simp only [ofBytes, toBytes, List.getD_cons_zero, List.getD_cons_succ, halfBytes_half]
  rfl

theorem ofBytes_eq_iff {bytes : Bytes} (ten : bytes.length = size) (hdr : BasicFramingHdr) :
    ofBytes bytes = hdr ↔ bytes = hdr.toBytes := by
  constructor
  · rintro rfl
    exact (toBytes_ofBytes ten).symm
  · rintro rfl
    exact ofBytes_toBytes hdr

/-- The bytes of a header are an empty C string exactly when it begins with a NUL. -/
theorem cstr_toBytes_eq_nil_iff (hdr : BasicFramingHdr) : cstr hdr.toBytes = [] ↔ hdr.id = 0 := by
  simp [toBytes, cstr]

end BasicFramingHdr
namespace MsgHdr

variable {env : BufEnv} {window : Bytes} {chunked : ChunkBuf} {hdr : MsgHdr} {process : Process}

theorem initFromBuf_of_short (type : hdr.type = typeBasic)
    (short : window.length < BasicFramingHdr.size) :
    hdr.initFromBuf env window chunked process = { bytesUsed := none, hdr, process, chunked } := by
  rw [initFromBuf, if_pos type, initBasic, if_pos short]

theorem initFromBuf_of_long (type : hdr.type = typeBasic)
    (long : BasicFramingHdr.size ≤ window.length) :
    let basic := BasicFramingHdr.ofBytes (readMemory env.parameter BasicFramingHdr.size)
    hdr.initFromBuf env window chunked process =
      { bytesUsed := some BasicFramingHdr.size
        hdr := { hdr with basic, msgId := basic.msgId }
        process, chunked } := by
  rw [initFromBuf, if_pos type, initBasic, if_neg (Nat.not_lt.mpr long)]

end MsgHdr

namespace World

variable {w : World} {queue : List OutMsg}

/-- A message in memory is accepted when its header is not an empty string, the mutex is
free and memory can be had. -/
theorem addMsgBuf_accepts (queued : Queued w.session queue)
    (free : w.session.mutexes.outgoing = false) {framingHdr : Option Bytes}
    (inhabited : cstr (framingHdr.getD []) ≠ []) (hdrLen : Int) (body : Bytes) (bodyLen : Int)
    (whdr : MsgHdr) (fresh : Bytes) :
    (w.addMsgBuf framingHdr hdrLen body bodyLen whdr (some fresh)).2 = some true := by
  obtain ⟨wbuf, held, -⟩ := queued.filled.buffer
  have some_ : w.session.wbuf.isNone = false := by rw [held]; rfl
  rw [addMsgBuf, some_, if_neg (by simp), if_neg (by simpa using inhabited),
    lockOutgoing_of_free free]
  unfold enqueue
  dsimp only
  split
  · rfl
  · rfl

/-- A header of the basic framing goes through `AddMsgBuf` and `InitFromBuf` exactly when
it does not begin with a NUL and its bytes happen to stand where the parameter of
`InitFromBuf` has its own address. -/
theorem basicFraming_works_iff (queued : Queued w.session queue)
    (free : w.session.mutexes.outgoing = false) {hdr : BasicFramingHdr} {body : Bytes}
    (length : body.length = hdr.len.toNat) (rest : Bytes) (whdr : MsgHdr) (fresh : Bytes)
    {receiver : MsgHdr} (type : receiver.type = MsgHdr.typeBasic) (env : MsgHdr.BufEnv)
    (chunked : ChunkBuf) (process : Process) :
    let sent := w.addMsgBuf (some hdr.toBytes) BasicFramingHdr.size body hdr.len.toNat whdr
      (some fresh)
    let received := receiver.initFromBuf env (hdr.toBytes ++ body ++ rest) chunked process
    (sent.2 = some true ∧
        (sent.1.session.wbuf.getD []).take sent.1.session.wbufLen.toNat =
          (w.session.wbuf.getD []).take w.session.wbufLen.toNat ++ hdr.toBytes ++ body ∧
        received.bytesUsed = some BasicFramingHdr.size ∧ received.hdr.basic = hdr ∧
        received.hdr.msgId = hdr.msgId ∧ received.hdr.bodyLen = hdr.len.toNat ∧
        ∀ short : Bytes, short.length < BasicFramingHdr.size →
          (receiver.initFromBuf env short chunked process).bytesUsed = none ∧
            (receiver.initFromBuf env short chunked process).hdr = receiver) ↔
      hdr.id ≠ 0 ∧ readMemory env.parameter BasicFramingHdr.size = hdr.toBytes := by
  intro sent received
  have ten := length_readMemory env.parameter BasicFramingHdr.size
  have parsed : received = _ := MsgHdr.initFromBuf_of_long type (by simp)
  constructor
  · rintro ⟨accepted, -, -, basic, -⟩
    refine ⟨fun zero => ?_, ?_⟩
    · have empty : cstr ((some hdr.toBytes).getD []) = [] :=
        (BasicFramingHdr.cstr_toBytes_eq_nil_iff hdr).mpr zero
      obtain ⟨wbuf, held, -⟩ := queued.filled.buffer
      have some_ : w.session.wbuf.isNone = false := by rw [held]; rfl
      simp only [sent, addMsgBuf, some_, empty] at accepted
      cases accepted
    · rw [parsed] at basic
      exact (BasicFramingHdr.ofBytes_eq_iff ten hdr).mp basic
  · rintro ⟨inhabited, same⟩
    have text : cstr ((some hdr.toBytes).getD []) ≠ [] := fun empty =>
      inhabited ((BasicFramingHdr.cstr_toBytes_eq_nil_iff hdr).mp empty)
    have accepted : sent.2 = some true := addMsgBuf_accepts queued free text ..
    have basic := (BasicFramingHdr.ofBytes_eq_iff ten hdr).mpr same
    refine ⟨accepted, ?_, ?_, ?_, ?_, ?_, fun short few => ?_⟩
    · have adds := adds_addMsgBuf queued (some hdr.toBytes) body whdr (some fresh)
      have same : w.addMsgBuf (some hdr.toBytes) ((some hdr.toBytes).getD []).length body
          body.length whdr (some fresh) = sent := by rw [length]; rfl
      rw [same] at adds
      generalize sent = outcome at adds accepted
      cases adds with
      | added added =>
          rw [added.take_wbuf, queued.take_wbuf, List.flatMap_append, List.append_assoc]
          simp [OutMsg.buffered]
      | refused => cases accepted
      | hung => cases accepted
    · rw [parsed]
    · rw [parsed]
      exact basic
    · rw [parsed]
      exact congrArg BasicFramingHdr.msgId basic
    · rw [parsed, MsgHdr.bodyLen, if_pos type]
      exact congrArg (fun hdr => hdr.len.toNat) basic
    · rw [MsgHdr.initFromBuf_of_short type few]
      exact ⟨rfl, rfl⟩

/-- A header that works when its bytes stand behind the address of the parameter. -/
theorem basicFraming_works_iff_sample :
    let hdr : BasicFramingHdr := { id := 1, msgId := 513, len := 2 }
    let sent := (opened MsgHdr.typeBasic {} {} []).addMsgBuf (some hdr.toBytes) BasicFramingHdr.size
      (ascii "ab") hdr.len.toNat { type := MsgHdr.typeBasic } (some [])
    let received := ({ type := MsgHdr.typeBasic } : MsgHdr).initFromBuf
      { stale := [], parameter := hdr.toBytes, realloc := fun _ _ => none }
      (hdr.toBytes ++ ascii "ab" ++ ascii "c") { msgBody := none, size := 0 } {}
    sent.2 = some true ∧ received.hdr.basic = hdr := by
  intro hdr sent received
  obtain ⟨accepted, -, -, basic, -⟩ := (@basicFraming_works_iff _ _
    (queued_opened MsgHdr.typeBasic {} {} []) rfl hdr (ascii "ab") (by decide) (ascii "c")
    { type := MsgHdr.typeBasic } [] { type := MsgHdr.typeBasic } rfl
    { stale := [], parameter := hdr.toBytes, realloc := fun _ _ => none }
    { msgBody := none, size := 0 } {}).mpr ⟨by decide, by decide⟩
  exact ⟨accepted, basic⟩

/-- A header that begins with a NUL is refused, and the receiver makes its header of the
bytes of a pointer. -/
theorem basicFraming_fails :
    let hdr : BasicFramingHdr := { type := 1, msgId := 7, len := 2 }
    let sent := (opened MsgHdr.typeBasic {} {} []).addMsgBuf (some hdr.toBytes) BasicFramingHdr.size
      (ascii "ab") hdr.len.toNat { type := MsgHdr.typeBasic } (some [])
    let received := ({ type := MsgHdr.typeBasic } : MsgHdr).initFromBuf
      { stale := [], parameter := [16, 32, 48, 64, 253, 127, 0, 0], realloc := fun _ _ => none }
      (hdr.toBytes ++ ascii "ab" ++ ascii "c") { msgBody := none, size := 0 } {}
    sent.2 = some false ∧ received.hdr.basic ≠ hdr ∧ received.hdr.msgId = 32765 := by
  decide +kernel

end World

end IpUtils
