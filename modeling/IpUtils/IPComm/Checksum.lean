import IpUtils.CLib.Strings
import IpUtils.IPComm.OnesComplement

/-! # The checksum of a payload

`calculate_cksum` adds the words of a buffer up in 32 bits and folds the carries in
afterwards. The additions themselves drop what does not fit into 32 bits.
-/

namespace IpUtils

namespace IPComm

/-- The word that a little-endian host reads from two bytes. -/
def hostWord (low high : UInt8) : Nat :=
  low.toNat + 256 * high.toNat

/-- `while (num_left > 1)`, with the byte that is left over. The accumulator has 32 bits. -/
def accumulate (sum : Nat) : Bytes → Nat
  | low :: high :: rest => accumulate ((sum + hostWord low high) % 2 ^ 32) rest
  | [byte] => (sum + byte.toNat) % 2 ^ 32
  | [] => sum

/-- `while (sum >> 16)`. -/
def foldHigh (sum : Nat) : Nat :=
  if sum / 2 ^ 16 = 0 then sum else foldHigh (sum % 2 ^ 16 + sum / 2 ^ 16)
termination_by sum
decreasing_by omega

/-- `calculate_cksum`. -/
def calculateCksum (buf : Bytes) : Nat :=
  (2 ^ 32 - 1 - foldHigh (accumulate 0 buf)) % 2 ^ 16

/-- The 16-bit words of a buffer in host order, an odd last byte padded with zero. -/
def hostWords : Bytes → List Nat
  | low :: high :: rest => hostWord low high :: hostWords rest
  | [byte] => [hostWord byte 0]
  | [] => []

/-- The checksum of RFC 1071: the complement of the ones' complement sum. -/
def internetChecksum (buf : Bytes) : Nat :=
  0xffff - OnesComplement.sum 0xffff (hostWords buf)

theorem hostWord_le (low high : UInt8) : hostWord low high ≤ 0xffff := by
  have lowBound := low.toNat_lt
  have highBound := high.toNat_lt
  unfold hostWord
  omega

theorem hostWords_le (buf : Bytes) : ∀ word ∈ hostWords buf, word ≤ 0xffff := by
  induction buf using hostWords.induct with
  | case1 low high rest ih =>
      rw [hostWords, List.forall_mem_cons]
      exact ⟨hostWord_le low high, ih⟩
  | case2 byte => simpa [hostWords] using hostWord_le byte 0
  | case3 => simp [hostWords]

/-- The accumulator holds the sum of the words, as far as it fits. -/
theorem accumulate_eq (buf : Bytes) (sum : Nat) :
    accumulate (sum % 2 ^ 32) buf = (sum + (hostWords buf).sum) % 2 ^ 32 := by
  induction buf using hostWords.induct generalizing sum with
  | case1 low high rest ih =>
      rw [accumulate, Nat.mod_add_mod, ih, hostWords, List.sum_cons, Nat.add_assoc]
  | case2 byte => simp [accumulate, hostWords, hostWord]
  | case3 => simp [accumulate, hostWords]

theorem foldHigh_le (sum : Nat) : foldHigh sum ≤ 0xffff := by
  induction sum using foldHigh.induct with
  | case1 sum small =>
      rw [foldHigh, if_pos small]
      omega
  | case2 sum large ih =>
      rw [foldHigh, if_neg large]
      exact ih

/-- Folding keeps the residue, and ends at it. -/
theorem foldHigh_eq (sum : Nat) : foldHigh sum = OnesComplement.residue 0xffff sum := by
  induction sum using foldHigh.induct with
  | case1 sum small =>
      rw [foldHigh, if_pos small, OnesComplement.residue_of_le]
      omega
  | case2 sum large ih =>
      rw [foldHigh, if_neg large, ih]
      exact OnesComplement.residue_carry sum

theorem calculateCksum_eq (buf : Bytes) :
    calculateCksum buf =
      0xffff - OnesComplement.residue 0xffff ((hostWords buf).sum % 2 ^ 32) := by
  have accumulated : accumulate 0 buf = (hostWords buf).sum % 2 ^ 32 := by
    have whole := accumulate_eq buf 0
    rwa [Nat.zero_mod, Nat.zero_add] at whole
  have bound := foldHigh_le (accumulate 0 buf)
  rw [calculateCksum, ← accumulated, ← foldHigh_eq]
  omega

theorem internetChecksum_eq (buf : Bytes) :
    internetChecksum buf = 0xffff - OnesComplement.residue 0xffff (hostWords buf).sum := by
  rw [internetChecksum, OnesComplement.sum_eq_residue (by omega) (hostWords_le buf)]

/-- A carry out of 32 bits counts like one out of 16 bits. -/
theorem mod_modEq_iff (sum : Nat) :
    sum % 2 ^ 32 ≡ sum [MOD 0xffff] ↔ 0xffff ∣ sum / 2 ^ 32 := by
  have split := Nat.mod_add_div sum (2 ^ 32)
  unfold Nat.ModEq
  omega

/-- `calculate_cksum` is the checksum of RFC 1071 exactly when what the accumulator has dropped,
counted in units of 2^32, is a multiple of 65535, and something is left unless all words
are zero. -/
theorem calculateCksum_eq_internetChecksum_iff (buf : Bytes) :
    calculateCksum buf = internetChecksum buf ↔
      0xffff ∣ (hostWords buf).sum / 2 ^ 32 ∧
        ((hostWords buf).sum % 2 ^ 32 = 0 → (hostWords buf).sum = 0) := by
  have left := @OnesComplement.residue_le 0xffff (by omega) ((hostWords buf).sum % 2 ^ 32)
  have right := @OnesComplement.residue_le 0xffff (by omega) (hostWords buf).sum
  have same := @OnesComplement.residue_eq_residue 0xffff
    ((hostWords buf).sum % 2 ^ 32) (hostWords buf).sum
  have dropped := mod_modEq_iff (hostWords buf).sum
  rw [calculateCksum_eq, internetChecksum_eq]
  constructor
  · intro equal
    have both := same.mp (by omega)
    exact ⟨dropped.mp both.2, both.1.mp⟩
  · intro given
    rw [same.mpr ⟨⟨given.2, fun zero => by simp [zero]⟩, dropped.mpr given.1⟩]

theorem sum_hostWords_le (buf : Bytes) : 2 * (hostWords buf).sum ≤ 0xffff * buf.length := by
  induction buf using hostWords.induct with
  | case1 low high rest ih =>
      have bound := hostWord_le low high
      simp only [hostWords, List.sum_cons, List.length_cons]
      omega
  | case2 byte =>
      have bound := byte.toNat_lt
      simp [hostWords, hostWord]
      omega
  | case3 => simp [hostWords]

/-- A buffer that is too short to make the accumulator wrap is summed correctly. -/
theorem calculateCksum_of_length {buf : Bytes} (short : buf.length ≤ 131074) :
    calculateCksum buf = internetChecksum buf := by
  have bound := sum_hostWords_le buf
  have fits : (hostWords buf).sum < 2 ^ 32 := by omega
  rw [calculateCksum_eq, internetChecksum_eq, Nat.mod_eq_of_lt fits]

theorem sum_hostWords_replicate (count : Nat) :
    (hostWords (List.replicate (2 * count) 0xff)).sum = count * 0xffff := by
  induction count with
  | zero => rfl
  | succ count ih =>
      have word : hostWord 0xff 0xff = 0xffff := rfl
      rw [show 2 * (count + 1) = 2 * count + 1 + 1 by omega, List.replicate_succ,
        List.replicate_succ, hostWords, List.sum_cons, ih, word]
      omega

/-- 65538 words with all bits set: the accumulator drops a carry. -/
theorem calculateCksum_wraps :
    ¬ ∀ buf, calculateCksum buf = internetChecksum buf := by
  intro always
  have equal := always (List.replicate (2 * 65538) 0xff)
  rw [calculateCksum_eq, internetChecksum_eq, sum_hostWords_replicate 65538] at equal
  revert equal
  decide +kernel

end IPComm

end IpUtils
