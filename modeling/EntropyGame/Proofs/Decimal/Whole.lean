import EntropyGame.Proofs.Decimal.Finite
import EntropyGame.Value.Basic

namespace EntropyGame.Decimal

open Float.Model Float.Model.UnpackedFloat

section

variable {s : Sign} {m : Nat} {e : Int}

theorem log2_normal (hm : 2 ^ 52 ≤ m) (hm' : m < 2 ^ 53) : m.log2 = 52 :=
  (Nat.log2_eq_iff (by omega)).mpr ⟨hm, hm'⟩

theorem targetExponent_normal (hm : 2 ^ 52 ≤ m) (hm' : m < 2 ^ 53) (he : -1074 ≤ e) :
    Format.binary64.targetExponent (totalExponent m e) = e := by
  have hbits : Format.binary64.mantissaBits = 53 := rfl
  have hleast : Format.binary64.minExponent = -1074 := rfl
  rw [Format.targetExponent, totalExponent, log2_normal hm hm', hbits, hleast]
  omega

/-- A mantissa that fills the format stays as it is. -/
theorem shiftToTargetExponent_normal (hm : 2 ^ 52 ≤ m) (hm' : m < 2 ^ 53) (he : -1074 ≤ e) :
    shiftToTargetExponent .binary64 m e .exact = (⟨m, false, false⟩, e) := by
  have hnone : (e - e).toNat = 0 := by omega
  rw [shiftToTargetExponent, targetExponent_normal hm hm' he, shiftToExponent, hnone]
  exact Prod.ext rfl (Int.add_zero e)

theorem shiftRight_exact (m n : Nat) :
    (⟨m * 2 ^ n, false, false⟩ : ExtendedMantissa) >>> n = ⟨m, false, false⟩ := by
  show n.repeat ExtendedMantissa.shiftRightOne ⟨m * 2 ^ n, false, false⟩ = ⟨m, false, false⟩
  induction n generalizing m with
  | zero =>
    rw [Nat.pow_zero, Nat.mul_one]
    rfl
  | succ n ih =>
    have hpower : m * 2 ^ (n + 1) = m * 2 * 2 ^ n := by
      rw [Nat.pow_succ, Nat.mul_comm (2 ^ n), Nat.mul_assoc]
    rw [hpower, Nat.repeat, ih (m * 2), ExtendedMantissa.shiftRightOne]
    simp

/-- Zeros at the end of a mantissa may be dropped. -/
theorem shiftToTargetExponent_zeros (hm : 2 ^ 52 ≤ m) (hm' : m < 2 ^ 53) (he : -1074 ≤ e)
    (zeros : Nat) : shiftToTargetExponent .binary64 (m * 2 ^ zeros) (e - zeros) .exact =
      (⟨m, false, false⟩, e) := by
  have hpositive : 0 < 2 ^ zeros := Nat.two_pow_pos zeros
  have hlog : (m * 2 ^ zeros).log2 = 52 + zeros := by
    refine (Nat.log2_eq_iff (Nat.ne_of_gt (Nat.mul_pos (by omega) hpositive))).mpr ⟨?_, ?_⟩
    · rw [Nat.pow_add]
      exact Nat.mul_le_mul_right _ hm
    · rw [show 52 + zeros + 1 = 53 + zeros by omega, Nat.pow_add]
      exact Nat.mul_lt_mul_of_pos_right hm' hpositive
  have htarget :
      Format.binary64.targetExponent (totalExponent (m * 2 ^ zeros) (e - zeros)) = e := by
    have hbits : Format.binary64.mantissaBits = 53 := rfl
    have hleast : Format.binary64.minExponent = -1074 := rfl
    rw [Format.targetExponent, totalExponent, hlog, hbits, hleast]
    omega
  have hshift : (e - (e - zeros)).toNat = zeros := by omega
  rw [shiftToTargetExponent, htarget, shiftToExponent, hshift]
  refine Prod.ext (shiftRight_exact m zeros) ?_
  show e - zeros + (zeros : Int) = e
  omega

theorem roundWithAccuracy_zeros (hm : 2 ^ 52 ≤ m) (hm' : m < 2 ^ 53) (he : -1074 ≤ e)
    (zeros : Nat) : roundWithAccuracy .binary64 s (m * 2 ^ zeros) (e - zeros) .exact =
      .finite s m e (by omega) := by
  have hrounded : (⟨m, false, false⟩ : ExtendedMantissa).roundedMantissa = m := rfl
  have hne : m ≠ 0 := by omega
  simp only [roundWithAccuracy, shiftToTargetExponent_zeros hm hm' he zeros, hrounded,
    shiftToTargetExponent_normal hm hm' he, hne, dite_false]

theorem toNat_withLeadingBit (hm : 2 ^ 52 ≤ m) (hm' : m < 2 ^ 53) :
    (1#1 ++ BitVec.ofNat 52 m).toNat = m := by
  rw [BitVec.toNat_append, ← Nat.shiftLeft_add_eq_or_of_lt (BitVec.isLt _), BitVec.toNat_ofNat]
  show 1 <<< 52 + m % 2 ^ 52 = m
  rw [Nat.shiftLeft_eq]
  omega

/-- A number that fills the format is packed without loss. -/
theorem unpack_pack_normal (hm : 2 ^ 52 ≤ m) (hm' : m < 2 ^ 53) (he : -1074 ≤ e)
    (he' : e ≤ 971) (hpos : 0 < m) :
    UnpackedFloat.unpack .binary64 (UnpackedFloat.pack .binary64 (.finite s m e hpos)) =
      .finite s m e hpos := by
  have hbias : e + Format.binary64.exponentBias + Format.binary64.mantissaBitsWithoutImplicit =
      e + 1075 := by
    show e + 1023 + 52 = e + 1075
    omega
  have hbits : m.log2 + 1 = Format.binary64.mantissaBits := by
    rw [log2_normal hm hm']
    rfl
  have hexponent : (BitVec.ofNat 11 (e + 1075).toNat).toNat = (e + 1075).toNat := by
    rw [BitVec.toNat_ofNat, Nat.mod_eq_of_lt (by omega)]
  have hzero : BitVec.ofNat 11 (e + 1075).toNat ≠ 0#11 := by
    intro h
    rw [h] at hexponent
    have hexponent : 0 = (e + 1075).toNat := hexponent
    omega
  have hones : BitVec.ofNat 11 (e + 1075).toNat ≠ -1#11 := by
    intro h
    rw [h] at hexponent
    have hexponent : 2047 = (e + 1075).toNat := hexponent
    omega
  simp only [UnpackedFloat.pack, hbias]
  rw [if_neg (show ¬ 2 ^ 11 ≤ (e + 1075).toNat + 1 by omega), if_pos hbits]
  simp only [UnpackedFloat.unpack, unpackMantissa_packComponents, unpackExponent_packComponents,
    unpackSign_packComponents, Sign.ofBitVec_toBitVec]
  rw [if_neg hones, if_neg hzero]
  have hback : ((e + 1075).toNat : Int) - ((Format.binary64.exponentBias : Int) +
      Format.binary64.mantissaBitsWithoutImplicit) = e := by
    show ((e + 1075).toNat : Int) - (1023 + 52) = e
    omega
  simp only [hexponent, hback, toNat_withLeadingBit hm hm']

end

section

variable {n : Nat}

/-- How many places a whole number is shifted to fill the format. -/
def room (n : Nat) : Nat :=
  52 - n.log2

theorem shifted_bounds (hpos : 0 < n) (h : n < 2 ^ 53) :
    2 ^ 52 ≤ n * 2 ^ room n ∧ n * 2 ^ room n < 2 ^ 53 := by
  have hlog : n.log2 < 53 := (Nat.log2_lt (by omega)).mpr h
  obtain ⟨hlow, hhigh⟩ := (Nat.log2_eq_iff (by omega)).mp (rfl : n.log2 = n.log2)
  have hroom : n.log2 + room n = 52 := by
    rw [room]
    omega
  constructor
  · rw [← hroom, Nat.pow_add]
    exact Nat.mul_le_mul_right _ hlow
  · rw [show 53 = n.log2 + 1 + room n by omega, Nat.pow_add]
    exact Nat.mul_lt_mul_of_pos_right hhigh (Nat.two_pow_pos _)

theorem ofNat_whole (hpos : 0 < n) (h : n < 2 ^ 53) :
    UnpackedFloat.ofNat .binary64 n =
      .finite .positive (n * 2 ^ room n) (-room n) (Nat.mul_pos hpos (Nat.two_pow_pos _)) := by
  obtain ⟨hlow, hhigh⟩ := shifted_bounds hpos h
  have hlog : n.log2 < 53 := (Nat.log2_lt (by omega)).mpr h
  have hcompare : compare (n : Int) 0 = .gt := Int.compare_eq_gt.mpr (by omega)
  have htarget : Format.binary64.targetExponent (totalExponent n 0) = -room n := by
    have hbits : Format.binary64.mantissaBits = 53 := rfl
    have hleast : Format.binary64.minExponent = -1074 := rfl
    rw [Format.targetExponent, totalExponent, hbits, hleast, room]
    omega
  have hshift : ((0 : Int) - -(room n : Int)).toNat = room n := by omega
  have hexponent : (0 : Int) - (room n : Int) = -(room n : Int) := by omega
  have hround := roundWithAccuracy_zeros (s := .positive) hlow hhigh
    (show (-1074 : Int) ≤ -(room n : Int) by rw [room]; omega) 0
  simp only [Nat.pow_zero, Nat.mul_one, Int.ofNat_zero, Int.sub_zero] at hround
  simp only [UnpackedFloat.ofNat, UnpackedFloat.ofInt, UnpackedFloat.normalize, hcompare,
    UnpackedFloat.round, Int.toNat_natCast, htarget, decreaseExponent, hshift, Nat.shiftLeft_eq, hexponent]
  exact hround

/-- A whole number is a double that fills the format. -/
theorem unpack_ofNat (hpos : 0 < n) (h : n < 2 ^ 53) :
    (Float.ofNat n).toModel.unpack =
      .finite .positive (n * 2 ^ room n) (-room n) (Nat.mul_pos hpos (Nat.two_pow_pos _)) := by
  obtain ⟨hlow, hhigh⟩ := shifted_bounds hpos h
  have hroom : (-1074 : Int) ≤ -(room n : Int) := by
    rw [room]
    omega
  have hword : n.toUInt64.toNat = n := by
    show n % 2 ^ 64 = n
    omega
  have hpacked := unpack_pack_normal (s := .positive) hlow hhigh hroom (by omega)
    (Nat.mul_pos hpos (Nat.two_pow_pos _))
  have hmul : UnpackedFloat.mul .binary64
      (.finite .positive (n * 2 ^ room n) (-room n) (Nat.mul_pos hpos (Nat.two_pow_pos _)))
      (.finite .positive (2 ^ 52) (-52) (by decide)) =
      .finite .positive (n * 2 ^ room n) (-room n) (Nat.mul_pos hpos (Nat.two_pow_pos _)) :=
    roundWithAccuracy_zeros hlow hhigh hroom 52
  have hfloat : (Float.ofNat n).toModel = Float.Model.pack (UnpackedFloat.mul .binary64
      (UnpackedFloat.unpack .binary64 (UnpackedFloat.pack .binary64
        (UnpackedFloat.ofNat .binary64 n.toUInt64.toNat)))
      (Float.ofBits 0x3FF0000000000000).toModel.unpack) := by
    show (Float.ofScientific n false 0).toModel = _
    rw [Float.ofScientific, dif_pos ⟨h, by decide⟩]
    rfl
  rw [hfloat, hword, ofNat_whole hpos h, hpacked, one_unpack, hmul]
  exact hpacked

theorem roundToInt_whole (n k : Nat) : roundToInt .positive (n * 2 ^ k) (-k) = n := by
  have hnone : (-(k : Int) - 0).toNat = 0 := by omega
  have hshift : ((0 : Int) - (-(k : Int) - (0 : Nat))).toNat = k := by omega
  simp only [roundToInt, decreaseExponent, hnone, Nat.shiftLeft_zero, shiftToExponent, hshift,
    ExtendedMantissa.ofMantissaAndAccuracy, shiftRight_exact]
  rfl

end

end EntropyGame.Decimal

namespace EntropyGame.Value

open Decimal Float.Model

/-- Every count is that of the number which it is. -/
theorem count?_ofNat {n : Nat} (h : n ≤ greatestCount) :
    (number (Float.ofNat n)).count? = some n := by
  have hlt : n < 2 ^ 32 := by
    rw [greatestCount] at h
    omega
  have hwhole : 0 ≤ Float.ofNat n ∧ (Float.ofNat n).toUInt64.toNat = n ∧
      (Float.ofNat n == Float.ofNat n) = true := by
    rcases Nat.eq_zero_or_pos n with rfl | hpos
    · decide +kernel
    · have hunpack := unpack_ofNat hpos (by omega)
      refine ⟨?_, ?_, ?_⟩
      · have hle : (Float.toModel 0).unpack.le (Float.ofNat n).toModel.unpack = true := by
          rw [hunpack]
          rfl
        exact decide_eq_true hle
      · have hclamp : (UInt64.ofNatClamp n).toNat = n := by
          rw [UInt64.ofNatClamp, dif_pos (Nat.lt_trans hlt (by decide))]
          rfl
        show ((Float.ofNat n).toModel.unpack.toUInt64).toNat = n
        rw [hunpack, UnpackedFloat.toUInt64, UnpackedFloat.toInt, roundToInt_whole,
          Int.toNat_natCast, hclamp]
      · show (Float.ofNat n).toModel.unpack.beq (Float.ofNat n).toModel.unpack = true
        rw [hunpack]
        simp [UnpackedFloat.beq, UnpackedFloat.compare]
  obtain ⟨hsign, hcount, hself⟩ := hwhole
  simp only [count?, hcount]
  rw [if_pos ⟨hsign, h, hself⟩]

end EntropyGame.Value
