import EntropyGame.Decimal.Binary64
import Mathlib

namespace EntropyGame.Decimal

open Float.Model Float.Model.UnpackedFloat

/-- A float that stands for a number with a small enough exponent. -/
def Below (bound : Int) : UnpackedFloat → Prop
  | .zero _ => True
  | .finite _ _ exponent _ => exponent ≤ bound
  | _ => False

theorem mantissa_shiftRight_le (em : ExtendedMantissa) (n : Nat) :
    (em >>> n).mantissa ≤ em.mantissa := by
  show (n.repeat ExtendedMantissa.shiftRightOne em).mantissa ≤ em.mantissa
  induction n with
  | zero => exact Nat.le_refl _
  | succ n ih => exact Nat.le_trans (Nat.div_le_self _ 2) ih

theorem mantissa_ofMantissaAndAccuracy (m : Nat) (accuracy : Accuracy) :
    (ExtendedMantissa.ofMantissaAndAccuracy m accuracy).mantissa = m := by
  unfold ExtendedMantissa.ofMantissaAndAccuracy
  split <;> rfl

theorem roundedMantissa_le (em : ExtendedMantissa) : em.roundedMantissa ≤ em.mantissa + 1 := by
  unfold ExtendedMantissa.roundedMantissa Accuracy.roundToNearestEven
  split <;> omega

/-- Bringing a number into the format makes its mantissa no greater and its exponent not much
greater. -/
theorem shiftToTargetExponent_le {m k : Nat} {e bound : Int} {a : Accuracy} (hm : m.log2 < k)
    (he : e ≤ bound) (hbound : -1074 ≤ bound) :
    (shiftToTargetExponent .binary64 m e a).1.mantissa ≤ m ∧
      (shiftToTargetExponent .binary64 m e a).2 ≤ bound + k := by
  have ht : Format.binary64.targetExponent (totalExponent m e) ≤ bound + k := by
    simp only [Format.targetExponent, totalExponent, Format.mantissaBits, Format.minExponent]
    omega
  constructor
  · have h := mantissa_shiftRight_le (ExtendedMantissa.ofMantissaAndAccuracy m a)
      (Format.binary64.targetExponent (totalExponent m e) - e).toNat
    rwa [mantissa_ofMantissaAndAccuracy] at h
  · show e + ((Format.binary64.targetExponent (totalExponent m e) - e).toNat : Int) ≤ bound + k
    omega

theorem roundWithAccuracy_below {sign : Sign} {m k : Nat} {e b : Int} {accuracy : Accuracy}
    (hm : m + 1 < 2 ^ k) (he : e ≤ b) (hbound : -1074 ≤ b) :
    Below (b + 2 * k) (roundWithAccuracy .binary64 sign m e accuracy) := by
  have hlog : ∀ n : Nat, n < 2 ^ k → 0 < k → n.log2 < k := by
    intro n hn hk
    by_cases h0 : n = 0
    · subst h0
      exact hk
    · exact (Nat.log2_lt h0).mpr hn
  have hk : 0 < k := by
    rcases k with _ | k
    · omega
    · omega
  obtain ⟨hm₁, he₁⟩ :=
    shiftToTargetExponent_le (a := accuracy) (hlog m (by omega) hk) he hbound
  have hr := roundedMantissa_le (shiftToTargetExponent .binary64 m e accuracy).1
  obtain ⟨-, he₂⟩ := shiftToTargetExponent_le (a := .exact)
    (hlog (shiftToTargetExponent .binary64 m e accuracy).1.roundedMantissa (by omega) hk) he₁
    (by omega)
  simp only [roundWithAccuracy]
  split
  · trivial
  · simp only [Below]
    omega

theorem exponent_pack {bound : Int} {f : UnpackedFloat} (h : Below bound f)
    (hlow : -1074 ≤ bound) (hhigh : bound ≤ 971) :
    (unpackExponent (UnpackedFloat.pack .binary64 f)).toNat ≤ (bound + 1075).toNat := by
  cases f with
  | zero s =>
    rw [UnpackedFloat.pack, packedZero, unpackExponent_packComponents]
    exact Nat.zero_le _
  | finite s m e hm =>
    have he : e ≤ bound := h
    have hbias : (e + Format.binary64.exponentBias + Format.binary64.mantissaBitsWithoutImplicit) =
      e + 1075 := by
      show e + 1023 + 52 = e + 1075
      omega
    simp only [UnpackedFloat.pack, hbias]
    rw [if_neg (show ¬ 2 ^ 11 ≤ (e + 1075).toNat + 1 by omega)]
    split
    · rw [unpackExponent_packComponents, BitVec.toNat_ofNat]
      exact Nat.le_trans (Nat.mod_le _ _) (by omega)
    · rw [unpackExponent_packComponents]
      exact Nat.zero_le _
  | infinity s => exact h.elim
  | notANumber => exact h.elim

theorem exponent_ne {b : BitVec Format.binary64.numBits} {bound : Int}
    (h : (@unpackExponent .binary64 b).toNat ≤ (bound + 1075).toNat)
    (hhigh : bound ≤ 971) : @unpackExponent .binary64 b ≠ -1#11 := by
  intro he
  rw [he] at h
  have h : 2047 ≤ (bound + 1075).toNat := h
  omega

/-- Packing a number of a small exponent and unpacking it keeps it a number of a small exponent. -/
theorem unpack_pack_below {bound : Int} {f : UnpackedFloat} (h : Below bound f)
    (hlow : -1074 ≤ bound) (hhigh : bound ≤ 971) :
    Below bound (UnpackedFloat.unpack .binary64 (UnpackedFloat.pack .binary64 f)) := by
  have he := exponent_pack h hlow hhigh
  simp only [UnpackedFloat.unpack]
  rw [if_neg (exponent_ne he hhigh)]
  have hbias : ((Format.binary64.exponentBias : Int) +
      Format.binary64.mantissaBitsWithoutImplicit) = 1075 := rfl
  split
  · rename_i h0
    split
    · trivial
    · simp only [Below, h0, hbias]
      show ((0#11).toNat : Int) - 1075 + 1 ≤ bound
      simpa using hlow
  · simp only [Below, hbias]
    omega

theorem Below.isFinite {bound : Int} {f : UnpackedFloat} (h : Below bound f) :
    f.isFinite = true := by
  cases f with
  | zero => rfl
  | finite => rfl
  | infinity => exact h.elim
  | notANumber => exact h.elim

theorem isFinite_pack {bound : Int} {f : UnpackedFloat} (h : Below bound f)
    (hlow : -1074 ≤ bound) (hhigh : bound ≤ 971) :
    (Float.ofModel (Float.Model.pack f)).isFinite = true :=
  (unpack_pack_below h hlow hhigh).isFinite

theorem mantissa_unpack {b : BitVec Format.binary64.numBits} {s : Sign} {m : Nat} {e : Int}
    {hm : 0 < m} (h : UnpackedFloat.unpack .binary64 b = .finite s m e hm) : m < 2 ^ 53 := by
  simp only [UnpackedFloat.unpack] at h
  split at h
  · split at h <;> cases h
  · split at h
    · split at h
      · cases h
      · cases h
        exact Nat.lt_trans (BitVec.isLt _) (by decide)
    · cases h
      exact BitVec.isLt _

theorem one_unpack : (Float.ofBits 0x3FF0000000000000).toModel.unpack =
    .finite .positive (2 ^ 52) (-52) (by decide) := by
  rfl

theorem shiftLeft_lt {n k : Nat} (h : n < 2 ^ 64) (hk : k ≤ 53) : n <<< k + 1 < 2 ^ 118 := by
  rw [Nat.shiftLeft_eq]
  have hp : 2 ^ k ≤ 2 ^ 53 := Nat.pow_le_pow_right (by decide) hk
  have hlt : n * 2 ^ k < 2 ^ 64 * 2 ^ 53 := Nat.mul_lt_mul_of_lt_of_le h hp (by decide)
  omega

theorem ofNat_below {n : Nat} (h : n < 2 ^ 64) :
    Below 236 (UnpackedFloat.ofNat .binary64 n) := by
  simp only [UnpackedFloat.ofNat, UnpackedFloat.ofInt, UnpackedFloat.normalize]
  split
  · rename_i hlt
    rw [Int.compare_eq_lt] at hlt
    omega
  · trivial
  · have ht : -52 ≤ Format.binary64.targetExponent (totalExponent (n : Int).toNat 0) := by
      simp only [Format.targetExponent, totalExponent, Format.mantissaBits, Format.minExponent]
      omega
    exact roundWithAccuracy_below (k := 118) (b := 0) (shiftLeft_lt h (by omega)) (by omega)
      (by decide)

theorem mul_one_below {b : BitVec Format.binary64.numBits}
    (h : Below 236 (UnpackedFloat.unpack .binary64 b)) :
    Below 448 (UnpackedFloat.mul .binary64 (UnpackedFloat.unpack .binary64 b)
      (.finite .positive (2 ^ 52) (-52) (by decide))) := by
  cases hf : UnpackedFloat.unpack .binary64 b with
  | zero s => trivial
  | finite s m e hm =>
    rw [hf] at h
    have he : e ≤ 236 := h
    have hlt := mantissa_unpack hf
    exact roundWithAccuracy_below (k := 106) (b := 236) (by omega) (by omega) (by decide)
  | infinity s =>
    rw [hf] at h
    exact h.elim
  | notANumber =>
    rw [hf] at h
    exact h.elim

theorem ofScientific_below {n : Nat} (h : n < 2 ^ 64) :
    Below 236 (UnpackedFloat.ofScientific .binary64 n 0) := by
  unfold UnpackedFloat.ofScientific
  split
  · trivial
  · have hbits : (0 : Int) ≤ 2 ^ Format.binary64.exponentBits := by decide
    rw [if_neg (by decide), if_neg (by omega), if_pos (by decide)]
    simp only [UnpackedFloat.mul, Int.toNat_zero, Nat.pow_zero, Nat.mul_one]
    have hk : Format.binary64.mantissaBits ≤ 53 := by decide
    -- as a number the width would be counted down bit by bit
    generalize Format.binary64.mantissaBits = k at hk ⊢
    exact roundWithAccuracy_below (b := 0) (shiftLeft_lt h hk) (by omega) (by decide)

/-- Whole numbers within 64 bits become finite doubles. -/
theorem isFinite_ofNat {n : Nat} (h : n < 2 ^ 64) : (Float.ofNat n).isFinite = true := by
  show (Float.ofScientific n false 0).isFinite = true
  unfold Float.ofScientific
  split
  · -- a short number is converted and then multiplied by one
    have hu := unpack_pack_below (ofNat_below n.toUInt64.toNat_lt) (by decide) (by decide)
    have hm := mul_one_below hu
    rw [← one_unpack] at hm
    exact isFinite_pack hm (by decide) (by decide)
  · exact isFinite_pack (ofScientific_below h) (by decide) (by decide)

theorem toNat_unpackExponent (b : BitVec Format.binary64.numBits) :
    (@unpackExponent .binary64 b).toNat = b.toNat / 2 ^ 52 % 2 ^ 11 := by
  simp only [unpackExponent, BitVec.toNat_cast, BitVec.extractLsb_toNat, Nat.shiftRight_eq_div_pow]

/-- A finite double has an exponent that the format has room for. -/
theorem below_unpack {b : BitVec Format.binary64.numBits}
    (h : (UnpackedFloat.unpack .binary64 b).isFinite = true) :
    Below 971 (UnpackedFloat.unpack .binary64 b) := by
  have hbias : ((Format.binary64.exponentBias : Int) +
      Format.binary64.mantissaBitsWithoutImplicit) = 1075 := rfl
  simp only [UnpackedFloat.unpack] at h ⊢
  split
  · rename_i hones
    rw [if_pos hones] at h
    split at h <;> cases h
  · rename_i hones
    have hfield : (@unpackExponent .binary64 b).toNat < 2 ^ 11 := BitVec.isLt _
    have hne : (@unpackExponent .binary64 b).toNat ≠ 2047 :=
      fun he => hones (BitVec.eq_of_toNat_eq he)
    split
    · rename_i h0
      split
      · trivial
      · simp only [Below, h0, hbias]
        decide
    · simp only [Below, hbias]
      omega

theorem Below.neg {bound : Int} {f : UnpackedFloat} (h : Below bound f) : Below bound f.neg := by
  cases f with
  | zero => trivial
  | finite => exact h
  | infinity => exact h.elim
  | notANumber => exact h.elim

/-- A finite double with the other sign is finite. -/
theorem isFinite_neg {x : Float} (h : x.isFinite = true) : (-x).isFinite = true :=
  isFinite_pack (below_unpack h).neg (by decide) (by decide)

/-- So are whole numbers of 64 bits with a sign. -/
theorem isFinite_ofInt {n : Int} (h : n.natAbs < 2 ^ 64) : (Float.ofInt n).isFinite = true := by
  cases n with
  | ofNat n => exact isFinite_ofNat h
  | negSucc n => exact isFinite_neg (isFinite_ofNat h)

theorem add_not_finite (f : UnpackedFloat) {g : UnpackedFloat} (hg : g.isFinite = false) :
    (UnpackedFloat.add .binary64 f g).isFinite = false := by
  cases g with
  | zero => cases hg
  | finite => cases hg
  | notANumber => cases f <;> rfl
  | infinity s =>
    cases f with
    | infinity t =>
      rw [UnpackedFloat.add]
      split <;> rfl
    | notANumber | zero | finite => rfl

theorem unpack_pack_not_finite {f : UnpackedFloat} (hf : f.isFinite = false) :
    (UnpackedFloat.unpack .binary64 (UnpackedFloat.pack .binary64 f)).isFinite = false := by
  cases f with
  | zero => cases hf
  | finite => cases hf
  | notANumber => rfl
  | infinity s => cases s <;> rfl

/-- What is added to a finite sum is finite. -/
theorem isFinite_of_add {x y : Float} (h : (x + y).isFinite = true) : y.isFinite = true := by
  have hsum : (x + y).isFinite = (UnpackedFloat.unpack .binary64 (UnpackedFloat.pack .binary64
    (UnpackedFloat.add .binary64 x.toModel.unpack y.toModel.unpack))).isFinite := rfl
  cases hy : y.isFinite with
  | true => rfl
  | false =>
    rw [hsum, unpack_pack_not_finite (add_not_finite _ hy)] at h
    cases h

end EntropyGame.Decimal
