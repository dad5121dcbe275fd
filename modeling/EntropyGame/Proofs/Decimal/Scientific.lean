import EntropyGame.Decimal.Binary64
import EntropyGame.Proofs.Decimal.Bits
import EntropyGame.Proofs.Decimal.Shortest

namespace EntropyGame.Decimal

open Float.Model Float.Model.UnpackedFloat

section

variable {m m₁ m₂ n : Nat} {e e₁ e₂ k : Int}

/-- An exact product is rounded to the double that it is to be rounded to. -/
theorem mul_of_contains (hm : IsDouble m e) (h₁ : 0 < m₁) (h₂ : 0 < m₂)
    (hv : (Rounded.of m e).Contains (m₁ * 2 ^ e₁ * (m₂ * 2 ^ e₂)))
    (hd : ∀ t : Int, -1074 ≤ t → (m₁ * 2 ^ e₁ * (m₂ * 2 ^ e₂) : ℚ) < 2 ^ (53 + t) → e₁ + e₂ ≤ t) :
    UnpackedFloat.mul .binary64 (.finite .positive m₁ e₁ h₁) (.finite .positive m₂ e₂ h₂) =
      .finite .positive m e hm.pos := by
  have hvalue : ((m₁ * m₂ : Nat) : ℚ) * 2 ^ (e₁ + e₂) = m₁ * 2 ^ e₁ * (m₂ * 2 ^ e₂) := by
    rw [zpow_add₀ two_ne_zero]
    push_cast
    ring
  refine roundWithAccuracy_of_contains (standsFor_exact (m₁ * m₂)) hm ?_ ?_
  · rw [hvalue]
    exact hv
  · rw [hvalue]
    exact hd

/-- So is an exact quotient. -/
theorem div_of_contains (hm : IsDouble m e) (h₁ : 0 < m₁) (h₂ : 0 < m₂)
    (hv : (Rounded.of m e).Contains (m₁ * 2 ^ e₁ / (m₂ * 2 ^ e₂))) :
    UnpackedFloat.div .binary64 (.finite .positive m₁ e₁ h₁) (.finite .positive m₂ e₂ h₂) =
      .finite .positive m e hm.pos := by
  have hbits : Format.binary64.mantissaBits = 53 := rfl
  have hmin : Format.binary64.minExponent = -1074 := rfl
  have h₁q : (0 : ℚ) < m₁ := by exact_mod_cast h₁
  have h₂q : (0 : ℚ) < m₂ := by exact_mod_cast h₂
  let least := totalExponent m₁ e₁ - totalExponent m₂ e₂
  let t := min (e₁ - e₂) (Format.binary64.targetExponent least)
  let shift := (e₁ - e₂ - t).toNat
  have hvalue : ((m₁ <<< shift : Nat) : ℚ) / m₂ * 2 ^ t = m₁ * 2 ^ e₁ / (m₂ * 2 ^ e₂) := by
    have hshift : (shift : Int) = e₁ - e₂ - t := Int.toNat_of_nonneg (by omega)
    have hpower : (2 : ℚ) ^ shift * 2 ^ t = 2 ^ e₁ / 2 ^ e₂ := by
      rw [← zpow_natCast, ← zpow_add₀ two_ne_zero, ← zpow_sub₀ two_ne_zero, hshift]
      congr 1
      omega
    rw [Nat.shiftLeft_eq]
    push_cast
    calc (m₁ * 2 ^ shift / m₂ * 2 ^ t : ℚ) = m₁ / m₂ * (2 ^ shift * 2 ^ t) := by ring
      _ = m₁ * 2 ^ e₁ / (m₂ * 2 ^ e₂) := by rw [hpower, mul_div_mul_comm]
  refine roundWithAccuracy_of_contains (standsFor_quotient (m₁ <<< shift) h₂) hm ?_ ?_
  · rw [hvalue]
    exact hv
  · intro u hu hlt
    rw [hvalue] at hlt
    -- a quotient is at least half of that of the powers of two below
    have hlog : (2 : ℚ) ^ (least - 1) < 2 ^ (53 + u) := by
      refine lt_of_le_of_lt ?_ hlt
      have hlow : (2 : ℚ) ^ m₁.log2 ≤ m₁ := by exact_mod_cast (Nat.log2_self_le h₁.ne')
      have hhigh : (m₂ : ℚ) ≤ 2 ^ (m₂.log2 + 1) := by
        exact_mod_cast (Nat.lt_log2_self (n := m₂)).le
      have hquotient : (2 : ℚ) ^ (least - 1) =
          2 ^ m₁.log2 * 2 ^ e₁ / (2 ^ (m₂.log2 + 1) * 2 ^ e₂) := by
        rw [← zpow_natCast, ← zpow_natCast, ← zpow_add₀ two_ne_zero, ← zpow_add₀ two_ne_zero,
          ← zpow_sub₀ two_ne_zero]
        congr 1
        simp only [least, totalExponent]
        omega
      rw [hquotient]
      gcongr
    rw [zpow_lt_zpow_iff_right₀ one_lt_two] at hlog
    simp only [Format.targetExponent, hbits, hmin]
    omega

/-- A decimal with few digits is read as the double that it is to be rounded to. -/
theorem ofScientific_of_contains (hm : IsDouble m e) (hn : n ≠ 0) (hlow : -2048 ≤ k)
    (hhigh : k ≤ 2048) (hv : (Rounded.of m e).Contains (n * 10 ^ k)) :
    UnpackedFloat.ofScientific .binary64 n k = .finite .positive m e hm.pos := by
  have hn' : 0 < n := Nat.pos_of_ne_zero hn
  have hbits : (2 ^ Format.binary64.exponentBits : Int) = 2048 := rfl
  rw [UnpackedFloat.ofScientific, dif_neg hn, hbits, if_neg (by omega), if_neg (by omega)]
  by_cases hk : 0 ≤ k
  · obtain ⟨j, rfl⟩ := Int.eq_ofNat_of_zero_le hk
    have hmantissa : Format.binary64.mantissaBits = 53 := rfl
    have hvalue : ((n <<< 53 : Nat) : ℚ) * 2 ^ (-((53 : Nat) : Int)) *
        (((10 ^ j : Nat) : ℚ) * 2 ^ (0 : Int)) = n * 10 ^ (j : Int) := by
      have hpower : (2 : ℚ) ^ 53 * (2 ^ 53)⁻¹ = 1 := mul_inv_cancel₀ (by positivity)
      rw [Nat.shiftLeft_eq, zpow_neg, zpow_natCast, zpow_natCast, zpow_zero, Nat.cast_mul,
        Nat.cast_pow, Nat.cast_pow, Nat.cast_ofNat, Nat.cast_ofNat, mul_assoc (n : ℚ), hpower]
      ring
    rw [if_pos hk]
    simp only [hmantissa, Int.toNat_natCast]
    refine mul_of_contains hm _ _ ?_ ?_
    · rw [hvalue]
      exact hv
    · intro t ht hlt
      rw [hvalue] at hlt
      have hone : (1 : ℚ) ≤ n * 10 ^ (j : Int) := by
        have hnq : (1 : ℚ) ≤ n := by exact_mod_cast hn'
        have hp : (1 : ℚ) ≤ 10 ^ (j : Int) := one_le_zpow₀ (by norm_num) hk
        nlinarith
      have hpos : (2 : ℚ) ^ (0 : Int) < 2 ^ (53 + t) := by
        rw [zpow_zero]
        exact lt_of_le_of_lt hone hlt
      rw [zpow_lt_zpow_iff_right₀ one_lt_two] at hpos
      omega
  · obtain ⟨j, hj⟩ := Int.eq_ofNat_of_zero_le (show 0 ≤ -k by omega)
    obtain rfl : k = -(j : Int) := by omega
    have hvalue : ((n : ℚ) * 2 ^ (0 : Int)) / (((10 ^ j : Nat) : ℚ) * 2 ^ (0 : Int)) =
        n * 10 ^ (-(j : Int)) := by
      rw [zpow_neg, zpow_natCast, zpow_zero]
      push_cast
      ring
    rw [if_neg hk]
    simp only [Int.neg_neg, Int.toNat_natCast]
    refine div_of_contains hm _ _ ?_
    rw [hvalue]
    exact hv

/-- The powers of ten that are doubles. -/
theorem ofFloat_powerOfTen : ∀ j : Fin 23,
    Binary64.ofFloat Float.exactlyRepresentablePowersOfTen[j.val] =
      .finite false (10 ^ j.val * 2 ^ 52 / 2 ^ (10 ^ j.val).log2) ((10 ^ j.val).log2 - 52) ∧
    10 ^ j.val * 2 ^ 52 % 2 ^ (10 ^ j.val).log2 = 0 := by
  decide +kernel

theorem unpack_powerOfTen (j : Nat) (hj : j < Float.exactlyRepresentablePowersOfTen.size) :
    ∃ p q, ∃ h : 0 < p, Float.exactlyRepresentablePowersOfTen[j].toModel.unpack =
      .finite .positive p q h ∧ (p : ℚ) * 2 ^ q = 10 ^ j := by
  obtain ⟨hbits, hexact⟩ := ofFloat_powerOfTen ⟨j, hj⟩
  dsimp only at hbits hexact
  have hdvd := Nat.dvd_of_mod_eq_zero hexact
  have hpos : 0 < 10 ^ j * 2 ^ 52 / 2 ^ (10 ^ j).log2 :=
    Nat.div_pos (Nat.le_of_dvd (by positivity) hdvd) (by positivity)
  obtain ⟨hdouble, he, hx⟩ := Binary64.eq_ofModel hbits hpos
  refine ⟨_, ((10 ^ j).log2 : Int) - 52, hpos, ?_, ?_⟩
  · rw [hx]
    exact unpack_pack_double hdouble he
  · have h52 : (2 : ℚ) ^ (52 : Int) = 2 ^ 52 := rfl
    rw [Nat.cast_div hdvd (by positivity), zpow_sub₀ two_ne_zero, zpow_natCast, h52, Nat.cast_mul,
      Nat.cast_pow, Nat.cast_pow, Nat.cast_pow, Nat.cast_ofNat, Nat.cast_ofNat]
    field_simp

theorem mul_eq (x y : Float) : x * y = .ofModel (Float.Model.pack
    (UnpackedFloat.mul .binary64 x.toModel.unpack y.toModel.unpack)) :=
  rfl

theorem div_eq (x y : Float) : x / y = .ofModel (Float.Model.pack
    (UnpackedFloat.div .binary64 x.toModel.unpack y.toModel.unpack)) :=
  rfl

/-- A short whole number is a double. -/
theorem unpack_toFloat (hn : 0 < n) (h : n < 2 ^ 53) :
    n.toUInt64.toFloat.toModel.unpack =
      .finite .positive (n * 2 ^ room n) (-room n) (Nat.mul_pos hn (Nat.two_pow_pos _)) := by
  obtain ⟨hlow, hhigh⟩ := shifted_bounds hn h
  have hword : n.toUInt64.toNat = n := by
    show n % 2 ^ 64 = n
    omega
  have hfloat : n.toUInt64.toFloat.toModel =
      Float.Model.pack (UnpackedFloat.ofNat .binary64 n.toUInt64.toNat) := rfl
  rw [hfloat, hword, ofNat_whole hn h]
  exact unpack_pack_normal hlow hhigh (by rw [room]; omega) (by omega) _

theorem scaled_room (n : Nat) :
    ((n * 2 ^ room n : Nat) : ℚ) * 2 ^ (-(room n : Int)) = n := by
  rw [zpow_neg, zpow_natCast, Nat.cast_mul, Nat.cast_pow, Nat.cast_ofNat]
  field_simp

/-- A short whole number divided by a power of ten that is a double is rounded once. -/
theorem div_powerOfTen (hm : IsDouble m e) (hn : 0 < n) (hn53 : n < 2 ^ 53) (j : Nat)
    (hj : j < Float.exactlyRepresentablePowersOfTen.size)
    (hv : (Rounded.of m e).Contains (n * 10 ^ (-(j : Int)))) :
    n.toUInt64.toFloat / Float.exactlyRepresentablePowersOfTen[j] =
      .ofModel (Float.Model.pack (.finite .positive m e hm.pos)) := by
  obtain ⟨p, q, hp, hpower, hvalue⟩ := unpack_powerOfTen j hj
  have htotal : ((n * 2 ^ room n : Nat) : ℚ) * 2 ^ (-(room n : Int)) / (p * 2 ^ q) =
      n * 10 ^ (-(j : Int)) := by
    rw [scaled_room, hvalue, zpow_neg, zpow_natCast, div_eq_mul_inv]
  rw [div_eq, unpack_toFloat hn hn53, hpower, div_of_contains hm _ hp (by rwa [htotal])]

/-- So is its product with one. -/
theorem mul_powerOfTen (hm : IsDouble m e) (hn : 0 < n) (hn53 : n < 2 ^ 53) (j : Nat)
    (hj : j < Float.exactlyRepresentablePowersOfTen.size)
    (hv : (Rounded.of m e).Contains (n * 10 ^ (j : Int))) :
    n.toUInt64.toFloat * Float.exactlyRepresentablePowersOfTen[j] =
      .ofModel (Float.Model.pack (.finite .positive m e hm.pos)) := by
  obtain ⟨p, q, hp, hpower, hvalue⟩ := unpack_powerOfTen j hj
  have htotal : ((n * 2 ^ room n : Nat) : ℚ) * 2 ^ (-(room n : Int)) * (p * 2 ^ q) =
      n * 10 ^ (j : Int) := by
    rw [scaled_room, hvalue, zpow_natCast]
  have hsmall : ∀ t : Int, -1074 ≤ t →
      (((n * 2 ^ room n : Nat) : ℚ) * 2 ^ (-(room n : Int)) * (p * 2 ^ q) : ℚ) < 2 ^ (53 + t) →
      -(room n : Int) + q ≤ t := by
    intro t _ hlt
    have hfull : (2 : ℚ) ^ 52 ≤ ((n * 2 ^ room n : Nat) : ℚ) := by
      exact_mod_cast (shifted_bounds hn hn53).1
    have hp' : (1 : ℚ) ≤ p := by exact_mod_cast hp
    have hsize : (2 : ℚ) ^ (52 + (-(room n : Int) + q)) < 2 ^ (53 + t) := by
      refine lt_of_le_of_lt ?_ hlt
      calc
        (2 : ℚ) ^ (52 + (-(room n : Int) + q)) =
            2 ^ 52 * 2 ^ (-(room n : Int)) * (1 * 2 ^ q) := by
          rw [zpow_add₀ two_ne_zero, zpow_add₀ two_ne_zero]
          have h52 : (2 : ℚ) ^ (52 : Int) = 2 ^ 52 := rfl
          rw [h52]
          ring
        _ ≤ ((n * 2 ^ room n : Nat) : ℚ) * 2 ^ (-(room n : Int)) * (p * 2 ^ q) := by
          gcongr
    rw [zpow_lt_zpow_iff_right₀ one_lt_two] at hsize
    omega
  rw [mul_eq, unpack_toFloat hn hn53, hpower, mul_of_contains hm _ hp (by rwa [htotal]) hsmall]

theorem toFloat_powers (hm : IsDouble m e) (hn : n ≠ 0) (hlow : -2048 ≤ k) (hhigh : k ≤ 2048)
    (hv : (Rounded.of m e).Contains (n * 10 ^ k)) :
    Float.ofScientific n (k < 0) k.natAbs =
      .ofModel (Float.Model.pack (.finite .positive m e hm.pos)) := by
  rw [Float.ofScientific]
  split
  · -- both parts are doubles
    rename_i hshort
    obtain ⟨hn53, hk⟩ := hshort
    have hn' : 0 < n := Nat.pos_of_ne_zero hn
    have hj : k.natAbs < Float.exactlyRepresentablePowersOfTen.size := Nat.lt_succ_of_le hk
    by_cases hneg : k < 0
    · have hk : k = -(k.natAbs : Int) := by omega
      rw [hk] at hv
      simp only [hneg, decide_true, if_true]
      exact div_powerOfTen hm hn' hn53 _ hj hv
    · have hk : k = (k.natAbs : Int) := by omega
      rw [hk] at hv
      simp only [hneg, decide_false, Bool.false_eq_true, if_false]
      exact mul_powerOfTen hm hn' hn53 _ hj hv
  · have hmodel : Float.Model.ofScientific n k =
        Float.Model.pack (UnpackedFloat.ofScientific .binary64 n k) := rfl
    have hexponent : (if decide (k < 0) = true then Int.negOfNat k.natAbs
        else Int.ofNat k.natAbs) = k := by
      cases k with
      | ofNat j =>
        rw [if_neg (by simp)]
        rfl
      | negSucc j =>
        rw [if_pos (by simp)]
        rfl
    dsimp only
    rw [hexponent, hmodel, ofScientific_of_contains hm hn hlow hhigh hv]

/-- The powers of ten in a decimal with a bounded number of digits that rounds to a double. -/
theorem exponent_bounds (hm : IsDouble m e) (he : e ≤ 971) (hn : n ≠ 0) (hsize : n < 10 ^ 43)
    (hv : (Rounded.of m e).Contains (n * 10 ^ k)) : -369 < k ∧ k < 310 := by
  have hten : (1 : ℚ) < 10 := by norm_num
  have hnq : (1 : ℚ) ≤ n := by exact_mod_cast Nat.pos_of_ne_zero hn
  have hn43 : (n : ℚ) < 10 ^ 43 := by exact_mod_cast hsize
  have hk : (0 : ℚ) < 10 ^ k := by positivity
  have hleast : (10 : ℚ) ^ (-326 : Int) ≤ 2 ^ (-1075 : Int) :=
    (intPowers_close (by decide) (by decide)).1
  have hmost : (2 : ℚ) ^ (1024 : Int) ≤ 10 ^ (310 : Int) :=
    (intPowers_close (by decide) (by decide)).2
  constructor
  · have hlow : (10 : ℚ) ^ (-326 : Int) < 10 ^ (43 + k) := by
      calc
        (10 : ℚ) ^ (-326 : Int) ≤ 2 ^ (-1075 : Int) := hleast
        _ ≤ n * 10 ^ k := hv.gt hm
        _ < 10 ^ 43 * 10 ^ k := by gcongr
        _ = 10 ^ (43 + k) := by
          rw [zpow_add₀ (by norm_num)]
          rfl
    rw [zpow_lt_zpow_iff_right₀ hten] at hlow
    omega
  · have hhigh : (10 : ℚ) ^ k < 10 ^ (310 : Int) := by
      calc
        (10 : ℚ) ^ k ≤ n * 10 ^ k := le_mul_of_one_le_left hk.le hnq
        _ < 2 ^ (1024 : Int) := hv.lt hm he
        _ ≤ 10 ^ (310 : Int) := hmost
    rwa [zpow_lt_zpow_iff_right₀ hten] at hhigh

/-- A decimal is read as the double that it is to be rounded to. -/
theorem toFloat_of_contains (hm : IsDouble m e) (he : e ≤ 971) (hn : n ≠ 0) (hsize : n < 10 ^ 43)
    (hv : (Rounded.of m e).Contains (n * 10 ^ k)) :
    toFloat n k = .ofModel (Float.Model.pack (.finite .positive m e hm.pos)) := by
  obtain ⟨hlow, hhigh⟩ := exponent_bounds hm he hn hsize hv
  have hlog : n.log2 < 143 := log2_lt_of_lt (by decide) (Nat.lt_trans hsize (by decide))
  rw [toFloat, if_neg (by omega), if_neg (by omega)]
  exact toFloat_powers hm hn (by omega) (by omega) hv

end

end EntropyGame.Decimal
