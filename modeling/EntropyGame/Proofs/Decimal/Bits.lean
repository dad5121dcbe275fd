import EntropyGame.Proofs.Decimal.Nearest

namespace EntropyGame.Decimal

open Float.Model Float.Model.UnpackedFloat

/-- What is packed as a number. -/
theorem toNat_packComponents (s : Sign) (e : BitVec 11) (m : BitVec 52) :
    (packComponents .binary64 s e m).toNat =
      s.toBitVec.toNat * 2 ^ 63 + e.toNat * 2 ^ 52 + m.toNat := by
  have hm : m.toNat < 2 ^ 52 := m.isLt
  have he : e.toNat < 2 ^ 11 := e.isLt
  show (s.toBitVec ++ e ++ m).toNat = _
  rw [BitVec.toNat_append, BitVec.toNat_append, ← Nat.shiftLeft_add_eq_or_of_lt hm,
    ← Nat.shiftLeft_add_eq_or_of_lt he, Nat.shiftLeft_eq, Nat.shiftLeft_eq]
  omega

/-- The sign of a double. -/
def signOf (negative : Bool) : Sign :=
  if negative then .negative else .positive

theorem toNat_signOf (negative : Bool) :
    (signOf negative).toBitVec.toNat = if negative then 1 else 0 := by
  cases negative <;> rfl

theorem ofModel_pack {x : Float} {f : UnpackedFloat}
    (h : (UnpackedFloat.pack .binary64 f).toNat = x.toBits.toNat) :
    Float.ofModel (Float.Model.pack f) = x := by
  obtain ⟨⟨bits, valid⟩⟩ := x
  have hbits : bits.toBitVec = UnpackedFloat.pack .binary64 f := BitVec.eq_of_toNat_eq h.symm
  obtain ⟨b⟩ := bits
  dsimp only at hbits
  subst hbits
  rfl

/-- A double is packed without loss. -/
theorem unpack_pack_double {s : Sign} {m : Nat} {e : Int} (hm : IsDouble m e) (he : e ≤ 971) :
    UnpackedFloat.unpack .binary64 (UnpackedFloat.pack .binary64 (.finite s m e hm.pos)) =
      .finite s m e hm.pos := by
  by_cases hfull : 2 ^ 52 ≤ m
  · exact unpack_pack_normal hfull hm.lt hm.least he hm.pos
  · obtain rfl := hm.full.resolve_left hfull
    have hmantissaBits : Format.binary64.mantissaBits = 53 := rfl
    have hbias : (-1074 : Int) + Format.binary64.exponentBias +
        Format.binary64.mantissaBitsWithoutImplicit = 1 := rfl
    have hback : ((0#11).toNat : Int) - ((Format.binary64.exponentBias : Int) +
        Format.binary64.mantissaBitsWithoutImplicit) + 1 = -1074 := rfl
    have hlog : m.log2 + 1 ≠ 53 := by
      have := (Nat.log2_lt hm.pos.ne').mpr (Nat.lt_of_not_le hfull)
      omega
    have hfraction : (BitVec.ofNat 52 m).toNat = m := by
      rw [BitVec.toNat_ofNat, Nat.mod_eq_of_lt (Nat.lt_of_not_le hfull)]
    have hne : BitVec.ofNat 52 m ≠ 0#52 := by
      intro hzero
      rw [hzero] at hfraction
      exact hm.pos.ne hfraction
    simp only [UnpackedFloat.pack, hbias, hmantissaBits]
    rw [if_neg (by decide), if_neg hlog]
    simp only [UnpackedFloat.unpack, unpackMantissa_packComponents, unpackExponent_packComponents,
      unpackSign_packComponents, Sign.ofBitVec_toBitVec]
    rw [if_neg (by decide), if_pos trivial, dif_neg hne]
    simp only [hfraction, hback]

namespace Binary64

variable {x : Float} {negative : Bool} {m : Nat} {e : Int}

/-- A finite double by its bits. -/
theorem bits_of_ofFloat (h : ofFloat x = .finite negative m e) :
    (x.toBits.toNat = (if negative then 2 ^ 63 else 0) + m ∧ m < 2 ^ 52 ∧ e = -1074) ∨
      ∃ field fraction,
        x.toBits.toNat = (if negative then 2 ^ 63 else 0) + field * 2 ^ 52 + fraction ∧
        0 < field ∧ field < 2047 ∧ fraction < 2 ^ 52 ∧ m = 2 ^ 52 + fraction ∧
        e = field - 1075 := by
  have hbits : x.toBits.toNat < 2 ^ 64 := x.toBits.toNat_lt
  rw [ofFloat] at h
  generalize x.toBits.toNat = n at h hbits ⊢
  simp only [ofBits] at h
  have hsplit : ∀ b : Bool, b = decide (2 ^ 63 ≤ n) →
      n = (if b then 2 ^ 63 else 0) + n / 2 ^ 52 % 2 ^ 11 * 2 ^ 52 + n % 2 ^ 52 := by
    rintro b rfl
    simp only [decide_eq_true_eq]
    split <;> omega
  split at h
  · split at h <;> cases h
  · split at h
    · rename_i hfield
      cases h
      left
      have hn := hsplit _ rfl
      rw [hfield] at hn
      exact ⟨by omega, Nat.mod_lt _ (by decide), rfl⟩
    · cases h
      right
      exact ⟨n / 2 ^ 52 % 2 ^ 11, n % 2 ^ 52, hsplit _ rfl, by omega, by omega,
        Nat.mod_lt _ (by decide), rfl, rfl⟩

/-- A double other than zero is told by its sign, mantissa and exponent. -/
theorem eq_ofModel (h : ofFloat x = .finite negative m e) (hm : 0 < m) :
    IsDouble m e ∧ e ≤ 971 ∧
      x = Float.ofModel (Float.Model.pack (.finite (signOf negative) m e hm)) := by
  have hmantissaBits : Format.binary64.mantissaBits = 53 := rfl
  have hbias : e + Format.binary64.exponentBias + Format.binary64.mantissaBitsWithoutImplicit =
      e + 1075 := by
    show e + 1023 + 52 = e + 1075
    omega
  obtain ⟨hn, hm', rfl⟩ | ⟨field, fraction, hn, hpos, hfield, hfraction, rfl, rfl⟩ :=
    bits_of_ofFloat h
  · refine ⟨⟨hm, by omega, le_refl _, .inr rfl⟩, by decide, (ofModel_pack ?_).symm⟩
    have hlog : m.log2 + 1 ≠ 53 := by
      have := (Nat.log2_lt hm.ne').mpr hm'
      omega
    simp only [UnpackedFloat.pack, hbias, hmantissaBits]
    have hfraction : (BitVec.ofNat 52 m).toNat = m := by
      rw [BitVec.toNat_ofNat, Nat.mod_eq_of_lt hm']
    have hfield : (0#11).toNat = 0 := rfl
    rw [if_neg (by decide), if_neg hlog, toNat_packComponents, toNat_signOf, hn, hfraction, hfield]
    cases negative <;> simp
  · refine ⟨⟨hm, by omega, by omega, .inl (by omega)⟩, by omega, (ofModel_pack ?_).symm⟩
    have hlog : (2 ^ 52 + fraction).log2 + 1 = 53 := by
      rw [log2_normal (by omega) (by omega)]
    simp only [UnpackedFloat.pack, hbias, hmantissaBits]
    have hback : ((field : Int) - 1075 + 1075).toNat = field := by omega
    rw [hback, if_neg (by omega), if_pos hlog, toNat_packComponents, toNat_signOf, hn,
      BitVec.toNat_ofNat, BitVec.toNat_ofNat]
    cases negative <;> simp <;> omega

/-- A double that is zero is told by its sign. -/
theorem eq_zero (h : ofFloat x = .finite negative 0 e) :
    x = Float.ofModel (Float.Model.pack (.zero (signOf negative))) := by
  obtain ⟨hn, -, -⟩ | ⟨field, fraction, -, -, -, -, hm, -⟩ := bits_of_ofFloat h
  · refine (ofModel_pack ?_).symm
    rw [UnpackedFloat.pack, packedZero, toNat_packComponents, toNat_signOf, hn]
    cases negative <;> rfl
  · omega

end Binary64

end EntropyGame.Decimal
