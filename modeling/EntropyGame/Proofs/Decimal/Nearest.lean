import EntropyGame.Decimal.Shortest
import EntropyGame.Proofs.Decimal.Whole

namespace EntropyGame.Decimal

open Float.Model Float.Model.UnpackedFloat

/-- A mantissa with the first of the bits that are left out of it. -/
def halves (em : ExtendedMantissa) : ℚ :=
  em.mantissa + if em.roundBit then 1 / 2 else 0

/-- Whether a mantissa was got from a number by leaving bits out. -/
def StandsFor (em : ExtendedMantissa) (x : ℚ) : Prop :=
  if em.stickyBit then halves em < x ∧ x < halves em + 1 / 2 else x = halves em

theorem standsFor_exact (m : Nat) : StandsFor (.ofMantissaAndAccuracy m .exact) m := by
  simp [StandsFor, halves, ExtendedMantissa.ofMantissaAndAccuracy]

/-- The quotient of two numbers and how its rest compares to a half. -/
theorem standsFor_quotient (n : Nat) {d : Nat} (hd : 0 < d) :
    StandsFor (.ofMantissaAndAccuracy (n / d) (accuracyOfFraction (n % d) d)) (n / d) := by
  have hdq : (0 : ℚ) < d := by exact_mod_cast hd
  have hsplit : (n : ℚ) / d = (n / d : Nat) + ((n % d : Nat) : ℚ) / d := by
    have h : (n : ℚ) = d * (n / d : Nat) + (n % d : Nat) := by
      exact_mod_cast (Nat.div_add_mod n d).symm
    rw [h, add_div, mul_div_cancel_left₀ _ hdq.ne']
  have hrest : ((n % d : Nat) : ℚ) / d < 1 := by
    rw [div_lt_one hdq]
    exact_mod_cast Nat.mod_lt n hd
  rw [hsplit]
  generalize n / d = q at *
  generalize n % d = r at *
  rw [accuracyOfFraction]
  split
  · rename_i hzero
    simp [StandsFor, halves, ExtendedMantissa.ofMantissaAndAccuracy, hzero]
  · rename_i hzero
    have hpos : (0 : ℚ) < (r : ℚ) / d := by
      have hr : (0 : ℚ) < r := by exact_mod_cast Nat.pos_of_ne_zero hzero
      positivity
    cases hc : compare (2 * r) d with
    | lt =>
      have hlt : (2 * r : ℚ) < d := by exact_mod_cast Nat.compare_eq_lt.mp hc
      have hhalf : (r : ℚ) / d < 1 / 2 := by
        rw [div_lt_iff₀ hdq]
        linarith
      simp [StandsFor, halves, ExtendedMantissa.ofMantissaAndAccuracy]
      constructor <;> linarith
    | eq =>
      have heq : (2 * r : ℚ) = d := by exact_mod_cast Nat.compare_eq_eq.mp hc
      have hhalf : (r : ℚ) / d = 1 / 2 := by
        rw [div_eq_iff hdq.ne']
        linarith
      simp [StandsFor, halves, ExtendedMantissa.ofMantissaAndAccuracy, hhalf]
    | gt =>
      have hgt : (d : ℚ) < 2 * r := by exact_mod_cast Nat.compare_eq_gt.mp hc
      have hhalf : 1 / 2 < (r : ℚ) / d := by
        rw [lt_div_iff₀ hdq]
        linarith
      simp [StandsFor, halves, ExtendedMantissa.ofMantissaAndAccuracy]
      constructor <;> linarith

namespace StandsFor

variable {em : ExtendedMantissa} {x : ℚ}

theorem bounds (h : StandsFor em x) : (em.mantissa : ℚ) ≤ x ∧ x < em.mantissa + 1 := by
  obtain ⟨m, roundBit, stickyBit⟩ := em
  cases roundBit <;> cases stickyBit <;> simp [StandsFor, halves] at h ⊢ <;>
    constructor <;> linarith

/-- Leaving out one more bit halves the number. -/
theorem shiftRightOne (h : StandsFor em x) : StandsFor em.shiftRightOne (x / 2) := by
  obtain ⟨m, roundBit, stickyBit⟩ := em
  have hhalves : halves (ExtendedMantissa.shiftRightOne ⟨m, roundBit, stickyBit⟩) = m / 2 := by
    have hm : (m : ℚ) = 2 * (m / 2 : Nat) + (m % 2 : Nat) := by
      exact_mod_cast (Nat.div_add_mod m 2).symm
    rw [halves, ExtendedMantissa.shiftRightOne]
    obtain hr | hr := Nat.mod_two_eq_zero_or_one m
    · simp only [hr] at hm ⊢
      simp
      linarith
    · simp only [hr] at hm ⊢
      simp
      linarith
  have hsticky : (ExtendedMantissa.shiftRightOne ⟨m, roundBit, stickyBit⟩).stickyBit =
      (roundBit || stickyBit) := rfl
  rw [StandsFor, hhalves, hsticky]
  cases roundBit <;> cases stickyBit <;> simp [StandsFor, halves] at h ⊢
  · exact h
  all_goals constructor <;> linarith

theorem shiftRight (h : StandsFor em x) (n : Nat) : StandsFor (em >>> n) (x / 2 ^ n) := by
  show StandsFor (n.repeat ExtendedMantissa.shiftRightOne em) (x / 2 ^ n)
  induction n with
  | zero => simpa [Nat.repeat] using h
  | succ n ih =>
    rw [Nat.repeat, pow_succ, ← div_div]
    exact ih.shiftRightOne

end StandsFor

/-- A whole number that another one is rounded to: the nearest, and of two the even one. -/
structure Nearest (r : Nat) (x : ℚ) : Prop where
  low : (r : ℚ) - 1 / 2 ≤ x
  high : x ≤ r + 1 / 2
  tie : x = r - 1 / 2 ∨ x = r + 1 / 2 → r % 2 = 0

theorem StandsFor.roundedMantissa {em : ExtendedMantissa} {x : ℚ} {r : Nat} (h : StandsFor em x)
    (hr : Nearest r x) : em.roundedMantissa = r := by
  obtain ⟨hlow, hhigh, htie⟩ := hr
  obtain ⟨m, roundBit, stickyBit⟩ := em
  cases roundBit <;> cases stickyBit <;>
    simp only [StandsFor, halves, ExtendedMantissa.roundedMantissa, ExtendedMantissa.accuracy,
      Accuracy.roundToNearestEven, Bool.false_eq_true, if_false, if_true, add_zero] at h ⊢
  · have h1 : (r : ℚ) < m + 1 := by linarith
    have h2 : (m : ℚ) < r + 1 := by linarith
    norm_cast at h1 h2
    omega
  · have h1 : (r : ℚ) < m + 1 := by linarith
    have h2 : (m : ℚ) < r + 1 := by linarith
    norm_cast at h1 h2
    omega
  · have h1 : (r : ℚ) ≤ m + 1 := by linarith
    have h2 : (m : ℚ) ≤ r := by linarith
    norm_cast at h1 h2
    obtain hm | hm : r = m ∨ r = m + 1 := by omega
    · have heven := htie (.inr (by rw [h, hm]))
      omega
    · have heven := htie (.inl (by rw [h, hm]; push_cast; ring))
      omega
  · have h1 : (r : ℚ) < m + 2 := by linarith
    have h2 : (m : ℚ) < r := by linarith
    norm_cast at h1 h2
    omega

/-- The numbers that round to one double. -/
def Rounded.Contains (r : Rounded) (v : ℚ) : Prop :=
  if r.closed then r.low * 2 ^ r.exponent ≤ v ∧ v ≤ r.high * 2 ^ r.exponent
  else r.low * 2 ^ r.exponent < v ∧ v < r.high * 2 ^ r.exponent

/-- A double other than zero: its mantissa fills the format unless its exponent is the least. -/
structure IsDouble (m : Nat) (e : Int) : Prop where
  pos : 0 < m
  lt : m < 2 ^ 53
  least : -1074 ≤ e
  full : 2 ^ 52 ≤ m ∨ e = -1074

section

variable {m n : Nat} {d e t : Int} {a : Accuracy} {s : Sign} {x v : ℚ}

theorem log2_lt_of_lt {k : Nat} (hk : 0 < k) (h : n < 2 ^ k) : n.log2 < k := by
  by_cases hn : n = 0
  · rw [hn]
    exact hk
  · exact (Nat.log2_lt hn).mpr h

/-- The exponent that a number has in the format is told by its size. -/
theorem targetExponent_of_standsFor (hx : StandsFor (.ofMantissaAndAccuracy n a) x)
    (hleast : -1074 ≤ t) (hlt : x * 2 ^ d < 2 ^ (53 + t))
    (hfull : t = -1074 ∨ 2 ^ (52 + t) ≤ x * 2 ^ d) (hd : d ≤ t) : Format.binary64.targetExponent (totalExponent n d) = t := by
  have hbits : Format.binary64.mantissaBits = 53 := rfl
  have hmin : Format.binary64.minExponent = -1074 := rfl
  obtain ⟨hlow, hhigh⟩ := hx.bounds
  rw [mantissa_ofMantissaAndAccuracy] at hlow hhigh
  have hd2 : (0 : ℚ) < 2 ^ d := by positivity
  -- sizes as powers of two without the exponent of the number
  have hpower : ∀ k : Nat, (2 : ℚ) ^ ((k : Int) + d) = ((2 ^ k : Nat) : ℚ) * 2 ^ d := by
    intro k
    rw [zpow_add₀ two_ne_zero, zpow_natCast]
    push_cast
    rfl
  obtain ⟨k, hk⟩ : ∃ k : Nat, 53 + t = k + 1 + d := ⟨(52 + t - d).toNat, by omega⟩
  have hupper : n < 2 ^ (k + 1) := by
    have hsize := hpower (k + 1)
    push_cast at hsize
    rw [hk, hsize, mul_lt_mul_iff_of_pos_right hd2] at hlt
    have hn : (n : ℚ) < 2 ^ (k + 1) := lt_of_le_of_lt hlow hlt
    exact_mod_cast hn
  have hlog := log2_lt_of_lt (Nat.succ_pos k) hupper
  simp only [Format.targetExponent, totalExponent, hbits, hmin]
  obtain hfull | hfull := hfull
  · omega
  · have hlower : 2 ^ k ≤ n := by
      have hsize := hpower k
      rw [show 52 + t = (k : Int) + d by omega, hsize, mul_le_mul_iff_left₀ hd2] at hfull
      have hn : ((2 ^ k : Nat) : ℚ) < n + 1 := lt_of_le_of_lt hfull hhigh
      have hn : 2 ^ k < n + 1 := by exact_mod_cast hn
      omega
    have hne : n ≠ 0 := by
      have := Nat.two_pow_pos k
      omega
    have hlog := (Nat.le_log2 hne).mpr hlower
    omega

/-- Bringing a number into the format leaves out the bits that there is no room for. -/
theorem shiftToTargetExponent_of_standsFor (hx : StandsFor (.ofMantissaAndAccuracy n a) x)
    (ht : Format.binary64.targetExponent (totalExponent n d) = t) (hd : d ≤ t) :
    StandsFor (shiftToTargetExponent .binary64 n d a).1 (x * 2 ^ d / 2 ^ t) ∧
      (shiftToTargetExponent .binary64 n d a).2 = t := by
  have hshift : (x * 2 ^ d / 2 ^ t : ℚ) = x / 2 ^ (t - d).toNat := by
    have hnat : (2 : ℚ) ^ (t - d).toNat = 2 ^ t / 2 ^ d := by
      rw [← zpow_natCast, Int.toNat_of_nonneg (by omega), zpow_sub₀ two_ne_zero]
    rw [hnat]
    field_simp
  rw [shiftToTargetExponent, ht, shiftToExponent, hshift]
  exact ⟨hx.shiftRight _, by omega⟩

theorem Rounded.of_scale (e : Int) : (2 : ℚ) ^ (e - 2) = 2 ^ e / 4 := by
  rw [zpow_sub₀ two_ne_zero]
  norm_num

/-- A number that rounds to a double is next to its mantissa where exponents are alike. -/
theorem Rounded.Contains.nearest (hm : 0 < m) (h : (Rounded.of m e).Contains v) :
    Nearest m (v / 2 ^ e) := by
  have he : (0 : ℚ) < 2 ^ e := by positivity
  have hlow : (4 * m - 2 : ℚ) ≤ (Rounded.of m e).low := by
    rw [Rounded.of]
    dsimp only
    split
    · rw [Nat.cast_sub (by omega)]
      push_cast
      linarith
    · rw [Nat.cast_sub (by omega)]
      push_cast
      linarith
  have hhigh : ((Rounded.of m e).high : ℚ) = 4 * m + 2 := by
    rw [Rounded.of]
    push_cast
    rfl
  have hscale : (2 : ℚ) ^ (Rounded.of m e).exponent = 2 ^ e / 4 := Rounded.of_scale e
  have hclosed : (Rounded.of m e).closed = (m % 2 == 0) := rfl
  obtain ⟨y, rfl⟩ : ∃ y, v = y * 2 ^ e := ⟨v / 2 ^ e, by field_simp⟩
  rw [mul_div_cancel_right₀ _ he.ne']
  rw [Rounded.Contains, hscale, hhigh, hclosed] at h
  generalize ((Rounded.of m e).low : ℚ) = low at *
  cases heven : m % 2 == 0 with
  | true =>
    rw [heven, if_pos rfl] at h
    obtain ⟨h1, h2⟩ := h
    have h1 : low / 4 ≤ y := by
      refine le_of_mul_le_mul_right ?_ he
      linarith
    have h2 : y ≤ (4 * m + 2) / 4 := by
      refine le_of_mul_le_mul_right ?_ he
      linarith
    exact ⟨by linarith, by linarith, fun _ => by simpa using heven⟩
  | false =>
    rw [heven, if_neg (by simp)] at h
    obtain ⟨h1, h2⟩ := h
    have h1 : low / 4 < y := by
      refine lt_of_mul_lt_mul_right ?_ he.le
      linarith
    have h2 : y < (4 * m + 2) / 4 := by
      refine lt_of_mul_lt_mul_right ?_ he.le
      linarith
    refine ⟨by linarith, by linarith, ?_⟩
    rintro (rfl | rfl)
    · linarith
    · linarith

/-- Below a power of two the numbers that round to it are twice as close. -/
theorem Rounded.Contains.close (he' : -1074 < e) (h : (Rounded.of (2 ^ 52) e).Contains v) :
    (2 ^ 52 : ℚ) - 1 / 4 ≤ v / 2 ^ e := by
  have he : (0 : ℚ) < 2 ^ e := by positivity
  have hlow : ((Rounded.of (2 ^ 52) e).low : ℚ) = 4 * 2 ^ 52 - 1 := by
    have hif : (Rounded.of (2 ^ 52) e).low = 4 * 2 ^ 52 - 1 := if_pos ⟨rfl, he'⟩
    rw [hif]
    norm_num
  have hscale : (2 : ℚ) ^ (Rounded.of (2 ^ 52) e).exponent = 2 ^ e / 4 := Rounded.of_scale e
  have hclosed : (Rounded.of (2 ^ 52) e).closed = true := rfl
  rw [Rounded.Contains, hclosed, if_pos rfl, hlow, hscale] at h
  rw [le_div_iff₀ he]
  linarith [h.1]

/-- What rounds to a double is below the least power of two that is none. -/
theorem Rounded.Contains.lt (hm : IsDouble m e) (he : e ≤ 971)
    (hv : (Rounded.of m e).Contains v) : v < 2 ^ (1024 : Int) := by
  have he2 : (0 : ℚ) < 2 ^ e := by positivity
  have hhigh := (hv.nearest hm.pos).high
  have hmq : (m : ℚ) + 1 ≤ 2 ^ 53 := by exact_mod_cast hm.lt
  rw [div_le_iff₀ he2] at hhigh
  calc v ≤ (m + 1 / 2) * 2 ^ e := hhigh
    _ < 2 ^ 53 * 2 ^ e := by
      gcongr
      linarith
    _ ≤ 2 ^ 53 * 2 ^ (971 : Int) := by
      gcongr
      norm_num
    _ = 2 ^ (1024 : Int) := by
      rw [show (1024 : Int) = 53 + 971 by rfl, zpow_add₀ two_ne_zero]
      rfl

/-- What rounds to a double is at least half of the least of them. -/
theorem Rounded.Contains.gt (hm : IsDouble m e) (hv : (Rounded.of m e).Contains v) :
    2 ^ (-1075 : Int) ≤ v := by
  have he2 : (0 : ℚ) < 2 ^ e := by positivity
  have hlow := (hv.nearest hm.pos).low
  have hmq : (1 : ℚ) ≤ m := by exact_mod_cast hm.pos
  rw [le_div_iff₀ he2] at hlow
  calc
    (2 : ℚ) ^ (-1075 : Int) = 1 / 2 * 2 ^ (-1074 : Int) := by
      rw [show (-1075 : Int) = -1074 - 1 by rfl, zpow_sub_one₀ two_ne_zero]
      ring
    _ ≤ 1 / 2 * 2 ^ e := by
      gcongr
      · norm_num
      · exact hm.least
    _ ≤ (m - 1 / 2) * 2 ^ e := by
      gcongr
      linarith
    _ ≤ v := hlow

theorem shiftToTargetExponent_double (hm : IsDouble m e) :
    shiftToTargetExponent .binary64 m e .exact = (⟨m, false, false⟩, e) := by
  have hbits : Format.binary64.mantissaBits = 53 := rfl
  have hleast : Format.binary64.minExponent = -1074 := rfl
  have htarget : Format.binary64.targetExponent (totalExponent m e) = e := by
    have hlog := log2_lt_of_lt (by decide) hm.lt
    obtain hfull | hleast' := hm.full
    · have hlog' := (Nat.le_log2 hm.pos.ne').mpr hfull
      have := hm.least
      simp only [Format.targetExponent, totalExponent, hbits, hleast]
      omega
    · simp only [Format.targetExponent, totalExponent, hbits, hleast]
      omega
  have hnone : (e - e).toNat = 0 := by omega
  rw [shiftToTargetExponent, htarget, shiftToExponent, hnone]
  exact Prod.ext rfl (Int.add_zero e)

/-- A number with the exponent of a double that is to be rounded to it. -/
theorem roundWithAccuracy_of_full (hx : StandsFor (.ofMantissaAndAccuracy n a) x)
    (hm : IsDouble m e) (hnearest : Nearest m (x * 2 ^ d / 2 ^ e))
    (hlow : e = -1074 ∨ (2 : ℚ) ^ (52 + e) ≤ x * 2 ^ d)
    (hd : ∀ t : Int, -1074 ≤ t → x * 2 ^ d < 2 ^ (53 + t) → d ≤ t) :
    roundWithAccuracy .binary64 s n d a = .finite s m e hm.pos := by
  have hne : m ≠ 0 := hm.pos.ne'
  have he : (0 : ℚ) < 2 ^ e := by positivity
  have hlt : x * 2 ^ d < 2 ^ (53 + e) := by
    have hmq : (m : ℚ) + 1 ≤ 2 ^ 53 := by exact_mod_cast hm.lt
    have hsize : (2 : ℚ) ^ (53 + e) = 2 ^ 53 * 2 ^ e := by
      rw [zpow_add₀ two_ne_zero]
      rfl
    rw [hsize, ← div_lt_iff₀ he]
    linarith [hnearest.high]
  have hde := hd e hm.least hlt
  have ht := targetExponent_of_standsFor hx hm.least hlt hlow hde
  obtain ⟨hfirst, hexponent⟩ := shiftToTargetExponent_of_standsFor hx ht hde
  have hrounded := hfirst.roundedMantissa hnearest
  simp only [roundWithAccuracy, hrounded, hexponent, shiftToTargetExponent_double hm, hne,
    dite_false]

/-- A number next below a power of two that is to be rounded up to it. -/
theorem roundWithAccuracy_of_below (hx : StandsFor (.ofMantissaAndAccuracy n a) x)
    (hm : IsDouble (2 ^ 52) e) (hleast : -1074 < e) (hbelow : x * 2 ^ d / 2 ^ e < 2 ^ 52)
    (hclose : (2 ^ 52 : ℚ) - 1 / 4 ≤ x * 2 ^ d / 2 ^ e)
    (hd : ∀ t : Int, -1074 ≤ t → x * 2 ^ d < 2 ^ (53 + t) → d ≤ t) :
    roundWithAccuracy .binary64 s n d a = .finite s (2 ^ 52) e hm.pos := by
  have he : (0 : ℚ) < 2 ^ e := by positivity
  have hprevious : (2 : ℚ) ^ (e - 1) = 2 ^ e / 2 := by
    rw [zpow_sub₀ two_ne_zero, zpow_one]
  have hlt : x * 2 ^ d < 2 ^ (53 + (e - 1)) := by
    rw [show 53 + (e - 1) = 52 + e by omega, zpow_add₀ two_ne_zero, ← div_lt_iff₀ he]
    exact hbelow
  have hfull : (2 : ℚ) ^ (52 + (e - 1)) ≤ x * 2 ^ d := by
    rw [zpow_add₀ two_ne_zero, hprevious]
    rw [le_div_iff₀ he] at hclose
    norm_num at hclose ⊢
    linarith
  have hde := hd (e - 1) (by omega) hlt
  have ht := targetExponent_of_standsFor hx (by omega) hlt (.inr hfull) hde
  obtain ⟨hfirst, hexponent⟩ := shiftToTargetExponent_of_standsFor hx ht hde
  have hnext : Nearest (2 ^ 53) (x * 2 ^ d / 2 ^ (e - 1)) := by
    have hdouble : x * 2 ^ d / 2 ^ (e - 1) = 2 * (x * 2 ^ d / 2 ^ e) := by
      rw [hprevious]
      field_simp
    rw [hdouble]
    refine ⟨?_, ?_, fun _ => rfl⟩
    · push_cast
      linarith
    · push_cast
      linarith
  have hrounded := hfirst.roundedMantissa hnext
  have hcarry := shiftToTargetExponent_zeros (m := 2 ^ 52) (e := e) (le_refl _) (by decide)
    hm.least 1
  simp only [roundWithAccuracy, hrounded, hexponent]
  simp only [show 2 ^ 53 = 2 ^ 52 * 2 ^ 1 by rfl]
  rw [Int.natCast_one] at hcarry
  simp only [hcarry]
  rfl

/-- A number is rounded to the double that it is to be rounded to. -/
theorem roundWithAccuracy_of_contains (hx : StandsFor (.ofMantissaAndAccuracy n a) x)
    (hm : IsDouble m e) (hv : (Rounded.of m e).Contains (x * 2 ^ d))
    (hd : ∀ t : Int, -1074 ≤ t → x * 2 ^ d < 2 ^ (53 + t) → d ≤ t) :
    roundWithAccuracy .binary64 s n d a = .finite s m e hm.pos := by
  have hnearest := hv.nearest hm.pos
  by_cases hlow : e = -1074 ∨ (2 : ℚ) ^ (52 + e) ≤ x * 2 ^ d
  · exact roundWithAccuracy_of_full hx hm hnearest hlow hd
  · rw [not_or, not_le] at hlow
    obtain ⟨hleast, hbelow⟩ := hlow
    have hleast : -1074 < e := by
      have := hm.least
      omega
    have hbelow : x * 2 ^ d / 2 ^ e < 2 ^ 52 := by
      rwa [zpow_add₀ two_ne_zero, ← div_lt_iff₀ (by positivity)] at hbelow
    have hm52 : m = 2 ^ 52 := by
      have hfull := hm.full.resolve_right (by omega)
      have hupper : (m : ℚ) < 2 ^ 52 + 1 := by linarith [hnearest.low]
      have hupper : m < 2 ^ 52 + 1 := by exact_mod_cast hupper
      omega
    subst hm52
    exact roundWithAccuracy_of_below hx hm hleast hbelow (hv.close hleast) hd

end

end EntropyGame.Decimal
