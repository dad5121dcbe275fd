import EntropyGame.Proofs.Decimal.Nearest

namespace EntropyGame.Decimal

/-- Powers of two between powers of ten, split in rows to be checked one by one. -/
theorem powers_close : ∀ a < 33, ∀ b < 33,
    10 ^ ((33 * a + b) * 30103 / 100000) ≤ 10 * 2 ^ (33 * a + b) ∧
      2 ^ (33 * a + b) ≤ 10 ^ ((33 * a + b) * 30103 / 100000 + 1) := by
  decide +kernel

theorem natPowers_close {n : Nat} (hn : n < 1089) :
    (10 : ℚ) ^ (n * 30103 / 100000) ≤ 10 * 2 ^ n ∧
      (2 : ℚ) ^ n ≤ 10 ^ (n * 30103 / 100000 + 1) := by
  have h := powers_close (n / 33) (by omega) (n % 33) (by omega)
  rw [Nat.div_add_mod] at h
  exact_mod_cast h

/-- A power of two and the powers of ten next to it. -/
theorem intPowers_close {s : Int} (hlow : -1089 < s) (hhigh : s < 1089) :
    (10 : ℚ) ^ (s * 30103 / 100000 - 2) ≤ 2 ^ s ∧
      (2 : ℚ) ^ s ≤ 10 ^ (s * 30103 / 100000 + 2) := by
  have hten : (1 : ℚ) ≤ 10 := by norm_num
  have hne : (10 : ℚ) ≠ 0 := by norm_num
  obtain ⟨n, rfl | rfl⟩ := Int.eq_nat_or_neg s
  · obtain ⟨hbelow, habove⟩ := natPowers_close (n := n) (by omega)
    have hq : ((n : Int) * 30103 / 100000) = ((n * 30103 / 100000 : Nat) : Int) := by omega
    rw [hq]
    generalize n * 30103 / 100000 = q at *
    rw [zpow_natCast]
    constructor
    · rw [zpow_sub₀ hne, zpow_natCast]
      norm_num
      linarith [pow_pos (two_pos : (0 : ℚ) < 2) n]
    · refine habove.trans ?_
      rw [← zpow_natCast]
      exact zpow_le_zpow_right₀ hten (by push_cast; omega)
  · obtain ⟨hbelow, habove⟩ := natPowers_close (n := n) (by omega)
    have hq : (-(n : Int) * 30103 / 100000) = -((n * 30103 / 100000 : Nat) : Int) ∨
        (-(n : Int) * 30103 / 100000) = -((n * 30103 / 100000 : Nat) : Int) - 1 := by omega
    generalize -(n : Int) * 30103 / 100000 = p at *
    generalize n * 30103 / 100000 = q at *
    have htwo : (0 : ℚ) < 2 ^ n := pow_pos two_pos n
    rw [zpow_neg, zpow_natCast]
    constructor
    · calc (10 : ℚ) ^ (p - 2) ≤ 10 ^ (-((q + 1 : Nat) : Int)) :=
            zpow_le_zpow_right₀ hten (by push_cast; omega)
        _ = (10 ^ (q + 1))⁻¹ := by rw [zpow_neg, zpow_natCast]
        _ ≤ (2 ^ n)⁻¹ := inv_anti₀ htwo habove
    · calc ((2 : ℚ) ^ n)⁻¹ ≤ 10 * (10 ^ q)⁻¹ := by
            rw [← div_eq_mul_inv, le_div_iff₀ (by positivity), inv_mul_le_iff₀ htwo]
            linarith
        _ = 10 ^ (1 - (q : Int)) := by rw [zpow_sub₀ hne, zpow_one, zpow_natCast, div_eq_mul_inv]
        _ ≤ 10 ^ (p + 2) := zpow_le_zpow_right₀ hten (by omega)

theorem zpow_eq_div {x : ℚ} (hx : x ≠ 0) (a : Int) : x ^ a = x ^ a.toNat / x ^ (-a).toNat := by
  rw [← zpow_natCast, ← zpow_natCast, ← zpow_sub₀ hx]
  congr 1
  omega

/-- A power of two and one of ten as multiples of one unit. -/
theorem scale_unit (two ten : Int) : ∃ unit : ℚ, 0 < unit ∧
    (2 : ℚ) ^ two = (scale two ten).1 * unit ∧ (10 : ℚ) ^ ten = (scale two ten).2 * unit := by
  refine ⟨1 / (2 ^ (-two).toNat * 10 ^ (-ten).toNat), by positivity, ?_, ?_⟩
  · rw [zpow_eq_div two_ne_zero two, scale, Nat.cast_mul, Nat.cast_pow, Nat.cast_pow,
      Nat.cast_ofNat, Nat.cast_ofNat]
    field_simp
  · rw [zpow_eq_div (by norm_num) ten, scale, Nat.cast_mul, Nat.cast_pow, Nat.cast_pow,
      Nat.cast_ofNat, Nat.cast_ofNat]
    field_simp

section

variable {r : Rounded} {tie : Tie} {ten : Int} {c : Nat} {n : Numeral}

/-- A point of the grid that is held stands for a number that rounds to the double. -/
theorem Rounded.contains_of_holds
    (h : r.holds (scale r.exponent ten).1 (scale r.exponent ten).2 c = true) :
    r.Contains (c * 10 ^ ten) := by
  obtain ⟨unit, hunit, htwo, hten⟩ := scale_unit r.exponent ten
  rw [Rounded.holds] at h
  rw [Rounded.Contains, htwo, hten]
  simp only [← mul_assoc]
  split at h
  · rename_i hclosed
    simp only [Bool.and_eq_true, decide_eq_true_eq] at h
    rw [if_pos hclosed, mul_le_mul_iff_left₀ hunit, mul_le_mul_iff_left₀ hunit]
    exact_mod_cast h
  · rename_i hopen
    simp only [Bool.and_eq_true, decide_eq_true_eq] at h
    rw [if_neg hopen, mul_lt_mul_iff_left₀ hunit, mul_lt_mul_iff_left₀ hunit]
    exact_mod_cast h

/-- What a grid gives is one of its points that is held. -/
theorem Rounded.holds_of_onGrid? (h : r.onGrid? tie ten = some n) : n.exponent = ten ∧
    r.holds (scale r.exponent ten).1 (scale r.exponent ten).2 n.digits = true := by
  rw [Rounded.onGrid?] at h
  dsimp only at h
  split at h
  · rename_i hboth
    obtain ⟨hlower, hupper⟩ := Bool.and_eq_true_iff.mp hboth
    cases h
    refine ⟨rfl, ?_⟩
    simp only [roundDiv]
    split
    · exact hupper
    · exact hlower
  · split at h
    · cases h
      exact ⟨rfl, ‹_›⟩
    · split at h
      · cases h
        exact ⟨rfl, ‹_›⟩
      · cases h

/-- A search that can succeed on one of its grids gives what one of them gives. -/
theorem Rounded.search_finds {steps j : Nat} (hj : j < steps)
    (h : (r.onGrid? tie (ten - j)).isSome = true) :
    ∃ i : Nat, i < steps ∧ r.onGrid? tie (ten - i) = some (r.search tie steps ten) := by
  induction steps generalizing j ten with
  | zero => exact absurd hj (Nat.not_lt_zero j)
  | succ steps ih =>
    rw [Rounded.search]
    cases hfirst : r.onGrid? tie ten with
    | some n => exact ⟨0, Nat.succ_pos steps, by simpa using hfirst⟩
    | none =>
      cases j with
      | zero =>
        rw [Int.natCast_zero, Int.sub_zero, hfirst] at h
        cases h
      | succ j =>
        have hnext : ten - ((j + 1 : Nat) : Int) = ten - 1 - j := by
          push_cast
          omega
        rw [hnext] at h
        obtain ⟨i, hi, hfound⟩ := ih (Nat.lt_of_succ_lt_succ hj) h
        refine ⟨i + 1, Nat.succ_lt_succ hi, ?_⟩
        rw [Option.getD_none, ← hfound]
        congr 1
        push_cast
        omega

end

section

variable {m : Nat} {e ten : Int} {tie : Tie}

/-- Where the steps of a grid are shorter than half of the last place, the point next above the
double rounds to it. -/
theorem Rounded.holds_above {up down : Nat} (hm : 0 < m) (hstep : down < 2 * up)
    (hdown : 0 < down) :
    (Rounded.of m e).holds up down ((Rounded.of m e).value * up / down + 1) = true := by
  have hvalue : (Rounded.of m e).value = 4 * m := rfl
  have hhigh : (Rounded.of m e).high = 4 * m + 2 := rfl
  have hlow : (Rounded.of m e).low < 4 * m := by
    rw [Rounded.of]
    dsimp only
    split <;> omega
  have hdiv := Nat.div_add_mod ((Rounded.of m e).value * up) down
  have hmod := Nat.mod_lt ((Rounded.of m e).value * up) hdown
  rw [hvalue] at hdiv hmod ⊢
  have hbelow : (Rounded.of m e).low * up < 4 * m * up :=
    Nat.mul_lt_mul_of_pos_right hlow (by omega)
  have habove : (Rounded.of m e).high * up = 4 * m * up + 2 * up := by
    rw [hhigh, Nat.add_mul]
  generalize 4 * m * up = value at *
  have hpoint : (value / down + 1) * down = down * (value / down) + down := by
    rw [Nat.add_mul, Nat.one_mul, Nat.mul_comm]
  rw [Rounded.holds, hpoint, habove]
  split
  · simp only [Bool.and_eq_true, decide_eq_true_eq]
    omega
  · simp only [Bool.and_eq_true, decide_eq_true_eq]
    omega

/-- Such a grid has a point that rounds to the double. -/
theorem Rounded.onGrid?_isSome (hm : 0 < m) (h : (10 : ℚ) ^ ten < 2 ^ (e - 1)) :
    ((Rounded.of m e).onGrid? tie ten).isSome = true := by
  have hexponent : (Rounded.of m e).exponent = e - 2 := rfl
  have hstep : (scale (e - 2) ten).2 < 2 * (scale (e - 2) ten).1 := by
    obtain ⟨unit, hunit, htwo, hten⟩ := scale_unit (e - 2) ten
    have hdouble : (2 : ℚ) ^ (e - 1) = 2 * 2 ^ (e - 2) := by
      rw [← zpow_one_add₀ two_ne_zero]
      congr 1
      omega
    rw [hdouble, htwo, hten, ← mul_assoc, mul_lt_mul_iff_left₀ hunit] at h
    exact_mod_cast h
  have hdown : 0 < (scale (e - 2) ten).2 :=
    Nat.mul_pos (Nat.two_pow_pos _) (Nat.pow_pos (by decide))
  rw [Rounded.onGrid?, hexponent]
  dsimp only
  rw [Rounded.holds_above hm hstep hdown]
  split
  · rfl
  · split
    · rfl
    · rfl

/-- The power of ten that the search for digits begins at is above the double. -/
theorem lt_powerAbove (hm : IsDouble m e) (he : e ≤ 971) :
    (2 : ℚ) ^ (m.log2 + 1 + e) ≤ 10 ^ (powerAbove m e + 1) := by
  have hlog : m.log2 < 53 := log2_lt_of_lt (by decide) hm.lt
  have hleast := hm.least
  rw [powerAbove, Int.add_assoc _ 1 1]
  exact (intPowers_close (by omega) (by omega)).2

/-- The last grid of the search has short steps. -/
theorem powerAbove_fine (hm : IsDouble m e) (he : e ≤ 971) :
    (10 : ℚ) ^ (powerAbove m e - (23 : Nat)) < 2 ^ (e - 1) := by
  have hlog : m.log2 < 53 := log2_lt_of_lt (by decide) hm.lt
  have hleast := hm.least
  have hbelow := (intPowers_close (s := m.log2 + 1 + e) (by omega) (by omega)).1
  have hgrid : (10 : ℚ) ^ (powerAbove m e - (23 : Nat)) =
      10 ^ ((m.log2 + 1 + e) * 30103 / 100000 - 2) * (10 ^ 20)⁻¹ := by
    rw [powerAbove, ← zpow_natCast (10 : ℚ) 20, ← zpow_neg, ← zpow_add₀ (by norm_num)]
    congr 1
    push_cast
    omega
  have hroom : (2 : ℚ) ^ (m.log2 + 1 + e) ≤ 2 ^ 53 * 2 ^ e := by
    rw [← zpow_natCast (2 : ℚ) 53, ← zpow_add₀ two_ne_zero]
    exact zpow_le_zpow_right₀ one_le_two (by omega)
  have he2 : (0 : ℚ) < 2 ^ e := by positivity
  calc
    (10 : ℚ) ^ (powerAbove m e - (23 : Nat)) =
        10 ^ ((m.log2 + 1 + e) * 30103 / 100000 - 2) * (10 ^ 20)⁻¹ := hgrid
    _ ≤ 2 ^ 53 * 2 ^ e * (10 ^ 20)⁻¹ := by
      gcongr
      exact hbelow.trans hroom
    _ = 2 ^ e * (2 ^ 53 / 10 ^ 20) := by ring
    _ < 2 ^ e * (1 / 2) := mul_lt_mul_of_pos_left (by norm_num) he2
    _ = 2 ^ (e - 1) := by
      rw [zpow_sub_one₀ two_ne_zero]
      ring

/-- The fewest digits that are looked for stand for a number that rounds to the double. -/
theorem shortest_contains (tie : Tie) (hm : IsDouble m e) (he : e ≤ 971) :
    (shortest tie m e).digits ≠ 0 ∧ (shortest tie m e).digits < 10 ^ 24 ∧
      (Rounded.of m e).Contains ((shortest tie m e).digits * 10 ^ (shortest tie m e).exponent) := by
  have hsearch : shortest tie m e = (Rounded.of m e).search tie 24 (powerAbove m e) :=
    if_neg hm.pos.ne'
  obtain ⟨i, hi, hfound⟩ := Rounded.search_finds (show 23 < 24 by decide)
    (Rounded.onGrid?_isSome hm.pos (powerAbove_fine hm he))
  rw [← hsearch] at hfound
  obtain ⟨hexponent, hholds⟩ := Rounded.holds_of_onGrid? hfound
  have hv := Rounded.contains_of_holds hholds
  rw [← hexponent] at hv
  refine ⟨?_, ?_, hv⟩
  · intro hzero
    have hpos : (0 : ℚ) < 2 ^ (-1075 : Int) := by positivity
    have hlow := hv.gt hm
    rw [hzero, Nat.cast_zero, zero_mul] at hlow
    linarith
  · -- the double is below the first power, and the steps are not too short
    have hhigh := (hv.nearest hm.pos).high
    rw [div_le_iff₀ (by positivity), hexponent] at hhigh
    have hnext : (m : ℚ) + 1 ≤ 2 ^ (m.log2 + 1) := by exact_mod_cast Nat.lt_log2_self
    have hlt : ((shortest tie m e).digits : ℚ) * 10 ^ (powerAbove m e - 23) <
        10 ^ 24 * 10 ^ (powerAbove m e - 23) := by
      calc
        ((shortest tie m e).digits : ℚ) * 10 ^ (powerAbove m e - 23) ≤
            (shortest tie m e).digits * 10 ^ (powerAbove m e - i) := by
          gcongr
          · norm_num
          · omega
        _ ≤ (m + 1 / 2) * 2 ^ e := hhigh
        _ < 2 ^ (m.log2 + 1) * 2 ^ e := by
          gcongr
          linarith
        _ = 2 ^ (m.log2 + 1 + e) := by
          rw [zpow_add₀ two_ne_zero, ← zpow_natCast]
          push_cast
          rfl
        _ ≤ 10 ^ (powerAbove m e + 1) := lt_powerAbove hm he
        _ = 10 ^ 24 * 10 ^ (powerAbove m e - 23) := by
          rw [← zpow_natCast (10 : ℚ) 24, ← zpow_add₀ (by norm_num)]
          congr 1
          push_cast
          omega
    exact_mod_cast lt_of_mul_lt_mul_right hlt (by positivity)

end

end EntropyGame.Decimal
