import EntropyGame.Proofs.Decimal.Scientific
import EntropyGame.Proofs.Json.Nulls

namespace EntropyGame

namespace Decimal

variable {n : Nat} {ds : List Char}

theorem ofDigits_eq (ds : List Char) : ofDigits ds = Nat.ofDigitChars 10 ds 0 := by
  rw [Nat.ofDigitChars_eq_foldl]
  rfl

/-- Zeros before digits add nothing. -/
theorem ofDigits_zeros_append : ofDigits (List.replicate n '0' ++ ds) = ofDigits ds := by
  rw [ofDigits_eq, ofDigits_eq, Nat.ofDigitChars_append, Nat.ofDigitChars_replicate_zero,
    Nat.mul_zero]

/-- Zeros behind digits are powers of ten. -/
theorem ofDigits_append_zeros : ofDigits (ds ++ List.replicate n '0') = ofDigits ds * 10 ^ n := by
  rw [ofDigits_eq, ofDigits_eq, Nat.ofDigitChars_append, Nat.ofDigitChars_replicate_zero,
    Nat.mul_comm]

end Decimal

namespace Json

open Decimal

section

variable {cs whole fraction rest rest' : List Char} {power : Option Int} {negative : Bool}

/-- Digits up to the first character that is none. -/
theorem digits_of_stop (hcs : ∀ c ∈ cs, c.isDigit = true)
    (hrest : ∀ c ∈ rest.head?, c.isDigit = false) : digits (cs ++ rest) = (cs, rest) := by
  rw [digits, List.takeWhile_append_of_pos hcs, List.dropWhile_append_of_pos hcs]
  cases rest with
  | nil => simp
  | cons c rest => simp [hrest c rfl]

theorem fraction?_point (hf : ∀ c ∈ fraction, c.isDigit = true) (hne : fraction ≠ [])
    (hrest : ∀ c ∈ rest.head?, c.isDigit = false) :
    fraction? ('.' :: (fraction ++ rest)) = some (fraction, rest) := by
  simp only [fraction?, digits_of_stop hf hrest]
  rw [if_neg (by simpa using hne)]

/-- A power of ten is read where its digits end the text. -/
theorem unsignedPower?_digits (sign : Int) (n : Nat) :
    unsignedPower? sign (Nat.toDigits 10 n) = some (some (sign * n), []) := by
  have hne : (Nat.toDigits 10 n).isEmpty = false := by simp
  rw [unsignedPower?, digits_of_all (isDigit_toDigits n), hne, ofDigits_toDigits,
    if_neg (by decide)]

/-- The power of ten that is written behind digits. -/
theorem power?_written (mantissa : String) (p : Int) :
    ∃ tail, (mantissa ++ "e" ++ (if 0 ≤ p then "+" else "-") ++ toString p.natAbs).toList =
        mantissa.toList ++ 'e' :: tail ∧ power? ('e' :: tail) = some (some p, []) := by
  simp only [String.toList_append, List.append_assoc, Nat.toString_eq_repr, Nat.toList_repr]
  by_cases hp : 0 ≤ p
  · refine ⟨'+' :: Nat.toDigits 10 p.natAbs, by rw [if_pos hp]; rfl, ?_⟩
    show unsignedPower? 1 (Nat.toDigits 10 p.natAbs) = _
    rw [unsignedPower?_digits, Int.one_mul, Int.natAbs_of_nonneg hp]
  · refine ⟨'-' :: Nat.toDigits 10 p.natAbs, by rw [if_neg hp]; rfl, ?_⟩
    have habs : -1 * (p.natAbs : Int) = p := by omega
    show unsignedPower? (-1) (Nat.toDigits 10 p.natAbs) = _
    rw [unsignedPower?_digits, habs]

/-- The parts of a number after its sign. -/
theorem unsigned?_parts (hw : ∀ c ∈ whole, c.isDigit = true) (hne : whole ≠ [])
    (hzero : whole.head? ≠ some '0' ∨ whole.length = 1)
    (hrest : ∀ c ∈ rest.head?, c.isDigit = false) (hf : fraction? rest = some (fraction, rest'))
    (hp : power? rest' = some (power, [])) :
    unsigned? negative (whole ++ rest) = some (numeric negative whole fraction power, []) := by
  have hwhole : (whole.isEmpty || (whole.head? == some '0' && whole.length != 1)) = false := by
    have hempty : whole.isEmpty = false := by simpa using hne
    obtain hzero | hzero := hzero
    · simp [hempty, hzero]
    · simp [hempty, hzero]
  simp only [unsigned?, digits_of_stop hw hrest, hwhole, hf, Option.bind_eq_bind,
    Option.bind_some, hp]
  rfl

end

/-- A text is that of a number after its sign. It has a point or a power of ten, its digits are
not too many, and it stands for `v`. -/
def Spells (text : List Char) (v : ℚ) : Prop :=
  ∃ whole fraction power,
    (∀ negative, unsigned? negative text = some (numeric negative whole fraction power, [])) ∧
      (fraction.isEmpty && power.isNone) = false ∧ ofDigits (whole ++ fraction) < 10 ^ 43 ∧
      (ofDigits (whole ++ fraction) : ℚ) * 10 ^ (power.getD 0 - fraction.length) = v

section

variable {whole fraction rest : List Char} {power : Option Int} {n : Nat} {k : Int}

/-- A number with a point stands for its digits and the places that are behind the point. -/
theorem spells_point (hw : ∀ c ∈ whole, c.isDigit = true) (hwne : whole ≠ [])
    (hzero : whole.head? ≠ some '0' ∨ whole.length = 1) (hf : ∀ c ∈ fraction, c.isDigit = true)
    (hfne : fraction ≠ []) (hrest : ∀ c ∈ rest.head?, c.isDigit = false)
    (hp : power? rest = some (power, [])) (hn : ofDigits (whole ++ fraction) = n)
    (hk : power.getD 0 - fraction.length = k) (hsize : n < 10 ^ 43) :
    Spells (whole ++ '.' :: (fraction ++ rest)) (n * 10 ^ k) := by
  have hpoint : ∀ c ∈ ('.' :: (fraction ++ rest)).head?, c.isDigit = false := by
    rintro c ⟨⟩
    decide
  refine ⟨whole, fraction, power, fun negative => ?_, ?_, ?_, ?_⟩
  · exact unsigned?_parts hw hwne hzero hpoint (fraction?_point hf hfne hrest) hp
  · simp [hfne]
  · rw [hn]
    exact hsize
  · rw [hn, hk]

theorem isDigit_zeros (n : Nat) : ∀ c ∈ List.replicate n '0', c.isDigit = true := by
  intro c hc
  rw [List.eq_of_mem_replicate hc]
  decide

theorem isDigit_append {ds ds' : List Char} (h : ∀ c ∈ ds, c.isDigit = true)
    (h' : ∀ c ∈ ds', c.isDigit = true) : ∀ c ∈ ds ++ ds', c.isDigit = true := by
  intro c hc
  obtain hc | hc := List.mem_append.mp hc
  · exact h c hc
  · exact h' c hc

theorem toList_toString (n : Nat) : (toString n).toList = Nat.toDigits 10 n := by
  rw [Nat.toString_eq_repr, Nat.toList_repr]

theorem length_toString (n : Nat) : (toString n).length = (Nat.toDigits 10 n).length := by
  rw [← String.length_toList, toList_toString]

/-- Digits behind the point, with zeros between. -/
theorem spells_zeros_before (j : Nat) (hsize : n < 10 ^ 43)
    (hj : -((Nat.toDigits 10 n).length + k) = j) :
    Spells ('0' :: '.' :: (List.replicate j '0' ++ Nat.toDigits 10 n)) (n * 10 ^ k) := by
  have hdigits := isDigit_append (isDigit_zeros j) (isDigit_toDigits n)
  have hvalue : ofDigits (['0'] ++ (List.replicate j '0' ++ Nat.toDigits 10 n)) = n :=
    (ofDigits_zeros_append (n := j + 1)).trans (ofDigits_toDigits n)
  have hspells : Spells (['0'] ++ '.' :: (List.replicate j '0' ++ Nat.toDigits 10 n ++ []))
      (n * 10 ^ k) :=
    spells_point (isDigit_zeros 1) (by simp) (.inr rfl) hdigits (by simp) (by simp) rfl hvalue
      (by simp; omega) hsize
  simpa using hspells

/-- Digits before the point, with zeros between. -/
theorem spells_zeros_behind (j : Nat) (hn : n ≠ 0) (hsize : n * 10 ^ (j + 1) < 10 ^ 43) :
    Spells (Nat.toDigits 10 n ++ List.replicate j '0' ++ ['.', '0']) (n * 10 ^ (j : Int)) := by
  have hdigits := isDigit_append (isDigit_toDigits n) (isDigit_zeros j)
  have hvalue : ofDigits (Nat.toDigits 10 n ++ List.replicate j '0' ++ ['0']) =
      n * 10 ^ (j + 1) := by
    rw [List.append_assoc, ← List.replicate_succ', ofDigits_append_zeros, ofDigits_toDigits]
  have hhead : (Nat.toDigits 10 n ++ List.replicate j '0').head? ≠ some '0' := by
    rw [List.head?_append_of_ne_nil _ Nat.toDigits_ne_nil]
    exact head?_toDigits hn
  have hscale : (n : ℚ) * 10 ^ (j : Int) = (n * 10 ^ (j + 1) : Nat) * 10 ^ (-1 : Int) := by
    rw [Nat.cast_mul, Nat.cast_pow, Nat.cast_ofNat, pow_succ, zpow_natCast, zpow_neg_one]
    ring
  rw [hscale]
  exact spells_point hdigits (by simp) (.inl hhead) (isDigit_zeros 1) (by simp) (by simp) rfl
    hvalue rfl hsize

/-- Digits with the point among them. -/
theorem spells_among (j : Nat) (hn : n ≠ 0) (hsize : n < 10 ^ 43) (hpos : 0 < j)
    (hlt : j < (Nat.toDigits 10 n).length) (hj : (Nat.toDigits 10 n).length + k = j) :
    Spells ((Nat.toDigits 10 n).take j ++ '.' :: (Nat.toDigits 10 n).drop j) (n * 10 ^ k) := by
  have hdigits := isDigit_toDigits n
  have hhead : ((Nat.toDigits 10 n).take j).head? ≠ some '0' := by
    rw [List.head?_take, if_neg (by omega)]
    exact head?_toDigits hn
  have hvalue : ofDigits ((Nat.toDigits 10 n).take j ++ (Nat.toDigits 10 n).drop j) = n := by
    rw [List.take_append_drop, ofDigits_toDigits]
  have hspells : Spells ((Nat.toDigits 10 n).take j ++ '.' :: ((Nat.toDigits 10 n).drop j ++ []))
      (n * 10 ^ k) :=
    spells_point (fun c hc => hdigits c (List.mem_of_mem_take hc)) (by simp; omega) (.inl hhead)
      (fun c hc => hdigits c (List.mem_of_mem_drop hc)) (by simp; omega) (by simp) rfl hvalue
      (by simp; omega) hsize
  simpa using hspells

/-- Digits with their point among them or beside them. -/
theorem spells_place (hn : n ≠ 0) (hsize : n < 10 ^ 24)
    (hpoint : (Nat.toDigits 10 n).length + k ≤ 16) :
    Spells (Layout.document.place (toString n) ((Nat.toDigits 10 n).length + k)).toList
      (n * 10 ^ k) := by
  have hmore : n < 10 ^ 43 := Nat.lt_trans hsize (Nat.pow_lt_pow_right (by decide) (by decide))
  rw [Layout.place, length_toString, toList_toString]
  dsimp only
  split
  · obtain ⟨j, hj⟩ := Int.eq_ofNat_of_zero_le (show 0 ≤ -((Nat.toDigits 10 n).length + k) by omega)
    rw [hj, Int.toNat_natCast]
    simpa [zeros] using spells_zeros_before j hmore hj
  · split
    · obtain ⟨j, rfl⟩ := Int.eq_ofNat_of_zero_le (show 0 ≤ k by omega)
      have hplaces : ((Nat.toDigits 10 n).length + (j : Int) -
          (Nat.toDigits 10 n).length).toNat = j := by omega
      have hfew : n * 10 ^ (j + 1) < 10 ^ 43 :=
        calc
          n * 10 ^ (j + 1) < 10 ^ 24 * 10 ^ (j + 1) :=
            Nat.mul_lt_mul_of_pos_right hsize (by positivity)
          _ = 10 ^ (24 + (j + 1)) := (Nat.pow_add 10 24 (j + 1)).symm
          _ ≤ 10 ^ 43 := Nat.pow_le_pow_right (by decide) (by omega)
      rw [hplaces]
      simpa [zeros, Layout.document] using spells_zeros_behind j hn hfew
    · obtain ⟨j, hj⟩ := Int.eq_ofNat_of_zero_le (show 0 ≤ (Nat.toDigits 10 n).length + k by omega)
      rw [hj, Int.toNat_natCast]
      simpa using spells_among j hn hmore (by omega) (by omega) hj

/-- Digits with one of them before the point and a power of ten behind. -/
theorem spells_withExponent (hn : n ≠ 0) (hsize : n < 10 ^ 43) :
    Spells (Layout.withExponent (toString n) ((Nat.toDigits 10 n).length + k)).toList
      (n * 10 ^ k) := by
  have hdigits := isDigit_toDigits n
  have hvalue := ofDigits_toDigits n
  have hhead := head?_toDigits hn
  have hne : Nat.toDigits 10 n ≠ [] := Nat.toDigits_ne_nil
  have hstop : ∀ tail : List Char, ∀ c ∈ ('e' :: tail).head?, c.isDigit = false := by
    rintro tail c ⟨⟩
    decide
  rw [Layout.withExponent, toList_toString]
  generalize Nat.toDigits 10 n = ds at *
  cases ds with
  | nil => exact absurd rfl hne
  | cons d ds =>
    obtain ⟨hd, hds⟩ := List.forall_mem_cons.mp hdigits
    have hfirst : ∀ c ∈ [d], c.isDigit = true := List.forall_mem_singleton.mpr hd
    have hone : d.toString.toList = [d] := by simp
    cases ds with
    | nil =>
      obtain ⟨tail, htext, hpower⟩ := power?_written d.toString (([d].length : Int) + k - 1)
      refine ⟨[d], [], some (([d].length : Int) + k - 1), fun negative => ?_, rfl, ?_, ?_⟩
      · dsimp only
        rw [htext, hone]
        exact unsigned?_parts hfirst (by simp) (.inr rfl) (hstop tail) rfl hpower
      · exact hvalue ▸ hsize
      · have hplaces : ([d].length : Int) + k - 1 - ([] : List Char).length = k := by
          simp
        rw [List.append_nil, hvalue, Option.getD_some, hplaces]
    | cons d' ds =>
      obtain ⟨tail, htext, hpower⟩ := power?_written (d.toString ++ "." ++ String.ofList (d' :: ds))
        (((d :: d' :: ds).length : Int) + k - 1)
      have hplaces : ((d :: d' :: ds).length : Int) + k - 1 - (d' :: ds).length = k := by
        simp only [List.length_cons]
        omega
      have hspells : Spells ([d] ++ '.' :: ((d' :: ds) ++ 'e' :: tail)) (n * 10 ^ k) :=
        spells_point hfirst (by simp) (.inr rfl) hds (by simp) (hstop tail) hpower hvalue hplaces
          hsize
      dsimp only
      rw [htext, String.toList_append, String.toList_append, String.toList_ofList, hone]
      simpa using hspells

/-- The text of a decimal is a number that stands for it. -/
theorem spells_magnitude {n : Numeral} (hn : n.digits ≠ 0) (hsize : n.digits < 10 ^ 24) :
    Spells (Layout.document.magnitude n).toList (n.digits * 10 ^ n.exponent) := by
  rw [Layout.magnitude, if_neg hn]
  dsimp only
  rw [length_toString]
  split
  · rename_i hposition
    simp only [Layout.document, Bool.and_eq_true, decide_eq_true_eq] at hposition
    exact spells_place hn hsize hposition.2
  · exact spells_withExponent hn
      (Nat.lt_trans hsize (Nat.pow_lt_pow_right (by decide) (by decide)))

end

section

variable {m : Nat} {e : Int} {text : List Char} {v : ℚ}

theorem isFinite_ofModel_pack (hm : IsDouble m e) (he : e ≤ 971) :
    (Float.ofModel (Float.Model.pack (.finite .positive m e hm.pos))).isFinite = true := by
  show (Float.Model.UnpackedFloat.unpack .binary64 (Float.Model.UnpackedFloat.pack .binary64
    (.finite .positive m e hm.pos))).isFinite = true
  rw [unpack_pack_double hm he]
  rfl

theorem neg_ofModel_pack (hm : IsDouble m e) (he : e ≤ 971) :
    -Float.ofModel (Float.Model.pack (.finite .positive m e hm.pos)) =
      .ofModel (Float.Model.pack (.finite .negative m e hm.pos)) := by
  show Float.ofModel (Float.Model.pack (Float.Model.UnpackedFloat.neg
    (Float.Model.UnpackedFloat.unpack .binary64 (Float.Model.UnpackedFloat.pack .binary64
      (.finite .positive m e hm.pos))))) = _
  rw [unpack_pack_double hm he]
  rfl

/-- A text of a number that rounds to a double is read as that double. -/
theorem Spells.unsigned? (h : Spells text v) (negative : Bool) (hm : IsDouble m e) (he : e ≤ 971)
    (hv : (Rounded.of m e).Contains v) : Json.unsigned? negative text = some
      (.float (.ofModel (Float.Model.pack (.finite (signOf negative) m e hm.pos))), []) := by
  obtain ⟨whole, fraction, power, htext, hpoint, hsize, rfl⟩ := h
  have hne : ofDigits (whole ++ fraction) ≠ 0 := by
    intro hzero
    have hpos : (0 : ℚ) < 2 ^ (-1075 : Int) := by positivity
    have hlow := hv.gt hm
    rw [hzero, Nat.cast_zero, zero_mul] at hlow
    linarith
  have hread := toFloat_of_contains hm he hne hsize hv
  rw [htext, numeric, hpoint, Bool.false_and, if_neg (by decide)]
  dsimp only
  rw [hread, if_pos (isFinite_ofModel_pack hm he)]
  cases negative with
  | false => rfl
  | true => rw [if_pos rfl, neg_ofModel_pack hm he, signOf, if_pos rfl]

end

/-- What is read after a sign is read with it. -/
theorem number?_signed {negative : Bool} {text : String} {r : Json × List Char}
    (h : unsigned? negative text.toList = some r) :
    number? ((if negative then "-" else "") ++ text).toList = some r := by
  rw [String.toList_append]
  cases negative with
  | true => exact h
  | false =>
    show number? text.toList = some r
    generalize text.toList = cs at *
    cases cs with
    | nil => cases h
    | cons c cs =>
      have hc : c ≠ '-' := by
        rintro rfl
        cases h
      rw [number?_unsigned cs hc]
      exact h

/-- Every finite double reads back from its text. -/
theorem readsBack_of_isFinite {x : Float} (h : x.isFinite = true) : ReadsBack x := by
  obtain ⟨negative, m, e, hx⟩ := Binary64.ofFloat_of_isFinite h
  rw [ReadsBack, writeFloat, if_pos h, Layout.write, hx]
  dsimp only
  by_cases hm : m = 0
  · subst hm
    have htext : Layout.document.magnitude (shortest Layout.document.tie 0 e) = "0.0" := rfl
    rw [htext, Binary64.eq_zero hx]
    cases negative <;> rfl
  · obtain ⟨hdouble, he, hmodel⟩ := Binary64.eq_ofModel hx (Nat.pos_of_ne_zero hm)
    obtain ⟨hdigits, hsize, hv⟩ := shortest_contains .even hdouble he
    have hread := (spells_magnitude hdigits hsize).unsigned? negative hdouble he hv
    rw [← hmodel] at hread
    exact number?_signed hread

end Json

end EntropyGame
