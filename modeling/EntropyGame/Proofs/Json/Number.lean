import EntropyGame.Json.Reading
import EntropyGame.Json.Writing

namespace EntropyGame.Json

/-- Nothing at the head of a text goes on with a number before it. -/
def Stops (rest : List Char) : Prop :=
  ∀ c ∈ rest.head?, c.isDigit = false ∧ c ≠ '.' ∧ c ≠ 'e' ∧ c ≠ 'E'

/-- The text of a double is a number that reads back as the same double. -/
def ReadsBack (x : Float) : Prop :=
  number? (writeFloat x).toList = some (.float x, [])

theorem stops_nil : Stops [] := by
  simp [Stops]

theorem Stops.digits {rest : List Char} (h : Stops rest) : digits rest = ([], rest) := by
  cases rest with
  | nil => rfl
  | cons c rest =>
    have hc : c.isDigit = false := (h c rfl).1
    simp [Json.digits, hc]

theorem digits_append {cs rest : List Char} (h : Stops rest) :
    digits (cs ++ rest) = ((digits cs).1, (digits cs).2 ++ rest) := by
  induction cs with
  | nil => exact h.digits
  | cons c cs ih =>
    simp only [digits, Prod.mk.injEq] at ih
    cases hc : c.isDigit <;> simp [digits, hc, ih.1, ih.2]

theorem fraction?_append {cs rest ds tail : List Char} (h : Stops rest)
    (hf : fraction? cs = some (ds, tail)) :
    fraction? (cs ++ rest) = some (ds, tail ++ rest) := by
  cases cs with
  | nil =>
    cases hf
    cases rest with
    | nil => rfl
    | cons c rest =>
      have hc : c ≠ '.' := (h c rfl).2.1
      simp [fraction?, hc]
  | cons c cs =>
    by_cases hc : c = '.'
    · simp only [hc, fraction?, List.cons_append, digits_append h] at hf ⊢
      by_cases hds : (digits cs).1.isEmpty = true
      · simp [hds] at hf
      · simp only [hds] at hf ⊢
        cases hf
        rfl
    · simp [fraction?, hc] at hf ⊢
      simp [← hf.1, ← hf.2]

/-- The digits of a power of ten after its sign. -/
def unsignedPower? (sign : Int) (cs : List Char) : Option (Option Int × List Char) :=
  if (digits cs).1.isEmpty then none
  else some (some (sign * Decimal.ofDigits (digits cs).1), (digits cs).2)

theorem unsignedPower?_append {sign : Int} {cs rest tail : List Char} {power : Option Int}
    (h : Stops rest) (hp : unsignedPower? sign cs = some (power, tail)) :
    unsignedPower? sign (cs ++ rest) = some (power, tail ++ rest) := by
  rw [unsignedPower?] at hp
  rw [unsignedPower?, digits_append h]
  split at hp
  · cases hp
  · cases hp
    exact if_neg ‹_›

theorem power?_unsigned {e c : Char} (cs : List Char) (he : (e == 'e' || e == 'E') = true)
    (hplus : c ≠ '+') (hminus : c ≠ '-') :
    power? (e :: c :: cs) = unsignedPower? 1 (c :: cs) := by
  simp only [power?, unsignedPower?, he, if_true]
  split
  · exact absurd (List.cons.inj ‹_›).1 hplus
  · exact absurd (List.cons.inj ‹_›).1 hminus
  · rfl

theorem power?_append {cs rest tail : List Char} {power : Option Int} (h : Stops rest)
    (hp : power? cs = some (power, tail)) : power? (cs ++ rest) = some (power, tail ++ rest) := by
  cases cs with
  | nil =>
    cases hp
    cases rest with
    | nil => rfl
    | cons c rest =>
      obtain ⟨-, -, he, hE⟩ := h c rfl
      simp [power?, he, hE]
  | cons e cs =>
    by_cases he : (e == 'e' || e == 'E') = true
    · cases cs with
      | nil => simp [power?, he, digits] at hp
      | cons c cs =>
        by_cases hplus : c = '+'
        · subst hplus
          simp only [power?, he, if_true, List.cons_append] at hp ⊢
          exact unsignedPower?_append h hp
        · by_cases hminus : c = '-'
          · subst hminus
            simp only [power?, he, if_true, List.cons_append] at hp ⊢
            exact unsignedPower?_append h hp
          · rw [power?_unsigned cs he hplus hminus] at hp
            rw [List.cons_append, List.cons_append, power?_unsigned _ he hplus hminus]
            exact unsignedPower?_append h hp
    · simp [power?, he] at hp ⊢
      simp [← hp.1, ← hp.2]

/-- A number after its sign. -/
def unsigned? (negative : Bool) (cs : List Char) : Option (Json × List Char) :=
  let (whole, rest) := digits cs
  if whole.isEmpty || (whole.head? == some '0' && whole.length != 1) then none
  else do
    let (fraction, rest) ← fraction? rest
    let (power, rest) ← power? rest
    return (numeric negative whole fraction power, rest)

theorem number?_minus (cs : List Char) : number? ('-' :: cs) = unsigned? true cs :=
  rfl

theorem number?_unsigned {c : Char} (cs : List Char) (hc : c ≠ '-') :
    number? (c :: cs) = unsigned? false (c :: cs) := by
  simp [number?, unsigned?, hc]

theorem unsigned?_append {negative : Bool} {cs rest tail : List Char} {j : Json} (h : Stops rest)
    (hn : unsigned? negative cs = some (j, tail)) :
    unsigned? negative (cs ++ rest) = some (j, tail ++ rest) := by
  simp only [unsigned?, digits_append h] at hn ⊢
  split at hn
  · cases hn
  · rename_i hw
    rw [if_neg hw]
    obtain ⟨⟨fraction, rest'⟩, hf, hn⟩ := Option.bind_eq_some_iff.mp hn
    obtain ⟨⟨power, rest''⟩, hp, hn⟩ := Option.bind_eq_some_iff.mp hn
    cases hn
    simp only [fraction?_append h hf, Option.bind_eq_bind, Option.bind_some, power?_append h hp]
    rfl

/-- A number reads the same before a text that does not go on with it. -/
theorem number?_append {cs rest tail : List Char} {j : Json} (h : Stops rest)
    (hn : number? cs = some (j, tail)) : number? (cs ++ rest) = some (j, tail ++ rest) := by
  cases cs with
  | nil => cases hn
  | cons c cs =>
    by_cases hc : c = '-'
    · subst hc
      rw [number?_minus] at hn
      rw [List.cons_append, number?_minus]
      exact unsigned?_append h hn
    · rw [number?_unsigned cs hc] at hn
      rw [List.cons_append, number?_unsigned _ hc]
      exact unsigned?_append h hn

/-- A number begins with a digit or a minus sign, and with nothing else. -/
theorem number?_cons {cs : List Char} {r : Json × List Char} (h : number? cs = some r) :
    ∃ c rest, cs = c :: rest ∧ ∀ d : Char, d ≠ '-' → d.isDigit = false → c ≠ d := by
  cases cs with
  | nil => cases h
  | cons c cs =>
    refine ⟨c, cs, rfl, ?_⟩
    rintro d hminus hdigit rfl
    simp [number?_unsigned cs hminus, unsigned?, digits, hdigit] at h

theorem digits_of_all {cs : List Char} (h : ∀ c ∈ cs, c.isDigit = true) : digits cs = (cs, []) := by
  induction cs with
  | nil => rfl
  | cons c cs ih =>
    have hc : c.isDigit = true := h c List.mem_cons_self
    have ih := ih fun c hc => h c (List.mem_cons_of_mem _ hc)
    simp only [digits, Prod.mk.injEq] at ih
    simp [digits, hc, ih.1, ih.2]

theorem isDigit_toDigits (n : Nat) : ∀ c ∈ Nat.toDigits 10 n, c.isDigit = true :=
  fun _ hc => Nat.isDigit_of_mem_toDigits (by decide) (by decide) hc

theorem ofDigits_toDigits (n : Nat) : Decimal.ofDigits (Nat.toDigits 10 n) = n := by
  have h := Nat.ofDigitChars_ten_toDigits (n := n)
  rw [Nat.ofDigitChars_eq_foldl] at h
  exact h

/-- Only the digits of zero begin with a zero. -/
theorem head?_toDigits {n : Nat} (hn : n ≠ 0) : (Nat.toDigits 10 n).head? ≠ some '0' := by
  induction n using Nat.strongRecOn with
  | ind n ih =>
    rw [Nat.toDigits_eq_if (by decide)]
    split
    · simpa using hn
    · have hlt : n / 10 < n := by omega
      have hne : n / 10 ≠ 0 := by omega
      obtain ⟨c, cs, hcs⟩ := List.exists_cons_of_ne_nil (Nat.toDigits_ne_nil (n := n / 10) (b := 10))
      have ih := ih _ hlt hne
      rw [hcs] at ih ⊢
      exact ih

theorem leadingZero_toDigits (n : Nat) :
    ((Nat.toDigits 10 n).head? == some '0' && (Nat.toDigits 10 n).length != 1) = false := by
  by_cases hn : n = 0
  · subst hn
    rfl
  · simp [head?_toDigits hn]

theorem toList_writeInt {n : Int} (h : 0 ≤ n) : (writeInt n).toList = Nat.toDigits 10 n.toNat := by
  have hn : n.natAbs = n.toNat := by omega
  simp [writeInt, Int.not_lt.mpr h, hn]

/-- A whole number within 64 bits reads back. -/
theorem number?_writeInt {n : Int} (h : 0 ≤ n) (hn : n < 2 ^ 64) :
    number? (writeInt n).toList = some (.int n, []) := by
  have hd := isDigit_toDigits n.toNat
  have hne : Nat.toDigits 10 n.toNat ≠ [] := Nat.toDigits_ne_nil
  have hz := leadingZero_toDigits n.toNat
  have ho := ofDigits_toDigits n.toNat
  rw [toList_writeInt h]
  generalize Nat.toDigits 10 n.toNat = ds at hd hne hz ho
  obtain ⟨c, cs, rfl⟩ := List.exists_cons_of_ne_nil hne
  have hc : c ≠ '-' := by
    rintro rfl
    exact absurd (hd '-' List.mem_cons_self) (by decide)
  have hlt : n.toNat < 2 ^ 64 := by omega
  have hnum : numeric false (c :: cs) [] none = .int n := by
    rw [numeric, ho, if_pos (by simpa using hlt), if_neg (by decide), Int.toNat_of_nonneg h]
  rw [number?_unsigned cs hc, unsigned?, digits_of_all hd]
  dsimp only
  rw [List.isEmpty_cons, Bool.false_or, if_neg (by rw [hz]; decide), ← hnum]
  rfl

/-- A number of a field's name reads back. -/
theorem nameNat?_toString {n : Nat} (hn : n < word) : nameNat? (toString n) = some n := by
  have hd : (Nat.toDigits 10 n).all Char.isDigit = true :=
    List.all_eq_true.mpr (isDigit_toDigits n)
  have he : (Nat.toDigits 10 n).isEmpty = false := by simp
  have ho := ofDigits_toDigits n
  simp only [nameNat?, Nat.toString_eq_repr, Nat.toList_repr, hd, leadingZero_toDigits, he,
    Bool.not_true, Bool.or_self]
  have ho : (Nat.toDigits 10 n).foldl (fun n c => 10 * n + (c.toNat - '0'.toNat)) 0 = n := ho
  rw [ho]
  simp [hn]

end EntropyGame.Json
