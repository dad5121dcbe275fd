import EntropyGame.Proofs.Source.Comment
import EntropyGame.Proofs.Source.Complete
import EntropyGame.Proofs.Source.Lexer

namespace EntropyGame.Lexer

/-- Whether characters spell a row of tokens, wherever they stand. -/
def Spells (cs : List Char) (row : List Token) : Prop :=
  ∀ start, ∃ ts, tokensFrom start cs = .ok ts ∧ Grammar.row ts = row

/-- Whether neither a word nor a number goes on with a text. -/
def Parted (cs : List Char) : Prop :=
  ∀ d ∈ cs.head?, isNamePart d = false ∧ d ≠ '.'

namespace Spells

variable {c : Char} {cs rest : List Char} {size : Nat} {row : List Token}

theorem nil : Spells [] [] :=
  fun _ => ⟨[], by rw [tokensFrom], rfl⟩

theorem token {t : Token} (h : lexeme c cs = (.token t, size)) (hrest : cs.drop (size - 1) = rest)
    (hrow : Spells rest row) : Spells (c :: cs) (t :: row) := by
  intro start
  have hstep : tokensFrom start (c :: cs) =
      (tokensFrom (start + Text.byteLength (c :: cs.take (size - 1))) rest).map
        (⟨t, start, start + Text.byteLength (c :: cs.take (size - 1))⟩ :: ·) := by
    rw [tokensFrom]
    simp only [h, hrest]
  obtain ⟨ts, hts, rfl⟩ := hrow (start + Text.byteLength (c :: cs.take (size - 1)))
  rw [hstep, hts]
  exact ⟨_, rfl, rfl⟩

theorem skipped (h : lexeme c cs = (.skipped, size)) (hrest : cs.drop (size - 1) = rest)
    (hrow : Spells rest row) : Spells (c :: cs) row := by
  intro start
  have hstep : tokensFrom start (c :: cs) =
      tokensFrom (start + Text.byteLength (c :: cs.take (size - 1))) rest := by
    rw [tokensFrom]
    simp only [h, hrest]
  rw [hstep]
  exact hrow _

/-- A lexeme is read off the head of a text. -/
theorem lexeme {t : Token} {us : List Char}
    (h : Lexer.lexeme c (cs ++ us) = (.token t, cs.length + 1)) (hrow : Spells us row) :
    Spells (c :: cs ++ us) (t :: row) :=
  .token h (by simp) hrow

/-- One blank is skipped. -/
theorem blank (hcs : ∀ d ∈ cs.head?, isBlank d = false) (hrow : Spells cs row) :
    Spells (' ' :: cs) row := by
  have hwidth : ((' ' :: cs).takeWhile isBlank).length = 1 := by
    rw [List.takeWhile_cons_of_pos (by decide)]
    cases cs with
    | nil => rfl
    | cons d cs => rw [List.takeWhile_cons_of_neg (by simp [hcs d rfl]), List.length_singleton]
  have hblank : Lexer.lexeme ' ' cs = (.skipped, 1) := by
    rw [Lexer.lexeme, if_pos (by decide), hwidth]
  exact .skipped hblank rfl hrow

end Spells

section

variable {c : Char} {cs us : List Char}

theorem not_idle_of_isDigit (h : c.isDigit = true) : ¬ (isBlank c = true ∨ c = '#') := by
  intro hidle
  cases h.symm.trans (isDigit_of_mem_idleStarts c (mem_idleStarts hidle))

theorem not_idle_of_isNameStart (h : isNameStart c = true) : ¬ (isBlank c = true ∨ c = '#') := by
  intro hidle
  have hstarts : ∀ d ∈ idleStarts, isNameStart d = false := forall_mem_idleStarts.mpr (by decide)
  cases h.symm.trans (hstarts c (mem_idleStarts hidle))

theorem not_isDigit_of_isNameStart (h : isNameStart c = true) : ¬ c.isDigit = true := by
  intro hdigit
  have hle : c.val ≤ 57 := of_decide_eq_true (Bool.and_eq_true_iff.mp hdigit).2
  obtain h | h := Bool.or_eq_true_iff.mp h
  -- capitals and small letters both come after the digits
  · obtain hupper | hlower := Bool.or_eq_true_iff.mp h
    · have hge : 65 ≤ c.val := (of_decide_eq_true hupper).1
      exact absurd (UInt32.le_trans hge hle) (by decide)
    · have hge : 97 ≤ c.val := of_decide_eq_true (Bool.and_eq_true_iff.mp hlower).1
      exact absurd (UInt32.le_trans hge hle) (by decide)
  · rw [beq_iff_eq.mp h] at hdigit
    cases hdigit

theorem Parted.not_isDigit (h : Parted us) : ∀ d ∈ us.head?, d.isDigit = false := by
  intro d hd
  have hpart := (h d hd).1
  simp only [isNamePart, Char.isAlphanum, Bool.or_eq_false_iff] at hpart
  exact hpart.1.2

theorem takeWhile_append_of_head {p : Char → Bool} (hcs : ∀ d ∈ cs, p d = true)
    (hus : ∀ d ∈ us.head?, p d = false) : (cs ++ us).takeWhile p = cs := by
  rw [List.takeWhile_append_of_pos hcs]
  cases us with
  | nil => simp
  | cons d us => simp [hus d rfl]

/-- Digits are a number if neither a word nor a number goes on after them. -/
theorem lexeme_digits (hds : ∀ d ∈ c :: cs, d.isDigit = true) (hus : Parted us) :
    lexeme c (cs ++ us) = (integer (c :: cs), cs.length + 1) := by
  have hc := hds c List.mem_cons_self
  have hidle := not_idle_of_isDigit hc
  rw [not_or] at hidle
  have hdigits : digits (c :: cs ++ us) = c :: cs :=
    takeWhile_append_of_head hds hus.not_isDigit
  have hfraction : fraction us = [] := by
    cases us with
    | nil => rfl
    | cons d us => simp [fraction, (hus d rfl).2]
  have hexponent : exponent us = (1, 0, []) := by
    cases us with
    | nil => rfl
    | cons d us =>
      have hne : ∀ e, isNamePart e = true → d ≠ e := by
        rintro e hpart rfl
        cases hpart.symm.trans (hus _ rfl).1
      have he := hne 'e' (by decide)
      have hE := hne 'E' (by decide)
      unfold exponent
      split <;> simp_all
  have hnumber : number (c :: cs ++ us) = (integer (c :: cs), (c :: cs).length) := by
    simp only [number, hdigits, List.drop_left, hfraction, List.isEmpty_nil, if_true, Nat.add_zero,
      hexponent]
  rw [lexeme, if_neg hidle.1, if_neg (by simpa using hidle.2), if_pos hc]
  exact hnumber

/-- A word is read to its end. -/
theorem lexeme_word (hc : isNameStart c = true) (hcs : ∀ d ∈ cs, isNamePart d = true)
    (hus : ∀ d ∈ us.head?, isNamePart d = false) :
    lexeme c (cs ++ us) = ((word (c :: cs)).1, cs.length + 1) := by
  have hidle := not_idle_of_isNameStart hc
  rw [not_or] at hidle
  have hdigit := not_isDigit_of_isNameStart hc
  have hquote : ¬ (c == '"' || c == '\'') = true := by
    intro hquote
    simp only [Bool.or_eq_true, beq_iff_eq] at hquote
    obtain rfl | rfl := hquote <;> cases hc
  have hparts : ∀ d ∈ c :: cs, isNamePart d = true :=
    List.forall_mem_cons.mpr ⟨isNamePart_of_isNameStart hc, hcs⟩
  have hword : (c :: cs ++ us).takeWhile isNamePart = c :: cs :=
    takeWhile_append_of_head hparts hus
  have halone : (c :: cs).takeWhile isNamePart = c :: cs := List.takeWhile_eq_self_iff.mpr hparts
  rw [lexeme, if_neg hidle.1, if_neg (by simpa using hidle.2), if_neg hdigit, if_neg hquote,
    if_pos hc, ← List.cons_append]
  simp only [word, hword, halone]
  split <;> rfl

end

theorem lexeme_name {s : String} (h : IsName s) {us : List Char}
    (hus : ∀ d ∈ us.head?, isNamePart d = false) :
    ∃ c cs, s.toList = c :: cs ∧ lexeme c (cs ++ us) = (.token (.name s), cs.length + 1) := by
  obtain ⟨c, cs, hs, hc, hcs, hfree⟩ := h
  refine ⟨c, cs, hs, ?_⟩
  have halone : (c :: cs).takeWhile isNamePart = c :: cs :=
    List.takeWhile_eq_self_iff.mpr
      (List.forall_mem_cons.mpr ⟨isNamePart_of_isNameStart hc, hcs⟩)
  have hname : String.ofList (c :: cs) = s := by rw [← hs, String.ofList_toList]
  rw [lexeme_word hc hcs hus, word, halone, hname, hfree]

end EntropyGame.Lexer
