import EntropyGame.Proofs.Source.Lexer
import EntropyGame.Proofs.Source.Respelling

namespace EntropyGame.Lexer

/-! A lexeme is read in the same way when the text ends right after it. -/

section

variable {cs u : List Char}

theorem takeWhile_cut {p : Char → Bool} (h : ((cs ++ u).takeWhile p).length ≤ cs.length) :
    cs.takeWhile p = (cs ++ u).takeWhile p := by
  induction cs with
  | nil => exact (List.eq_nil_of_length_eq_zero (Nat.le_zero.mp h)).symm
  | cons c cs ih =>
    cases hc : p c with
    | false => simp [hc]
    | true =>
      rw [List.cons_append, List.takeWhile_cons_of_pos hc, List.length_cons, List.length_cons] at h
      rw [List.cons_append, List.takeWhile_cons_of_pos hc, List.takeWhile_cons_of_pos hc,
        ih (by omega)]

theorem digits_cut (h : (digits (cs ++ u)).length ≤ cs.length) : digits cs = digits (cs ++ u) :=
  takeWhile_cut h

theorem fraction_cut
    (h : (if (fraction (cs ++ u)).isEmpty then 0 else 1 + (fraction (cs ++ u)).length) ≤
      cs.length) : fraction cs = fraction (cs ++ u) := by
  cases cs with
  | nil =>
    split at h
    · rename_i hempty
      exact (List.isEmpty_iff.mp hempty).symm
    · rw [List.length_nil] at h
      omega
  | cons c cs =>
    by_cases hc : c = '.'
    · subst hc
      have hlength : (digits (cs ++ u)).length ≤ cs.length := by
        simp only [List.cons_append, fraction, List.length_cons] at h
        split at h
        · rename_i hempty
          rw [List.isEmpty_iff.mp hempty]
          exact Nat.zero_le _
        · omega
      exact digits_cut hlength
    · simp [fraction, hc]

/-- An exponent that has digits is read with them. -/
theorem exponent_cut (hpower : (exponent (cs ++ u)).2.2.isEmpty = false)
    (h : 1 + (exponent (cs ++ u)).2.1 + (exponent (cs ++ u)).2.2.length ≤ cs.length) :
    exponent cs = exponent (cs ++ u) := by
  have hpos : 0 < (exponent (cs ++ u)).2.2.length :=
    List.length_pos_iff.mpr (by simpa using hpower)
  match cs with
  | [] =>
    rw [List.length_nil] at h
    omega
  | [e] =>
    rw [List.length_singleton] at h
    omega
  | e :: x :: cs =>
    by_cases he : (e == 'e' || e == 'E') = true
    · by_cases hplus : x = '+'
      · subst hplus
        simp only [List.cons_append, exponent, he, if_true, List.length_cons] at h ⊢
        rw [digits_cut (u := u) (by omega)]
      · by_cases hminus : x = '-'
        · subst hminus
          simp only [List.cons_append, exponent, he, if_true, List.length_cons] at h ⊢
          rw [digits_cut (u := u) (by omega)]
        · have hcons : ∀ xs, exponent (e :: x :: xs) = (1, 0, digits (x :: xs)) := by
            intro xs
            simp [exponent, hplus, hminus, he]
          simp only [List.cons_append, hcons, List.length_cons] at h ⊢
          have hcut : digits (x :: cs) = digits (x :: cs ++ u) :=
            digits_cut (by rw [List.length_cons, List.cons_append]; omega)
          rw [hcut, List.cons_append]
    · have hnone : (exponent (e :: x :: cs ++ u)).2.2 = [] := by
        rw [List.cons_append, List.cons_append]
        unfold exponent
        split <;> simp_all
      rw [hnone] at hpower
      cases hpower

theorem mantissa_cut (h : mantissa (cs ++ u) ≤ cs.length) :
    mantissa cs = mantissa (cs ++ u) ∧ digits cs = digits (cs ++ u) ∧
      fraction (cs.drop (digits cs).length) =
        fraction ((cs ++ u).drop (digits (cs ++ u)).length) := by
  rw [mantissa] at h
  have hwhole : (digits (cs ++ u)).length ≤ cs.length := by omega
  have hdrop : (cs ++ u).drop (digits (cs ++ u)).length = cs.drop (digits (cs ++ u)).length ++ u :=
    List.drop_append_of_le_length hwhole
  have hdigits := digits_cut hwhole
  rw [hdrop] at h
  have hpart : fraction (cs.drop (digits (cs ++ u)).length) =
      fraction (cs.drop (digits (cs ++ u)).length ++ u) :=
    fraction_cut (by rw [List.length_drop]; omega)
  rw [mantissa, mantissa, hdrop, hdigits, hpart]
  exact ⟨rfl, rfl, rfl⟩

/-- A number that reaches just to the end of a part of the text is the number of that part. -/
theorem number_cut (h : (number (cs ++ u)).2 = cs.length) : number cs = number (cs ++ u) := by
  rw [number_snd] at h
  have hle : mantissa (cs ++ u) ≤ cs.length := by omega
  obtain ⟨hmantissa, hdigits, hpart⟩ := mantissa_cut hle
  rw [← hmantissa] at h hle
  rw [← hdigits] at hpart
  have hdrop : (cs ++ u).drop (mantissa cs) = cs.drop (mantissa cs) ++ u :=
    List.drop_append_of_le_length hle
  rw [hdrop] at h
  simp only [number, ← hdigits, ← hpart]
  rw [← mantissa, hdrop]
  cases hpower : (exponent (cs.drop (mantissa cs) ++ u)).2.2.isEmpty with
  | true =>
    -- then nothing is left after the mantissa
    rw [hpower, if_pos rfl, Nat.add_zero] at h
    have hnone : exponent (cs.drop (mantissa cs)) = (1, 0, []) := by
      rw [h, List.drop_length, exponent]
    simp only [hnone, List.isEmpty_nil, if_true]
  | false =>
    rw [hpower, if_neg Bool.false_ne_true] at h
    have hexponent := exponent_cut hpower (by rw [List.length_drop]; omega)
    simp only [hexponent, hpower, Bool.false_eq_true, if_false]

theorem word_cut (h : (word (cs ++ u)).2 ≤ cs.length) : word cs = word (cs ++ u) := by
  rw [word_snd] at h
  rw [word, word, takeWhile_cut h]

end

/-- No sign is taken for another one that it begins with. -/
theorem find?_signs_self : ∀ s ∈ Symbol.signs,
    Symbol.signs.find? (fun s' => s'.spelling.toList.isPrefixOf s.spelling.toList) = some s := by
  decide

theorem sign_cut {cs u : List Char} {t : Token} (h : sign (cs ++ u) = (.token t, cs.length)) :
    sign cs = (.token t, cs.length) := by
  simp only [sign] at h
  split at h
  · rename_i s hs
    have hprefix : s.spelling.toList.isPrefixOf (cs ++ u) = true := by
      simpa using List.find?_some hs
    obtain ⟨rest, hrest⟩ := List.isPrefixOf_iff_prefix.mp hprefix
    simp only [Prod.mk.injEq] at h
    have hcs : cs = s.spelling.toList :=
      (List.append_inj_left hrest (by rw [String.length_toList, h.2])).symm
    rw [sign, hcs, find?_signs_self s (List.mem_of_find?_eq_some hs), ← hcs, ← h.1, ← h.2]
  · cases h

/-- What is a lexeme before other text is one alone. -/
theorem lexeme_cut {c : Char} {cs u : List Char} {t : Token}
    (h : lexeme c (cs ++ u) = (.token t, cs.length + 1)) :
    lexeme c cs = (.token t, cs.length + 1) := by
  rw [lexeme] at h ⊢
  simp only [← List.cons_append] at h
  split at h
  · cases h
  · rename_i hblank
    rw [if_neg hblank]
    split at h
    · cases h
    · rename_i hcomment
      rw [if_neg hcomment]
      split at h
      · rename_i hdigit
        rw [if_pos hdigit, number_cut (by rw [h, List.length_cons]), h]
      · rename_i hdigit
        rw [if_neg hdigit]
        split at h
        · rename_i hquote
          have hne := ne_backslash_of_quote hquote
          have hcut := quoted_ahead hne h (by simp) (Nat.le_refl _) []
          rw [List.append_nil] at hcut
          rw [if_pos hquote, hcut]
        · rename_i hquote
          rw [if_neg hquote]
          split at h
          · rename_i hname
            rw [if_pos hname, word_cut (by rw [h, List.length_cons]), h]
          · rename_i hname
            rw [if_neg hname]
            exact sign_cut h

theorem number_pos {c : Char} (hc : c.isDigit = true) (cs : List Char) :
    0 < (number (c :: cs)).2 := by
  rw [number_snd, mantissa, digits, List.takeWhile_cons_of_pos hc, List.length_cons]
  omega

theorem word_pos {c : Char} (hc : isNameStart c = true) (cs : List Char) :
    0 < (word (c :: cs)).2 := by
  rw [word_snd, List.takeWhile_cons_of_pos (isNamePart_of_isNameStart hc)]
  exact Nat.succ_pos _

theorem quoted_pos (quote : Char) (cs : List Char) : 0 < (quoted quote cs).2 := by
  simp only [quoted]
  split
  · split <;> exact Nat.succ_pos _
  · exact Nat.succ_pos _

theorem sign_pos (cs : List Char) : 0 < (sign cs).2 := by
  have hsigns : ∀ s ∈ Symbol.signs, 0 < s.spelling.length := by decide
  simp only [sign]
  split
  · rename_i s hs
    exact hsigns s (List.mem_of_find?_eq_some hs)
  · exact Nat.one_pos

/-- No lexeme is empty. -/
theorem lexeme_pos (c : Char) (cs : List Char) : 0 < (lexeme c cs).2 := by
  rw [lexeme]
  split
  · rename_i hblank
    rw [List.takeWhile_cons_of_pos hblank]
    exact Nat.succ_pos _
  · split
    · exact Nat.lt_of_lt_of_le Nat.one_pos (Nat.le_add_right _ _)
    · split
      · rename_i hdigit
        exact number_pos hdigit cs
      · split
        · exact quoted_pos c cs
        · split
          · rename_i hname
            exact word_pos hname cs
          · exact sign_pos (c :: cs)

theorem token_ne_skipped (t : Token) : Lexeme.token t ≠ .skipped := by
  intro h
  cases h

theorem unknown_ne_skipped : Lexeme.unknown ≠ .skipped := by
  intro h
  cases h

theorem integer_ne_skipped (ds : List Char) : integer ds ≠ .skipped := by
  simp only [integer]
  split
  · exact token_ne_skipped _
  · exact unknown_ne_skipped

theorem float_ne_skipped (ds : List Char) (power : Int) : float ds power ≠ .skipped := by
  simp only [float]
  split
  · exact token_ne_skipped _
  · exact unknown_ne_skipped

theorem number_ne_skipped (cs : List Char) : (number cs).1 ≠ .skipped := by
  simp only [number]
  rw [← mantissa]
  split
  · split
    · exact integer_ne_skipped _
    · exact float_ne_skipped _ _
  · exact float_ne_skipped _ _

theorem quoted_ne_skipped (quote : Char) (cs : List Char) : (quoted quote cs).1 ≠ .skipped := by
  simp only [quoted]
  split
  · split
    · exact token_ne_skipped _
    · exact unknown_ne_skipped
  · exact unknown_ne_skipped

theorem word_ne_skipped (cs : List Char) : (word cs).1 ≠ .skipped := by
  simp only [word]
  split
  · exact token_ne_skipped _
  · exact token_ne_skipped _

theorem sign_ne_skipped (cs : List Char) : (sign cs).1 ≠ .skipped := by
  simp only [sign]
  split
  · exact token_ne_skipped _
  · exact unknown_ne_skipped

/-- Nothing is skipped but blanks and comments, each as far as it reaches. -/
theorem lexeme_skipped {c : Char} {cs : List Char} (h : (lexeme c cs).1 = .skipped) :
    isBlank c = true ∧ (lexeme c cs).2 = ((c :: cs).takeWhile isBlank).length ∨
      c = '#' ∧ (lexeme c cs).2 = 1 + (cs.takeWhile (· != '\n')).length := by
  by_cases hblank : isBlank c = true
  · rw [lexeme, if_pos hblank]
    exact .inl ⟨hblank, rfl⟩
  · by_cases hcomment : (c == '#') = true
    · rw [lexeme, if_neg hblank, if_pos hcomment]
      exact .inr ⟨beq_iff_eq.mp hcomment, rfl⟩
    · rw [lexeme, if_neg hblank, if_neg hcomment] at h
      split at h
      · exact absurd h (number_ne_skipped _)
      · split at h
        · exact absurd h (quoted_ne_skipped _ _)
        · split at h
          · exact absurd h (word_ne_skipped _)
          · exact absurd h (sign_ne_skipped _)

end EntropyGame.Lexer
