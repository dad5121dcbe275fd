import EntropyGame.Data.Results
import EntropyGame.Source.Lexer
import Mathlib.Data.List.DropRight
import Mathlib.Data.List.Find
import Mathlib.Data.List.TakeWhile

namespace EntropyGame.Lexer

/-- A part of a line that holds nothing but blanks and perhaps a comment after them. -/
structure Idle (u : List Char) : Prop where
  oneLine : '\n' ∉ u
  rest : ∀ c ∈ (u.dropWhile isBlank).head?, c = '#'

theorem idle_iff {u : List Char} :
    Idle u ↔ '\n' ∉ u ∧ (u.dropWhile isBlank).head?.all (· == '#') = true := by
  simp only [Option.all_eq_true, beq_iff_eq]
  exact ⟨fun h => ⟨h.oneLine, fun c => h.rest c⟩, fun h => ⟨h.1, fun c => h.2 c⟩⟩

instance : DecidablePred Idle :=
  fun _ => decidable_of_iff _ idle_iff.symm

/-- The characters that an idle part may begin with. -/
def idleStarts : List Char :=
  [' ', '\t', '\r', '\n', '#']

theorem mem_idleStarts {d : Char} (h : isBlank d = true ∨ d = '#') : d ∈ idleStarts := by
  simpa [isBlank, idleStarts, or_assoc] using h

theorem forall_mem_idleStarts {P : Char → Prop} :
    (∀ c ∈ idleStarts, P c) ↔ P ' ' ∧ P '\t' ∧ P '\r' ∧ P '\n' ∧ P '#' := by
  simp [idleStarts]

theorem isDigit_of_mem_idleStarts : ∀ d ∈ idleStarts, d.isDigit = false :=
  forall_mem_idleStarts.mpr (by decide)

/-- Whether a character neither goes on with a number nor stands in a sign. -/
def isApart (d : Char) : Bool :=
  !d.isDigit && d != '.' && d != 'e' && d != 'E' &&
    Symbol.signs.all fun s => !s.spelling.toList.contains d

theorem isApart_iff {d : Char} : isApart d = true ↔ d.isDigit = false ∧ d ≠ '.' ∧ d ≠ 'e' ∧
    d ≠ 'E' ∧ ∀ s ∈ Symbol.signs, d ∉ s.spelling.toList := by
  simp [isApart, and_assoc]

theorem isApart_of_mem_idleStarts : ∀ d ∈ idleStarts, isApart d = true :=
  forall_mem_idleStarts.mpr (by decide)

theorem Idle.head {d : Char} {u : List Char} (h : Idle (d :: u)) : isBlank d = true ∨ d = '#' := by
  by_cases hd : isBlank d = true
  · exact .inl hd
  · exact .inr (h.rest d (by simp [hd]))

theorem takeWhile_append_of_not {α : Type} {p : α → Bool} {d : α} (h : p d = false)
    (xs ys : List α) : (xs ++ d :: ys).takeWhile p = xs.takeWhile p := by
  induction xs with
  | nil => simp [h]
  | cons x xs ih => simp [List.takeWhile_cons, ih]

section

variable {d : Char} (hd : isApart d = true) (cs u : List Char)

include hd

theorem digits_append : digits (cs ++ d :: u) = digits cs :=
  takeWhile_append_of_not (isApart_iff.mp hd).1 cs u

theorem fraction_append : fraction (cs ++ d :: u) = fraction cs := by
  cases cs with
  | nil => simp [fraction, (isApart_iff.mp hd).2.1]
  | cons c cs =>
    by_cases hc : c = '.'
    · subst hc
      exact digits_append hd cs u
    · simp [fraction, hc]

theorem exponent_append : exponent (cs ++ d :: u) = exponent cs := by
  obtain ⟨-, -, he, hE, hsigns⟩ := isApart_iff.mp hd
  have hplus : d ≠ '+' := fun h => hsigns .plus (by decide) (h ▸ by decide)
  have hminus : d ≠ '-' := fun h => hsigns .minus (by decide) (h ▸ by decide)
  match cs with
  | [] =>
    match u with
    | [] => simp [exponent, he, hE]
    | x :: u =>
      by_cases hplus' : x = '+'
      · subst hplus'
        simp [exponent, he, hE]
      · by_cases hminus' : x = '-'
        · subst hminus'
          simp [exponent, he, hE]
        · simp [exponent, he, hE, hplus', hminus']
  | [c] =>
    have hdigits := digits_append hd [] u
    rw [List.nil_append] at hdigits
    simp [exponent, hplus, hminus, hdigits]
  | c :: x :: cs =>
    by_cases hplus' : x = '+'
    · subst hplus'
      simp [exponent, digits_append hd cs u]
    · by_cases hminus' : x = '-'
      · subst hminus'
        simp [exponent, digits_append hd cs u]
      · have hdigits := digits_append hd (x :: cs) u
        rw [List.cons_append] at hdigits
        simp [exponent, hplus', hminus', hdigits]

end

/-- A fraction takes its point along. -/
theorem length_fraction_le {cs : List Char} (h : (fraction cs).isEmpty = false) :
    1 + (fraction cs).length ≤ cs.length := by
  unfold fraction at h ⊢
  split at h
  · rename_i cs
    have hle := (List.takeWhile_sublist Char.isDigit (l := cs)).length_le
    rw [List.length_cons, digits]
    omega
  · cases h

/-- An exponent takes its letter and its sign along. -/
theorem length_exponent_le {cs : List Char} (h : (exponent cs).2.2.isEmpty = false) :
    1 + (exponent cs).2.1 + (exponent cs).2.2.length ≤ cs.length := by
  have hle : ∀ cs : List Char, (digits cs).length ≤ cs.length :=
    fun cs => (List.takeWhile_sublist Char.isDigit).length_le
  unfold exponent at h ⊢
  split at h
  · rename_i e cs
    have hcs := hle cs
    split at h
    · rename_i he
      simp only [he, if_true, List.length_cons]
      omega
    · cases h
  · rename_i e cs
    have hcs := hle cs
    split at h
    · rename_i he
      simp only [he, if_true, List.length_cons]
      omega
    · cases h
  · rename_i e cs _ _
    have hcs := hle cs
    split at h
    · rename_i he
      simp only [he, if_true, List.length_cons]
      omega
    · cases h
  · cases h

/-- How many characters a number has before its exponent. -/
def mantissa (cs : List Char) : Nat :=
  (digits cs).length + if (fraction (cs.drop (digits cs).length)).isEmpty then 0
    else 1 + (fraction (cs.drop (digits cs).length)).length

theorem mantissa_le (cs : List Char) : mantissa cs ≤ cs.length := by
  have hle : (digits cs).length ≤ cs.length := (List.takeWhile_sublist Char.isDigit).length_le
  rw [mantissa]
  split
  · exact hle
  · rename_i h
    have hf := length_fraction_le (Bool.eq_false_iff.mpr h)
    rw [List.length_drop] at hf
    omega

theorem number_snd (cs : List Char) :
    (number cs).2 = mantissa cs + if (exponent (cs.drop (mantissa cs))).2.2.isEmpty then 0
      else 1 + (exponent (cs.drop (mantissa cs))).2.1 +
        (exponent (cs.drop (mantissa cs))).2.2.length := by
  simp only [number]
  rw [← mantissa]
  by_cases hpower : (exponent (cs.drop (mantissa cs))).2.2.isEmpty = true
  · rw [if_pos hpower, if_pos hpower]
    split <;> rfl
  · rw [if_neg hpower, if_neg hpower, ← Nat.add_assoc, ← Nat.add_assoc]

theorem number_le (cs : List Char) : (number cs).2 ≤ cs.length := by
  have hle := mantissa_le cs
  rw [number_snd]
  split
  · exact hle
  · rename_i hpower
    have hexponent := length_exponent_le (Bool.eq_false_iff.mpr hpower)
    rw [List.length_drop] at hexponent
    omega

theorem number_append {d : Char} (hd : isApart d = true) (cs u : List Char) :
    number (cs ++ d :: u) = number cs := by
  have hle := (List.takeWhile_sublist Char.isDigit (l := cs)).length_le
  have hwhole : (cs ++ d :: u).drop (digits cs).length = cs.drop (digits cs).length ++ d :: u :=
    List.drop_append_of_le_length hle
  have hpower : exponent ((cs ++ d :: u).drop (mantissa cs)) = exponent (cs.drop (mantissa cs)) := by
    rw [List.drop_append_of_le_length (mantissa_le cs), exponent_append hd]
  simp only [number, digits_append hd, hwhole, fraction_append hd]
  rw [← mantissa, hpower]

theorem ne_backslash_of_quote {c : Char} (h : (c == '"' || c == '\'') = true) : c ≠ '\\' := by
  rintro rfl
  revert h
  decide

/-- What is quoted ends at its closing quote, whatever comes after it. -/
theorem quotedBody_append {quote : Char} (hq : quote ≠ '\\') {cs : List Char}
    (h : (quotedBody quote cs).2 = true) (u : List Char) :
    quotedBody quote (cs ++ u) = quotedBody quote cs ∧
      (quotedBody quote cs).1.length < cs.length := by
  fun_induction quotedBody quote cs with
  | case1 => cases h
  | case2 => cases h
  | case3 c cs hc body closed hbody ih =>
    rw [hbody] at ih
    obtain ⟨happend, hlt⟩ := ih h
    refine ⟨?_, by simpa using hlt⟩
    rw [List.cons_append, List.cons_append, quotedBody, if_neg hc, happend]
  | case4 c cs hc hquote =>
    have hne : c ≠ '\\' := by
      rintro rfl
      exact hq (beq_iff_eq.mp hquote).symm
    exact ⟨by simp [quotedBody, hne, hquote], Nat.succ_pos _⟩
  | case5 => cases h
  | case6 c cs hc hquote hslash body closed hbody ih =>
    rw [hbody] at ih
    obtain ⟨happend, hlt⟩ := ih h
    have hne : c ≠ '\\' := fun he => hslash (beq_iff_eq.mpr he)
    exact ⟨by simp [quotedBody, hne, hquote, happend], by simpa using hlt⟩

theorem quoted_append {quote : Char} (hq : quote ≠ '\\') {cs : List Char} {kind : Lexeme}
    {size : Nat} (h : quoted quote cs = (kind, size)) (hk : kind ≠ .unknown) (u : List Char) :
    quoted quote (cs ++ u) = (kind, size) ∧ size ≤ cs.length + 1 := by
  simp only [quoted] at h ⊢
  cases hclosed : (quotedBody quote cs).2 with
  | false =>
    rw [hclosed] at h
    cases h
    exact absurd rfl hk
  | true =>
    obtain ⟨happend, hlt⟩ := quotedBody_append hq hclosed u
    rw [happend]
    refine ⟨h, ?_⟩
    simp only [hclosed, if_true] at h
    split at h
    · cases h
      omega
    · cases h
      exact absurd rfl hk

theorem word_append {d : Char} (hd : d ∈ idleStarts) (cs u : List Char) :
    word (cs ++ d :: u) = word cs := by
  have hpart : ∀ c ∈ idleStarts, isNamePart c = false := forall_mem_idleStarts.mpr (by decide)
  simp only [word, takeWhile_append_of_not (hpart d hd)]

theorem word_le (cs : List Char) : (word cs).2 ≤ cs.length := by
  have hle : (cs.takeWhile isNamePart).length ≤ cs.length :=
    (List.takeWhile_sublist isNamePart).length_le
  simp only [word]
  split <;> exact hle

theorem isPrefixOf_append {p : List Char} {d : Char} (hd : d ∉ p) (cs u : List Char) :
    p.isPrefixOf (cs ++ d :: u) = p.isPrefixOf cs := by
  induction p generalizing cs with
  | nil => simp
  | cons x p ih =>
    rw [List.mem_cons, not_or] at hd
    cases cs with
    | nil => simp [List.isPrefixOf, Ne.symm hd.1]
    | cons c cs => simp [List.isPrefixOf, ih hd.2]

theorem sign_append {d : Char} (hd : isApart d = true) (cs u : List Char) :
    sign (cs ++ d :: u) = sign cs := by
  obtain ⟨-, -, -, -, hsigns⟩ := isApart_iff.mp hd
  have hfind : Symbol.signs.find? (fun s => s.spelling.toList.isPrefixOf (cs ++ d :: u)) =
      Symbol.signs.find? fun s => s.spelling.toList.isPrefixOf cs := by
    refine List.find?_congr fun s hs => ?_
    rw [isPrefixOf_append (hsigns s hs)]
  simp only [sign, hfind]

theorem sign_le {cs : List Char} {kind : Lexeme} {size : Nat} (h : sign cs = (kind, size))
    (hk : kind ≠ .unknown) : size ≤ cs.length := by
  simp only [sign] at h
  split at h
  · rename_i s hs
    cases h
    have hp := List.find?_some hs
    rw [← String.length_toList]
    exact (List.isPrefixOf_iff_prefix.mp hp).length_le
  · cases h
    exact absurd rfl hk

/-- What is neither a blank nor a comment ends before an idle part. -/
theorem lexeme_append {c : Char} {cs : List Char} {kind : Lexeme} {size : Nat}
    (hblank : ¬ isBlank c = true) (hcomment : ¬ (c == '#') = true)
    (h : lexeme c cs = (kind, size)) (hk : kind ≠ .unknown) {d : Char} (hd : d ∈ idleStarts)
    (u : List Char) : lexeme c (cs ++ d :: u) = (kind, size) ∧ size ≤ cs.length + 1 := by
  have hapart := isApart_of_mem_idleStarts d hd
  rw [lexeme, if_neg hblank, if_neg hcomment] at h
  rw [lexeme, if_neg hblank, if_neg hcomment]
  simp only [← List.cons_append]
  split at h
  · rename_i hdigit
    rw [if_pos hdigit, number_append hapart, h]
    have hle := number_le (c :: cs)
    rw [h] at hle
    exact ⟨rfl, hle⟩
  · rename_i hdigit
    rw [if_neg hdigit]
    split at h
    · rename_i hquote
      rw [if_pos hquote]
      have hne := ne_backslash_of_quote hquote
      exact quoted_append hne h hk (d :: u)
    · rename_i hquote
      rw [if_neg hquote]
      split at h
      · rename_i hname
        rw [if_pos hname, word_append hd, h]
        have hle := word_le (c :: cs)
        rw [h] at hle
        exact ⟨rfl, hle⟩
      · rename_i hname
        rw [if_neg hname, sign_append hapart, h]
        exact ⟨rfl, sign_le h hk⟩

/-- It leaves the rest of the line and the idle part after it. -/
theorem lexeme_beforeIdle {c : Char} {cs : List Char} {kind : Lexeme} {size : Nat}
    (hc : ¬ (isBlank c = true ∨ c = '#')) (h : lexeme c cs = (kind, size))
    (hk : kind ≠ .unknown) {d : Char} (hd : d ∈ idleStarts) (u : List Char) :
    lexeme c (cs ++ d :: u) = (kind, size) ∧
      (cs ++ d :: u).take (size - 1) = cs.take (size - 1) ∧
      (cs ++ d :: u).drop (size - 1) = cs.drop (size - 1) ++ d :: u := by
  rw [not_or] at hc
  obtain ⟨hlex, hsize⟩ := lexeme_append hc.1 (by simpa using hc.2) h hk hd u
  exact ⟨hlex, List.take_append_of_le_length (by omega),
    List.drop_append_of_le_length (by omega)⟩

theorem length_takeWhile_cons {α : Type} {p : α → Bool} {x : α} (hx : p x = true) (xs : List α) :
    ((x :: xs).takeWhile p).length - 1 = (xs.takeWhile p).length := by
  simp [hx]

theorem take_length_takeWhile {α : Type} (p : α → Bool) (xs : List α) :
    xs.take (xs.takeWhile p).length = xs.takeWhile p := by
  induction xs with
  | nil => rfl
  | cons x xs ih => cases hx : p x <;> simp [hx, ih]

theorem drop_length_takeWhile {α : Type} (p : α → Bool) (xs : List α) :
    xs.drop (xs.takeWhile p).length = xs.dropWhile p := by
  induction xs with
  | nil => rfl
  | cons x xs ih => cases hx : p x <;> simp [hx, ih]

theorem takeWhile_append_of_rest {α : Type} {p : α → Bool} {xs : List α}
    (h : xs.dropWhile p ≠ []) (ys : List α) : (xs ++ ys).takeWhile p = xs.takeWhile p := by
  have hall : (xs.takeWhile p).length ≠ xs.length := by
    have hsplit := congrArg List.length (List.takeWhile_append_dropWhile (p := p) (l := xs))
    have hpos := List.length_pos_iff.mpr h
    rw [List.length_append] at hsplit
    omega
  rw [List.takeWhile_append, if_neg hall]

/-- Blanks and comments are skipped as far as they reach. -/
theorem tokensFrom_skip {c : Char} (hc : isBlank c = true ∨ c = '#') :
    ∃ p : Char → Bool, (∀ u, Idle u ∨ Idle (c :: u) → Idle (u.dropWhile p)) ∧
      ∀ start cs, tokensFrom start (c :: cs) =
        tokensFrom (start + Text.byteLength (c :: cs.takeWhile p)) (cs.dropWhile p) := by
  have oneLine : ∀ {u}, Idle u ∨ Idle (c :: u) → '\n' ∉ u := by
    rintro u (hu | hu)
    · exact hu.oneLine
    · exact fun h => hu.oneLine (List.mem_cons_of_mem _ h)
  by_cases hblank : isBlank c = true
  · refine ⟨isBlank, fun u hu => ⟨fun h => ?_, ?_⟩, fun start cs => ?_⟩
    · exact oneLine hu ((List.dropWhile_sublist _).subset h)
    · rw [List.dropWhile_idempotent]
      obtain hu | hu := hu
      · exact hu.rest
      · simpa [hblank] using hu.rest
    · rw [tokensFrom]
      simp only [lexeme, hblank, if_true, length_takeWhile_cons hblank, take_length_takeWhile,
        drop_length_takeWhile]
  · obtain rfl : c = '#' := hc.resolve_left hblank
    refine ⟨(· != '\n'), fun u hu => ?_, fun start cs => ?_⟩
    · have hnil : u.dropWhile (· != '\n') = [] := by
        rw [List.dropWhile_eq_nil_iff]
        intro x hx
        rw [bne_iff_ne]
        rintro rfl
        exact oneLine hu hx
      rw [hnil]
      exact ⟨List.not_mem_nil, by simp⟩
    · have hlex : lexeme '#' cs = (.skipped, 1 + (cs.takeWhile (· != '\n')).length) := rfl
      rw [tokensFrom]
      simp only [hlex, Nat.add_sub_cancel_left, take_length_takeWhile, drop_length_takeWhile]

theorem tokensFrom_idle {u : List Char} (hu : Idle u) (start : Nat) :
    tokensFrom start u = .ok [] := by
  induction hn : u.length using Nat.strongRecOn generalizing u start with
  | ind n ih =>
    cases u with
    | nil => rw [tokensFrom]
    | cons d u =>
      obtain ⟨p, hidle, hskip⟩ := tokensFrom_skip hu.head
      have hle : (u.dropWhile p).length ≤ u.length := (List.dropWhile_sublist p).length_le
      rw [List.length_cons] at hn
      rw [hskip]
      exact ih _ (by omega) (hidle u (.inr hu)) _ rfl

/-- A line has the same tokens with an idle part after it. -/
theorem tokensFrom_append {start : Nat} {cs : List Char} {ts : List Located}
    (h : tokensFrom start cs = .ok ts) {u : List Char} (hu : Idle u) :
    tokensFrom start (cs ++ u) = .ok ts := by
  cases u with
  | nil => rwa [List.append_nil]
  | cons d u =>
    have hd := mem_idleStarts hu.head
    induction hn : cs.length using Nat.strongRecOn generalizing cs start ts with
    | ind n ih =>
      cases cs with
      | nil =>
        rw [tokensFrom] at h
        rw [List.nil_append, tokensFrom_idle hu, h]
      | cons c cs =>
        rw [List.length_cons] at hn
        by_cases hc : isBlank c = true ∨ c = '#'
        · obtain ⟨p, hidle, hskip⟩ := tokensFrom_skip hc
          rw [hskip] at h
          rw [List.cons_append, hskip, List.dropWhile_append]
          cases hrest : cs.dropWhile p with
          | nil =>
            rw [hrest, tokensFrom] at h
            rw [List.isEmpty_nil, if_pos rfl, tokensFrom_idle (hidle _ (.inl hu)), h]
          | cons x rest =>
            have hlt : (cs.dropWhile p).length ≤ cs.length := (List.dropWhile_sublist p).length_le
            have htake := takeWhile_append_of_rest (hrest ▸ List.cons_ne_nil x rest) (d :: u)
            rw [hrest] at h hlt
            rw [if_neg (by simp), htake]
            exact ih _ (by omega) h rfl
        · rw [tokensFrom] at h
          rw [List.cons_append, tokensFrom]
          cases hlex : lexeme c cs with
          | mk kind size =>
            simp only [hlex] at h
            cases kind with
            | unknown => cases h
            | skipped =>
              obtain ⟨hlex', htake, hdrop⟩ := lexeme_beforeIdle hc hlex (by simp) hd u
              simp only [hlex', htake, hdrop]
              exact ih _ (by rw [List.length_drop]; omega) h rfl
            | token t =>
              obtain ⟨hlex', htake, hdrop⟩ := lexeme_beforeIdle hc hlex (by simp) hd u
              simp only [hlex', htake, hdrop]
              obtain ⟨us, hus, rfl⟩ := map_ok h
              rw [ih _ (by rw [List.length_drop]; omega) hus rfl]
              rfl

/-- An idle line has no tokens. -/
theorem tokens_idle {u : String} (hu : Idle u.toList) : tokens u = .ok [] :=
  tokensFrom_idle hu 0

/-- A comment after a line changes none of its tokens. -/
theorem tokens_append {text u : String} {ts : List Located} (h : tokens text = .ok ts)
    (hu : Idle u.toList) : tokens (text ++ u) = .ok ts := by
  rw [tokens, String.toList_append]
  exact tokensFrom_append h hu

end EntropyGame.Lexer
