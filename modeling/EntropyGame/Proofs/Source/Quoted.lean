import EntropyGame.Proofs.Source.Comment

namespace EntropyGame.Lexer

/-- A part of what stands between quotes: a character as it is, or one behind a backslash. -/
inductive Piece
  | plain (c : Char)
  | escaped (c : Char)

/-- The characters that may stand behind a backslash. -/
def escapes : List Char :=
  ['n', 'r', 't', '\\', '"', '\'', '#']

/-- What stands behind the backslash where a character is written as an escape. -/
def escape? : Char → Option Char
  | '\n' => some 'n'
  | '\r' => some 'r'
  | '\t' => some 't'
  | '\\' => some '\\'
  | '"' => some '"'
  | '\'' => some '\''
  | '#' => some '#'
  | _ => none

namespace Piece

def chars : Piece → List Char
  | plain c => [c]
  | escaped c => ['\\', c]

/-- The character that a piece stands for. -/
def value? : Piece → Option Char
  | plain c => some c
  | escaped c => unescape? c

/-- How a character is written between quotes. Backslashes and the quotes themselves have to be
escaped, and what else has an escape is if that is wanted. -/
def write (quote : Char) (wanted : Bool) (c : Char) : Piece :=
  match escape? c with
  | some e => if c = '\\' ∨ c = quote ∨ wanted = true then escaped e else plain c
  | none => plain c

end Piece

/-- Whether the quote after a row of pieces is the first one that closes them. -/
def Closed (quote : Char) (ps : List Piece) : Prop :=
  ∀ c, .plain c ∈ ps → c ≠ quote ∧ c ≠ '\\'

def inQuotes (quote : Char) (body : List Char) : String :=
  String.ofList (quote :: (body ++ [quote]))

/-- A row of pieces between quotes. -/
def literal (quote : Char) (ps : List Piece) : String :=
  inQuotes quote (ps.flatMap Piece.chars)

/-- The pieces of a text, where `wanted` says at which places an escape is wanted. -/
def spell (quote : Char) (wanted : Nat → Bool) (s : String) : List Piece :=
  s.toList.zipIdx.map fun x => .write quote (wanted x.2) x.1

/-- Whether a text is read as a string with a given value, up to its end and whatever comes after
it. -/
def IsString (text value : String) : Prop :=
  ∀ rest : String, tokens (text ++ rest) =
    (tokensFrom (Text.byteLength text.toList) rest.toList).map
      (⟨.text value, 0, Text.byteLength text.toList⟩ :: ·)

theorem unescape?_isSome_iff {c : Char} : (unescape? c).isSome = true ↔ c ∈ escapes := by
  unfold unescape?
  split <;> simp_all [escapes]

theorem unescape?_of_escape? {c e : Char} (h : escape? c = some e) : unescape? e = some c := by
  unfold escape? at h
  split at h <;> cases h <;> rfl

section

variable {quote : Char} {ps : List Piece}

theorem ne_backslash_of_isQuote (hq : quote = '"' ∨ quote = '\'') : quote ≠ '\\' := by
  obtain rfl | rfl := hq <;> decide

theorem lexeme_quote (hq : quote = '"' ∨ quote = '\'') (cs : List Char) :
    lexeme quote cs = quoted quote cs := by
  obtain rfl | rfl := hq <;> rfl

theorem Closed.of_cons {p : Piece} (h : Closed quote (p :: ps)) : Closed quote ps :=
  fun c hc => h c (List.mem_cons_of_mem p hc)

theorem quotedBody_plain {c : Char} (hquote : c ≠ quote) (hslash : c ≠ '\\') (cs : List Char) :
    quotedBody quote (c :: cs) = (c :: (quotedBody quote cs).1, (quotedBody quote cs).2) := by
  simp [quotedBody, hquote, hslash]

theorem quotedBody_escaped {c : Char} (hc : c ≠ '\n') (cs : List Char) :
    quotedBody quote ('\\' :: c :: cs) =
      ('\\' :: c :: (quotedBody quote cs).1, (quotedBody quote cs).2) := by
  simp [quotedBody, hc]

/-- The closing quote is found, as no backslash stands before the end of a line. -/
theorem quotedBody_closed (hq : quote ≠ '\\') (h : Closed quote ps)
    (hline : .escaped '\n' ∉ ps) (rest : List Char) :
    quotedBody quote (ps.flatMap Piece.chars ++ quote :: rest) =
      (ps.flatMap Piece.chars, true) := by
  induction ps with
  | nil => simp [quotedBody, hq]
  | cons p ps ih =>
    rw [List.mem_cons, not_or] at hline
    have hrest := ih h.of_cons hline.2
    cases p with
    | plain c =>
      obtain ⟨hquote, hslash⟩ := h c List.mem_cons_self
      simp only [List.flatMap_cons, Piece.chars, List.cons_append, List.nil_append,
        quotedBody_plain hquote hslash, hrest]
    | escaped c =>
      have hc : c ≠ '\n' := fun hc => hline.1 (hc ▸ rfl)
      simp only [List.flatMap_cons, Piece.chars, List.cons_append, List.nil_append,
        quotedBody_escaped hc, hrest]

/-- A backslash before the end of a line breaks a quoted text off. -/
theorem quotedBody_broken (h : Closed quote ps) (hline : .escaped '\n' ∈ ps) (rest : List Char) :
    (quotedBody quote (ps.flatMap Piece.chars ++ rest)).2 = false := by
  induction ps with
  | nil => cases hline
  | cons p ps ih =>
    cases p with
    | plain c =>
      obtain ⟨hquote, hslash⟩ := h c List.mem_cons_self
      have hlater := ih h.of_cons (by simpa using hline)
      simp only [List.flatMap_cons, Piece.chars, List.cons_append, List.nil_append,
        quotedBody_plain hquote hslash, hlater]
    | escaped c =>
      by_cases hc : c = '\n'
      · subst hc
        simp [Piece.chars, quotedBody]
      · have hlater := ih h.of_cons (by simpa [Ne.symm hc] using hline)
        simp only [List.flatMap_cons, Piece.chars, List.cons_append, List.nil_append,
          quotedBody_escaped hc, hlater]

/-- Escapes are resolved piece by piece. -/
theorem unescapeAll?_chars (h : Closed quote ps) :
    unescapeAll? (ps.flatMap Piece.chars) = ps.mapM Piece.value? := by
  induction ps with
  | nil => rfl
  | cons p ps ih =>
    rw [List.mapM_cons, ← ih h.of_cons]
    cases p with
    | plain c =>
      obtain ⟨-, hslash⟩ := h c List.mem_cons_self
      have hplain : ∀ cs, unescapeAll? (c :: cs) = (unescapeAll? cs).map (c :: ·) := by
        intro cs
        simp [unescapeAll?, hslash]
      rw [List.flatMap_cons, Piece.chars, List.singleton_append, hplain, Option.map_eq_bind]
      rfl
    | escaped c => simp [Piece.chars, Piece.value?, unescapeAll?]

/-- A row of pieces stands for a text if its escapes are among those there are. -/
theorem isSome_values_iff :
    (ps.mapM Piece.value?).isSome = true ↔ ∀ e, .escaped e ∈ ps → e ∈ escapes := by
  induction ps with
  | nil => simp
  | cons p ps ih =>
    rw [List.mapM_cons]
    cases p with
    | plain c => simp [Piece.value?, ← ih, Option.isSome_bind]
    | escaped c =>
      cases hc : unescape? c with
      | none =>
        have hne : c ∉ escapes := fun hmem => by simp [← unescape?_isSome_iff, hc] at hmem
        simp [Piece.value?, hc, hne]
      | some d =>
        have hmem : c ∈ escapes := unescape?_isSome_iff.mp (by rw [hc]; rfl)
        simp [Piece.value?, hc, hmem, ← ih, Option.isSome_bind]

theorem quoted_of_values (hq : quote ≠ '\\') (h : Closed quote ps) {cs : List Char}
    (hvalues : ps.mapM Piece.value? = some cs) (rest : List Char) :
    quoted quote (ps.flatMap Piece.chars ++ quote :: rest) =
      (.token (.text (String.ofList cs)), (ps.flatMap Piece.chars).length + 2) := by
  have hline : .escaped '\n' ∉ ps := by
    intro hmem
    have hescape := isSome_values_iff.mp (by rw [hvalues]; rfl) '\n' hmem
    exact absurd hescape (by decide)
  simp only [quoted, quotedBody_closed hq h hline, if_true, unescapeAll?_chars h, hvalues]

theorem quoted_of_no_values (hq : quote ≠ '\\') (h : Closed quote ps)
    (hvalues : ps.mapM Piece.value? = none) (rest : List Char) :
    (quoted quote (ps.flatMap Piece.chars ++ quote :: rest)).1 = .unknown := by
  by_cases hline : .escaped '\n' ∈ ps
  · simp [quoted, quotedBody_broken h hline]
  · simp [quoted, quotedBody_closed hq h hline, unescapeAll?_chars h, hvalues]

/-- A text in quotes is read up to the closing one. -/
theorem isString_literal (hq : quote = '"' ∨ quote = '\'') (h : Closed quote ps)
    {cs : List Char} (hvalues : ps.mapM Piece.value? = some cs) :
    IsString (literal quote ps) (String.ofList cs) := by
  intro rest
  have hquoted := quoted_of_values (ne_backslash_of_isQuote hq) h hvalues rest.toList
  rw [tokens, literal, inQuotes, String.toList_append, String.toList_ofList, List.cons_append,
    List.append_assoc, List.singleton_append, tokensFrom]
  generalize ps.flatMap Piece.chars = body at hquoted
  have hlength : (body ++ [quote]).length = body.length + 2 - 1 := by simp
  have htake : (body ++ quote :: rest.toList).take (body.length + 2 - 1) = body ++ [quote] := by
    rw [List.append_cons, List.take_left' hlength]
  have hdrop : (body ++ quote :: rest.toList).drop (body.length + 2 - 1) = rest.toList := by
    rw [List.append_cons, List.drop_left' hlength]
  simp only [lexeme_quote hq, hquoted, htake, hdrop, Nat.zero_add]

/-- Where a quote is closed nowhere, or what it opens stands for no text, the reading ends. -/
theorem tokens_error_of_unknown (hq : quote = '"' ∨ quote = '\'') {cs : List Char}
    (h : (quoted quote cs).1 = .unknown) :
    ∃ e, tokens (String.ofList (quote :: cs)) = .error e ∧ e.start = 0 := by
  rw [tokens, String.toList_ofList, tokensFrom]
  simp only [lexeme_quote hq, h]
  exact ⟨_, rfl, rfl⟩

theorem tokens_literal_error (hq : quote = '"' ∨ quote = '\'') (h : Closed quote ps)
    (hvalues : ps.mapM Piece.value? = none) (rest : String) :
    ∃ e, tokens (literal quote ps ++ rest) = .error e ∧ e.start = 0 := by
  have hquoted := quoted_of_no_values (ne_backslash_of_isQuote hq) h hvalues rest.toList
  have htext : literal quote ps ++ rest =
      String.ofList (quote :: (ps.flatMap Piece.chars ++ quote :: rest.toList)) := by
    simp [← String.toList_inj, literal, inQuotes]
  rw [htext]
  exact tokens_error_of_unknown hq hquoted

theorem IsString.tokens_eq {text value : String} (h : IsString text value) :
    tokens text = .ok [⟨.text value, 0, Text.byteLength text.toList⟩] := by
  have hnone : tokensFrom (Text.byteLength text.toList) [] = .ok [] := by rw [tokensFrom]
  have halone := h ""
  rw [String.append_empty, String.toList_empty, hnone] at halone
  exact halone

/-- What stands before the quote that closes a text is a row of pieces. -/
theorem pieces_of_quotedBody {cs : List Char} (h : (quotedBody quote cs).2 = true) :
    ∃ ps rest, Closed quote ps ∧ cs = ps.flatMap Piece.chars ++ quote :: rest := by
  fun_induction quotedBody quote cs with
  | case1 | case2 | case5 => cases h
  | case3 c cs hc body closed hbody ih =>
    obtain ⟨ps, rest, hps, rfl⟩ := ih (by rw [hbody]; exact h)
    exact ⟨.escaped c :: ps, rest, fun d hd => hps d (by simpa using hd), rfl⟩
  | case4 c cs hne hquote =>
    exact ⟨[], cs, fun _ hd => absurd hd List.not_mem_nil, by simp [beq_iff_eq.mp hquote]⟩
  | case6 c cs hne hquote hslash body closed hbody ih =>
    obtain ⟨ps, rest, hps, rfl⟩ := ih (by rw [hbody]; exact h)
    refine ⟨.plain c :: ps, rest, fun d hd => ?_, rfl⟩
    obtain hd | hd := List.mem_cons.mp hd
    · cases hd
      exact ⟨by simpa using hquote, by simpa using hslash⟩
    · exact hps d hd

/-- Only what is a row of pieces up to its last quote is read as one string. -/
theorem pieces_of_isString (hq : quote = '"' ∨ quote = '\'') {body : List Char} {s : String}
    (h : IsString (inQuotes quote body) s) :
    ∃ ps, Closed quote ps ∧ body = ps.flatMap Piece.chars := by
  have htokens := h.tokens_eq
  cases hclosed : (quotedBody quote (body ++ [quote])).2 with
  | false =>
    have hunknown : (quoted quote (body ++ [quote])).1 = .unknown := by simp [quoted, hclosed]
    obtain ⟨e, he, -⟩ := tokens_error_of_unknown hq hunknown
    cases he.symm.trans htokens
  | true =>
    obtain ⟨ps, rest, hps, hbody⟩ := pieces_of_quotedBody hclosed
    have htext : inQuotes quote body = literal quote ps ++ String.ofList rest := by
      simp only [inQuotes, literal, hbody, ← String.ofList_append, List.cons_append,
        List.append_assoc, List.nil_append]
    rw [htext] at htokens
    cases hvalues : ps.mapM Piece.value? with
    | none =>
      obtain ⟨e, he, -⟩ := tokens_literal_error hq hps hvalues (String.ofList rest)
      cases he.symm.trans htokens
    | some cs =>
      -- the string ends at the quote that closes it, so there is nothing behind that
      rw [isString_literal hq hps hvalues] at htokens
      obtain ⟨ts, -, hts⟩ := map_ok htokens
      have hstop : Text.byteLength (literal quote ps ++ String.ofList rest).toList =
          Text.byteLength (literal quote ps).toList :=
        congrArg Located.stop (List.cons.inj hts).1.symm
      rw [String.toList_append, Text.byteLength_append, String.toList_ofList] at hstop
      have hrest : rest = [] := Text.byteLength_eq_zero (Nat.add_eq_left.mp hstop)
      subst hrest
      exact ⟨ps, hps, List.append_cancel_right hbody⟩

theorem Piece.write_cases (hq : quote = '"' ∨ quote = '\'') (wanted : Bool) (c : Char) :
    (∃ e, escape? c = some e ∧ write quote wanted c = escaped e) ∨
      (c ≠ quote ∧ c ≠ '\\') ∧ write quote wanted c = plain c := by
  cases he : escape? c with
  | none =>
    refine .inr ⟨⟨?_, ?_⟩, by simp [write, he]⟩
    · rintro rfl
      obtain rfl | rfl := hq <;> cases he
    · rintro rfl
      cases he
  | some e =>
    by_cases hneeded : c = '\\' ∨ c = quote ∨ wanted = true
    · exact .inl ⟨e, rfl, by simp only [write, he, if_pos hneeded]⟩
    · refine .inr ⟨?_, by simp only [write, he, if_neg hneeded]⟩
      rw [not_or, not_or] at hneeded
      exact ⟨hneeded.2.1, hneeded.1⟩

/-- No spelling of a text closes it too early. -/
theorem closed_spell (hq : quote = '"' ∨ quote = '\'') (wanted : Nat → Bool) (s : String) :
    Closed quote (spell quote wanted s) := by
  intro c hc
  obtain ⟨⟨d, k⟩, -, hwrite⟩ := List.mem_map.mp hc
  obtain ⟨e, -, hescaped⟩ | ⟨hplain, hwrite'⟩ := Piece.write_cases hq (wanted k) d
  · cases hescaped.symm.trans hwrite
  · cases hwrite'.symm.trans hwrite
    exact hplain

theorem values_spell (hq : quote = '"' ∨ quote = '\'') (wanted : Nat → Bool) (s : String) :
    (spell quote wanted s).mapM Piece.value? = some s.toList := by
  have hvalue : ∀ c k, (Piece.write quote (wanted k) c).value? = some c := by
    intro c k
    obtain ⟨e, he, hwrite⟩ | ⟨-, hwrite⟩ := Piece.write_cases hq (wanted k) c
    · rw [hwrite]
      exact unescape?_of_escape? he
    · rw [hwrite]
      rfl
  have hcomp : (Piece.value? ∘ fun x : Char × Nat => .write quote (wanted x.2) x.1) =
      fun x => pure x.1 :=
    funext fun x => hvalue x.1 x.2
  rw [spell, List.mapM_map, hcomp, List.mapM_pure, List.zipIdx_map_fst]
  rfl

end

/-- Quoted texts denote every text. However a text is spelled between quotes of one kind, with all
escapes that are needed and any of the others, it is read as that text up to the closing quote,
whatever comes after it. A quoted text is a string just if each of its backslashes begins one of
the escapes there are; if not, the reading ends in it. What stands between quotes in any other way
is no string up to the last of them. -/
theorem isString_quoted {quote : Char} (hq : quote = '"' ∨ quote = '\'') :
    (∀ (s : String) (wanted : Nat → Bool), IsString (literal quote (spell quote wanted s)) s) ∧
    (∀ ps, Closed quote ps →
      ((∃ s, IsString (literal quote ps) s) ↔ ∀ e, .escaped e ∈ ps → e ∈ escapes) ∧
      (¬ (∀ e, .escaped e ∈ ps → e ∈ escapes) →
        ∀ rest : String, ∃ e, tokens (literal quote ps ++ rest) = .error e ∧ e.start = 0)) ∧
    ∀ body s, IsString (inQuotes quote body) s →
      ∃ ps, Closed quote ps ∧ body = ps.flatMap Piece.chars := by
  refine ⟨fun s wanted => ?_, fun ps h => ?_, fun body s => pieces_of_isString hq⟩
  · have hread := isString_literal hq (closed_spell hq wanted s) (values_spell hq wanted s)
    rwa [String.ofList_toList] at hread
  · rw [← isSome_values_iff]
    cases hvalues : ps.mapM Piece.value? with
    | some cs =>
      have hstring := isString_literal hq h hvalues
      exact ⟨iff_of_true ⟨_, hstring⟩ rfl, fun hnot => absurd rfl hnot⟩
    | none =>
      refine ⟨iff_of_false ?_ (by simp), fun _ => tokens_literal_error hq h hvalues⟩
      rintro ⟨s, hs⟩
      obtain ⟨e, he, -⟩ := tokens_literal_error hq h hvalues ""
      rw [String.append_empty] at he
      cases hs.tokens_eq.symm.trans he

/-- A text with an apostrophe, a tab that is left as it is and a number sign that is not, and an
escape that there is not. -/
theorem isString_quoted_apostrophe :
    IsString "'it\\'s\t\\#1'" "it's\t#1" ∧
    tokens "'it\\'s\t\\#1' # x" = .ok [⟨.text "it's\t#1", 0, 11⟩] ∧
    (∃ ps, Closed '\'' ps ∧ "it\\'s\t\\#1".toList = ps.flatMap Piece.chars) ∧
    (¬ ∃ s, IsString "'\\x'" s) ∧ ∃ e, tokens "'\\x' # x" = .error e ∧ e.start = 0 := by
  obtain ⟨hwrite, hread, hpieces⟩ := isString_quoted (.inr rfl : '\'' = '"' ∨ '\'' = '\'')
  have hspelled : literal '\'' (spell '\'' (· == 5) "it's\t#1") = "'it\\'s\t\\#1'" := by decide
  have hbroken : literal '\'' [.escaped 'x'] = "'\\x'" := by decide
  have hstring := hwrite "it's\t#1" (· == 5)
  obtain ⟨hiff, herror⟩ := hread [.escaped 'x'] (by simp [Closed])
  have hunknown : ¬ ∀ e, Piece.escaped e ∈ [Piece.escaped 'x'] → e ∈ escapes := by
    simp [escapes]
  rw [hspelled] at hstring
  rw [hbroken] at hiff herror
  have hrest : tokensFrom 11 " # x".toList = .ok [] := tokensFrom_idle (by decide) 11
  have hfirst := hstring " # x"
  have hlength : Text.byteLength "'it\\'s\t\\#1'".toList = 11 := by decide
  rw [hlength, hrest] at hfirst
  exact ⟨hstring, hfirst, hpieces _ _ hstring, fun h => hunknown (hiff.mp h),
    herror hunknown " # x"⟩

end EntropyGame.Lexer
