import EntropyGame.Proofs.Place
import EntropyGame.Proofs.Source.Loop

namespace EntropyGame

namespace Register

/-- Whether two names stand for the same register. -/
def SameName (s s' : String) : Prop :=
  ∃ r, ofName? s = some r ∧ ofName? s' = some r

theorem SameName.ownName_eq {s s' : String} (h : SameName s s') : ownName s' = ownName s := by
  obtain ⟨r, hs, hs'⟩ := h
  rw [ownName, ownName, hs, hs']

/-- A name of a register is the letter of its family and digits. -/
theorem toList_of_ofName? {s : String} {r : Register} (h : ofName? s = some r) :
    ∃ ds, s.toList = r.family.letter :: ds ∧ ∀ d ∈ ds, d.isDigit = true := by
  rw [ofName?] at h
  cases hs : s.toList with
  | nil =>
    rw [hs] at h
    cases h
  | cons letter digits =>
    rw [hs, ofChars?] at h
    cases hf : Family.ofLetter? letter with
    | none =>
      rw [hf] at h
      cases h
    | some family =>
      obtain rfl : family.letter = letter := by simpa using List.find?_some hf
      simp only [hf, bind, Option.bind] at h
      split at h
      · rename_i hdigits
        split at h
        · cases h
          refine ⟨digits, rfl, ?_⟩
          simp only [Bool.and_eq_true, List.all_eq_true] at hdigits
          exact hdigits.1
        · cases h
      · cases h

/-- No reserved word is the name of a register. -/
theorem find?_words_of_register {s : String} {r : Register} (h : ofName? s = some r) :
    Symbol.words.find? (·.spelling = s) = none := by
  rw [List.find?_eq_none]
  intro w hw hs
  have hwords : ∀ w ∈ Symbol.words, ofName? w.spelling = none := by decide
  obtain rfl : w.spelling = s := by simpa using hs
  cases (hwords w hw).symm.trans h

end Register

namespace Lexer

section

variable {p : Char → Bool} {cs u : List Char}

/-- What is taken from a text and ends before a part of it does not depend on that part, if the
next character stays the same. -/
theorem takeWhile_ahead {d : Char} (h : ((cs ++ d :: u).takeWhile p).length ≤ cs.length)
    (v : List Char) : (cs ++ d :: v).takeWhile p = (cs ++ d :: u).takeWhile p := by
  induction cs with
  | nil =>
    cases hd : p d with
    | true => simp [hd] at h
    | false => simp [hd]
  | cons c cs ih =>
    cases hc : p c with
    | true =>
      rw [List.cons_append, List.takeWhile_cons_of_pos hc, List.length_cons, List.length_cons] at h
      rw [List.cons_append, List.cons_append, List.takeWhile_cons_of_pos hc,
        List.takeWhile_cons_of_pos hc, ih (by omega)]
    | false => simp [hc]

theorem quotedBody_ahead {quote : Char} (hq : quote ≠ '\\')
    (hclosed : (quotedBody quote (cs ++ u)).2 = true)
    (h : (quotedBody quote (cs ++ u)).1.length < cs.length) (v : List Char) :
    quotedBody quote (cs ++ v) = quotedBody quote (cs ++ u) := by
  fun_induction quotedBody quote cs with
  | case1 => cases h
  | case2 c cs hc =>
    rw [List.cons_append, List.cons_append, quotedBody, if_pos hc] at hclosed
    cases hclosed
  | case3 c cs hc body closed hbody ih =>
    simp only [List.cons_append, quotedBody, if_neg hc, List.length_cons] at hclosed h ⊢
    rw [ih hclosed (by omega)]
  | case4 c cs hc hquote =>
    have hne : c ≠ '\\' := by
      rintro rfl
      exact hq (beq_iff_eq.mp hquote).symm
    simp [quotedBody, hne, hquote]
  | case5 c cs hc hquote hslash =>
    -- a backslash takes what comes next along
    obtain rfl := beq_iff_eq.mp hslash
    obtain rfl : cs = [] := by
      cases cs with
      | nil => rfl
      | cons x cs => exact absurd rfl (hc x cs rfl)
    cases u with
    | nil => simp [quotedBody, hquote] at hclosed
    | cons x u =>
      by_cases hx : x = '\n' <;> simp [quotedBody, hx] at hclosed h
  | case6 c cs hc hquote hslash body closed hbody ih =>
    have hne : c ≠ '\\' := fun he => hslash (beq_iff_eq.mpr he)
    have hcons : ∀ xs, quotedBody quote (c :: xs) =
        (c :: (quotedBody quote xs).1, (quotedBody quote xs).2) := fun xs => by
      simp [quotedBody, hne, hquote]
    simp only [List.cons_append, hcons, List.length_cons] at hclosed h ⊢
    rw [ih hclosed (by omega)]

end

theorem word_snd (cs : List Char) : (word cs).2 = (cs.takeWhile isNamePart).length := by
  simp only [word]
  split <;> rfl

theorem word_ahead {d : Char} {cs u : List Char} (h : (word (cs ++ d :: u)).2 ≤ cs.length)
    (v : List Char) : word (cs ++ d :: v) = word (cs ++ d :: u) := by
  rw [word_snd] at h
  rw [word, word, takeWhile_ahead h]

theorem quoted_ahead {quote : Char} (hq : quote ≠ '\\') {cs u : List Char} {kind : Lexeme}
    {size : Nat} (h : quoted quote (cs ++ u) = (kind, size)) (hk : kind ≠ .unknown)
    (hsize : size ≤ cs.length + 1) (v : List Char) : quoted quote (cs ++ v) = (kind, size) := by
  cases hclosed : (quotedBody quote (cs ++ u)).2 with
  | false =>
    simp only [quoted, hclosed] at h
    cases h
    exact absurd rfl hk
  | true =>
    have hlt : (quotedBody quote (cs ++ u)).1.length < cs.length := by
      simp only [quoted, hclosed, if_true] at h
      split at h <;> cases h <;> omega
    rw [quoted, quotedBody_ahead hq hclosed hlt v]
    exact h

/-- A lexeme that ends before a part of the text does not depend on that part, if the next character
stays the same and may stand after it. -/
theorem lexeme_ahead {c d : Char} {cs u : List Char} {kind : Lexeme} {size : Nat}
    (h : lexeme c (cs ++ d :: u) = (kind, size)) (hk : kind ≠ .unknown)
    (hsize : size ≤ cs.length + 1) (hd : isApart d = true) (v : List Char) :
    lexeme c (cs ++ d :: v) = (kind, size) := by
  rw [lexeme] at h ⊢
  simp only [← List.cons_append] at h ⊢
  split at h
  · rename_i hblank
    cases h
    rw [if_pos hblank, takeWhile_ahead hsize v]
  · rename_i hblank
    rw [if_neg hblank]
    split at h
    · rename_i hcomment
      cases h
      have hle : ((cs ++ d :: u).takeWhile (· != '\n')).length ≤ cs.length := by omega
      rw [if_pos hcomment, takeWhile_ahead hle v]
    · rename_i hcomment
      rw [if_neg hcomment]
      split at h
      · rename_i hdigit
        rw [if_pos hdigit, ← h, number_append hd, number_append hd]
      · rename_i hdigit
        rw [if_neg hdigit]
        split at h
        · rename_i hquote
          have hne := ne_backslash_of_quote hquote
          rw [if_pos hquote]
          exact quoted_ahead hne h hk hsize (d :: v)
        · rename_i hquote
          rw [if_neg hquote]
          split at h
          · rename_i hname
            rw [if_pos hname, word_ahead (by rw [h]; exact hsize) v, h]
          · rename_i hname
            rw [if_neg hname, ← h, sign_append hd, sign_append hd]

theorem lexeme_le {c : Char} {cs : List Char} {kind : Lexeme} {size : Nat}
    (h : lexeme c cs = (kind, size)) (hk : kind ≠ .unknown) : size ≤ cs.length + 1 := by
  by_cases hblank : isBlank c = true
  · rw [lexeme, if_pos hblank] at h
    cases h
    exact (List.takeWhile_sublist _).length_le
  · by_cases hcomment : (c == '#') = true
    · rw [lexeme, if_neg hblank, if_pos hcomment] at h
      cases h
      have hle : (cs.takeWhile (· != '\n')).length ≤ cs.length :=
        (List.takeWhile_sublist _).length_le
      omega
    · exact (lexeme_append hblank hcomment h hk (d := ' ') (by decide) []).2

/-- The names of registers are words. -/
theorem isName_of_ofName? {s : String} {r : Register} (h : Register.ofName? s = some r) :
    IsName s := by
  obtain ⟨ds, hs, hds⟩ := Register.toList_of_ofName? h
  refine ⟨_, ds, hs, ?_, fun d hd => ?_, Register.find?_words_of_register h⟩
  · cases r.family <;> decide
  · simp [isNamePart, Char.isAlphanum, hds d hd]

end Lexer

/-- The roles of the names after a token, if the token is a name. -/
def Token.roles (roles : List Bool) : Token → List Bool
  | .name _ => roles.tail
  | _ => roles

/-- Whether a row of tokens is another one with registers spelled in other ways. Each name has a role
in the order of reading: whether it stands for a register. -/
inductive Grammar.Respelt : List Bool → List Token → List Token → Prop
  | nil {roles : List Bool} : Respelt roles [] []
  | kept {roles : List Bool} {t : Token} {row row' : List Token} :
      Respelt (t.roles roles) row row' → Respelt roles (t :: row) (t :: row')
  | respelt {roles : List Bool} {s s' : String} {row row' : List Token} :
      Register.SameName s s' → Respelt roles row row' →
      Respelt (true :: roles) (.name s :: row) (.name s' :: row')

namespace Lexer

def Lexeme.roles (roles : List Bool) : Lexeme → List Bool
  | .token t => t.roles roles
  | _ => roles

/-- Whether a text is another one with registers spelled in other ways, lexeme by lexeme. -/
inductive Respelt : List Bool → List Char → List Char → Prop
  | nil {roles : List Bool} : Respelt roles [] []
  | kept {roles : List Bool} {c : Char} {cs rest : List Char} {kind : Lexeme} {size : Nat} :
      lexeme c cs = (kind, size) → Respelt (kind.roles roles) (cs.drop (size - 1)) rest →
      Respelt roles (c :: cs) (c :: (cs.take (size - 1) ++ rest))
  | respelt {roles : List Bool} {s s' : String} {cs rest : List Char} :
      Register.SameName s s' → (∀ d ∈ cs.head?, isNamePart d = false) → Respelt roles cs rest →
      Respelt (true :: roles) (s.toList ++ cs) (s'.toList ++ rest)

/-- Whether texts are the same at least up to the letter of a register and with it. -/
def Ahead (cs cs' : List Char) : Prop :=
  cs' = cs ∨ ∃ (before : List Char) (f : Family) (u v : List Char),
    cs = before ++ f.letter :: u ∧ cs' = before ++ f.letter :: v

namespace Ahead

variable {cs cs' : List Char}

theorem append (h : Ahead cs cs') (before : List Char) : Ahead (before ++ cs) (before ++ cs') := by
  obtain rfl | ⟨more, f, u, v, rfl, rfl⟩ := h
  · exact .inl rfl
  · exact .inr ⟨before ++ more, f, u, v, by rw [List.append_assoc], by rw [List.append_assoc]⟩

theorem head? (h : Ahead cs cs') : cs'.head? = cs.head? := by
  obtain rfl | ⟨_ | ⟨c, before⟩, f, u, v, rfl, rfl⟩ := h <;> rfl

theorem lexeme_eq (h : Ahead cs cs') {c : Char} {before : List Char} {kind : Lexeme} {size : Nat}
    (hlex : lexeme c (before ++ cs) = (kind, size)) (hk : kind ≠ .unknown)
    (hsize : size ≤ before.length + 1) : lexeme c (before ++ cs') = (kind, size) := by
  obtain rfl | ⟨more, f, u, v, rfl, rfl⟩ := h
  · exact hlex
  · rw [← List.append_assoc] at hlex ⊢
    have hletter : isApart f.letter = true := by cases f <;> decide
    exact lexeme_ahead hlex hk (by rw [List.length_append]; omega) hletter v

end Ahead

namespace Respelt

variable {roles : List Bool} {cs cs' : List Char}

/-- No name has to be respelt. -/
theorem refl (roles : List Bool) (cs : List Char) : Respelt roles cs cs := by
  induction hn : cs.length using Nat.strongRecOn generalizing roles cs with
  | ind n ih =>
    cases cs with
    | nil => exact .nil
    | cons c cs =>
      cases hlex : lexeme c cs with
      | mk kind size =>
        -- after a lexeme the text is shorter, whatever its size
        have hlt : (cs.drop (size - 1)).length < n := by
          rw [← hn, List.length_drop, List.length_cons]
          omega
        have hkept := Respelt.kept hlex (ih _ hlt (kind.roles roles) _ rfl)
        rwa [List.take_append_drop] at hkept

/-- A lexeme that stays, with the rest of the text. -/
theorem keep {c : Char} {before rest : List Char} {kind : Lexeme}
    (hlex : lexeme c (before ++ cs) = (kind, before.length + 1))
    (h : Respelt (kind.roles roles) cs rest) :
    Respelt roles (c :: (before ++ cs)) (c :: (before ++ rest)) := by
  have hdrop : (before ++ cs).drop (before.length + 1 - 1) = cs := by simp
  have hkept := Respelt.kept hlex (hdrop.symm ▸ h)
  simpa using hkept

theorem ahead (h : Respelt roles cs cs') : Ahead cs cs' := by
  induction h with
  | nil => exact .inl rfl
  | @kept _ c cs _ _ size _ _ ih =>
    have h := ih.append (c :: cs.take (size - 1))
    rwa [List.cons_append, List.cons_append, List.take_append_drop] at h
  | @respelt _ _ _ cs rest hsame =>
    -- both names begin with the letter of the register
    obtain ⟨r, hs, hs'⟩ := hsame
    obtain ⟨ds, hs, -⟩ := Register.toList_of_ofName? hs
    obtain ⟨ds', hs', -⟩ := Register.toList_of_ofName? hs'
    exact .inr ⟨[], r.family, ds ++ cs, ds' ++ rest, by rw [hs]; rfl, by rw [hs']; rfl⟩

/-- A respelt text has the tokens of the other one, with registers spelled in other ways. -/
theorem spells (h : Respelt roles cs cs') {start : Nat} {ts : List Located}
    (hts : tokensFrom start cs = .ok ts) :
    ∃ row', Spells cs' row' ∧ Grammar.Respelt roles (Grammar.row ts) row' := by
  induction h generalizing start ts with
  | nil =>
    rw [tokensFrom] at hts
    cases hts
    exact ⟨[], .nil, .nil⟩
  | @kept roles c cs rest kind size hlex hrest ih =>
    rw [tokensFrom] at hts
    simp only [hlex] at hts
    have hnext (hk : kind ≠ .unknown) :
        lexeme c (cs.take (size - 1) ++ rest) = (kind, size) ∧
          (cs.take (size - 1) ++ rest).drop (size - 1) = rest := by
      have hle := lexeme_le hlex hk
      have hlength : (cs.take (size - 1)).length = size - 1 := by
        rw [List.length_take]
        omega
      rw [← List.take_append_drop (size - 1) cs] at hlex
      exact ⟨hrest.ahead.lexeme_eq hlex hk (by omega), List.drop_left' hlength⟩
    cases kind with
    | unknown => cases hts
    -- what is respelt after a lexeme begins as before, so that the lexeme ends where it did
    | skipped =>
      obtain ⟨hlex', hdrop⟩ := hnext (by simp)
      obtain ⟨row', hspells, hrow⟩ := ih hts
      exact ⟨row', .skipped hlex' hdrop hspells, hrow⟩
    | token t =>
      obtain ⟨hlex', hdrop⟩ := hnext (by simp)
      obtain ⟨us, hus, rfl⟩ := map_ok hts
      obtain ⟨row', hspells, hrow⟩ := ih hus
      exact ⟨t :: row', .token hlex' hdrop hspells, .kept hrow⟩
  | @respelt roles s s' cs rest hsame hend hrest ih =>
    have hend' : ∀ d ∈ rest.head?, isNamePart d = false := hrest.ahead.head? ▸ hend
    obtain ⟨r, hs, hs'⟩ := hsame
    obtain ⟨c, ds, hcs, hlex⟩ := lexeme_name (isName_of_ofName? hs) hend
    obtain ⟨c', ds', hcs', hlex'⟩ := lexeme_name (isName_of_ofName? hs') hend'
    rw [hcs, List.cons_append, tokensFrom] at hts
    simp only [hlex, Nat.add_sub_cancel, List.drop_left] at hts
    obtain ⟨us, hus, rfl⟩ := map_ok hts
    obtain ⟨row', hspells, hrow⟩ := ih hus
    exact ⟨.name s' :: row', hcs' ▸ .lexeme hlex' hspells, .respelt ⟨r, hs, hs'⟩ hrow⟩

end Respelt

end Lexer

end EntropyGame
