import EntropyGame.Proofs.Json.Text
import EntropyGame.Proofs.Source.Cut

namespace EntropyGame.Lexer

/-- Whether a text is one token and nothing else. -/
def Reads (read : List Char) (t : Token) : Prop :=
  ∃ c cs, read = c :: cs ∧ lexeme c cs = (.token t, cs.length + 1)

/-- Whether a text from a byte on falls into blanks, comments up to the ends of their lines, and
tokens at the bytes that they carry. -/
inductive Partition : Nat → List Char → List Located → Prop
  | nil {start : Nat} : Partition start [] []
  | blank {start : Nat} {c : Char} {cs : List Char} {ts : List Located} : isBlank c = true →
      Partition (start + c.utf8Size) cs ts → Partition start (c :: cs) ts
  | comment {start : Nat} {u cs : List Char} {ts : List Located} : '\n' ∉ u →
      (∀ c ∈ cs.head?, c = '\n') → Partition (start + Text.byteLength ('#' :: u)) cs ts →
      Partition start ('#' :: (u ++ cs)) ts
  | token {start : Nat} {read cs : List Char} {t : Token} {ts : List Located} : Reads read t →
      Partition (start + Text.byteLength read) cs ts →
      Partition start (read ++ cs) (⟨t, start, start + Text.byteLength read⟩ :: ts)

theorem Partition.blanks {start : Nat} {cs : List Char} {ts : List Located}
    (h : Partition (start + Text.byteLength (cs.takeWhile isBlank)) (cs.dropWhile isBlank) ts) :
    Partition start cs ts := by
  induction cs generalizing start with
  | nil => exact h
  | cons c cs ih =>
    by_cases hc : isBlank c = true
    · rw [List.takeWhile_cons_of_pos hc, List.dropWhile_cons_of_pos hc, Text.byteLength,
        ← Nat.add_assoc] at h
      exact .blank hc (ih h)
    · rwa [List.takeWhile_cons_of_neg hc, List.dropWhile_cons_of_neg hc] at h

theorem Reads.of_lexeme {c : Char} {cs : List Char} {t : Token} {size : Nat}
    (h : lexeme c cs = (.token t, size)) : Reads (c :: cs.take (size - 1)) t := by
  have hpos := lexeme_pos c cs
  have hle := lexeme_le h (by simp)
  rw [h] at hpos
  have hlength : (cs.take (size - 1)).length + 1 = size := by
    rw [List.length_take]
    omega
  refine ⟨c, cs.take (size - 1), rfl, lexeme_cut (u := cs.drop (size - 1)) ?_⟩
  rw [List.take_append_drop, h, hlength]

theorem Partition.skipped {start : Nat} {c : Char} {cs : List Char} {ts : List Located}
    {size : Nat} (hlex : lexeme c cs = (.skipped, size))
    (h : Partition (start + Text.byteLength (c :: cs.take (size - 1))) (cs.drop (size - 1)) ts) :
    Partition start (c :: cs) ts := by
  have hskipped := lexeme_skipped (congrArg Prod.fst hlex)
  rw [hlex] at hskipped
  obtain ⟨hblank, rfl⟩ | ⟨rfl, rfl⟩ := hskipped
  -- blanks
  · rw [length_takeWhile_cons hblank, take_length_takeWhile, drop_length_takeWhile] at h
    apply Partition.blanks
    rwa [List.takeWhile_cons_of_pos hblank, List.dropWhile_cons_of_pos hblank]
  -- a comment
  · rw [Nat.add_sub_cancel_left, take_length_takeWhile, drop_length_takeWhile] at h
    have hline : '\n' ∉ cs.takeWhile (· != '\n') := by
      intro hmem
      simpa using List.mem_takeWhile_imp hmem
    have hend : ∀ d ∈ (cs.dropWhile (· != '\n')).head?, d = '\n' := by
      intro d hd
      have hhead := List.head?_dropWhile_not (· != '\n') cs
      rw [Option.mem_def] at hd
      simpa [hd] using hhead
    have hcomment := Partition.comment hline hend h
    rwa [List.takeWhile_append_dropWhile] at hcomment

/-- Reading a text partitions it. -/
theorem partition_of_tokensFrom {start : Nat} {cs : List Char} {ts : List Located}
    (h : tokensFrom start cs = .ok ts) : Partition start cs ts := by
  fun_induction tokensFrom start cs generalizing ts with
  | case1 =>
    cases h
    exact .nil
  | case2 start c cs size read stop hlex =>
    rename_i ih
    exact .skipped hlex (ih h)
  | case3 => cases h
  | case4 start c cs size read stop t hlex =>
    rename_i ih
    obtain ⟨us, hus, rfl⟩ := map_ok h
    have hread := Reads.of_lexeme hlex
    have hrest := Partition.token hread (ih hus)
    rwa [List.cons_append, List.take_append_drop] at hrest

/-- A token begins with neither a blank nor a comment. -/
theorem not_idle_of_token {c : Char} {cs : List Char} {t : Token} {size : Nat}
    (h : lexeme c cs = (.token t, size)) : ¬ (isBlank c = true ∨ c = '#') := by
  rintro (hblank | rfl)
  · rw [lexeme, if_pos hblank] at h
    cases h
  · cases h

namespace Reads

variable {read : List Char} {t : Token}

theorem byteLength_pos (h : Reads read t) : 0 < Text.byteLength read := by
  obtain ⟨c, cs, rfl, -⟩ := h
  exact Nat.lt_of_lt_of_le c.utf8Size_pos (Nat.le_add_right _ _)

theorem tokensFrom_eq (h : Reads read t) (start : Nat) :
    tokensFrom start read = .ok [⟨t, start, start + Text.byteLength read⟩] := by
  obtain ⟨c, cs, rfl, hlex⟩ := h
  rw [tokensFrom]
  simp only [hlex, Nat.add_sub_cancel, List.take_length, List.drop_length]
  rw [tokensFrom]
  rfl

theorem spells (h : Reads read t) : Spells read [t] :=
  fun start => ⟨_, h.tokensFrom_eq start, rfl⟩

/-- A blank after a token ends it, whatever comes next. -/
theorem spells_blank (h : Reads read t) {d : Char} {rest : List Char} {row : List Token}
    (hd : isBlank d = false) (hrest : Spells (d :: rest) row) :
    Spells (read ++ ' ' :: d :: rest) (t :: row) := by
  obtain ⟨c, cs, rfl, hlex⟩ := h
  have hblank : lexeme ' ' (d :: rest) = (.skipped, 1) := by
    rw [lexeme, if_pos (by decide), List.takeWhile_cons_of_pos (by decide),
      List.takeWhile_cons_of_neg (by simp [hd])]
    rfl
  have hskipped : Spells (' ' :: d :: rest) row := .skipped hblank rfl hrest
  obtain ⟨hlex', -, hdrop⟩ := lexeme_beforeIdle (not_idle_of_token hlex) hlex (by simp)
    (d := ' ') (by decide) (d :: rest)
  rw [Nat.add_sub_cancel, List.drop_length, List.nil_append] at hdrop
  exact .token hlex' hdrop hskipped

/-- Tokens with blanks between them are read one by one. -/
theorem spells_intercalate {parts : List String} {row : List Token}
    (h : List.Forall₂ (fun part t => Reads part.toList t) parts row) :
    Spells (" ".intercalate parts).toList row := by
  induction h with
  | nil => exact .nil
  | @cons part t parts row hread hrest ih =>
    cases hrest with
    | nil =>
      rw [String.intercalate_singleton]
      exact hread.spells
    | @cons next _ parts row hnext hrest =>
      obtain ⟨d, cs, hcs, hlex⟩ := hnext
      obtain ⟨more, hmore⟩ := Json.toList_intercalate_cons hcs " " _
      have hd : isBlank d = false :=
        Bool.eq_false_iff.mpr fun hblank => not_idle_of_token hlex (.inl hblank)
      rw [hmore] at ih
      rw [String.intercalate_cons_cons, String.toList_append, String.toList_append, hmore,
        List.append_assoc]
      exact hread.spells_blank hd ih

end Reads

namespace Partition

variable {start : Nat} {cs : List Char} {ts : List Located}

theorem start_le (h : Partition start cs ts) : ∀ t ∈ ts, start ≤ t.start := by
  induction h with
  | nil => nofun
  | blank _ _ ih | comment _ _ _ ih =>
    exact fun t ht => Nat.le_trans (Nat.le_add_right _ _) (ih t ht)
  | token _ _ ih =>
    intro t ht
    obtain rfl | ht := List.mem_cons.mp ht
    · exact Nat.le_refl _
    · exact Nat.le_trans (Nat.le_add_right _ _) (ih t ht)

/-- The tokens follow one another. -/
theorem pairwise (h : Partition start cs ts) : ts.Pairwise fun a b => a.stop ≤ b.start := by
  induction h with
  | nil => exact .nil
  | blank _ _ ih | comment _ _ _ ih => exact ih
  | token _ hrest ih => exact .cons hrest.start_le ih

/-- Each token is what its bytes are read as. -/
theorem slice (h : Partition start cs ts) {before : List Char}
    (hbefore : Text.byteLength before = start) : ∀ t ∈ ts, ∃ read,
      Text.slice? t.start t.stop (before ++ cs) = some read ∧ Reads read t.token ∧
        t.stop = t.start + Text.byteLength read ∧ t.stop ≤ Text.byteLength (before ++ cs) := by
  induction h generalizing before with
  | nil => nofun
  | @blank _ c cs _ _ _ ih =>
    have hlength : Text.byteLength (before ++ [c]) = Text.byteLength before + c.utf8Size := by
      rw [Text.byteLength_append]
      rfl
    simpa using ih (hlength.trans (congrArg (· + _) hbefore))
  | @comment _ u cs _ _ _ _ ih =>
    have hlength := Text.byteLength_append before ('#' :: u)
    simpa using ih (hlength.trans (congrArg (· + _) hbefore))
  | @token _ read cs t ts hread hrest ih =>
    intro t' ht'
    obtain rfl | ht' := List.mem_cons.mp ht'
    · subst hbefore
      refine ⟨read, Text.slice?_append before read cs, hread, rfl, ?_⟩
      rw [Text.byteLength_append, Text.byteLength_append, ← Nat.add_assoc]
      exact Nat.le_add_right _ _
    · have hlength := Text.byteLength_append before read
      have hlater := ih (hlength.trans (congrArg (· + _) hbefore)) t' ht'
      rwa [List.append_assoc] at hlater

end Partition

/-- The part of a line that a token was read from. -/
def snippet (line : String) (t : Located) : String :=
  Span.snippet ⟨0, t.start, t.stop⟩ line

theorem Partition.snippet_reads {line : String} {ts : List Located} (h : Partition 0 line.toList ts) :
    ∀ t ∈ ts, Text.slice? t.start t.stop line.toList = some (snippet line t).toList ∧
      Reads (snippet line t).toList t.token ∧
      t.stop = t.start + Text.byteLength (snippet line t).toList ∧
      t.stop ≤ Text.byteLength line.toList := by
  intro t ht
  have hempty : Text.byteLength [] = 0 := rfl
  obtain ⟨read, hslice, hread, hstop, hle⟩ := h.slice hempty t ht
  rw [List.nil_append] at hslice hle
  have hsnippet : (snippet line t).toList = read := by
    simp [snippet, Span.snippet, hslice]
  rw [hsnippet]
  exact ⟨hslice, hread, hstop, hle⟩

/-- A text that is read falls into blanks, comments and tokens. The bytes of each token are not empty,
lie in the text between characters and are read as just that token; tokens follow one another, and
with blanks between them they are read as before. A comment after the text makes no difference. -/
theorem tokens_partition {line : String} {ts : List Located} (h : tokens line = .ok ts) :
    Partition 0 line.toList ts ∧
    (∀ t ∈ ts, t.start < t.stop ∧ t.stop ≤ Text.byteLength line.toList ∧
      Text.slice? t.start t.stop line.toList = some (snippet line t).toList ∧
      tokens (snippet line t) = .ok [⟨t.token, 0, t.stop - t.start⟩]) ∧
    ts.Pairwise (fun a b => a.stop ≤ b.start) ∧
    (∃ us, tokens (" ".intercalate (ts.map (snippet line))) = .ok us ∧
      us.map Located.token = ts.map Located.token) ∧
    ∀ u : String, '\n' ∉ u.toList → tokens (line ++ "#" ++ u) = .ok ts := by
  have hpartition := partition_of_tokensFrom h
  refine ⟨hpartition, fun t ht => ?_, hpartition.pairwise, ?_, fun u hu => ?_⟩
  · obtain ⟨hslice, hread, hstop, hle⟩ := hpartition.snippet_reads t ht
    have hpos := hread.byteLength_pos
    have halone := hread.tokensFrom_eq 0
    have hlength : t.stop - t.start = Text.byteLength (snippet line t).toList := by omega
    rw [Nat.zero_add, ← hlength] at halone
    exact ⟨by omega, hle, hslice, halone⟩
  · have hreads : List.Forall₂ (fun part t => Reads part.toList t) (ts.map (snippet line))
        (ts.map Located.token) := by
      rw [List.forall₂_map_left_iff, List.forall₂_map_right_iff, List.forall₂_same]
      exact fun t ht => (hpartition.snippet_reads t ht).2.1
    exact Reads.spells_intercalate hreads 0
  · have hidle : Idle ("#" ++ u).toList := by
      refine ⟨?_, ?_⟩
      · simpa using hu
      · simp [isBlank]
    rw [String.append_assoc]
    exact tokens_append h hidle

/-- Tokens, blanks and comments of a text with two lines. -/
theorem tokens_partition_twoLines :
    tokens "s=='#'1 # x\n-t" = .ok [⟨.name "s", 0, 1⟩, ⟨.symbol .equals, 1, 3⟩,
      ⟨.text "#", 3, 6⟩, ⟨.integer 1, 6, 7⟩, ⟨.symbol .minus, 12, 13⟩, ⟨.name "t", 13, 14⟩] ∧
    (∃ us, tokens "s == '#' 1 - t" = .ok us ∧ us.map Located.token =
      [.name "s", .symbol .equals, .text "#", .integer 1, .symbol .minus, .name "t"]) ∧
    tokens "s=='#'1 # x\n-t# y" = .ok [⟨.name "s", 0, 1⟩, ⟨.symbol .equals, 1, 3⟩,
      ⟨.text "#", 3, 6⟩, ⟨.integer 1, 6, 7⟩, ⟨.symbol .minus, 12, 13⟩, ⟨.name "t", 13, 14⟩] := by
  have h : tokens "s=='#'1 # x\n-t" = .ok [⟨.name "s", 0, 1⟩, ⟨.symbol .equals, 1, 3⟩,
      ⟨.text "#", 3, 6⟩, ⟨.integer 1, 6, 7⟩, ⟨.symbol .minus, 12, 13⟩, ⟨.name "t", 13, 14⟩] := by
    cbv
  obtain ⟨-, -, -, hspaced, hcomment⟩ := tokens_partition h
  exact ⟨h, hspaced, hcomment " y" (by decide)⟩

end EntropyGame.Lexer
