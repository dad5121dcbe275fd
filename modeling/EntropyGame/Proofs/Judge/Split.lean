import EntropyGame.Judge.Cache
import EntropyGame.Measure
import EntropyGame.Proofs.Source.Comment

namespace EntropyGame.Judge.Cache

/-- Whether tokens are such as a text is split into: runs of word characters, perhaps behind a
space, and other single characters. A run goes as far as it can. -/
inductive Separated (isWord : Char → Bool) : List (List Char) → Prop
  | nil : Separated isWord []
  | single {c : Char} {ts : List (List Char)} : c ≠ ' ' → isWord c = false →
      Separated isWord ts → Separated isWord ([c] :: ts)
  | run {c : Char} {cs : List Char} {ts : List (List Char)} : c = ' ' ∨ isWord c = true →
      (∀ d ∈ cs, isWord d = true) → (∀ d ∈ ts.flatten.head?, isWord d = false) →
      Separated isWord ts → Separated isWord ((c :: cs) :: ts)

/-- How a token stands between what comes before and after it: it is a character that is in no word,
or a word as far as it goes, with the one space before it if there is one. -/
inductive IsToken (isWord : Char → Bool) (before : List Char) : List Char → List Char → Prop
  | single {c : Char} {after : List Char} : isWord c = false →
      (c = ' ' → ∀ d ∈ after.head?, isWord d = false) → IsToken isWord before [c] after
  | word {run after : List Char} : run ≠ [] → (∀ c ∈ run, isWord c = true) →
      (∀ d ∈ before.getLast?, d ≠ ' ' ∧ isWord d = false) →
      (∀ d ∈ after.head?, isWord d = false) → IsToken isWord before run after
  | spaced {run after : List Char} : run ≠ [] → (∀ c ∈ run, isWord c = true) →
      (∀ d ∈ after.head?, isWord d = false) → IsToken isWord before (' ' :: run) after

variable {isWord : Char → Bool} {ts us : List (List Char)}

theorem split_run {c : Char} (hc : c = ' ' ∨ isWord c = true) (cs : List Char) :
    split isWord (c :: cs) = (c :: cs.takeWhile isWord) :: split isWord (cs.dropWhile isWord) := by
  rw [split, Lexer.drop_length_takeWhile]
  split
  · rfl
  · rename_i hspace
    rw [if_pos (hc.resolve_left hspace)]

theorem split_single {c : Char} (hspace : c ≠ ' ') (hword : isWord c = false) (cs : List Char) :
    split isWord (c :: cs) = [c] :: split isWord cs := by
  rw [split, if_neg hspace, if_neg (by simp [hword])]

/-- Nothing of a text is lost. -/
theorem flatten_split (isWord : Char → Bool) (cs : List Char) :
    (split isWord cs).flatten = cs := by
  fun_induction split isWord cs with
  | case1 => rfl
  | case2 cs ih | case3 c cs _ _ ih =>
    rw [List.flatten_cons, ih, Lexer.drop_length_takeWhile, List.cons_append,
      List.takeWhile_append_dropWhile]
  | case4 c cs _ _ ih => rw [List.flatten_cons, ih, List.singleton_append]

theorem separated_split (isWord : Char → Bool) (cs : List Char) :
    Separated isWord (split isWord cs) := by
  have hrun : ∀ (c : Char) (cs : List Char), c = ' ' ∨ isWord c = true →
      Separated isWord (split isWord (cs.dropWhile isWord)) →
      Separated isWord ((c :: cs.takeWhile isWord) :: split isWord (cs.dropWhile isWord)) := by
    intro c cs hc hrest
    refine .run hc (fun d hd => List.mem_takeWhile_imp hd) (fun d hd => ?_) hrest
    rw [flatten_split, Option.mem_def] at hd
    have hhead := List.head?_dropWhile_not isWord cs
    simpa [hd] using hhead
  fun_induction split isWord cs with
  | case1 => exact .nil
  | case2 cs ih =>
    rw [Lexer.drop_length_takeWhile] at ih ⊢
    exact hrun ' ' cs (.inl rfl) ih
  | case3 c cs _ hword ih =>
    rw [Lexer.drop_length_takeWhile] at ih ⊢
    exact hrun c cs (.inr hword) ih
  | case4 c cs hspace hword ih => exact .single hspace (by simpa using hword) ih

namespace Separated

theorem ne_nil (h : Separated isWord ts) : ∀ t ∈ ts, t ≠ [] := by
  induction h with
  | nil => nofun
  | single _ _ _ ih | run _ _ _ _ ih => exact List.forall_mem_cons.mpr ⟨List.cons_ne_nil _ _, ih⟩

/-- The tokens of a text are the only ones that it can be split into. -/
theorem split_flatten (h : Separated isWord ts) : split isWord ts.flatten = ts := by
  induction h with
  | nil => rw [List.flatten_nil, split]
  | single hspace hword _ ih =>
    rw [List.flatten_cons, List.singleton_append, split_single hspace hword, ih]
  | @run c cs ts hc hcs hend _ ih =>
    have hnone : ts.flatten.takeWhile isWord = [] := by
      cases hts : ts.flatten with
      | nil => rfl
      | cons d ds => simp [hend d (by simp [hts])]
    have htake : (cs ++ ts.flatten).takeWhile isWord = cs := by
      rw [List.takeWhile_append_of_pos hcs, hnone, List.append_nil]
    have hdrop : (cs ++ ts.flatten).dropWhile isWord = ts.flatten := by
      have hall := List.takeWhile_append_dropWhile (p := isWord) (l := cs ++ ts.flatten)
      rw [htake] at hall
      exact List.append_cancel_left hall
    rw [List.flatten_cons, List.cons_append, split_run hc, htake, hdrop, ih]

/-- The first tokens of a text are separated as they were before. -/
theorem take (h : Separated isWord ts) (n : Nat) : Separated isWord (ts.take n) := by
  induction h generalizing n with
  | nil => rw [List.take_nil]; exact .nil
  | single hspace hword _ ih =>
    cases n with
    | zero => exact .nil
    | succ n => exact .single hspace hword (ih n)
  | @run c cs ts hc hcs hend _ ih =>
    cases n with
    | zero => exact .nil
    | succ n =>
      refine .run hc hcs (fun d hd => ?_) (ih n)
      refine hend d ?_
      rw [Option.mem_def] at hd
      rw [← List.take_append_drop n ts, List.flatten_append, List.head?_append, hd]
      rfl

theorem of_append (h : Separated isWord (ts ++ us)) : Separated isWord us := by
  induction ts with
  | nil => exact h
  | cons t ts ih =>
    cases h with
    | single _ _ hrest | run _ _ _ hrest => exact ih hrest

/-- Before a token that begins with a word character stands neither a space nor another word. -/
theorem getLast?_flatten (h : Separated isWord (ts ++ us)) {d : Char}
    (hd : us.flatten.head? = some d) (hword : isWord d = true) :
    ∀ e ∈ ts.flatten.getLast?, e ≠ ' ' ∧ isWord e = false := by
  induction ts with
  | nil => nofun
  | cons t ts ih =>
    intro e he
    rw [Option.mem_def, List.flatten_cons, List.getLast?_append, Option.or_eq_some_iff] at he
    obtain he | ⟨hnone, he⟩ := he
    · cases h with
      | single _ _ hrest | run _ _ _ hrest => exact ih hrest e he
    · have hnil : ts.flatten = [] := List.getLast?_eq_none_iff.mp hnone
      cases h with
      | single hspace hsingle =>
        obtain rfl := Option.some.inj he
        exact ⟨hspace, hsingle⟩
      | run _ _ hend =>
        -- the run would have taken the word along
        have hhead : (ts ++ us).flatten.head? = some d := by
          rw [List.flatten_append, hnil, List.nil_append, hd]
        cases hword.symm.trans (hend d hhead)

theorem isToken (hspace : isWord ' ' = false) {t : List Char}
    (h : Separated isWord (ts ++ t :: us)) : IsToken isWord ts.flatten t us.flatten := by
  have hhere := h.of_append
  cases hhere with
  | single hne hword => exact .single hword fun hc => absurd hc hne
  | @run c cs _ hc hcs hend =>
    by_cases hc' : c = ' '
    · subst hc'
      by_cases hnil : cs = []
      · subst hnil
        exact .single hspace fun _ => hend
      · exact .spaced hnil hcs hend
    · have hword := hc.resolve_left hc'
      exact .word (List.cons_ne_nil c cs) (List.forall_mem_cons.mpr ⟨hword, hcs⟩)
        (h.getLast?_flatten rfl hword) hend

end Separated

end EntropyGame.Judge.Cache

namespace EntropyGame.Judge

/-- Whether a judge splits texts into words and single characters, for some idea of what stands in
words. -/
def Splits (judge : Judge) (isWord : Char → Bool) : Prop :=
  ∀ text, judge.tokenize text = (Cache.split isWord text.toList).map String.ofList

theorem Cache.splits (seed : Nat) : (Cache.judge seed).Splits Text.isAlphanumeric :=
  fun _ => rfl

namespace Splits

variable {judge : Judge} {isWord : Char → Bool} (h : judge.Splits isWord)

theorem toList_intercalate (ts : List (List Char)) :
    ("".intercalate (ts.map String.ofList)).toList = ts.flatten := by
  induction ts with
  | nil => rfl
  | cons t ts ih =>
    cases ts with
    | nil => simp
    | cons u us =>
      rw [List.map_cons] at ih
      rw [List.map_cons, List.map_cons, String.intercalate_cons_cons, String.toList_append, ih]
      simp

include h

theorem intercalate_tokenize (text : String) : "".intercalate (judge.tokenize text) = text := by
  rw [← String.toList_inj, h, toList_intercalate, Cache.flatten_split]

/-- The first tokens of a text are all the tokens that they have together. -/
theorem tokenize_take (text : String) (n : Nat) :
    judge.tokenize ("".intercalate ((judge.tokenize text).take n)) =
      (judge.tokenize text).take n := by
  rw [h text, ← List.map_take, h, toList_intercalate,
    ((Cache.separated_split isWord text.toList).take n).split_flatten]

theorem tokenize_ne_empty (text : String) : ∀ t ∈ judge.tokenize text, t ≠ "" := by
  intro t ht
  rw [h text] at ht
  obtain ⟨cs, hcs, rfl⟩ := List.mem_map.mp ht
  have hne := (Cache.separated_split isWord text.toList).ne_nil cs hcs
  simpa [← String.toList_inj] using hne

theorem isToken (hspace : isWord ' ' = false) {text t : String} {before after : List String}
    (ht : judge.tokenize text = before ++ t :: after) :
    Cache.IsToken isWord ("".intercalate before).toList t.toList
      ("".intercalate after).toList := by
  rw [h text] at ht
  obtain ⟨ts, us, hsplit, rfl, hus⟩ := List.map_eq_append_iff.mp ht
  obtain ⟨cs, us, rfl, rfl, rfl⟩ := List.map_eq_cons_iff.mp hus
  have hseparated := Cache.separated_split isWord text.toList
  rw [hsplit] at hseparated
  rw [toList_intercalate, toList_intercalate, String.toList_ofList]
  exact hseparated.isToken hspace

theorem firstTokens_eq (p : Phrase) (n : Nat) : Measure.firstTokens judge p n =
    { p with primary := "".intercalate ((judge.tokenize p.primary).take n) } := by
  rw [Measure.firstTokens]
  split
  · rename_i hle
    rw [List.take_of_length_le hle, h.intercalate_tokenize]
  · rfl

theorem tokenize_firstTokens (p : Phrase) (n : Nat) :
    judge.tokenize (Measure.firstTokens judge p n).primary = (judge.tokenize p.primary).take n := by
  rw [h.firstTokens_eq, h.tokenize_take]

theorem firstTokens_firstTokens (p : Phrase) (n m : Nat) :
    Measure.firstTokens judge (Measure.firstTokens judge p n) m =
      Measure.firstTokens judge p (min n m) := by
  rw [h.firstTokens_eq (Measure.firstTokens judge p n), h.tokenize_firstTokens, List.take_take,
    h.firstTokens_eq, h.firstTokens_eq, Nat.min_comm]

theorem length_tokenize_firstTokens (p : Phrase) (n : Nat) :
    (judge.tokenize (Measure.firstTokens judge p n).primary).length =
      min n (judge.tokenize p.primary).length := by
  rw [h.tokenize_firstTokens, List.length_take]

end Splits

end EntropyGame.Judge
