import EntropyGame.Data.Results
import EntropyGame.Proofs.Value.CostVector

namespace EntropyGame.Measure

/-- What a judge says of the tokens of a phrase, read after those of its context and decoration. -/
def scored (judge : Judge) (p : Phrase) (context : String) : Except JudgeFault (List Float) :=
  let given := judge.tokenize (context ++ p.decoration)
  judge.score (given ++ judge.tokenize p.primary) given.length

/-- The measures of a phrase. -/
def all : List (Judge → Phrase → String → Except JudgeFault (CostVector Float)) :=
  [xent, nex, xed, dex]

variable {judge : Judge} {p : Phrase} {context : String} {v w d : CostVector Float} {e : JudgeFault}

theorem xent_eq (judge : Judge) (p : Phrase) (context : String) :
    xent judge p context =
      match scored judge p context with
      | .error e => .error e
      | .ok costs =>
        if costs.length ≠ (judge.tokenize p.primary).length then
          .error (.costCount (judge.tokenize p.primary).length costs.length)
        else .ok (.ofPairs ((judge.tokenize p.primary).zip costs)) :=
  rfl

theorem xent_ok_iff : xent judge p context = .ok v ↔
    ∃ costs, scored judge p context = .ok costs ∧
      costs.length = (judge.tokenize p.primary).length ∧
      v = .ofPairs ((judge.tokenize p.primary).zip costs) := by
  rw [xent_eq]
  cases scored judge p context with
  | error e => simp
  | ok costs =>
    by_cases hlength : costs.length = (judge.tokenize p.primary).length
    · simp [hlength, eq_comm]
    · simp [hlength]

theorem xent_error_iff : xent judge p context = .error e ↔
    scored judge p context = .error e ∨
      ∃ costs, scored judge p context = .ok costs ∧
        costs.length ≠ (judge.tokenize p.primary).length ∧
        e = .costCount (judge.tokenize p.primary).length costs.length := by
  rw [xent_eq]
  cases scored judge p context with
  | error e' => simp
  | ok costs =>
    by_cases hlength : costs.length = (judge.tokenize p.primary).length
    · simp [hlength]
    · simp [hlength, eq_comm]

theorem tokens_xent (h : xent judge p context = .ok v) : v.tokens = judge.tokenize p.primary := by
  obtain ⟨costs, -, hlength, rfl⟩ := xent_ok_iff.mp h
  exact List.map_fst_zip hlength.ge

/-- Both measurements of a text are about its own tokens, so that they can be compared. -/
theorem xed_of_ok (hplain : xent judge p.plain context = .ok v)
    (hdecorated : xent judge p context = .ok w) :
    ∃ d, v.sub w = .ok d ∧ xed judge p context = .ok d := by
  have htokens : v.tokens = w.tokens := (tokens_xent hplain).trans (tokens_xent hdecorated).symm
  obtain ⟨d, hd⟩ := CostVector.sub_ok_iff.mpr htokens
  exact ⟨d, hd, by simp only [xed, hplain, hdecorated, hd]⟩

theorem xed_ok (h : xed judge p context = .ok d) :
    ∃ v w, xent judge p.plain context = .ok v ∧ xent judge p context = .ok w ∧ v.sub w = .ok d := by
  cases hplain : xent judge p.plain context with
  | error e => simp [xed, hplain] at h
  | ok v =>
    cases hdecorated : xent judge p context with
    | error e => simp [xed, hplain, hdecorated] at h
    | ok w =>
      obtain ⟨d', hd, hxed⟩ := xed_of_ok hplain hdecorated
      cases h.symm.trans hxed
      exact ⟨v, w, rfl, rfl, hd⟩

theorem xed_error_iff : xed judge p context = .error e ↔
    xent judge p.plain context = .error e ∨
      (∃ v, xent judge p.plain context = .ok v) ∧ xent judge p context = .error e := by
  cases hplain : xent judge p.plain context with
  | error e' => simp [xed, hplain]
  | ok v =>
    cases hdecorated : xent judge p context with
    | error e' => simp [xed, hplain, hdecorated]
    | ok w =>
      obtain ⟨d, -, hxed⟩ := xed_of_ok hplain hdecorated
      simp [hxed]

theorem xed_succeeds_iff : (∃ d, xed judge p context = .ok d) ↔
    (∃ v, xent judge p.plain context = .ok v) ∧ ∃ w, xent judge p context = .ok w := by
  constructor
  · rintro ⟨d, hd⟩
    obtain ⟨v, w, hplain, hdecorated, -⟩ := xed_ok hd
    exact ⟨⟨v, hplain⟩, w, hdecorated⟩
  · rintro ⟨⟨v, hplain⟩, w, hdecorated⟩
    obtain ⟨d, -, hxed⟩ := xed_of_ok hplain hdecorated
    exact ⟨d, hxed⟩

theorem tokens_xed (h : xed judge p context = .ok d) : d.tokens = judge.tokenize p.primary := by
  obtain ⟨v, w, hplain, -, hd⟩ := xed_ok h
  have hv := tokens_xent hplain
  exact (CostVector.tokens_combine hd).trans hv

/-- Negating what was measured keeps what it is about, and whether and how it failed. -/
theorem map_neg_succeeds_iff {x : Except JudgeFault (CostVector Float)} :
    (∃ v, x.map CostVector.neg = .ok v) ↔ ∃ v, x = .ok v := by
  cases x <;> simp [Except.map]

theorem map_neg_error_iff {x : Except JudgeFault (CostVector Float)} :
    x.map CostVector.neg = .error e ↔ x = .error e := by
  cases x <;> simp [Except.map]

theorem tokens_of_mem_all {measure : Judge → Phrase → String → Except JudgeFault (CostVector Float)}
    (hm : measure ∈ all) (h : measure judge p context = .ok v) :
    v.tokens = judge.tokenize p.primary := by
  simp only [all, List.mem_cons, List.not_mem_nil, or_false] at hm
  obtain rfl | rfl | rfl | rfl := hm
  · exact tokens_xent h
  · obtain ⟨u, hxent, rfl⟩ := map_ok h
    have hu := tokens_xent hxent
    exact hu
  · exact tokens_xed h
  · obtain ⟨u, hxed, rfl⟩ := map_ok h
    have hu := tokens_xed hxed
    exact hu

/-- All measures of a text are about its own tokens. Whatever the judge, a measurement of costs
succeeds just if there is one cost for each token, and otherwise fails with what the judge says or
with the count; the other measures succeed just if the costs they are made of can be measured, and
fail in no other way. Measures of texts with the same primary text can be added and subtracted,
however these are decorated and in whatever context. What is moved from the end of the context to
the front of the decoration makes no difference. -/
theorem measures_aligned (judge : Judge) :
    (∀ (p : Phrase) (context : String),
      (∀ v, xent judge p context = .ok v ↔ ∃ costs, scored judge p context = .ok costs ∧
        costs.length = (judge.tokenize p.primary).length ∧
        v = .ofPairs ((judge.tokenize p.primary).zip costs)) ∧
      ∀ e, xent judge p context = .error e ↔ scored judge p context = .error e ∨
        ∃ costs, scored judge p context = .ok costs ∧
          costs.length ≠ (judge.tokenize p.primary).length ∧
          e = .costCount (judge.tokenize p.primary).length costs.length) ∧
    (∀ (p : Phrase) (context : String),
      ((∃ v, nex judge p context = .ok v) ↔ ∃ v, xent judge p context = .ok v) ∧
      ∀ e, nex judge p context = .error e ↔ xent judge p context = .error e) ∧
    (∀ measure ∈ [xed, dex], ∀ (p : Phrase) (context : String),
      ((∃ d, measure judge p context = .ok d) ↔
        (∃ v, xent judge p.plain context = .ok v) ∧ ∃ w, xent judge p context = .ok w) ∧
      ∀ e, measure judge p context = .error e ↔ xent judge p.plain context = .error e ∨
        (∃ v, xent judge p.plain context = .ok v) ∧ xent judge p context = .error e) ∧
    (∀ measure ∈ all, ∀ measure' ∈ all, ∀ (p q : Phrase) (context context' : String)
      (v w : CostVector Float), p.primary = q.primary → measure judge p context = .ok v →
      measure' judge q context' = .ok w →
      v.tokens = judge.tokenize p.primary ∧ (∃ s, v.add w = .ok s) ∧ ∃ d, v.sub w = .ok d) ∧
    ∀ (p : Phrase) (context moved : String),
      xent judge p (context ++ moved) =
        xent judge { p with decoration := moved ++ p.decoration } context := by
  refine ⟨fun p context => ⟨fun v => xent_ok_iff, fun e => xent_error_iff⟩,
    fun p context => ⟨map_neg_succeeds_iff, fun e => map_neg_error_iff⟩, ?_, ?_, ?_⟩
  · intro measure hm p context
    obtain rfl | rfl : measure = xed ∨ measure = dex := by simpa using hm
    · exact ⟨xed_succeeds_iff, fun e => xed_error_iff⟩
    · exact ⟨map_neg_succeeds_iff.trans xed_succeeds_iff,
        fun e => map_neg_error_iff.trans xed_error_iff⟩
  · intro measure hm measure' hm' p q context context' v w hprimary hv hw
    have htokens := tokens_of_mem_all hm hv
    have hsame : v.tokens = w.tokens := by rw [htokens, tokens_of_mem_all hm' hw, hprimary]
    exact ⟨htokens, CostVector.add_ok_iff.mpr hsame, CostVector.sub_ok_iff.mpr hsame⟩
  · intro p context moved
    simp only [xent, String.append_assoc]

/-- A judge that has costs only for what it reads first. -/
def forgetful : Judge where
  config := {}
  tokenize text := if text.isEmpty then [] else [text]
  score tokens given := .ok (if given = 0 then tokens.map fun _ => 1 else [])

/-- What is measured of a text without decoration can be added up, and with one the second
measurement fails. -/
theorem measures_aligned_forgetful :
    (∃ v w, xent forgetful ⟨"a", ""⟩ "" = .ok v ∧ nex forgetful ⟨"a", ""⟩ "" = .ok w ∧
      v.tokens = ["a"] ∧ ∃ s, v.add w = .ok s) ∧
    xed forgetful ⟨"a", "x"⟩ "" = .error (.costCount 1 0) ∧
    xent forgetful ⟨"a", ""⟩ "x" = xent forgetful ⟨"a", "x"⟩ "" := by
  obtain ⟨hxent, hnex, hxed, hpairs, hmoved⟩ := measures_aligned forgetful
  obtain ⟨v, hv⟩ : ∃ v, xent forgetful ⟨"a", ""⟩ "" = .ok v := ⟨_, rfl⟩
  obtain ⟨w, hw⟩ := (hnex ⟨"a", ""⟩ "").1.mpr ⟨v, hv⟩
  obtain ⟨htokens, hadd, -⟩ :=
    hpairs xent (by simp [all]) nex (by simp [all]) ⟨"a", ""⟩ ⟨"a", ""⟩ "" "" v w rfl hv hw
  have hcount := ((hxent ⟨"a", "x"⟩ "").2 (.costCount 1 0)).mpr (.inr ⟨[], rfl, by decide, rfl⟩)
  have hfails := ((hxed xed (by simp) ⟨"a", "x"⟩ "").2 (.costCount 1 0)).mpr
    (.inr ⟨⟨v, hv⟩, hcount⟩)
  exact ⟨⟨v, w, hv, hw, htokens, hadd⟩, hfails, hmoved ⟨"a", ""⟩ "" "x"⟩

end EntropyGame.Measure
