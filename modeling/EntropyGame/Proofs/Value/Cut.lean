import EntropyGame.Text.Utf8
import EntropyGame.Value.Phrase
import Mathlib.Data.List.Infix

namespace EntropyGame

section

variable {cut cs before after : List Char}

/-- A text is put together again from its parts and what stood between them. -/
theorem eq_of_splitAtFirst? (h : splitAtFirst? cut cs = some (before, after)) :
    cs = before ++ (cut ++ after) := by
  fun_induction splitAtFirst? cut cs generalizing before with
  | case1 hcut =>
    cases h
    rw [List.isEmpty_iff.mp hcut]
    rfl
  | case2 => cases h
  | case3 c cs hprefix =>
    cases h
    obtain ⟨rest, hrest⟩ := List.isPrefixOf_iff_prefix.mp hprefix
    rw [← hrest, List.drop_left, List.nil_append]
  | case4 c cs _ ih =>
    obtain ⟨⟨u, v⟩, huv, hparts⟩ := Option.map_eq_some_iff.mp h
    cases hparts
    rw [ih huv, List.cons_append]

/-- The text is split where `cut` stands first. -/
theorem length_le_of_splitAtFirst? (h : splitAtFirst? cut cs = some (before, after))
    {u v : List Char} (huv : cs = u ++ (cut ++ v)) : before.length ≤ u.length := by
  fun_induction splitAtFirst? cut cs generalizing before u with
  | case1 hcut =>
    cases h
    exact Nat.zero_le _
  | case2 => cases h
  | case3 c cs hprefix =>
    cases h
    exact Nat.zero_le _
  | case4 c cs hprefix ih =>
    obtain ⟨⟨first, last⟩, hparts, hcons⟩ := Option.map_eq_some_iff.mp h
    cases hcons
    cases u with
    | nil => exact absurd (List.isPrefixOf_iff_prefix.mpr ⟨v, huv.symm⟩) hprefix
    | cons d u => exact Nat.succ_le_succ (ih hparts (List.cons.inj huv).2)

theorem splitAtFirst?_eq_none_iff : splitAtFirst? cut cs = none ↔ ¬ cut <:+: cs := by
  fun_induction splitAtFirst? cut cs with
  | case1 hcut => simp [List.isEmpty_iff.mp hcut]
  | case2 hcut => simpa using hcut
  | case3 c cs hprefix =>
    have hpart := (List.isPrefixOf_iff_prefix.mp hprefix).isInfix
    simp [hpart]
  | case4 c cs hprefix ih =>
    rw [List.isPrefixOf_iff_prefix] at hprefix
    rw [Option.map_eq_none_iff, ih, List.infix_cons_iff, not_or]
    exact (and_iff_right hprefix).symm

/-- What stands before the first `cut` holds none. -/
theorem splitAtFirst?_before (hcut : cut ≠ []) (h : splitAtFirst? cut cs = some (before, after)) :
    splitAtFirst? cut before = none := by
  rw [splitAtFirst?_eq_none_iff]
  rintro ⟨u, v, rfl⟩
  have hcs := eq_of_splitAtFirst? h
  rw [List.append_assoc, List.append_assoc] at hcs
  have hle := length_le_of_splitAtFirst? h hcs
  have hpos := List.length_pos_iff.mpr hcut
  simp only [List.length_append] at hle
  omega

end

/-- Three parts of a text lie between the bytes where they meet. -/
theorem slices_append (cs ds es : List Char) :
    Text.slice? 0 (Text.byteLength cs) (cs ++ (ds ++ es)) = some cs ∧
    Text.slice? (Text.byteLength cs) (Text.byteLength cs + Text.byteLength ds)
      (cs ++ (ds ++ es)) = some ds ∧
    Text.slice? (Text.byteLength cs + Text.byteLength ds) (Text.byteLength (cs ++ (ds ++ es)))
      (cs ++ (ds ++ es)) = some es := by
  refine ⟨?_, Text.slice?_append cs ds es, ?_⟩
  · have hfirst := Text.slice?_append [] cs (ds ++ es)
    rwa [Text.byteLength, Nat.zero_add, List.nil_append] at hfirst
  · have hlast := Text.slice?_append (cs ++ ds) es []
    rwa [List.append_nil, ← Text.byteLength_append, List.append_assoc,
      Text.byteLength_append cs ds] at hlast

namespace Phrase

variable {p : Phrase} {cut : String}

theorem decoration_cutBefore (p : Phrase) (cut : String) :
    (p.cutBefore cut).decoration = p.decoration := by
  rw [cutBefore]
  split
  · rfl
  · split <;> rfl

theorem decoration_cutAfter (p : Phrase) (cut : String) :
    (p.cutAfter cut).decoration = p.decoration := by
  rw [cutAfter]
  split
  · rfl
  · split <;> rfl

theorem cut_absent (hcut : cut ≠ "") (h : ¬ cut.toList <:+: p.primary.toList) :
    p.cutBefore cut = p ∧ p.cutAfter cut = { p with primary := "" } := by
  have hempty : ¬ cut.isEmpty = true := by simpa using hcut
  have hnone := splitAtFirst?_eq_none_iff.mpr h
  rw [cutBefore, cutAfter, if_neg hempty, if_neg hempty, hnone]
  exact ⟨rfl, rfl⟩

theorem cut_present (hcut : cut ≠ "") (h : cut.toList <:+: p.primary.toList) :
    ∃ before after, splitAtFirst? cut.toList p.primary.toList = some (before, after) ∧
      p.cutBefore cut = { p with primary := String.ofList before } ∧
      p.cutAfter cut = { p with primary := String.ofList after } := by
  have hempty : ¬ cut.isEmpty = true := by simpa using hcut
  cases hsplit : splitAtFirst? cut.toList p.primary.toList with
  | none => exact absurd h (splitAtFirst?_eq_none_iff.mp hsplit)
  | some parts =>
    refine ⟨parts.1, parts.2, rfl, ?_, ?_⟩
    · rw [cutBefore, if_neg hempty, hsplit]
    · rw [cutAfter, if_neg hempty, hsplit]

theorem cutBefore_cutBefore (p : Phrase) (cut : String) :
    (p.cutBefore cut).cutBefore cut = p.cutBefore cut := by
  by_cases hcut : cut = ""
  · subst hcut
    rfl
  · by_cases h : cut.toList <:+: p.primary.toList
    · obtain ⟨before, after, hsplit, hbefore, -⟩ := cut_present hcut h
      have hnone := splitAtFirst?_before (by simpa using hcut) hsplit
      rw [hbefore]
      refine (cut_absent hcut ?_).1
      rw [String.toList_ofList]
      exact splitAtFirst?_eq_none_iff.mp hnone
    · rw [(cut_absent hcut h).1, (cut_absent hcut h).1]

/-- A cut takes what is before or after the first place where `cut` stands, at the bytes where that
place begins and ends. A cut that stands nowhere leaves the whole text before it and nothing after
it, and an empty one cuts nothing. The text before the cut has no other one in it, and the decoration
stays. -/
theorem cuts_at_first (p : Phrase) (cut : String) :
    (cut ≠ "" → cut.toList <:+: p.primary.toList →
      p.primary = (p.cutBefore cut).primary ++ cut ++ (p.cutAfter cut).primary ∧
      (∀ u v, p.primary = u ++ cut ++ v → (p.cutBefore cut).primary.length ≤ u.length) ∧
      ∃ start stop, stop = start + Text.byteLength cut.toList ∧
        Text.slice? 0 start p.primary.toList = some (p.cutBefore cut).primary.toList ∧
        Text.slice? start stop p.primary.toList = some cut.toList ∧
        Text.slice? stop (Text.byteLength p.primary.toList) p.primary.toList =
          some (p.cutAfter cut).primary.toList) ∧
    (cut ≠ "" → ¬ cut.toList <:+: p.primary.toList →
      p.cutBefore cut = p ∧ p.cutAfter cut = { p with primary := "" }) ∧
    (cut = "" → p.cutBefore cut = p ∧ p.cutAfter cut = p) ∧
    (p.cutBefore cut).cutBefore cut = p.cutBefore cut ∧
    (p.cutBefore cut).decoration = p.decoration ∧ (p.cutAfter cut).decoration = p.decoration := by
  refine ⟨fun hcut h => ?_, fun hcut h => cut_absent hcut h, ?_, cutBefore_cutBefore p cut,
    decoration_cutBefore p cut, decoration_cutAfter p cut⟩
  · obtain ⟨before, after, hsplit, hbefore, hafter⟩ := cut_present hcut h
    have htext := eq_of_splitAtFirst? hsplit
    rw [hbefore, hafter]
    refine ⟨?_, fun u v huv => ?_, Text.byteLength before, _, rfl, ?_⟩
    · rw [← String.toList_inj, htext]
      simp
    · have hcs := congrArg String.toList huv
      rw [String.toList_append, String.toList_append, List.append_assoc] at hcs
      rw [String.length_ofList, ← String.length_toList]
      exact length_le_of_splitAtFirst? hsplit hcs
    · rw [String.toList_ofList, String.toList_ofList, htext]
      exact slices_append before cut.toList after
  · rintro rfl
    exact ⟨rfl, rfl⟩

end Phrase

/-- The first of two places that overlap. -/
example : (⟨"aéaéa", "x"⟩ : Phrase).cutBefore "éa" = ⟨"a", "x"⟩ ∧
    (⟨"aéaéa", "x"⟩ : Phrase).cutAfter "aéa" = ⟨"éa", "x"⟩ := by
  decide

end EntropyGame
