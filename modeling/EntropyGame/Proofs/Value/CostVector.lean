import EntropyGame.Eval
import Mathlib.Algebra.BigOperators.Ring.List
import Mathlib.Tactic.Ring

namespace EntropyGame

/-- What is wrong with two rows of tokens that should be the same: their lengths differ, or else the
first tokens that differ stand at some position. -/
inductive Misaligned.Tells (ls rs : List String) : Misaligned → Prop
  | length : ls.length ≠ rs.length → Tells ls rs (.length ls.length rs.length)
  | token {k : Nat} {l r : String} : ls.length = rs.length → ls.take k = rs.take k →
      ls[k]? = some l → rs[k]? = some r → l ≠ r → Tells ls rs (.token k l r)

namespace CostVector

variable {R : Type}

theorem firstDifference?_self (k : Nat) (ls : List String) : firstDifference? k ls ls = none := by
  induction ls generalizing k with
  | nil => rfl
  | cons l ls ih => simp [firstDifference?, ih]

theorem firstDifference?_of_ne {ls rs : List String} (hlength : ls.length = rs.length)
    (hne : ls ≠ rs) (k : Nat) : ∃ i l r, firstDifference? k ls rs = some (.token (k + i) l r) ∧
      ls.take i = rs.take i ∧ ls[i]? = some l ∧ rs[i]? = some r ∧ l ≠ r := by
  induction ls generalizing rs k with
  | nil => exact absurd (List.length_eq_zero_iff.mp hlength.symm).symm hne
  | cons l ls ih =>
    cases rs with
    | nil => cases hlength
    | cons r rs =>
      by_cases hhead : l = r
      · subst hhead
        obtain ⟨i, l', r', hfirst, hsame, hl, hr, hdiffer⟩ :=
          ih (Nat.succ.inj hlength) (fun hrest => hne (congrArg _ hrest)) (k + 1)
        refine ⟨i + 1, l', r', ?_, ?_, hl, hr, hdiffer⟩
        · rw [firstDifference?, if_pos rfl, hfirst, Nat.add_right_comm, Nat.add_assoc]
        · rw [List.take_succ_cons, List.take_succ_cons, hsame]
      · exact ⟨0, l, r, by simp [firstDifference?, hhead], rfl, rfl, rfl, hhead⟩

theorem length_tokens (v : CostVector R) : v.tokens.length = v.size :=
  List.length_map _

theorem misaligned?_eq (v w : CostVector R) : misaligned? v w =
    if v.tokens.length ≠ w.tokens.length then some (.length v.tokens.length w.tokens.length)
    else firstDifference? 0 v.tokens w.tokens := by
  rw [misaligned?, length_tokens, length_tokens]

theorem misaligned?_of_eq {v w : CostVector R} (h : v.tokens = w.tokens) :
    misaligned? v w = none := by
  rw [misaligned?_eq, h, if_neg (by simp), firstDifference?_self]

theorem misaligned?_of_ne {v w : CostVector R} (h : v.tokens ≠ w.tokens) :
    ∃ e, misaligned? v w = some e ∧ e.Tells v.tokens w.tokens := by
  rw [misaligned?_eq]
  by_cases hlength : v.tokens.length = w.tokens.length
  · obtain ⟨i, l, r, hfirst, hsame, hl, hr, hdiffer⟩ := firstDifference?_of_ne hlength h 0
    rw [Nat.zero_add] at hfirst
    rw [if_neg (by simpa using hlength)]
    exact ⟨_, hfirst, .token hlength hsame hl hr hdiffer⟩
  · rw [if_pos hlength]
    exact ⟨_, rfl, .length hlength⟩

/-- What counts of a vector: its tokens and its scaled costs, however these split into costs and a
factor. -/
def content [Mul R] (v : CostVector R) : List String × List R :=
  (v.tokens, v.scaledCosts)

theorem length_scaledCosts [Mul R] (v : CostVector R) :
    v.scaledCosts.length = v.tokens.length := by
  simp [scaledCosts, costs, tokens]

theorem map_fst_zipWith {α β γ δ : Type} (f : α × β → α × γ → δ) {ps : List (α × β)}
    {qs : List (α × γ)} (h : ps.length ≤ qs.length) :
    (List.zipWith (fun p q => (p.1, f p q)) ps qs).map Prod.fst = ps.map Prod.fst := by
  induction ps generalizing qs with
  | nil => rfl
  | cons p ps ih =>
    cases qs with
    | nil => cases h
    | cons q qs => simp [ih (Nat.le_of_succ_le_succ h)]

section

variable [Add R] [Mul R] [OfNat R 1]

theorem combine_of_ne {v w : CostVector R} (h : v.tokens ≠ w.tokens) :
    ∃ e, e.Tells v.tokens w.tokens ∧ ∀ sign, combine sign v w = .error e := by
  obtain ⟨e, he, htells⟩ := misaligned?_of_ne h
  exact ⟨e, htells, fun sign => by simp only [combine, he]⟩

theorem combine_of_eq {v w : CostVector R} (h : v.tokens = w.tokens) (sign : R) :
    combine sign v w = .ok (ofPairs (List.zipWith
      (fun p q => (p.1, v.factor * p.2 + sign * w.factor * q.2)) v.pairs w.pairs)) := by
  simp only [combine, misaligned?_of_eq h]

/-- Vectors can be combined just if they have the same tokens. -/
theorem combine_ok_iff {v w : CostVector R} (sign : R) :
    (∃ s, combine sign v w = .ok s) ↔ v.tokens = w.tokens := by
  refine ⟨fun ⟨s, hs⟩ => ?_, fun h => ⟨_, combine_of_eq h sign⟩⟩
  by_contra hne
  obtain ⟨e, -, he⟩ := combine_of_ne hne
  cases hs.symm.trans (he sign)

theorem add_ok_iff {v w : CostVector R} : (∃ s, v.add w = .ok s) ↔ v.tokens = w.tokens :=
  combine_ok_iff 1

theorem sub_ok_iff [Neg R] {v w : CostVector R} : (∃ d, v.sub w = .ok d) ↔ v.tokens = w.tokens :=
  combine_ok_iff (-1)

theorem tokens_combine {v w s : CostVector R} {sign : R} (h : combine sign v w = .ok s) :
    s.tokens = v.tokens := by
  have htokens := (combine_ok_iff sign).mp ⟨s, h⟩
  have hlength : v.pairs.length ≤ w.pairs.length := by
    simpa [tokens] using (congrArg List.length htokens).le
  cases (combine_of_eq htokens sign).symm.trans h
  exact map_fst_zipWith _ hlength

end

section

variable [CommRing R]

theorem scaledCosts_combine {v w s : CostVector R} {sign : R} (h : combine sign v w = .ok s) :
    s.scaledCosts = List.zipWith (fun x y => x + sign * y) v.scaledCosts w.scaledCosts := by
  cases (combine_of_eq ((combine_ok_iff sign).mp ⟨s, h⟩) sign).symm.trans h
  simp only [scaledCosts, costs, ofPairs, List.map_map, List.map_zipWith, List.zipWith_map]
  congr 1
  funext p q
  simp only [Function.comp_apply]
  ring

theorem total_eq_sum (v : CostVector R) : v.total = v.scaledCosts.sum := by
  rw [total, neg_zero, ← List.sum_eq_foldl, scaledCosts, List.sum_map_mul_right, mul_comm]
  simp

theorem sum_zipWith_add_mul (k : R) {xs ys : List R} (h : xs.length = ys.length) :
    (List.zipWith (fun x y => x + k * y) xs ys).sum = xs.sum + k * ys.sum := by
  induction xs generalizing ys with
  | nil => simp [List.length_eq_zero_iff.mp h.symm]
  | cons x xs ih =>
    cases ys with
    | nil => cases h
    | cons y ys =>
      rw [List.zipWith_cons_cons, List.sum_cons, List.sum_cons, List.sum_cons,
        ih (Nat.succ.inj h)]
      ring

theorem total_combine {v w s : CostVector R} {sign : R} (h : combine sign v w = .ok s) :
    s.total = v.total + sign * w.total := by
  have hlength : v.scaledCosts.length = w.scaledCosts.length := by
    rw [length_scaledCosts, length_scaledCosts, (combine_ok_iff sign).mp ⟨s, h⟩]
  rw [total_eq_sum, scaledCosts_combine h, sum_zipWith_add_mul sign hlength, total_eq_sum,
    total_eq_sum]

theorem content_scale (v : CostVector R) (k : R) :
    (v.scale k).content = (v.tokens, v.scaledCosts.map (k * ·)) := by
  simp only [content, scale, tokens, scaledCosts, costs, List.map_map]
  congr 2
  funext p
  simp only [Function.comp_apply]
  ring

theorem total_scale (v : CostVector R) (k : R) : (v.scale k).total = k * v.total := by
  simp only [total, scale, costs]
  ring

/-- What counts of a sum or difference follows from what counts of its operands. -/
theorem content_combine (sign : R) (v w : CostVector R) :
    (combine sign v w).map content =
      match misaligned? v w with
      | some e => .error e
      | none => .ok (v.tokens,
          List.zipWith (fun x y => x + sign * y) v.scaledCosts w.scaledCosts) := by
  by_cases h : v.tokens = w.tokens
  · obtain ⟨s, hs⟩ := (combine_ok_iff sign).mpr h
    rw [misaligned?_of_eq h, hs, Except.map, content, tokens_combine hs, scaledCosts_combine hs]
  · obtain ⟨e, he, -⟩ := misaligned?_of_ne h
    simp only [combine, he, Except.map]

theorem combine_congr {v v' w w' : CostVector R} (hv : v.content = v'.content)
    (hw : w.content = w'.content) (sign : R) :
    (combine sign v w).map content = (combine sign v' w').map content := by
  simp only [content, Prod.mk.injEq] at hv hw
  rw [content_combine, content_combine, misaligned?_eq, misaligned?_eq, hv.1, hv.2, hw.1, hw.2]

theorem scale_congr {v v' : CostVector R} (h : v.content = v'.content) (k : R) :
    (v.scale k).content = (v'.scale k).content := by
  simp only [content, Prod.mk.injEq] at h
  rw [content_scale, content_scale, h.1, h.2]

theorem total_congr {v v' : CostVector R} (h : v.content = v'.content) : v.total = v'.total := by
  simp only [content, Prod.mk.injEq] at h
  rw [total_eq_sum, total_eq_sum, h.2]

end

/-- Adding a vector and taking it away again leaves what counts of the other one. -/
theorem zipWith_add_sub [CommRing R] {xs ys : List R} (h : xs.length ≤ ys.length) :
    List.zipWith (· - ·) (List.zipWith (· + ·) xs ys) ys = xs := by
  induction xs generalizing ys with
  | nil => rfl
  | cons x xs ih =>
    cases ys with
    | nil => cases h
    | cons y ys => simp [ih (Nat.le_of_succ_le_succ h)]

theorem add_eq_ok [CommRing R] {v w s : CostVector R} (h : v.add w = .ok s) :
    s.content = (v.tokens, List.zipWith (· + ·) v.scaledCosts w.scaledCosts) ∧
      s.total = v.total + w.total := by
  rw [content, tokens_combine h, scaledCosts_combine h, total_combine h]
  simp only [one_mul, and_self]

theorem sub_eq_ok [CommRing R] {v w d : CostVector R} (h : v.sub w = .ok d) :
    d.content = (v.tokens, List.zipWith (· - ·) v.scaledCosts w.scaledCosts) ∧
      d.total = v.total - w.total := by
  rw [content, tokens_combine h, scaledCosts_combine h, total_combine h]
  simp only [neg_mul, one_mul, ← sub_eq_add_neg, and_self]

end CostVector

/-- The arithmetic of vectors of exact costs. Two of them can be added and subtracted just if they
are about the same tokens, and otherwise the refusal tells where they are not; scaled costs and
totals are then sums and differences. A multiple has the multiple of the total. All that counts of
the operands is their tokens and scaled costs. The operators of expressions are the same operations
on doubles. -/
theorem CostVector.exact_arithmetic {R : Type} [CommRing R] :
    (∀ a b : CostVector R,
      ((∃ s, a.add b = .ok s) ↔ a.tokens = b.tokens) ∧
      ((∃ d, a.sub b = .ok d) ↔ a.tokens = b.tokens) ∧
      (a.tokens ≠ b.tokens →
        ∃ e : Misaligned, e.Tells a.tokens b.tokens ∧ a.add b = .error e ∧ a.sub b = .error e)) ∧
    (∀ a b s : CostVector R, a.add b = .ok s →
      s.content = (a.tokens, List.zipWith (· + ·) a.scaledCosts b.scaledCosts) ∧
      s.total = a.total + b.total ∧ ∃ d, s.sub b = .ok d ∧ d.content = a.content) ∧
    (∀ a b d : CostVector R, a.sub b = .ok d →
      d.content = (a.tokens, List.zipWith (· - ·) a.scaledCosts b.scaledCosts) ∧
      d.total = a.total - b.total) ∧
    (∀ (a : CostVector R) (k : R),
      (a.scale k).content = (a.tokens, a.scaledCosts.map (k * ·)) ∧
      (a.scale k).total = k * a.total ∧ a.neg.total = -a.total) ∧
    (∀ a a' b b' : CostVector R, a.content = a'.content → b.content = b'.content →
      (a.add b).map content = (a'.add b').map content ∧
      (a.sub b).map content = (a'.sub b').map content ∧
      (∀ k, (a.scale k).content = (a'.scale k).content) ∧
      a.neg.content = a'.neg.content ∧ a.total = a'.total) ∧
    ∀ (v w : CostVector Float) (k : Float),
      BinaryOp.add.apply (.costs v) (.costs w) = BinaryOp.aligned (v.add w) ∧
      BinaryOp.sub.apply (.costs v) (.costs w) = BinaryOp.aligned (v.sub w) ∧
      BinaryOp.mul.apply (.costs v) (.number k) = .ok (.costs (v.scale k)) ∧
      BinaryOp.mul.apply (.number k) (.costs v) = .ok (.costs (v.scale k)) ∧
      UnaryOp.neg.apply (.costs v) = .ok (.costs v.neg) := by
  refine ⟨fun a b => ⟨add_ok_iff, sub_ok_iff, fun h => ?_⟩, fun a b s hs => ?_,
    fun a b d hd => sub_eq_ok hd, fun a k => ⟨content_scale a k, total_scale a k, ?_⟩,
    fun a a' b b' ha hb => ⟨combine_congr ha hb 1, combine_congr ha hb (-1), scale_congr ha,
      scale_congr ha (-1), total_congr ha⟩, fun v w k => ⟨rfl, rfl, rfl, rfl, rfl⟩⟩
  · obtain ⟨e, htells, he⟩ := combine_of_ne h
    exact ⟨e, htells, he 1, he (-1)⟩
  · obtain ⟨hcontent, htotal⟩ := add_eq_ok hs
    have htokens := add_ok_iff.mp ⟨s, hs⟩
    have hs' := tokens_combine hs
    obtain ⟨d, hd⟩ := sub_ok_iff.mpr (hs'.trans htokens)
    have hcosts : s.scaledCosts = List.zipWith (· + ·) a.scaledCosts b.scaledCosts :=
      congrArg Prod.snd hcontent
    have hlength : a.scaledCosts.length ≤ b.scaledCosts.length := by
      rw [length_scaledCosts, length_scaledCosts, htokens]
    refine ⟨hcontent, htotal, d, hd, ?_⟩
    rw [(sub_eq_ok hd).1, hs', hcosts, zipWith_add_sub hlength, content]
  · rw [neg, total_scale, neg_one_mul]

/-- Vectors with negative and zero factors. The second is the first one with another factor. -/
theorem CostVector.exact_arithmetic_factors :
    let a : CostVector Int := ⟨[("x", 2), ("y", -3)], -2⟩
    let a' : CostVector Int := ⟨[("x", -4), ("y", 6)], 1⟩
    let b : CostVector Int := ⟨[("x", 5), ("y", 7)], 0⟩
    let c : CostVector Int := ⟨[("x", 1), ("z", 1)], 3⟩
    a.add b = .ok a' ∧ a'.total = a.total + b.total ∧
      a.sub b = .ok a' ∧ a'.total = a.total - b.total ∧
      (∃ d, a'.sub b = .ok d ∧ d.content = a.content) ∧
      (∃ e : Misaligned, e.Tells a.tokens c.tokens ∧ a.add c = .error e) ∧
      (a.add b).map content = (a'.add b).map content := by
  intro a a' b c
  obtain ⟨haligned, hadd, hsub, -, hcontent, -⟩ := exact_arithmetic (R := Int)
  have hsum : a.add b = .ok a' := rfl
  have hdifference : a.sub b = .ok a' := rfl
  obtain ⟨-, htotal, hback⟩ := hadd a b a' hsum
  obtain ⟨-, -, hrefused⟩ := haligned a c
  obtain ⟨e, htells, he, -⟩ := hrefused (by decide)
  have hsame : a.content = a'.content := by decide
  exact ⟨hsum, htotal, hdifference, (hsub a b a' hdifference).2, hback, ⟨e, htells, he⟩,
    (hcontent a a' b b hsame rfl).1⟩

end EntropyGame
