import EntropyGame.Judge.Cache
import Mathlib.Data.List.Perm.Basic

namespace EntropyGame.Judge.Cache

section

variable {before before' : List String}

/-- A token costs the same after the same tokens in another order. -/
theorem cost_perm (h : before.Perm before') (token : String) :
    cost before token = cost before' token := by
  rw [cost, cost, h.count_eq, h.length_eq]

theorem costs_perm (h : before.Perm before') (tokens : List String) :
    costs before tokens = costs before' tokens := by
  induction tokens generalizing before before' with
  | nil => rfl
  | cons token tokens ih => rw [costs, costs, cost_perm h, ih (h.cons token)]

/-- The tokens of a first part come before those of a second one. -/
theorem costs_append (before ts us : List String) :
    costs before (ts ++ us) = costs before ts ++ costs (before ++ ts) us := by
  induction ts generalizing before with
  | nil => rw [List.nil_append, List.append_nil, costs, List.nil_append]
  | cons t ts ih =>
    have hperm : (t :: before ++ ts).Perm (before ++ t :: ts) := List.perm_middle.symm
    rw [List.cons_append, costs, costs, ih, costs_perm hperm, List.cons_append]

/-- Each token costs what it does after all those before it. -/
theorem getElem?_costs (before ts : List String) (i : Nat) :
    (costs before ts)[i]? = ts[i]?.map (cost (before ++ ts.take i)) := by
  induction ts generalizing before i with
  | nil => rfl
  | cons t ts ih =>
    cases i with
    | zero => simp [costs]
    | succ i =>
      have hperm : (t :: before ++ ts.take i).Perm (before ++ t :: ts.take i) :=
        List.perm_middle.symm
      rw [costs, List.getElem?_cons_succ, List.getElem?_cons_succ, List.take_succ_cons, ih]
      exact congrArg (ts[i]?.map ·) (funext (cost_perm hperm))

end

section

variable {ts us : List String} {k : Nat}

theorem length_costs (before ts : List String) : (costs before ts).length = ts.length := by
  induction ts generalizing before with
  | nil => rfl
  | cons t ts ih => rw [costs, List.length_cons, List.length_cons, ih]

theorem score_of_le (h : k ≤ ts.length) :
    score ts k = .ok (costs (ts.take k) (ts.drop k)) := by
  rw [score, if_neg (Nat.not_lt.mpr h)]

/-- What comes first costs what it does alone, and what comes after it what it does behind it. -/
theorem score_append (h : k ≤ ts.length) :
    score (ts ++ us) k = .ok (costs (ts.take k) (ts.drop k) ++ costs ts us) := by
  have hle : k ≤ (ts ++ us).length := by
    rw [List.length_append]
    omega
  rw [score_of_le hle, List.take_append_of_le_length h, List.drop_append_of_le_length h,
    costs_append, List.take_append_drop]

/-- Tokens that are given are left out of the costs, and nothing else changes. -/
theorem score_eq_drop (h : k ≤ ts.length) : score ts k = .ok ((costs [] ts).drop k) := by
  have hcosts : costs [] ts = costs [] (ts.take k) ++ costs (ts.take k) (ts.drop k) := by
    have happend := costs_append [] (ts.take k) (ts.drop k)
    rwa [List.take_append_drop, List.nil_append] at happend
  have hlength : (costs [] (ts.take k)).length = k := by
    rw [length_costs, List.length_take, Nat.min_eq_left h]
  rw [score_of_le h, hcosts, List.drop_left' hlength]

theorem score_given_perm (h : k ≤ ts.length) {given : List String} (hp : given.Perm (ts.take k)) :
    score (given ++ ts.drop k) k = score ts k := by
  have hlength : given.length = k := by
    rw [hp.length_eq, List.length_take, Nat.min_eq_left h]
  have hle : k ≤ (given ++ ts.drop k).length := by
    rw [List.length_append]
    omega
  rw [score_of_le hle, score_of_le h, List.take_left' hlength, List.drop_left' hlength,
    costs_perm hp]

theorem score_error_iff {fault : JudgeFault} :
    score ts k = .error fault ↔ ts.length < k ∧ fault = .beyondEnd k ts.length := by
  rw [score]
  split
  · rename_i hlt
    constructor
    · intro h
      cases h
      exact ⟨hlt, rfl⟩
    · rintro ⟨-, rfl⟩
      rfl
  · rename_i hge
    constructor
    · intro h
      cases h
    · rintro ⟨hlt, -⟩
      exact absurd hlt hge

end

/-- Later tokens change no cost of earlier ones, and given tokens count only by how often each of them
occurs. Every token has the cost that it has after all those before it, and the costs of the given
ones are left out; only more given tokens than there are tokens make scoring fail. -/
theorem score_causal (seed : Nat) (ts us : List String) (k : Nat) :
    (k ≤ ts.length → ∃ all later,
      (judge seed).score ts 0 = .ok all ∧ (∀ i : Nat, all[i]? = ts[i]?.map (cost (ts.take i))) ∧
      (judge seed).score ts k = .ok (all.drop k) ∧
      (judge seed).score (ts ++ us) ts.length = .ok later ∧
      (judge seed).score (ts ++ us) k = .ok (all.drop k ++ later) ∧
      ∀ given, given.Perm (ts.take k) →
        (judge seed).score (given ++ ts.drop k) k = .ok (all.drop k)) ∧
    ∀ fault, (judge seed).score ts k = .error fault ↔
      ts.length < k ∧ fault = .beyondEnd k ts.length := by
  refine ⟨fun h => ⟨costs [] ts, costs ts us, ?_, getElem?_costs [] ts, score_eq_drop h, ?_, ?_, ?_⟩,
    fun fault => score_error_iff⟩
  · exact score_of_le (Nat.zero_le _)
  · have hbehind : score (ts ++ us) ts.length =
        .ok (costs (ts.take ts.length) (ts.drop ts.length) ++ costs ts us) :=
      score_append (Nat.le_refl ts.length)
    rwa [List.take_length, List.drop_length, costs, List.nil_append] at hbehind
  · have halone := (score_of_le h).symm.trans (score_eq_drop h)
    rw [← Except.ok.inj halone]
    exact score_append h
  · intro given hp
    exact (score_given_perm h hp).trans (score_eq_drop h)

/-- Two given tokens in either order, with more tokens behind, and more given tokens than there are. -/
theorem score_causal_repeated :
    2 ≤ ["a", "b", "a"].length ∧ ["b", "a"].Perm (["a", "b", "a"].take 2) ∧
    (judge 7).score ["b", "a", "a"] 2 = (judge 7).score ["a", "b", "a"] 2 ∧
    (∃ all later, (judge 7).score ["a", "b", "a"] 0 = .ok all ∧
      (judge 7).score ["a", "b", "a", "b"] 3 = .ok later ∧
      (judge 7).score ["a", "b", "a", "b"] 2 = .ok (all.drop 2 ++ later)) ∧
    (judge 7).score ["a", "b", "a"] 4 = .error (.beyondEnd 4 3) := by
  have hperm : ["b", "a"].Perm (["a", "b", "a"].take 2) := List.Perm.swap "a" "b" []
  obtain ⟨hscore, -⟩ := score_causal 7 ["a", "b", "a"] ["b"] 2
  obtain ⟨all, later, hall, -, hdrop, hlater, hboth, hgiven⟩ := hscore (by decide)
  obtain ⟨-, hfails⟩ := score_causal 7 ["a", "b", "a"] [] 4
  exact ⟨by decide, hperm, (hgiven _ hperm).trans hdrop.symm, ⟨all, later, hall, hlater, hboth⟩,
    (hfails _).mpr ⟨by decide, rfl⟩⟩

end EntropyGame.Judge.Cache
