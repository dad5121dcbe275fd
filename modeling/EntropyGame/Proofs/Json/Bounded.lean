import EntropyGame.Proofs.Json.Record
import EntropyGame.Proofs.Decimal.Finite

namespace EntropyGame.Json

/-- The numbers of a document are finite or within 64 bits and a sign. -/
inductive Bounded : Json → Prop
  | null : Bounded .null
  | flawed : Bounded .flawed
  | bool (b : Bool) : Bounded (.bool b)
  | string (s : String) : Bounded (.string s)
  | int {n : Int} : n.natAbs < 2 ^ 64 → Bounded (.int n)
  | float {x : Float} : x.isFinite = true → Bounded (.float x)
  | array {items : List Json} : (∀ item ∈ items, Bounded item) → Bounded (.array items)
  | object {fields : List (String × Json)} : (∀ f ∈ fields, Bounded f.2) → Bounded (.object fields)
  | disguised {fields : List (String × Json)} :
      (∀ f ∈ fields, Bounded f.2) → Bounded (.disguised fields)

/-- A whole number is kept if it is within 64 bits, and a double if it is finite. -/
theorem bounded_numeric (negative : Bool) (whole fraction : List Char) (power : Option Int) :
    Bounded (numeric negative whole fraction power) := by
  rw [numeric]
  by_cases hwhole : (fraction.isEmpty && power.isNone
      && (if negative then 0 < Decimal.ofDigits whole && Decimal.ofDigits whole ≤ 2 ^ 63
        else Decimal.ofDigits whole < 2 ^ 64)) = true
  · rw [if_pos hwhole]
    have hlimit := (Bool.and_eq_true_iff.mp hwhole).2
    refine .int ?_
    cases negative <;> simp at hlimit ⊢ <;> omega
  · rw [if_neg hwhole]
    dsimp only
    split
    · rename_i hx
      refine .float ?_
      cases negative with
      | true => exact Decimal.isFinite_neg hx
      | false => exact hx
    · exact .flawed

theorem bounded_unsigned? {negative : Bool} {cs rest : List Char} {j : Json}
    (h : unsigned? negative cs = some (j, rest)) : j.Bounded := by
  rw [unsigned?] at h
  dsimp only at h
  split at h
  · cases h
  · obtain ⟨fraction, -, h⟩ := Option.bind_eq_some_iff.mp h
    obtain ⟨power, -, h⟩ := Option.bind_eq_some_iff.mp h
    obtain rfl := congrArg Prod.fst (Option.some.inj h)
    exact bounded_numeric _ _ _ _

theorem bounded_number? {cs rest : List Char} {j : Json} (h : number? cs = some (j, rest)) :
    j.Bounded := by
  obtain ⟨c, tail, rfl, -⟩ := number?_cons h
  by_cases hc : c = '-'
  · subst hc
    rw [number?_minus] at h
    exact bounded_unsigned? h
  · rw [number?_unsigned tail hc] at h
    exact bounded_unsigned? h

theorem bounded_literal? {cs rest : List Char} {j : Json} (h : literal? cs = some (j, rest)) :
    j.Bounded := by
  unfold literal? at h
  split at h
  · cases h
    exact .null
  · cases h
    exact .bool true
  · cases h
    exact .bool false
  · exact bounded_number? h

theorem bounded_nested {j : Json} (depth : Nat) (h : j.Bounded) : (nested depth j).Bounded := by
  rw [nested]
  split
  · exact .flawed
  · exact h

theorem bounded_toJson (s : Spelling) : s.toJson.Bounded := by
  rw [Spelling.toJson]
  split
  · exact .flawed
  · exact .string _

theorem bounded_ofSpelledFields {fields : List (Spelling × Json)} (h : ∀ f ∈ fields, f.2.Bounded) :
    (ofSpelledFields fields).Bounded := by
  rw [ofSpelledFields]
  split
  · exact .flawed
  · rename_i named hnamed
    have hvalues : ∀ f ∈ named, f.2.Bounded := by
      intro f hf
      obtain ⟨spelled, hmem, hspelled⟩ := mem_of_mapM hnamed hf
      obtain ⟨text, -, rfl⟩ := Option.map_eq_some_iff.mp hspelled
      exact h spelled hmem
    split
    · exact .disguised hvalues
    · exact .object hvalues

theorem length_lt_of_skipBlank {cs rest : List Char} {c : Char} (h : skipBlank cs = c :: rest) :
    rest.length < cs.length := by
  have hlength := length_skipBlank_le cs
  rw [h, List.length_cons] at hlength
  exact hlength

mutual

theorem bounded_value {depth : Nat} {cs : List Char} {r : Read Json cs}
    (h : value depth cs = some r) : r.value.Bounded := by
  rw [value] at h
  split at h
  · obtain ⟨s, -, rfl⟩ := Option.map_eq_some_iff.mp h
    exact bounded_toJson s.value
  · rename_i hc
    have hshorter := length_lt_of_skipBlank hc
    split at h
    · cases h
      exact bounded_nested depth (.array (by simp))
    · obtain ⟨s, hs, rfl⟩ := Option.map_eq_some_iff.mp h
      exact bounded_nested depth (.array (bounded_items hs))
  · rename_i hc
    have hshorter := length_lt_of_skipBlank hc
    split at h
    · cases h
      exact bounded_nested depth (.object (by simp))
    · obtain ⟨s, hs, rfl⟩ := Option.map_eq_some_iff.mp h
      exact bounded_nested depth (bounded_ofSpelledFields (bounded_fields hs))
  · obtain ⟨⟨j, rest⟩, hj, h⟩ := Option.bind_eq_some_iff.mp h
    rw [progress?] at h
    split at h
    · cases h
      exact bounded_literal? hj
    · cases h
termination_by (cs.length, 0)
decreasing_by all_goals exact Prod.Lex.left _ _ hshorter

theorem bounded_items {depth : Nat} {cs : List Char} {r : Read (List Json) cs}
    (h : items depth cs = some r) : ∀ item ∈ r.value, item.Bounded := by
  rw [items] at h
  split at h
  · cases h
  · rename_i item hitem
    have hvalue := bounded_value hitem
    split at h
    · cases h
      exact List.forall_mem_singleton.mpr hvalue
    · split at h
      · cases h
      · rename_i comma _
        have hshorter := Nat.lt_trans comma.shorter item.shorter
        obtain ⟨more, hmore, rfl⟩ := Option.map_eq_some_iff.mp h
        exact List.forall_mem_cons.mpr ⟨hvalue, bounded_items hmore⟩
termination_by (cs.length, 1)
decreasing_by
  · exact Prod.Lex.right _ Nat.one_pos
  · exact Prod.Lex.left _ _ hshorter

theorem bounded_fields {depth : Nat} {cs : List Char} {r : Read (List (Spelling × Json)) cs}
    (h : fields depth cs = some r) : ∀ f ∈ r.value, f.2.Bounded := by
  rw [fields] at h
  split at h
  · cases h
  · rename_i opening _
    split at h
    · cases h
    · rename_i name _
      dsimp only at h
      split at h
      · cases h
      · rename_i colon _
        have hcolon := Nat.lt_trans colon.shorter (Nat.lt_trans name.shorter opening.shorter)
        split at h
        · cases h
        · rename_i v hv
          have hvalue := bounded_value hv
          split at h
          · cases h
            exact List.forall_mem_singleton.mpr hvalue
          · split at h
            · cases h
            · rename_i comma _
              have hcomma := Nat.lt_trans comma.shorter (Nat.lt_trans v.shorter hcolon)
              obtain ⟨more, hmore, rfl⟩ := Option.map_eq_some_iff.mp h
              exact List.forall_mem_cons.mpr ⟨hvalue, bounded_fields hmore⟩
termination_by (cs.length, 1)
decreasing_by
  · exact Prod.Lex.left _ _ hcolon
  · exact Prod.Lex.left _ _ hcomma

end

/-- Every number that is read is within bounds. -/
theorem bounded_ofText? {s : String} {j : Json} (h : ofText? s = some j) : j.Bounded := by
  rw [ofText?, ofChars?] at h
  split at h
  · cases h
  · rename_i r hr
    split at h
    · cases h
      exact bounded_value hr
    · cases h

/-- What is read of documents with bounded numbers. -/
def Yields {α : Type} (read? : Json → Option α) (P : α → Prop) : Prop :=
  ∀ {j : Json} {a : α}, j.Bounded → read? j = some a → P a

section

variable {α β : Type} {P : α → Prop} {Q : β → Prop} {j v : Json}

theorem bounded_lookup {name : String} {fields : List (String × Json)}
    (hfields : ∀ f ∈ fields, f.2.Bounded) (h : lookup name fields = some v) : v.Bounded := by
  rw [lookup_eq_find] at h
  exact hfields _ (OrderedMap.mem_of_find h)

theorem bounded_record? {names : List String} {field : String → Option Json} (hj : j.Bounded)
    (h : record? names j = some field) {name : String} (hv : field name = some v) :
    v.Bounded := by
  cases hj with
  | object hfields | disguised hfields =>
    rw [record?] at h
    split at h
    · cases h
      exact bounded_lookup hfields hv
    · cases h
  | array hitems =>
    rw [record?] at h
    split at h
    · cases h
      exact bounded_lookup (fun f hf => hitems _ (List.of_mem_zip hf).2) hv
    · cases h
  | _ => cases h

theorem yields_toFloat? : Yields toFloat? fun x => x.isFinite = true := by
  intro j x hj h
  cases hj with
  | int hn =>
    cases h
    exact Decimal.isFinite_ofInt hn
  | float hx =>
    cases h
    exact hx
  | _ => cases h

theorem yields_toList? {read? : Json → Option α} (h : Yields read? P) :
    Yields (toList? read?) fun xs => ∀ x ∈ xs, P x := by
  intro j xs hj hxs x hx
  obtain ⟨items, hitems, hxs⟩ := Option.bind_eq_some_iff.mp hxs
  cases hj with
  | array hall =>
    cases hitems
    obtain ⟨item, hmem, hitem⟩ := mem_of_mapM hxs hx
    exact h (hall item hmem) hitem
  | _ => cases hitems

theorem yields_toMap? [DecidableEq β] {key? : String → Option β} {read? : Json → Option α}
    (h : Yields read? P) : Yields (toMap? key? read?) fun m => ∀ e ∈ m.entries, P e.2 := by
  intro j m hj hm e he
  obtain ⟨fields, hfields, hm⟩ := Option.bind_eq_some_iff.mp hm
  obtain ⟨entries, hentries, hm⟩ := Option.bind_eq_some_iff.mp hm
  cases hm
  obtain ⟨f, hf, hpair⟩ := mem_of_mapM hentries (OrderedMap.mem_ofList he)
  obtain ⟨key, -, hpair⟩ := Option.bind_eq_some_iff.mp hpair
  obtain ⟨value, hvalue, hpair⟩ := Option.bind_eq_some_iff.mp hpair
  cases hpair
  cases hj with
  | object hall | disguised hall =>
    cases hfields
    exact h (hall f hf) hvalue
  | _ => cases hfields

end

end EntropyGame.Json
