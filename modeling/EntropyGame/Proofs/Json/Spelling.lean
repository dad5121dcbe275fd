import EntropyGame.Data.Results
import EntropyGame.Proofs.Json.Number

namespace EntropyGame.Json

theorem unit?_hexDigit {n : Nat} (h : n < 0x20) :
    unit? '0' '0' (hexDigit (n / 16)) (hexDigit (n % 16)) = some n := by
  revert n
  decide

theorem ofUnit_of_lt {n : Nat} (h : n < 0x20) (cs : List Char) :
    ofUnit n cs = (some (Char.ofNat n), cs) := by
  have hhigh : isHighSurrogate n = false := by
    rw [isHighSurrogate, Bool.and_eq_false_iff, decide_eq_false_iff_not]
    exact .inl (by omega)
  have hlow : isLowSurrogate n = false := by
    rw [isLowSurrogate, Bool.and_eq_false_iff, decide_eq_false_iff_not]
    exact .inl (by omega)
  simp [ofUnit, hhigh, hlow]

/-- A character reads back from how a string spells it. -/
theorem stringChar?_escapeChar {c : Char} {cs rest : List Char} (h : cs = escapeChar c ++ rest) :
    ∃ r, stringChar? cs = some r ∧ r.value = some c ∧ r.rest = rest := by
  subst h
  fun_cases escapeChar c with
  | case8 c _ hslash _ _ _ _ _ hc =>
    have ho := ofUnit_of_lt hc rest
    rw [Char.ofNat_toNat] at ho
    simp only [List.cons_append, List.nil_append, stringChar?, unit?_hexDigit hc]
    exact ⟨_, rfl, congrArg Prod.fst ho, congrArg Prod.snd ho⟩
  | case9 c _ hslash _ _ _ _ _ hc =>
    have hne : c ≠ '\\' := hslash
    simp [stringChar?, hne, hc]
  | _ => exact ⟨_, rfl, rfl, rfl⟩

/-- Whether a string spells a character without a backslash. -/
def isPlain (c : Char) : Bool :=
  (escapeChar c).head? != some '\\'

theorem escapeChar_cons (c : Char) : ∃ d ds, escapeChar c = d :: ds ∧ d ≠ '"' := by
  fun_cases escapeChar c with
  | case9 c hquote => exact ⟨c, [], rfl, hquote⟩
  | _ => exact ⟨'\\', _, rfl, by decide⟩

theorem isPlain_of_isDigit {c : Char} (h : c.isDigit = true) : isPlain c = true := by
  unfold isPlain
  fun_cases escapeChar c with
  | case8 c _ _ _ _ _ _ _ hc =>
    simp only [Char.isDigit, Bool.and_eq_true, decide_eq_true_eq] at h
    have h0 : '0'.toNat ≤ c.toNat := h.1
    exact absurd h0 (by simp; omega)
  | case9 c _ hslash =>
    have hne : c ≠ '\\' := hslash
    simp [hne]
  | _ => exact absurd h (by decide)

theorem quote?_of_ne {c : Char} (h : c ≠ '"') (cs : List Char) : quote? (c :: cs) = none := by
  rw [quote?]
  rintro rest hc
  exact h (List.cons.inj hc).1

/-- The rest of a string reads back. -/
theorem stringBody_escaped {cs rest after : List Char} {s : List Char} (done : List Char)
    (plain : Bool) (h : rest.length ≤ cs.length)
    (hrest : rest = s.flatMap escapeChar ++ '"' :: after) :
    ∃ r, stringBody cs (some done) plain rest h = some r ∧
      r.value = ⟨some (String.ofList (done.reverse ++ s)), plain && s.all isPlain⟩ ∧
      r.rest = after := by
  induction s generalizing rest done plain with
  | nil =>
    subst hrest
    rw [stringBody.eq_def]
    exact ⟨_, rfl, by simp, rfl⟩
  | cons c s ih =>
    rw [List.flatMap_cons, List.append_assoc] at hrest
    obtain ⟨d, ds, hd, hquote⟩ := escapeChar_cons c
    obtain ⟨r, hr, hv, hmore⟩ := stringChar?_escapeChar hrest
    have hplain : (rest.head? != some '\\') = isPlain c := by
      rw [hrest, isPlain, hd]
      rfl
    have hopen : quote? rest = none := by
      rw [hrest, hd]
      exact quote?_of_ne hquote _
    rw [stringBody.eq_def]
    split
    · rename_i hclosed
      cases hopen.symm.trans hclosed
    · simp only [hr]
      have hshort : r.rest.length ≤ cs.length := by
        have := r.shorter
        omega
      obtain ⟨r', hr', hv', hafter⟩ := ih (c :: done) (plain && isPlain c) hshort hmore
      refine ⟨r', ?_, ?_, hafter⟩
      · rw [hplain, hv]
        exact hr'
      · rw [hv', List.reverse_cons, List.append_assoc, List.all_cons, Bool.and_assoc]
        rfl

theorem string?_escaped {cs after : List Char} {s : String}
    (h : cs = s.toList.flatMap escapeChar ++ '"' :: after) :
    ∃ r, string? cs = some r ∧ r.value = ⟨some s, s.toList.all isPlain⟩ ∧ r.rest = after := by
  obtain ⟨r, hr, hv, hrest⟩ := stringBody_escaped [] true (Nat.le_refl cs.length) h
  exact ⟨r, hr, by simpa using hv, hrest⟩

theorem toList_writeString (s : String) :
    (writeString s).toList = '"' :: (s.toList.flatMap escapeChar ++ ['"']) := by
  rw [writeString, String.toList_ofList]

/-- A name that a number can be read from is spelled without a backslash. -/
theorem isPlain_of_nameNat? {name : String} (h : (nameNat? name).isSome = true) :
    name.toList.all isPlain = true := by
  rw [nameNat?] at h
  simp only at h
  split at h
  · cases h
  · rename_i hd
    simp only [Bool.or_eq_true, not_or, Bool.not_eq_true', Bool.not_eq_false, List.all_eq_true] at hd
    exact List.all_eq_true.mpr fun c hc => isPlain_of_isDigit (hd.1.2 c hc)

/-- Fields as the names of an object spell them. -/
def spelled (fields : List (String × Json)) : List (Spelling × Json) :=
  fields.map fun f => (⟨some f.1, f.1.toList.all isPlain⟩, f.2)

theorem ofSpelledFields_spelled (fields : List (String × Json)) :
    ofSpelledFields (spelled fields) = .object fields := by
  have hm : ((spelled fields).mapM fun f => f.1.text.map (·, f.2)) = some fields :=
    mapM_map fun _ _ => rfl
  rw [ofSpelledFields, hm]
  refine if_neg ?_
  rw [List.any_eq_true]
  rintro ⟨f, hf, hp⟩
  obtain ⟨f, -, rfl⟩ := List.mem_map.mp hf
  rw [Bool.and_eq_true, Option.bind_some] at hp
  simp [isPlain_of_nameNat? hp.2] at hp

end EntropyGame.Json
