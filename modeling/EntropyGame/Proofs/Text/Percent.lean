import EntropyGame.Text.Escape
import Mathlib.Data.List.Basic

namespace EntropyGame.Text.Percent

/-- The characters that a text is written with. -/
def IsWritten (c : Char) : Prop :=
  c.isAlphanum = true ∨ c = '.' ∨ c = '-' ∨ c = '%'

instance : DecidablePred IsWritten := fun c =>
  inferInstanceAs (Decidable (c.isAlphanum = true ∨ c = '.' ∨ c = '-' ∨ c = '%'))

theorem isAlphanum_digit : ∀ n < 16, (digit n).isAlphanum = true := by
  decide

theorem digit_injective : ∀ m < 16, ∀ n < 16, digit m = digit n → m = n := by
  decide

theorem half_lt (b : UInt8) : b.toNat / 16 < 16 ∧ b.toNat % 16 < 16 := by
  have h : b.toNat < 256 := b.toNat_lt
  omega

theorem isPlain_lt {b : UInt8} (h : isPlain b = true) : b.toNat < 128 := by
  simp only [isPlain, Bool.and_eq_true, decide_eq_true_eq] at h
  exact h.1

theorem isPlain_char {b : UInt8} (h : isPlain b = true) :
    (Char.ofNat b.toNat).isAlphanum = true ∨ Char.ofNat b.toNat = '.' ∨ Char.ofNat b.toNat = '-' := by
  simp only [isPlain, Bool.and_eq_true, Bool.or_eq_true, decide_eq_true_eq] at h
  exact or_assoc.mp h.2

theorem isPlain_ne_percent {b : UInt8} (h : isPlain b = true) : Char.ofNat b.toNat ≠ '%' := by
  intro he
  have hc := isPlain_char h
  rw [he] at hc
  exact absurd hc (by decide)

theorem toNat_char {n : Nat} (h : n < 128) : (Char.ofNat n).toNat = n := by
  have hv : n.isValidChar := .inl (by omega)
  rw [Char.ofNat, dif_pos hv]
  rfl

theorem isWritten_encodeByte {b : UInt8} {c : Char} (h : c ∈ encodeByte b) : IsWritten c := by
  obtain ⟨hhigh, hlow⟩ := half_lt b
  rw [encodeByte] at h
  split at h
  · rename_i hp
    obtain rfl := List.mem_singleton.mp h
    obtain hc | hc | hc := isPlain_char hp
    · exact .inl hc
    · exact .inr (.inl hc)
    · exact .inr (.inr (.inl hc))
  · simp only [List.mem_cons, List.not_mem_nil, or_false] at h
    obtain rfl | rfl | rfl := h
    · exact .inr (.inr (.inr rfl))
    · exact .inl (isAlphanum_digit _ hhigh)
    · exact .inl (isAlphanum_digit _ hlow)

theorem isWritten_encode {s : String} {c : Char} (h : c ∈ (encode s).toList) : IsWritten c := by
  rw [encode, String.toList_ofList] at h
  obtain ⟨b, _, hc⟩ := List.mem_flatMap.mp h
  exact isWritten_encodeByte hc

/-- What is written of a byte tells where it ends, and which byte it was. -/
theorem encodeByte_append_inj {b c : UInt8} {cs ds : List Char}
    (h : encodeByte b ++ cs = encodeByte c ++ ds) : b = c ∧ cs = ds := by
  obtain ⟨hbh, hbl⟩ := half_lt b
  obtain ⟨hch, hcl⟩ := half_lt c
  by_cases hb : isPlain b = true <;> by_cases hc : isPlain c = true <;>
    simp only [encodeByte, hb, hc, if_true, if_false, Bool.false_eq_true, List.cons_append,
      List.nil_append, List.cons.injEq] at h
  · have hn := congrArg Char.toNat h.1
    rw [toNat_char (isPlain_lt hb), toNat_char (isPlain_lt hc)] at hn
    exact ⟨UInt8.toNat_inj.mp hn, h.2⟩
  · exact absurd h.1 (isPlain_ne_percent hb)
  · exact absurd h.1.symm (isPlain_ne_percent hc)
  · obtain ⟨-, hhigh, hlow, hrest⟩ := h
    have hh := digit_injective _ hbh _ hch hhigh
    have hl := digit_injective _ hbl _ hcl hlow
    exact ⟨UInt8.toNat_inj.mp (by omega), hrest⟩

theorem encodeByte_ne_nil (b : UInt8) : encodeByte b ≠ [] := by
  rw [encodeByte]
  split <;> simp

theorem encodeBytes_injective {bs cs : List UInt8}
    (h : bs.flatMap encodeByte = cs.flatMap encodeByte) : bs = cs := by
  induction bs generalizing cs with
  | nil =>
    cases cs with
    | nil => rfl
    | cons c cs =>
      rw [List.flatMap_nil, List.flatMap_cons, eq_comm, List.append_eq_nil_iff] at h
      exact absurd h.1 (encodeByte_ne_nil c)
  | cons b bs ih =>
    cases cs with
    | nil =>
      rw [List.flatMap_nil, List.flatMap_cons, List.append_eq_nil_iff] at h
      exact absurd h.1 (encodeByte_ne_nil b)
    | cons c cs =>
      rw [List.flatMap_cons, List.flatMap_cons] at h
      obtain ⟨rfl, hrest⟩ := encodeByte_append_inj h
      rw [ih hrest]

/-- Different texts are written differently. -/
theorem encode_injective {s t : String} (h : encode s = encode t) : s = t := by
  rw [encode, encode, String.ofList_inj] at h
  have hbytes := encodeBytes_injective h
  exact String.toByteArray_inj.mp (ByteArray.ext (Array.toList_inj.mp hbytes))

end EntropyGame.Text.Percent
