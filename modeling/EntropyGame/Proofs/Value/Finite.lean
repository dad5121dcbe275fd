import EntropyGame.Proofs.Decimal.Finite
import EntropyGame.Proofs.Instruction
import EntropyGame.Proofs.Register.Store
import EntropyGame.Proofs.Value.Codec

namespace EntropyGame

namespace Value

theorem finite_ok {v w : Value} (h : v.finite = .ok w) : w.isFinite = true := by
  rw [finite] at h
  split at h
  · cases h
    assumption
  · cases h

theorem isFinite_of_mem_floats {v : Value} (h : v.isFinite = true) {x : Float}
    (hx : x ∈ v.floats) : x.isFinite = true := by
  cases v with
  | costs v =>
    simp only [isFinite, CostVector.isFinite, Bool.and_eq_true, List.all_eq_true] at h
    obtain rfl | hx := List.mem_cons.mp hx
    · exact h.1.1
    · exact h.1.2 x hx
  | number y =>
    rw [floats, List.mem_singleton] at hx
    exact hx ▸ h
  | phrase | list | verdict | bool => cases hx

/-- What a register holds has no doubles. -/
theorem floats_of_kind {v : Value} {r : Register} (h : v.kind = r.kind) : v.floats = [] := by
  rw [Register.kind] at h
  cases v with
  | phrase | list | verdict | bool => rfl
  | costs | number => split at h <;> cases h

theorem isFinite_of_floats {v : Value} (h : v.floats = []) : v.isFinite = true := by
  cases v with
  | phrase | list | verdict | bool => rfl
  | costs | number => cases h

end Value

namespace Registers

variable {rs : Registers}

theorem Typed.floats (h : rs.Typed) : (rs.entries.flatMap (·.2.floats)) = [] := by
  rw [List.flatMap_eq_nil_iff]
  intro e he
  exact Value.floats_of_kind (h.kind e he)

theorem Typed.isFinite (h : rs.Typed) {r : Register} {v : Value} (hv : rs.get? r = some v) :
    v.isFinite = true :=
  Value.isFinite_of_floats (Value.floats_of_kind (h.kind _ (OrderedMap.mem_of_get? hv)))

end Registers

/-- Values are finite if whole numbers are short, or are held by a register. Each operation checks
what it yields. -/
theorem Expr.eval_isFinite_or_held {registers : Registers} {judge : Judge} {e : Expr} {v : Value}
    (hn : ∀ n s, e = .integer n s → IsShort n) (h : e.eval registers judge = .ok v) :
    v.isFinite = true ∨ ∃ r, registers.get? r = some v := by
  cases e with
  | integer n s =>
    rw [eval] at h
    cases h
    obtain ⟨h0, hlt⟩ := hn n s rfl
    exact .inl (Decimal.isFinite_ofInt (by omega))
  | float x _ =>
    rw [eval] at h
    exact .inl (Value.finite_ok h)
  | text s _ =>
    rw [eval] at h
    cases h
    exact .inl rfl
  | bool b _ =>
    rw [eval] at h
    cases h
    exact .inl rfl
  | name s _ =>
    rw [eval, valueOf] at h
    split at h
    · split at h
      · cases h
        exact .inr ⟨_, ‹_›⟩
      · cases h
    · split at h <;> cases h
  | list items _ =>
    rw [eval] at h
    obtain ⟨ps, _, h⟩ := bind_ok h
    cases h
    exact .inl rfl
  | unary op x _ =>
    rw [eval] at h
    obtain ⟨_, _, h⟩ := bind_ok h
    obtain ⟨_, _, h⟩ := bind_ok h
    exact .inl (Value.finite_ok h)
  | binary op x y _ =>
    rw [eval] at h
    obtain ⟨_, _, h⟩ := bind_ok h
    obtain ⟨_, _, h⟩ := bind_ok h
    obtain ⟨_, _, h⟩ := bind_ok h
    exact .inl (Value.finite_ok h)
  | call function args _ =>
    rw [eval] at h
    split at h
    · cases h
    · split at h
      · cases h
      · obtain ⟨_, _, h⟩ := bind_ok h
        obtain ⟨_, _, h⟩ := bind_ok h
        exact .inl (Value.finite_ok h)

theorem Expr.eval_isFinite {registers : Registers} {judge : Judge} {e : Expr} {v : Value}
    (hr : registers.Typed) (hn : ∀ n s, e = .integer n s → IsShort n)
    (h : e.eval registers judge = .ok v) : v.isFinite = true := by
  obtain hv | ⟨r, hv⟩ := eval_isFinite_or_held hn h
  · exact hv
  · exact hr.isFinite hv

end EntropyGame
