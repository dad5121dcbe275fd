import EntropyGame.Proofs.Program
import EntropyGame.Proofs.Source.Parts

namespace EntropyGame

namespace Call

variable {c : Call}

theorem mem_positional {e : Expr} (h : e ∈ c.positional) : (none, e) ∈ c.args := by
  obtain ⟨⟨key, x⟩, ha, he⟩ := List.mem_filterMap.mp h
  cases key with
  | none =>
    cases he
    exact ha
  | some key => cases he

theorem mem_named {arg : String × Expr} (h : arg ∈ c.named) : (some arg.1, arg.2) ∈ c.args := by
  obtain ⟨⟨key, x⟩, ha, he⟩ := List.mem_filterMap.mp h
  cases key with
  | none => cases he
  | some key =>
    cases he
    exact ha

end Call

namespace Instruction

theorem ofPositional_expressions {verb : Verb} {args : List Expr} {i : Instruction}
    (h : ofPositional verb args = .ok i) {e : Expr} (he : e ∈ i.expressions) : e ∈ args := by
  unfold ofPositional at h
  split at h
  · cases h
    exact he
  · split at h
    · cases h
    · rename_i budget hbudget
      split at h
      · cases h
      · obtain ⟨ts, _, h⟩ := bind_ok h
        cases h
        rw [expressions, List.mem_singleton] at he
        exact he ▸ List.mem_of_getLast? hbudget
  · cases h
  · cases h
    exact he
  · cases h
    exact he
  · obtain ⟨_, _, h⟩ := bind_ok h
    cases h
    cases he
  · obtain ⟨_, _, h⟩ := bind_ok h
    cases h
    exact List.mem_cons_of_mem _ he
  · cases h

/-- Only the call of an `assign` has targets with names. -/
theorem ofPositional_ne_assign (verb : Verb) (args : List Expr)
    (targets : List (Register × Expr)) : ofPositional verb args ≠ .ok (.assign targets) := by
  intro h
  unfold ofPositional at h
  split at h
  · cases h
  · split at h
    · cases h
    · split at h
      · cases h
      · obtain ⟨_, _, h⟩ := bind_ok h
        cases h
  · cases h
  · cases h
  · cases h
  · obtain ⟨_, _, h⟩ := bind_ok h
    cases h
  · obtain ⟨_, _, h⟩ := bind_ok h
    cases h
  · cases h

theorem assignTarget_ok {arg : String × Expr} {target : Register × Expr}
    (h : assignTarget arg = .ok target) : target.1.isStatic = false ∧ target.2 = arg.2 := by
  obtain ⟨r, _, h⟩ := bind_ok h
  split at h
  · cases h
  · rename_i hs
    cases h
    exact ⟨by simpa using hs, rfl⟩

/-- What an instruction evaluates are arguments of its call. -/
theorem ofCall_expressions {c : Call} {i : Instruction} (h : ofCall c = .ok i) {e : Expr}
    (he : e ∈ i.expressions) : ∃ arg ∈ c.args, arg.2 = e := by
  unfold ofCall at h
  split at h
  · split at h
    · cases h
    · split at h
      · cases h
      · obtain ⟨targets, ht, h⟩ := bind_ok h
        cases h
        obtain ⟨target, hmem, rfl⟩ := List.mem_map.mp he
        obtain ⟨k, hk⟩ := List.getElem?_of_mem hmem
        obtain ⟨arg, harg, hok⟩ := mapM_ok ht hk
        exact ⟨_, Call.mem_named (List.mem_of_getElem? harg), (assignTarget_ok hok).2.symm⟩
  · split at h
    · cases h
    · exact ⟨_, Call.mem_positional (ofPositional_expressions h he), rfl⟩

/-- An `assign` writes to registers that may change. -/
theorem ofCall_assign {c : Call} {targets : List (Register × Expr)}
    (h : ofCall c = .ok (.assign targets)) {target : Register × Expr} (ht : target ∈ targets) :
    target.1.isStatic = false := by
  unfold ofCall at h
  split at h
  · split at h
    · cases h
    · split at h
      · cases h
      · obtain ⟨ts, hts, h⟩ := bind_ok h
        cases h
        obtain ⟨k, hk⟩ := List.getElem?_of_mem ht
        obtain ⟨arg, _, hok⟩ := mapM_ok hts hk
        exact (assignTarget_ok hok).1
  · split at h
    · cases h
    · exact absurd h (ofPositional_ne_assign _ _ _)

/-- An `elicit` has no more targets than its call has arguments. -/
theorem ofCall_target {c : Call} {targets : List Register} {budget : Expr}
    (h : ofCall c = .ok (.elicit targets budget)) {k : Nat} {r : Register}
    (hk : targets[k]? = some r) : k < c.args.length := by
  unfold ofCall at h
  split at h
  · split at h
    · cases h
    · split at h
      · cases h
      · obtain ⟨_, _, h⟩ := bind_ok h
        cases h
  · split at h
    · cases h
    · obtain ⟨e, he, _⟩ := mapM_ok (ofPositional_elicit h) hk
      have hlt : k < c.positional.dropLast.length := (List.getElem?_eq_some_iff.mp he).1
      have hle : c.positional.length ≤ c.args.length := List.length_filterMap_le _ _
      rw [List.length_dropLast] at hlt
      omega

end Instruction

namespace Program

variable {source : String} {config : GameConfig} {p : Program}

/-- The whole numbers that a program evaluates are short. -/
theorem load_integer (h : load source config = .ok p) {line : Nat} {i : Instruction}
    (hl : p.At line i) {n : Int} {s : Span} (he : .integer n s ∈ i.expressions) : IsShort n := by
  obtain ⟨-, text, -, hline⟩ := load_at h hl
  obtain ⟨call, hcall, hi, -⟩ := loadLine_ok hline
  obtain ⟨arg, ha, hn⟩ := Instruction.ofCall_expressions hi he
  exact Call.isShort hcall ha hn

theorem load_assign (h : load source config = .ok p) {line : Nat}
    {targets : List (Register × Expr)} (hl : p.At line (.assign targets))
    {target : Register × Expr} (ht : target ∈ targets) : target.1.isStatic = false := by
  obtain ⟨-, text, -, hline⟩ := load_at h hl
  obtain ⟨call, -, hcall, -⟩ := loadLine_ok hline
  exact Instruction.ofCall_assign hcall ht

/-- An `elicit` has no more targets than its program has characters. -/
theorem load_target (h : load source config = .ok p) {line : Nat} {targets : List Register}
    {budget : Expr} (hl : p.At line (.elicit targets budget)) {k : Nat} {r : Register}
    (hk : targets[k]? = some r) : k < source.length := by
  obtain ⟨-, text, htext, hline⟩ := load_at h hl
  obtain ⟨call, hcall, hi, -⟩ := loadLine_ok hline
  have hargs := Instruction.ofCall_target hi hk
  have hlength := Call.length_args hcall
  have hline := Text.length_of_mem_lines htext
  omega

end Program

end EntropyGame
