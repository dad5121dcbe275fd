import EntropyGame.Data.Results
import EntropyGame.Program

namespace EntropyGame

/-- Whether a line of a program holds an instruction. -/
def Program.At (p : Program) (line : Nat) (i : Instruction) : Prop :=
  p.lines[line]? = some (some i)

namespace Program

theorem At.eq {p : Program} {line : Nat} {i j : Instruction} (hi : p.At line i)
    (hj : p.At line j) : i = j :=
  Option.some.inj (Option.some.inj (hi.symm.trans hj))

theorem At.lt {p : Program} {line : Nat} {i : Instruction} (h : p.At line i) : line < p.size :=
  (Array.getElem?_eq_some_iff.mp h).1

theorem not_at_of_size_le {p : Program} {line : Nat} (h : p.size ≤ line) (i : Instruction) :
    ¬ p.At line i :=
  fun hi => Nat.not_lt.mpr h hi.lt

theorem not_at_of_blank {p : Program} {line : Nat} (h : p.lines[line]? = some none)
    (i : Instruction) : ¬ p.At line i := by
  simp [At, h]

/-- What loading a program succeeds with. -/
theorem load_ok {source : String} {config : GameConfig} {p : Program}
    (h : load source config = .ok p) :
    p.source = source ∧ (Text.lines source).length ≤ config.maxLines ∧
      ((Text.lines source).zipIdx.mapM fun (text, line) => loadNumbered text line) =
        .ok p.lines.toList := by
  simp only [load] at h
  split at h
  · simp at h
  · rename_i hlength
    obtain ⟨lines, hl, h⟩ := bind_ok h
    cases h
    exact ⟨rfl, Nat.le_of_not_lt hlength, hl⟩

theorem loadNumbered_ok {text : String} {line : Nat} {i : Option Instruction}
    (h : loadNumbered text line = .ok i) : line < lineNumbers ∧ loadLine text line = .ok i := by
  rw [loadNumbered] at h
  split at h
  · rename_i hlt
    split at h
    · cases h
    · rename_i he
      cases h
      exact ⟨hlt, he⟩
  · cases h

/-- An instruction of a loaded program was read from its line. -/
theorem load_at {source : String} {config : GameConfig} {p : Program}
    (h : load source config = .ok p) {line : Nat} {i : Instruction} (hl : p.At line i) :
    line < lineNumbers ∧ ∃ text ∈ Text.lines source, loadLine text line = .ok (some i) := by
  obtain ⟨-, -, hm⟩ := load_ok h
  obtain ⟨⟨text, k⟩, hk, hload⟩ := mapM_ok hm (by rw [Array.getElem?_toList]; exact hl)
  obtain ⟨hlt, hline⟩ := loadNumbered_ok hload
  rw [List.getElem?_zipIdx, Option.map_eq_some_iff] at hk
  obtain ⟨_, htext, hk⟩ := hk
  simp only [Nat.zero_add, Prod.mk.injEq] at hk
  obtain ⟨rfl, rfl⟩ := hk
  exact ⟨hlt, _, List.mem_of_getElem? htext, hline⟩

/-- A loaded program has a line for each line of its text. -/
theorem load_size {source : String} {config : GameConfig} {p : Program}
    (h : load source config = .ok p) : p.size = (Text.lines source).length := by
  obtain ⟨-, -, hm⟩ := load_ok h
  rw [size, ← Array.length_toList, length_mapM hm, List.length_zipIdx]

theorem load_line {source : String} {config : GameConfig} {p : Program}
    (h : load source config = .ok p) {line : Nat} {text : String}
    (ht : (Text.lines source)[line]? = some text) :
    line < lineNumbers ∧ ∃ i, loadLine text line = .ok i ∧ p.lines[line]? = some i := by
  obtain ⟨-, -, hm⟩ := load_ok h
  have hlt : line < p.lines.size := by
    have hsize := load_size h
    rw [size] at hsize
    rw [hsize]
    exact (List.getElem?_eq_some_iff.mp ht).1
  have hi : p.lines[line]? = some p.lines[line] := Array.getElem?_eq_getElem hlt
  obtain ⟨⟨text', k⟩, hk, hload⟩ := mapM_ok hm (by rw [Array.getElem?_toList]; exact hi)
  rw [List.getElem?_zipIdx, ht] at hk
  simp only [Option.map_some, Nat.zero_add, Option.some.injEq, Prod.mk.injEq] at hk
  obtain ⟨rfl, rfl⟩ := hk
  obtain ⟨hnumber, hline⟩ := loadNumbered_ok hload
  exact ⟨hnumber, _, hline, hi⟩

/-- A text loads if there are not too many lines and each of them does. -/
theorem load_of_lines {source : String} {config : GameConfig}
    (hlength : (Text.lines source).length ≤ config.maxLines)
    (hlines : ∀ line text, (Text.lines source)[line]? = some text →
      line < lineNumbers ∧ ∃ i, loadLine text line = .ok i) : ∃ p, load source config = .ok p := by
  have hloads : ∀ x ∈ (Text.lines source).zipIdx, ∃ i, loadNumbered x.1 x.2 = .ok i := by
    rintro ⟨text, line⟩ hx
    obtain ⟨hnumber, i, hi⟩ := hlines line text (List.mem_zipIdx_iff_getElem?.mp hx)
    exact ⟨i, by simp only [loadNumbered, hnumber, hi, if_true]⟩
  obtain ⟨is, his⟩ := mapM_total hloads
  refine ⟨⟨source, is.toArray⟩, ?_⟩
  simp only [load, Nat.not_lt.mpr hlength, if_false]
  rw [his]
  rfl

theorem loadLine_ok {text : String} {line : Nat} {i : Instruction}
    (h : loadLine text line = .ok (some i)) :
    ∃ call, Call.parse text line = .ok (some call) ∧ Instruction.ofCall call = .ok i ∧
      checkNames i = .ok () := by
  rw [loadLine] at h
  split at h
  · cases h
  · cases h
  · rename_i call hcall
    obtain ⟨j, hi, h⟩ := bind_ok h
    obtain ⟨_, hc, h⟩ := bind_ok h
    cases h
    exact ⟨call, hcall, hi, hc⟩

/-- Whether all names in an expression are registers and all calls fit a builtin. -/
def Checked (e : Expr) : Prop :=
  ∀ part ∈ e.parts, checkPart part = .ok ()

/-- What a loaded program evaluates has been checked. -/
theorem load_checked {source : String} {config : GameConfig} {p : Program}
    (h : load source config = .ok p) {line : Nat} {i : Instruction} (hl : p.At line i) {e : Expr}
    (he : e ∈ i.expressions) : Checked e := by
  obtain ⟨-, text, -, hline⟩ := load_at h hl
  obtain ⟨_, -, -, hnames⟩ := loadLine_ok hline
  exact forM_ok (forM_ok hnames e he)

theorem checkPart_name {s : String} {span : Span} (h : checkPart (.name s span) = .ok ()) :
    ∃ r, Register.ofName? s = some r := by
  rw [checkPart] at h
  split at h
  · cases h
  · obtain ⟨r, hr, _⟩ := map_ok h
    unfold Register.resolve at hr
    split at hr
    · exact ⟨_, ‹_›⟩
    · split at hr <;> cases hr

theorem checkPart_call {s : String} {args : List Arg} {span : Span}
    (h : checkPart (.call s args span) = .ok ()) :
    ∃ b, Builtin.ofName? s = some b ∧ b.accepts args.length = true := by
  rw [checkPart] at h
  split at h
  · cases h
  · rename_i b hb
    split at h
    · exact ⟨b, hb, ‹_›⟩
    · cases h

end Program

namespace Instruction

theorem elicitTarget_ok {e : Expr} {r : Register} (h : elicitTarget e = .ok r) :
    r.isStatic = false ∧ r.isList = false := by
  unfold elicitTarget at h
  split at h
  · cases h
  · obtain ⟨q, _, h⟩ := bind_ok h
    split at h
    · cases h
    · split at h
      · cases h
      · cases h
        exact ⟨by simp [*], by simp [*]⟩

theorem ofPositional_elicit {verb : Verb} {args : List Expr} {targets : List Register}
    {budget : Expr} (h : ofPositional verb args = .ok (.elicit targets budget)) :
    args.dropLast.mapM elicitTarget = .ok targets := by
  unfold ofPositional at h
  split at h
  · cases h
  · split at h
    · cases h
    · split at h
      · cases h
      · obtain ⟨ts, ht, h⟩ := bind_ok h
        cases h
        exact ht
  · cases h
  · cases h
  · cases h
  · obtain ⟨_, _, h⟩ := bind_ok h
    cases h
  · obtain ⟨_, _, h⟩ := bind_ok h
    cases h
  · cases h

/-- An `elicit` fills registers that hold phrases and may change. -/
theorem ofCall_elicit {c : Call} {targets : List Register} {budget : Expr}
    (h : ofCall c = .ok (.elicit targets budget)) {r : Register} (hr : r ∈ targets) :
    r.isStatic = false ∧ r.isList = false := by
  unfold ofCall at h
  split at h
  · split at h
    · cases h
    · split at h
      · cases h
      · obtain ⟨_, _, h⟩ := bind_ok h
        cases h
  · split at h
    · cases h
    · obtain ⟨k, hk⟩ := List.getElem?_of_mem hr
      obtain ⟨e, _, he⟩ := mapM_ok (ofPositional_elicit h) hk
      exact elicitTarget_ok he

end Instruction

theorem Program.load_elicit {source : String} {config : GameConfig} {p : Program}
    (h : load source config = .ok p) {line : Nat} {targets : List Register} {budget : Expr}
    (hl : p.At line (.elicit targets budget)) {r : Register} (hr : r ∈ targets) :
    r.isStatic = false ∧ r.isList = false := by
  obtain ⟨-, text, -, hline⟩ := load_at h hl
  obtain ⟨call, -, hcall, -⟩ := loadLine_ok hline
  exact Instruction.ofCall_elicit hcall hr

end EntropyGame
