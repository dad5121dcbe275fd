import EntropyGame.Data.Results
import EntropyGame.Eval

namespace EntropyGame

/-- Whether a fault is about the operands of an operator, the items of a list or their result. -/
def Fault.isOperand : Fault → Bool
  | listItem _ | operand .. | operands .. | logicOperand .. | misaligned _ | notFinite _ => true
  | _ => false

theorem Fault.classOf_of_isOperand {f : Fault} (h : f.isOperand = true) : f.classOf = .type := by
  cases f <;> first | rfl | cases h

namespace Value

theorem finite_error {v : Value} {f : Fault} (h : v.finite = .error f) : f.isOperand = true := by
  simp only [finite] at h
  split at h
  · simp at h
  · cases h
    rfl

end Value

theorem UnaryOp.apply_error {op : UnaryOp} {v : Value} {f : Fault} (h : op.apply v = .error f) :
    f.isOperand = true := by
  unfold apply at h
  split at h <;> cases h
  rfl

namespace BinaryOp

theorem compare_error {op : BinaryOp} {l r : Value} {f : Fault} (h : op.compare l r = .error f) :
    f.isOperand = true := by
  have equal : ∀ {b : Bool}, op.compareEqual l r b = .error f → f.isOperand = true := by
    intro b h
    unfold compareEqual at h
    split at h <;> cases h
    rfl
  unfold compare at h
  split at h
  · split at h <;> cases h
    rfl
  · split at h
    · cases h
    · exact equal h
    · exact equal h
    · exact equal h
    · cases h
      rfl

theorem verdictOf_error {op : BinaryOp} {v : Value} {f : Fault} (h : op.verdictOf v = .error f) :
    f.isOperand = true := by
  unfold verdictOf at h
  split at h <;> cases h
  rfl

theorem logic_error {op : BinaryOp} {plain : Bool → Bool → Bool}
    {traced : Verdict → Verdict → Verdict} {l r : Value} {f : Fault}
    (h : op.logic plain traced l r = .error f) : f.isOperand = true := by
  unfold logic at h
  split at h
  · cases h
  · obtain hl | ⟨_, _, h⟩ := bind_error h
    · exact verdictOf_error hl
    · obtain hr | ⟨_, _, h⟩ := bind_error h
      · exact verdictOf_error hr
      · cases h

theorem aligned_error {x : Except Misaligned (CostVector Float)} {f : Fault}
    (h : aligned x = .error f) : f.isOperand = true := by
  unfold aligned at h
  split at h <;> cases h
  rfl

theorem apply_error {op : BinaryOp} {l r : Value} {f : Fault} (h : op.apply l r = .error f) :
    f.isOperand = true := by
  unfold apply at h
  split at h
  all_goals first
    | (cases h; done)
    | exact aligned_error h
    | exact logic_error h
    | exact compare_error h
    | (cases h; rfl)

end BinaryOp

namespace Builtin

/-- Whether a builtin takes a value at a position, counted from zero. -/
def takes (b : Builtin) (position : Nat) (v : Value) : Bool :=
  match b, position with
  | .len, _ => v.kind = .phrase ∨ v.kind = .list ∨ v.kind = .costs
  | .firstNTokens, 1 => v.count?.isSome
  | _, _ => v.kind = .phrase

/-- What a builtin asks for at a position. -/
def wanted (b : Builtin) (position : Nat) : String :=
  match b, position with
  | .len, _ => "a string, list or xent vector"
  | .firstNTokens, 1 => "a non-negative integer"
  | _, _ => "a string"

/-- What a builtin can be at fault for when it is applied to values. -/
inductive Faulty (b : Builtin) (args : List Value) : Fault → Prop
  | argument (position : Nat) {v : Value} : args[position]? = some v →
      b.takes position v = false →
      Faulty b args (.builtinArgument b (position + 1) (b.wanted position) v.kind)
  | arity : b.accepts args.length = false → Faulty b args (.builtinArity b args.length)
  | judge {e : JudgeFault} : Faulty b args (.judge e)

theorem phraseAt_error {b : Builtin} {position : Nat} {v : Value} {f : Fault}
    (h : b.phraseAt position v = .error f) :
    v.kind ≠ .phrase ∧ f = .builtinArgument b position "a string" v.kind := by
  unfold phraseAt at h
  split at h
  · cases h
  · rename_i hv
    cases h
    refine ⟨fun hk => ?_, rfl⟩
    cases v <;> simp [Value.kind] at hk hv

theorem judged_error {α : Type} {wrap : α → Value} {x : Except JudgeFault α} {f : Fault}
    (h : judged wrap x = .error f) : ∃ e, f = .judge e := by
  unfold judged at h
  split at h <;> cases h
  exact ⟨_, rfl⟩

section

variable {b : Builtin} {judge : Judge} {f : Fault}

theorem applyMeasure_faulty
    {measure : Judge → Phrase → String → Except JudgeFault (CostVector Float)} {args : List Value}
    (htakes : ∀ position v, b.takes position v = decide (v.kind = .phrase))
    (hwanted : ∀ position, b.wanted position = "a string")
    (haccepts : ∀ n, n ≠ 1 → n ≠ 2 → b.accepts n = false)
    (h : b.applyMeasure judge measure args = .error f) : b.Faulty args f := by
  have phrase : ∀ {position : Nat} {v : Value}, args[position]? = some v →
      b.phraseAt (position + 1) v = .error f → b.Faulty args f := by
    intro position v hv hp
    obtain ⟨hk, rfl⟩ := phraseAt_error hp
    rw [← hwanted position]
    exact .argument position hv (by simp [htakes, hk])
  have judged : ∀ {α : Type} {wrap : α → Value} {x : Except JudgeFault α},
      judged wrap x = .error f → b.Faulty args f := by
    intro α wrap x hx
    obtain ⟨e, rfl⟩ := judged_error hx
    exact .judge
  rcases args with _ | ⟨text, _ | ⟨context, _ | ⟨v, vs⟩⟩⟩
  · cases h
    exact .arity (haccepts _ (by simp) (by simp))
  · obtain hp | ⟨_, _, h⟩ := bind_error h
    · exact phrase rfl hp
    · exact judged h
  · obtain hp | ⟨_, _, h⟩ := bind_error h
    · exact phrase rfl hp
    · obtain hc | ⟨_, _, h⟩ := bind_error h
      · exact phrase rfl hc
      · exact judged h
  · cases h
    exact .arity (haccepts _ (by simp) (by simp))

theorem size_faulty {v : Value} (h : size .len v = .error f) : Faulty .len [v] f := by
  unfold size at h
  split at h
  · cases h
  · cases h
  · cases h
  · cases h
    refine .argument 0 rfl ?_
    cases v <;> simp_all [takes, Value.kind]

theorem truth_faulty {measure : Judge → Phrase → Except JudgeFault Verdict} {v : Value}
    (htakes : b.takes 0 v = decide (v.kind = .phrase)) (hwanted : b.wanted 0 = "a string")
    (h : (do let p ← b.phraseAt 1 v; judged .verdict (measure judge p)) = .error f) :
    b.Faulty [v] f := by
  obtain hp | ⟨_, _, h⟩ := bind_error h
  · obtain ⟨hk, rfl⟩ := phraseAt_error hp
    rw [← hwanted]
    exact .argument 0 rfl (by simp [htakes, hk])
  · obtain ⟨e, rfl⟩ := judged_error h
    exact .judge

theorem call_faulty {args : List Value} (h : b.call judge args = .error f) : b.Faulty args f := by
  have measured : ∀ n, n ≠ 1 → n ≠ 2 → (decide (1 ≤ n) && decide (n ≤ 2)) = false := by
    intro n hone htwo
    simp only [Bool.and_eq_false_iff, decide_eq_false_iff_not]
    omega
  unfold call at h
  split at h
  · exact applyMeasure_faulty (fun _ _ => rfl) (fun _ => rfl) measured h
  · exact applyMeasure_faulty (fun _ _ => rfl) (fun _ => rfl) measured h
  · exact applyMeasure_faulty (fun _ _ => rfl) (fun _ => rfl) measured h
  · exact applyMeasure_faulty (fun _ _ => rfl) (fun _ => rfl) measured h
  · exact size_faulty h
  · exact truth_faulty rfl rfl h
  · exact truth_faulty rfl rfl h
  · rename_i v count
    obtain hp | ⟨p, _, h⟩ := bind_error h
    · obtain ⟨hk, rfl⟩ := phraseAt_error hp
      exact .argument 0 rfl (by simp [takes, hk])
    · split at h
      · cases h
      · rename_i hn
        cases h
        exact .argument 1 rfl (by simp [takes, hn])
  · cases h
    rename_i hxent hnex hxed hdex hlen htrue hfalse hfirst
    refine .arity (Bool.eq_false_iff.mpr fun ha => ?_)
    simp only [accepts, Bool.and_eq_true, decide_eq_true_eq] at ha
    have one : args.length = 1 → ∃ v, args = [v] := List.length_eq_one_iff.mp
    cases b with
    | xent => exact hxent rfl
    | nex => exact hnex rfl
    | xed => exact hxed rfl
    | dex => exact hdex rfl
    | len =>
      obtain ⟨v, hv⟩ := one (Nat.le_antisymm ha.2 ha.1)
      exact hlen v rfl hv
    | isTrue =>
      obtain ⟨v, hv⟩ := one (Nat.le_antisymm ha.2 ha.1)
      exact htrue v rfl hv
    | isFalse =>
      obtain ⟨v, hv⟩ := one (Nat.le_antisymm ha.2 ha.1)
      exact hfalse v rfl hv
    | firstNTokens =>
      rcases args with _ | ⟨v, _ | ⟨w, _ | ⟨_, _⟩⟩⟩
      · simp [arity] at ha
      · simp [arity] at ha
      · exact hfirst v w rfl rfl
      · simp [arity] at ha

end

end Builtin

namespace Expr

variable {registers : Registers} {judge : Judge}

/-- The ways to misuse a builtin in an expression with given parts: to name an argument, or to give
one that the builtin does not take. -/
inductive Misuse (registers : Registers) (judge : Judge) (parts : List Expr) : Fault → Prop
  | named {s key : String} {b : Builtin} {args : List Arg} {span : Span} {x : Expr} :
      .call s args span ∈ parts → Builtin.ofName? s = some b → (some key, x) ∈ args →
      Misuse registers judge parts (.builtinNamed b key)
  | argument {s : String} {b : Builtin} {args : List Arg} {span : Span} {position : Nat} {x : Expr}
      {v : Value} : .call s args span ∈ parts → Builtin.ofName? s = some b →
      args[position]? = some (none, x) → x.eval registers judge = .ok v →
      b.takes position v = false →
      Misuse registers judge parts (.builtinArgument b (position + 1) (b.wanted position) v.kind)

/-- What an expression with given parts can be at fault for. -/
inductive Faulty (registers : Registers) (judge : Judge) (parts : List Expr) : Fault → Prop
  | operand {f : Fault} : f.isOperand = true → Faulty registers judge parts f
  | judge {e : JudgeFault} : Faulty registers judge parts (.judge e)
  | register {r : Register} : registers.get? r = none →
      Faulty registers judge parts (.missingRegister r)
  | value {s : String} {span : Span} : .name s span ∈ parts → Register.ofName? s = none →
      Faulty registers judge parts (.builtinAsValue s)
  | name {s : String} {span : Span} : .name s span ∈ parts → Register.ofName? s = none →
      Faulty registers judge parts (.unknownName s)
  | function {s : String} {args : List Arg} {span : Span} : .call s args span ∈ parts →
      Builtin.ofName? s = none → Faulty registers judge parts (.unknownFunction s)
  | arity {s : String} {b : Builtin} {args : List Arg} {span : Span} :
      .call s args span ∈ parts → Builtin.ofName? s = some b → b.accepts args.length = false →
      Faulty registers judge parts (.builtinArity b args.length)
  | misuse {f : Fault} : Misuse registers judge parts f → Faulty registers judge parts f

theorem Misuse.classOf {parts : List Expr} {f : Fault} (h : Misuse registers judge parts f) :
    f.classOf = .resolution := by
  cases h <;> rfl

theorem Misuse.mono {parts parts' : List Expr} {f : Fault} (h : Misuse registers judge parts f)
    (hsub : parts ⊆ parts') : Misuse registers judge parts' f := by
  cases h with
  | named hcall hb hkey => exact .named (hsub hcall) hb hkey
  | argument hcall hb hx hv ht => exact .argument (hsub hcall) hb hx hv ht

theorem Faulty.mono {parts parts' : List Expr} {f : Fault} (h : Faulty registers judge parts f)
    (hsub : parts ⊆ parts') : Faulty registers judge parts' f := by
  cases h with
  | operand hf => exact .operand hf
  | judge => exact .judge
  | register hr => exact .register hr
  | value hs hr => exact .value (hsub hs) hr
  | name hs hr => exact .name (hsub hs) hr
  | function hcall hb => exact .function (hsub hcall) hb
  | arity hcall hb ha => exact .arity (hsub hcall) hb ha
  | misuse hm => exact .misuse (hm.mono hsub)

theorem evalArgs_ok {args : List Arg} {vs : List Value}
    (h : evalArgs registers judge args = .ok vs) :
    vs.length = args.length ∧ ∀ (k : Nat) (v : Value), vs[k]? = some v →
      ∃ (key : Option String) (x : Expr), args[k]? = some (key, x) ∧
        x.eval registers judge = .ok v := by
  induction args generalizing vs with
  | nil =>
    cases h
    simp
  | cons arg args ih =>
    rw [evalArgs] at h
    obtain ⟨v, hv, h⟩ := bind_ok h
    obtain ⟨vs', hvs, h⟩ := bind_ok h
    cases h
    obtain ⟨hlength, hget⟩ := ih hvs
    refine ⟨congrArg (· + 1) hlength, fun k w hk => ?_⟩
    cases k with
    | zero =>
      cases hk
      exact ⟨arg.1, arg.2, rfl, hv⟩
    | succ k => exact hget k w hk

/-- A builtin that is applied to evaluated arguments is at fault for one of them, not for their
number if that was checked. -/
theorem call_faulty {s : String} {b : Builtin} {args : List Arg} {span : Span} {vs : List Value}
    {parts : List Expr} {f : Fault} (hcall : .call s args span ∈ parts)
    (hb : Builtin.ofName? s = some b) (hnamed : args.findSome? (·.1) = none)
    (hvs : evalArgs registers judge args = .ok vs) (h : b.call judge vs = .error f) :
    Faulty registers judge parts f := by
  obtain ⟨hlength, hget⟩ := evalArgs_ok hvs
  cases Builtin.call_faulty h with
  | @argument position v hv ht =>
    obtain ⟨key, x, hx, he⟩ := hget position v hv
    have hkey : key = none := List.findSome?_eq_none_iff.mp hnamed _ (List.mem_of_getElem? hx)
    exact .misuse (.argument hcall hb (hkey ▸ hx) he ht)
  | arity ha =>
    rw [hlength] at ha ⊢
    exact .arity hcall hb ha
  | judge => exact .judge

mutual

/-- Evaluation is at fault for a part of the expression. -/
theorem eval_faulty {e : Expr} {f : Fault} (h : e.eval registers judge = .error f) :
    Faulty registers judge e.parts f := by
  cases e with
  | integer n _ => simp [eval] at h
  | float x _ =>
    rw [eval] at h
    exact .operand (Value.finite_error h)
  | text s _ => simp [eval] at h
  | bool b _ => simp [eval] at h
  | name s _ =>
    rw [eval, valueOf] at h
    split at h
    · split at h <;> cases h
      exact .register ‹_›
    · rename_i hr
      split at h <;> cases h
      · exact .value List.mem_cons_self hr
      · exact .name List.mem_cons_self hr
  | list items _ =>
    rw [eval] at h
    obtain hi | ⟨_, _, h⟩ := bind_error h
    · exact (evalItems_faulty hi).mono (List.subset_cons_self _ _)
    · cases h
  | unary op operand _ =>
    rw [eval] at h
    obtain hv | ⟨_, _, h⟩ := bind_error h
    · exact (eval_faulty hv).mono (List.subset_cons_self _ _)
    · obtain ha | ⟨_, _, h⟩ := bind_error h
      · exact .operand (UnaryOp.apply_error ha)
      · exact .operand (Value.finite_error h)
  | binary op left right _ =>
    rw [eval] at h
    obtain hl | ⟨_, _, h⟩ := bind_error h
    · exact (eval_faulty hl).mono fun _ hp =>
        List.mem_cons_of_mem _ (List.mem_append_left _ hp)
    · obtain hr | ⟨_, _, h⟩ := bind_error h
      · exact (eval_faulty hr).mono fun _ hp =>
          List.mem_cons_of_mem _ (List.mem_append_right _ hp)
      · obtain ha | ⟨_, _, h⟩ := bind_error h
        · exact .operand (BinaryOp.apply_error ha)
        · exact .operand (Value.finite_error h)
  | call function args _ =>
    rw [eval] at h
    split at h
    · cases h
      exact .function List.mem_cons_self ‹_›
    · rename_i b hb
      split at h
      · rename_i key hkey
        cases h
        obtain ⟨⟨_, x⟩, hx, rfl⟩ := List.exists_of_findSome?_eq_some hkey
        exact .misuse (.named List.mem_cons_self hb hx)
      · rename_i hnamed
        obtain hv | ⟨vs, hvs, h⟩ := bind_error h
        · exact (evalArgs_faulty hv).mono (List.subset_cons_self _ _)
        · obtain hc | ⟨_, _, h⟩ := bind_error h
          · exact call_faulty List.mem_cons_self hb hnamed hvs hc
          · exact .operand (Value.finite_error h)

theorem evalItems_faulty {items : List Expr} {f : Fault}
    (h : evalItems registers judge items = .error f) :
    Faulty registers judge (partsOfList items) f := by
  cases items with
  | nil => simp [evalItems] at h
  | cons item items =>
    rw [evalItems] at h
    obtain hv | ⟨_, _, h⟩ := bind_error h
    · exact (eval_faulty hv).mono (List.subset_append_left _ _)
    · split at h
      · obtain hi | ⟨_, _, h⟩ := bind_error h
        · exact (evalItems_faulty hi).mono (List.subset_append_right _ _)
        · cases h
      · cases h
        exact .operand rfl

theorem evalArgs_faulty {args : List Arg} {f : Fault}
    (h : evalArgs registers judge args = .error f) :
    Faulty registers judge (partsOfArgs args) f := by
  cases args with
  | nil => simp [evalArgs] at h
  | cons arg args =>
    rw [evalArgs] at h
    obtain hv | ⟨_, _, h⟩ := bind_error h
    · exact (eval_faulty hv).mono (List.subset_append_left _ _)
    · obtain hi | ⟨_, _, h⟩ := bind_error h
      · exact (evalArgs_faulty hi).mono (List.subset_append_right _ _)
      · cases h

end

/-- Evaluation is at fault inside only where a register is missing. -/
theorem Faulty.internal {parts : List Expr} {f : Fault} (h : Faulty registers judge parts f)
    (hf : f.classOf = .internal) : ∃ r, registers.get? r = none ∧ f = .missingRegister r := by
  cases h with
  | register hr => exact ⟨_, hr, rfl⟩
  | operand ho => simp [Fault.classOf_of_isOperand ho] at hf
  | misuse hm => cases hm <;> cases hf
  | _ => cases hf

end Expr

end EntropyGame
