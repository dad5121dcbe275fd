import EntropyGame.Game.Step
import EntropyGame.Proofs.Program
import EntropyGame.Proofs.Source.Grammar

namespace EntropyGame

/-- What comes of two steps, and of many, where only success counts. -/
theorem toOption_bind {ε α β : Type} (x : Except ε α) (f : α → Except ε β) :
    (x >>= f).toOption = x.toOption.bind fun a => (f a).toOption := by
  cases x <;> rfl

theorem toOption_ite {ε α : Type} (p : Prop) [Decidable p] (x y : Except ε α) :
    (if p then x else y).toOption = if p then x.toOption else y.toOption := by
  split <;> rfl

theorem toOption_mapM {ε α β : Type} (f : α → Except ε β) (xs : List α) :
    (xs.mapM f).toOption = xs.mapM fun x => (f x).toOption := by
  induction xs with
  | nil => rfl
  | cons x xs ih =>
    rw [List.mapM_cons, List.mapM_cons, ← ih]
    cases f x with
    | error e => rfl
    | ok y => cases xs.mapM f <;> rfl

/-- The name that stands for the same register in messages; what stands for none is its own. -/
def Register.ownName (s : String) : String :=
  match ofName? s with
  | some r => r.name
  | none => s

/-- A spelling for some names only. -/
def spelledIf (f : String → String) (respelt : Bool) : String → String :=
  if respelt then f else id

/-- A way to spell names that leaves to each of them what it stands for. -/
structure Spelling (f : String → String) : Prop where
  register : ∀ s, Register.ofName? (f s) = Register.ofName? s
  other : ∀ {s}, Register.ofName? s = none → f s = s

namespace Spelling

theorem same : Spelling id :=
  ⟨fun _ => rfl, fun _ => rfl⟩

theorem ownName : Spelling Register.ownName where
  register s := by
    rw [Register.ownName]
    split
    · rename_i h
      rw [Register.ofName?_name, h]
    · rfl
  other h := by rw [Register.ownName, h]

variable {f : String → String} (hf : Spelling f)

include hf

theorem resolve (s : String) : Register.resolve (f s) = Register.resolve s := by
  cases h : Register.ofName? s with
  | some r => rw [Register.resolve, Register.resolve, hf.register, h]
  | none => rw [hf.other h]

end Spelling

/-- Registers are not named like builtins. -/
theorem Builtin.ofName?_of_register {s : String} {r : Register}
    (h : Register.ofName? s = some r) : ofName? s = none := by
  cases hb : ofName? s with
  | none => rfl
  | some b =>
    have hbuiltins : ∀ b ∈ all, Register.ofName? b.name = none := by decide
    obtain rfl : b.name = s := by simpa using List.find?_some hb
    cases (hbuiltins b (List.mem_of_find?_eq_some hb)).symm.trans h

namespace Expr

mutual

/-- An expression with its names spelled another way, and without the places that it was read
from. -/
def respell (f : String → String) : Expr → Expr
  | integer n _ => integer n {}
  | float x _ => float x {}
  | text s _ => text s {}
  | bool b _ => bool b {}
  | name s _ => name (f s) {}
  | list items _ => list (respellItems f items) {}
  | unary op operand _ => unary op (operand.respell f) {}
  | binary op left right _ => binary op (left.respell f) (right.respell f) {}
  | call function args _ => call function (respellArgs f args) {}

def respellItems (f : String → String) : List Expr → List Expr
  | [] => []
  | item :: items => item.respell f :: respellItems f items

def respellArgs (f : String → String) : List Arg → List Arg
  | [] => []
  | (key, arg) :: args => (key, arg.respell f) :: respellArgs f args

end

section

variable (f g : String → String)

mutual

theorem respell_respell : ∀ e : Expr, (e.respell f).respell g = e.respell (g ∘ f)
  | integer .. | float .. | text .. | bool .. | name .. => rfl
  | list items _ => by rw [respell, respell, respell, respellItems_respellItems items]
  | unary op operand _ => by rw [respell, respell, respell, respell_respell operand]
  | binary op left right _ => by
    rw [respell, respell, respell, respell_respell left, respell_respell right]
  | call function args _ => by rw [respell, respell, respell, respellArgs_respellArgs args]

theorem respellItems_respellItems : ∀ items : List Expr,
    respellItems g (respellItems f items) = respellItems (g ∘ f) items
  | [] => rfl
  | item :: items => by
    rw [respellItems, respellItems, respellItems, respell_respell item,
      respellItems_respellItems items]

theorem respellArgs_respellArgs : ∀ args : List Arg,
    respellArgs g (respellArgs f args) = respellArgs (g ∘ f) args
  | [] => rfl
  | (_, arg) :: args => by
    rw [respellArgs, respellArgs, respellArgs, respell_respell arg, respellArgs_respellArgs args]

end

end

mutual

/-- With all names left as they are only the places go. -/
theorem respell_id : ∀ e : Expr, e.respell id = e.bare
  | integer .. | float .. | text .. | bool .. | name .. => rfl
  | list items _ => by rw [respell, bare, respellItems_id items]
  | unary op operand _ => by rw [respell, bare, respell_id operand]
  | binary op left right _ => by rw [respell, bare, respell_id left, respell_id right]
  | call function args _ => by rw [respell, bare, respellArgs_id args]

theorem respellItems_id : ∀ items : List Expr, respellItems id items = bareItems items
  | [] => rfl
  | item :: items => by rw [respellItems, bareItems, respell_id item, respellItems_id items]

theorem respellArgs_id : ∀ args : List Arg, respellArgs id args = bareArgs args
  | [] => rfl
  | (_, arg) :: args => by rw [respellArgs, bareArgs, respell_id arg, respellArgs_id args]

end

theorem respell_bare (f : String → String) (e : Expr) : e.bare.respell f = e.respell f := by
  rw [← respell_id, respell_respell, Function.comp_id]

theorem name?_respell (f : String → String) (e : Expr) :
    (e.respell f).name? = e.name?.map f := by
  cases e <;> rfl

theorem respellArgs_eq (f : String → String) (args : List Arg) :
    respellArgs f args = args.map fun a => (a.1, a.2.respell f) := by
  induction args with
  | nil => rfl
  | cons arg args ih => rw [respellArgs, ih, List.map_cons]

theorem findSome?_respellArgs (f : String → String) (args : List Arg) :
    (respellArgs f args).findSome? (·.1) = args.findSome? (·.1) := by
  induction args with
  | nil => rfl
  | cons arg args ih => rw [respellArgs, List.findSome?_cons, List.findSome?_cons, ih]

variable {f : String → String}

theorem valueOf_spelling (hf : Spelling f) (registers : Registers) (s : String) :
    valueOf registers (f s) = valueOf registers s := by
  cases h : Register.ofName? s with
  | some r => rw [valueOf, valueOf, hf.register, h]
  | none => rw [hf.other h]

section

variable (registers : Registers) (judge : Judge)

mutual

/-- Where an expression stands and how its registers are spelled does not matter to its value. -/
theorem eval_respell (hf : Spelling f) :
    ∀ e : Expr, (e.respell f).eval registers judge = e.eval registers judge
  | integer .. | float .. | text .. | bool .. => rfl
  | name s _ => by rw [respell, eval, eval, valueOf_spelling hf]
  | list items _ => by rw [respell, eval, eval, evalItems_respell hf items]
  | unary op operand _ => by rw [respell, eval, eval, eval_respell hf operand]
  | binary op left right _ => by
    rw [respell, eval, eval, eval_respell hf left, eval_respell hf right]
  | call function args _ => by
    rw [respell, eval, eval, findSome?_respellArgs, evalArgs_respell hf args]

theorem evalItems_respell (hf : Spelling f) : ∀ items : List Expr,
    evalItems registers judge (respellItems f items) = evalItems registers judge items
  | [] => rfl
  | item :: items => by
    rw [respellItems, evalItems, evalItems, eval_respell hf item, evalItems_respell hf items]

theorem evalArgs_respell (hf : Spelling f) : ∀ args : List Arg,
    evalArgs registers judge (respellArgs f args) = evalArgs registers judge args
  | [] => rfl
  | (_, arg) :: args => by
    rw [respellArgs, evalArgs, evalArgs, eval_respell hf arg, evalArgs_respell hf args]

end

end

mutual

theorem parts_respell : ∀ e : Expr, (e.respell f).parts = e.parts.map (respell f)
  | integer .. | float .. | text .. | bool .. | name .. => rfl
  | list items _ => by
    rw [respell, parts, parts, List.map_cons, partsOfList_respell items, respell]
  | unary op operand _ => by
    rw [respell, parts, parts, List.map_cons, parts_respell operand, respell]
  | binary op left right _ => by
    rw [respell, parts, parts, List.map_cons, List.map_append, parts_respell left,
      parts_respell right, respell]
  | call function args _ => by
    rw [respell, parts, parts, List.map_cons, partsOfArgs_respell args, respell]

theorem partsOfList_respell : ∀ items : List Expr,
    partsOfList (respellItems f items) = (partsOfList items).map (respell f)
  | [] => rfl
  | item :: items => by
    rw [respellItems, partsOfList, partsOfList, List.map_append, parts_respell item,
      partsOfList_respell items]

theorem partsOfArgs_respell : ∀ args : List Arg,
    partsOfArgs (respellArgs f args) = (partsOfArgs args).map (respell f)
  | [] => rfl
  | (_, arg) :: args => by
    rw [respellArgs, partsOfArgs, partsOfArgs, List.map_append, parts_respell arg,
      partsOfArgs_respell args]

end

end Expr

section

variable {f : String → String} (hf : Spelling f)

include hf

namespace Program

theorem checkPart_respell (e : Expr) : checkPart (e.respell f) = checkPart e := by
  cases e with
  | name s span =>
    cases h : Register.ofName? s with
    | none => rw [Expr.respell, hf.other h, checkPart, checkPart]
    | some r =>
      have h' : Register.ofName? (f s) = some r := (hf.register s).trans h
      rw [Expr.respell, checkPart, checkPart, Builtin.ofName?_of_register h,
        Builtin.ofName?_of_register h', hf.resolve]
      rfl
  | call function args span =>
    simp only [Expr.respell, checkPart, Expr.respellArgs_eq, List.length_map]
  | _ => rfl

theorem checkExpr_respell (e : Expr) : checkExpr (e.respell f) = checkExpr e := by
  simp only [checkExpr, Expr.parts_respell, List.forM_eq_forM, List.forM_map, checkPart_respell hf]

end Program

end

namespace Instruction

/-- An instruction with the names in its expressions spelled another way. -/
def respell (f : String → String) : Instruction → Instruction
  | assign targets => assign (targets.map fun t => (t.1, t.2.respell f))
  | reveal values => reveal (values.map (Expr.respell f))
  | elicit targets budget => elicit targets (budget.respell f)
  | ensure conditions => ensure (conditions.map (Expr.respell f))
  | reward score => reward (score.respell f)
  | beacon name => beacon name
  | replay name count => replay name (count.respell f)

theorem expressions_respell (f : String → String) (i : Instruction) :
    (i.respell f).expressions = i.expressions.map (Expr.respell f) := by
  cases i with
  | assign targets => simp [respell, expressions]
  | _ => rfl

variable {f : String → String} (hf : Spelling f)

include hf

theorem checkNames_respell (i : Instruction) :
    Program.checkNames (i.respell f) = Program.checkNames i := by
  simp only [Program.checkNames, expressions_respell, List.forM_eq_forM, List.forM_map,
    Program.checkExpr_respell hf]

theorem assignTarget_respell (key : String) (e : Expr) :
    (assignTarget (f key, e.respell f)).toOption =
      (assignTarget (key, e)).toOption.map fun t => (t.1, t.2.respell f) := by
  simp only [assignTarget, hf.resolve]
  cases Register.resolve key with
  | error f => rfl
  | ok r => cases hr : r.isStatic <;> simp [bind, Except.bind, Except.toOption, hr]

theorem assignTargets_respell (args : List (String × Expr)) :
    ((args.map fun a => (f a.1, a.2.respell f)).mapM assignTarget).toOption =
      (args.mapM assignTarget).toOption.map (List.map fun t => (t.1, t.2.respell f)) := by
  simp only [toOption_mapM, List.mapM_map, Function.comp_def, assignTarget_respell hf]
  induction args with
  | nil => rfl
  | cons arg args ih =>
    rw [List.mapM_cons, List.mapM_cons, ih]
    cases (assignTarget arg).toOption with
    | none => rfl
    | some t => cases args.mapM fun a => (assignTarget a).toOption <;> rfl

theorem elicitTarget_respell (e : Expr) :
    (elicitTarget (e.respell f)).toOption = (elicitTarget e).toOption := by
  rw [elicitTarget, elicitTarget, Expr.name?_respell]
  cases e.name? with
  | none => rfl
  | some s => simp only [Option.map_some, hf.resolve]

theorem elicitTargets_respell (args : List Expr) :
    ((args.map (Expr.respell f)).mapM elicitTarget).toOption =
      (args.mapM elicitTarget).toOption := by
  simp only [toOption_mapM, List.mapM_map, Function.comp_def, elicitTarget_respell hf]

omit hf

theorem beaconName_bare (verb : Verb) (e : Expr) :
    (beaconName verb e.bare).toOption = (beaconName verb e).toOption := by
  rw [beaconName, beaconName, Expr.name?_bare]
  cases e.name? <;> rfl

end Instruction

namespace Verb

/-- Whether the names of the arguments stand for registers. -/
def namesTargets : Verb → Bool
  | assign => true
  | _ => false

/-- Whether the first argument is the name of a beacon. -/
def namesBeacon : Verb → Bool
  | beacon | replay => true
  | _ => false

/-- The positional arguments with their registers spelled another way. -/
def respellValues (f : String → String) (verb : Verb) : List Expr → List Expr
  | [] => []
  | e :: es => e.respell (spelledIf f !verb.namesBeacon) :: es.map (Expr.respell f)

theorem respellValues_eq_map {verb : Verb} (h : verb.namesBeacon = false) (f : String → String)
    (es : List Expr) : verb.respellValues f es = es.map (Expr.respell f) := by
  cases es <;> simp [respellValues, spelledIf, h]

end Verb

namespace Instruction

theorem ofPositional_respell {f : String → String} (hf : Spelling f) (verb : Verb)
    (args : List Expr) : (ofPositional verb (verb.respellValues f args)).toOption =
      (ofPositional verb args).toOption.map (respell f) := by
  have hbeacon : spelledIf f false = id := rfl
  cases verb with
  | assign => rfl
  | reveal =>
    rw [Verb.respellValues_eq_map rfl]
    rfl
  | elicit =>
    rw [Verb.respellValues_eq_map rfl]
    simp only [ofPositional, List.getLast?_map, ← List.map_dropLast, List.isEmpty_map]
    cases args.getLast? with
    | none => rfl
    | some budget =>
      by_cases hempty : args.dropLast.isEmpty = true
      · simp [hempty, Except.toOption]
      · simp only [Option.map_some, hempty, Bool.false_eq_true, if_false, toOption_bind,
          elicitTargets_respell hf, Option.map_bind]
        rfl
  | ensure => cases args <;> rfl
  | reward =>
    obtain _ | ⟨_, _ | ⟨_, _⟩⟩ := args <;> rfl
  | beacon =>
    obtain _ | ⟨e, _ | ⟨_, _⟩⟩ := args
    · rfl
    · simp only [ofPositional, Verb.respellValues, Verb.namesBeacon, Bool.not_true, hbeacon,
        Expr.respell_id, List.map_nil, toOption_bind, beaconName_bare, Option.map_bind]
      rfl
    · rfl
  | replay =>
    obtain _ | ⟨e, _ | ⟨count, _ | ⟨_, _⟩⟩⟩ := args
    · rfl
    · rfl
    · simp only [ofPositional, Verb.respellValues, Verb.namesBeacon, Bool.not_true, hbeacon,
        Expr.respell_id, List.map_cons, List.map_nil, toOption_bind, beaconName_bare,
        Option.map_bind]
      rfl
    · rfl

end Instruction

/-- An argument with its own name and the names in its expression spelled in other ways. -/
def Arg.respell (key f : String → String) (arg : Arg) : Arg :=
  (arg.1.map key, arg.2.respell f)

/-- Arguments of which the first one may be spelled in a way of its own. -/
def Arg.respellAll (key first f : String → String) : List Arg → List Arg
  | [] => []
  | arg :: args => arg.respell key first :: args.map (Arg.respell key f)

theorem Arg.respellAll_self (key f : String → String) (args : List Arg) :
    respellAll key f f args = args.map (respell key f) := by
  cases args <;> rfl

theorem Expr.respellArgs_eq_all (f : String → String) (args : List Arg) :
    respellArgs f args = Arg.respellAll id f f args := by
  have harg : Arg.respell id f = fun a => (a.1, a.2.respell f) := by
    funext a
    rw [Arg.respell, Option.map_id, id]
  rw [respellArgs_eq, ← harg, Arg.respellAll_self]

namespace Call

variable {f : String → String} {verb : Verb} {args : List Arg} {span span' : Span}

theorem positional_cons (arg : Arg) : positional ⟨verb, arg :: args, span⟩ =
    (if arg.1.isSome then [] else [arg.2]) ++ positional ⟨verb, args, span⟩ := by
  obtain ⟨_ | key, e⟩ := arg <;> rfl

theorem named_cons (arg : Arg) : named ⟨verb, arg :: args, span⟩ =
    (arg.1.map (·, arg.2)).toList ++ named ⟨verb, args, span⟩ := by
  obtain ⟨_ | key, e⟩ := arg <;> rfl

theorem positional_map (key f : String → String) (span : Span) :
    positional ⟨verb, args.map (Arg.respell key f), span'⟩ =
      (positional ⟨verb, args, span⟩).map (Expr.respell f) := by
  induction args with
  | nil => rfl
  | cons arg args ih =>
    obtain ⟨_ | k, e⟩ := arg <;> simp [positional_cons, Arg.respell, ih]

theorem named_map (key f : String → String) (span : Span) :
    named ⟨verb, args.map (Arg.respell key f), span'⟩ =
      (named ⟨verb, args, span⟩).map fun a => (key a.1, a.2.respell f) := by
  induction args with
  | nil => rfl
  | cons arg args ih =>
    obtain ⟨_ | k, e⟩ := arg <;> simp [named_cons, Arg.respell, ih]

/-- A call with its registers spelled another way, and without the places that it was read from.
Functions and beacons keep their names, and so do the arguments of functions. -/
def respell (f : String → String) (c : Call) : Call :=
  ⟨c.verb, Arg.respellAll (spelledIf f c.verb.namesTargets) (spelledIf f !c.verb.namesBeacon) f
    c.args, {}⟩

theorem named_respell_eq_nil {c : Call} : (c.respell f).named = [] ↔ c.named = [] := by
  obtain ⟨verb, _ | ⟨⟨_ | key, e⟩, args⟩, span⟩ := c
  · exact Iff.rfl
  · simp [respell, Arg.respellAll, Arg.respell, named_cons, named_map _ _ span]
  · simp [respell, Arg.respellAll, Arg.respell, named_cons]

theorem positional_respell {c : Call} (h : c.named = []) :
    (c.respell f).positional = c.verb.respellValues f c.positional := by
  obtain ⟨verb, _ | ⟨⟨_ | key, e⟩, args⟩, span⟩ := c
  · rfl
  · simp [respell, Arg.respellAll, Arg.respell, positional_cons, positional_map _ _ span,
      Verb.respellValues]
  · simp [named_cons] at h

end Call

namespace Instruction

theorem ofCall_positional {c : Call} (hv : c.verb ≠ .assign) (hn : c.named = []) :
    ofCall c = ofPositional c.verb c.positional := by
  obtain ⟨verb, args, span⟩ := c
  cases verb with
  | assign => exact absurd rfl hv
  | _ => rw [ofCall, hn]

theorem ofCall_named {c : Call} (hv : c.verb ≠ .assign) (hn : c.named ≠ []) :
    (ofCall c).toOption = none := by
  obtain ⟨arg, rest, hn⟩ := List.exists_cons_of_ne_nil hn
  obtain ⟨verb, args, span⟩ := c
  cases verb with
  | assign => exact absurd rfl hv
  | _ =>
    rw [ofCall, hn]
    rfl

variable {f : String → String} (hf : Spelling f)

include hf

theorem ofCall_assign_respell (args : List Arg) (span : Span) :
    (ofCall (Call.respell f ⟨.assign, args, span⟩)).toOption =
      (ofCall ⟨.assign, args, span⟩).toOption.map (respell f) := by
  have hcall : Call.respell f ⟨.assign, args, span⟩ =
      ⟨.assign, args.map (Arg.respell f f), {}⟩ := by
    rw [← Arg.respellAll_self]
    rfl
  rw [hcall, ofCall, ofCall]
  simp only [Call.positional_map _ _ span, Call.named_map _ _ span, List.isEmpty_map,
    toOption_ite, toOption_bind, assignTargets_respell hf]
  cases Call.positional ⟨.assign, args, span⟩ with
  | cons _ _ => rfl
  | nil =>
    cases args with
    | nil => rfl
    | cons arg args =>
      simp only [List.isEmpty_nil, List.isEmpty_cons, Bool.not_true, Bool.false_eq_true, if_false,
        Option.bind_map, Option.map_bind]
      rfl

/-- Where a call stands and how its registers are spelled does not matter to which instruction it
is. -/
theorem ofCall_respell (c : Call) :
    (ofCall (c.respell f)).toOption = (ofCall c).toOption.map (respell f) := by
  by_cases hv : c.verb = .assign
  · obtain ⟨verb, args, span⟩ := c
    obtain rfl : verb = .assign := hv
    exact ofCall_assign_respell hf args span
  · by_cases hn : c.named = []
    · rw [ofCall_positional hv hn, ofCall_positional (c := c.respell f) hv
        (Call.named_respell_eq_nil.mpr hn), Call.positional_respell hn]
      exact ofPositional_respell hf c.verb c.positional
    · have hn' : (c.respell f).named ≠ [] := fun h => hn (Call.named_respell_eq_nil.mp h)
      rw [ofCall_named hv hn, ofCall_named (c := c.respell f) hv hn']
      rfl

/-- Calls that differ in places and spellings only are instructions that do. -/
theorem ofCall_alike {c c' : Call} {i : Instruction} (h : ofCall c = .ok i)
    (hc : c'.respell f = c.respell f) : ∃ i', ofCall c' = .ok i' ∧ i'.respell f = i.respell f := by
  have ho := ofCall_respell hf c
  rw [← hc, ofCall_respell hf, h] at ho
  cases h' : ofCall c' with
  | error f =>
    rw [h'] at ho
    cases ho
  | ok i' =>
    rw [h'] at ho
    exact ⟨i', rfl, Option.some.inj ho⟩

end Instruction

namespace Game

variable {σ : Type} (g : Game) {f : String → String} (hf : Spelling f)

include hf

theorem eval_respell (s : State) (e : Expr) : g.eval s (e.respell f) = g.eval s e :=
  Expr.eval_respell s.registers g.judge hf e

theorem evalCount_respell (s : State) (fault : Value → Fault) (e : Expr) :
    g.evalCount s fault (e.respell f) = g.evalCount s fault e := by
  rw [evalCount, evalCount, eval_respell g hf]

theorem evalCondition_respell (s : State) (e : Expr) :
    g.evalCondition s (e.respell f) = g.evalCondition s e := by
  rw [evalCondition, evalCondition, eval_respell g hf]

/-- Where an instruction was read from and how its registers were spelled does not matter to what
it does. -/
theorem execute_respell (player : Player σ) (line : Nat) (i : Instruction) (s : Session σ) :
    g.execute player line (i.respell f) s = g.execute player line i s := by
  cases i with
  | assign targets =>
    have htargets : (targets.map fun t => (t.1, t.2.respell f)).map Prod.fst =
        targets.map Prod.fst := by
      simp [Function.comp_def]
    have hassign : g.assign (targets.map fun t => (t.1, t.2.respell f)) = g.assign targets := by
      funext t
      simp only [assign, htargets, List.mapM_map, Function.comp_def, eval_respell g hf]
    rw [Instruction.respell, execute, execute, hassign]
  | reveal values =>
    simp only [Instruction.respell, execute, reveal, List.mapM_map, Function.comp_def,
      eval_respell g hf]
  | elicit targets budget =>
    simp only [Instruction.respell, execute, elicit, evalCount_respell g hf]
  | ensure conditions =>
    simp only [Instruction.respell, execute, ensure, List.mapM_map, Function.comp_def,
      evalCondition_respell g hf]
  | reward score => simp only [Instruction.respell, execute, reward, eval_respell g hf]
  | beacon name => rfl
  | replay name count =>
    have hreplay : g.replay line name (count.respell f) = g.replay line name count := by
      funext t
      rw [replay, replay, evalCount_respell g hf]
    rw [Instruction.respell, execute, execute, hreplay]

theorem execute_spelling (player : Player σ) (line : Nat) {i i' : Instruction}
    (h : i'.respell f = i.respell f) (s : Session σ) :
    g.execute player line i' s = g.execute player line i s := by
  rw [← execute_respell g hf, h, execute_respell g hf]

end Game

end EntropyGame
