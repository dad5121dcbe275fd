import EntropyGame.Builtin.Call

namespace EntropyGame

/-- Numbers have to stay writable: neither infinite nor undefined. -/
def Value.finite (v : Value) : Except Fault Value :=
  if v.isFinite then .ok v else .error (.notFinite v.kind)

namespace UnaryOp

def apply : UnaryOp → Value → Except Fault Value
  | neg, .number x => .ok (.number (-x))
  | neg, .costs v => .ok (.costs v.neg)
  | not, .bool b => .ok (.bool !b)
  | not, .verdict v => .ok (.verdict v.not)
  | op, v => .error (.operand op v.kind)

end UnaryOp

namespace BinaryOp

def compareFloats : BinaryOp → Float → Float → Bool
  | eq, x, y => x == y
  | ne, x, y => x != y
  | lt, x, y => x < y
  | le, x, y => x ≤ y
  | gt, x, y => y < x
  | ge, x, y => y ≤ x
  | _, _, _ => false

/-- The number that a value counts as beside a score. -/
def scoreOf? : Value → Option Float
  | .number x => some x
  | .costs v => some v.total
  | .verdict v => some v.toFloat
  | _ => none

def isScore : Value → Bool
  | .costs _ | .verdict _ => true
  | _ => false

/-- Texts, lists and booleans are equal or not, but have no order. -/
def compareEqual (op : BinaryOp) (l r : Value) (equal : Bool) : Except Fault Value :=
  match op with
  | eq => .ok (.bool equal)
  | ne => .ok (.bool !equal)
  | _ => .error (.operands op l.kind r.kind)

/-- A comparison with a score is traced, any other is plain. Phrases are compared without their
decoration, lists of phrases with it. -/
def compare (op : BinaryOp) (l r : Value) : Except Fault Value :=
  if isScore l || isScore r then
    match scoreOf? l, scoreOf? r with
    | some x, some y =>
      let trace := s!"{Decimal.fixed 3 x} {op.spelling} {Decimal.fixed 3 y}"
      .ok (.verdict ⟨op.compareFloats x y, trace⟩)
    | _, _ => .error (.operands op l.kind r.kind)
  else
    match l, r with
    | .number x, .number y => .ok (.bool (op.compareFloats x y))
    | .phrase p, .phrase q => op.compareEqual l r (p.primary = q.primary)
    | .list ps, .list qs => op.compareEqual l r (ps = qs)
    | .bool b, .bool c => op.compareEqual l r (b = c)
    | _, _ => .error (.operands op l.kind r.kind)

def verdictOf (op : BinaryOp) : Value → Except Fault Verdict
  | .bool b => .ok (.ofBool b)
  | .verdict v => .ok v
  | v => .error (.logicOperand op v.kind)

/-- Joins two truth values; the result is plain only if both are. -/
def logic (op : BinaryOp) (plain : Bool → Bool → Bool) (traced : Verdict → Verdict → Verdict) :
    Value → Value → Except Fault Value
  | .bool b, .bool c => .ok (.bool (plain b c))
  | l, r => do
    let v ← op.verdictOf l
    let w ← op.verdictOf r
    return .verdict (traced v w)

def aligned : Except Misaligned (CostVector Float) → Except Fault Value
  | .ok v => .ok (.costs v)
  | .error e => .error (.misaligned e)

def apply (op : BinaryOp) (l r : Value) : Except Fault Value :=
  match op, l, r with
  | add, .number x, .number y => .ok (.number (x + y))
  | add, .phrase p, .phrase q => .ok (.phrase (p.append q))
  | add, .list ps, .list qs => .ok (.list (ps ++ qs))
  | add, .costs v, .costs w => aligned (v.add w)
  | sub, .number x, .number y => .ok (.number (x - y))
  | sub, .costs v, .costs w => aligned (v.sub w)
  | mul, .number x, .number y => .ok (.number (x * y))
  | mul, .costs v, .number k => .ok (.costs (v.scale k))
  | mul, .number k, .costs v => .ok (.costs (v.scale k))
  | cutBefore, .phrase p, .phrase q => .ok (.phrase (p.cutBefore q.primary))
  | cutAfter, .phrase p, .phrase q => .ok (.phrase (p.cutAfter q.primary))
  | decorate, .phrase p, .phrase q => .ok (.phrase (p.decorate q))
  | and, l, r => op.logic (· && ·) .and l r
  | or, l, r => op.logic (· || ·) .or l r
  | eq, l, r | ne, l, r | lt, l, r | le, l, r | gt, l, r | ge, l, r => op.compare l r
  | op, l, r => .error (.operands op l.kind r.kind)

end BinaryOp

namespace Expr

/-- The content of a register; no other name has a value. -/
def valueOf (registers : Registers) (name : String) : Except Fault Value :=
  match Register.ofName? name with
  | some r =>
    match registers.get? r with
    | some v => .ok v
    | none => .error (.missingRegister r)
  | none =>
    if (Builtin.ofName? name).isSome then .error (.builtinAsValue name)
    else .error (.unknownName name)

mutual

/-- The value of an expression, whose operands and arguments are evaluated from left to right. -/
def eval (registers : Registers) (judge : Judge) : Expr → Except Fault Value
  | integer n _ => .ok (.number (Float.ofInt n))
  | float x _ => (Value.number x).finite
  | text s _ => .ok (.ofText s)
  | bool b _ => .ok (.bool b)
  | name s _ => valueOf registers s
  | list items _ => do
    let ps ← evalItems registers judge items
    return .list ps
  | unary op operand _ => do
    let v ← operand.eval registers judge
    (← op.apply v).finite
  | binary op left right _ => do
    let l ← left.eval registers judge
    let r ← right.eval registers judge
    (← op.apply l r).finite
  | call function args _ => do
    match Builtin.ofName? function with
    | none => .error (.unknownFunction function)
    | some b =>
      match args.findSome? (·.1) with
      | some key => .error (.builtinNamed b key)
      | none =>
        let values ← evalArgs registers judge args
        (← b.call judge values).finite

/-- The items of a list, which have to be phrases. -/
def evalItems (registers : Registers) (judge : Judge) : List Expr → Except Fault (List Phrase)
  | [] => .ok []
  | item :: items => do
    match ← item.eval registers judge with
    | .phrase p =>
      let ps ← evalItems registers judge items
      return p :: ps
    | v => .error (.listItem v.kind)

def evalArgs (registers : Registers) (judge : Judge) :
    List (Option String × Expr) → Except Fault (List Value)
  | [] => .ok []
  | (_, arg) :: args => do
    let v ← arg.eval registers judge
    let vs ← evalArgs registers judge args
    return v :: vs

end

end Expr

end EntropyGame
