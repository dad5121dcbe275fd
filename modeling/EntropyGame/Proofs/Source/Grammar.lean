import EntropyGame.Source.Parser

namespace EntropyGame

mutual

/-- An expression without the places that it was read from. -/
def Expr.bare : Expr → Expr
  | .integer n _ => .integer n {}
  | .float x _ => .float x {}
  | .text s _ => .text s {}
  | .bool b _ => .bool b {}
  | .name s _ => .name s {}
  | .list items _ => .list (bareItems items) {}
  | .unary op operand _ => .unary op operand.bare {}
  | .binary op left right _ => .binary op left.bare right.bare {}
  | .call function args _ => .call function (bareArgs args) {}

def Expr.bareItems : List Expr → List Expr
  | [] => []
  | item :: items => item.bare :: bareItems items

def Expr.bareArgs : List Arg → List Arg
  | [] => []
  | (key, arg) :: args => (key, arg.bare) :: bareArgs args

end

theorem Expr.name?_bare (e : Expr) : e.bare.name? = e.name? := by
  cases e <;> rfl

namespace Grammar

/-- Operands with the operators before them. -/
abbrev Chain := List (BinaryOp × Expr)

/-- The same with the signs and `not`s before each operand, outermost first. -/
abbrev SignedChain := List (BinaryOp × List UnaryOp × Expr)

/-- The rightmost operator of the lowest level, between what stands before and after it. -/
def lowest? : Chain → Option (Chain × BinaryOp × Expr × Chain)
  | [] => none
  | (op, x) :: rest =>
    match lowest? rest with
    | none => some ([], op, x, [])
    | some (before, low, y, after) =>
      if low.level ≤ op.level then some ((op, x) :: before, low, y, after)
      else some ([], op, x, rest)

theorem lowest?_none {chain : Chain} (h : lowest? chain = none) : chain = [] := by
  cases chain with
  | nil => rfl
  | cons link rest =>
    rw [lowest?] at h
    split at h
    · cases h
    · split at h <;> cases h

theorem lowest?_eq {chain before after : Chain} {op : BinaryOp} {x : Expr}
    (h : lowest? chain = some (before, op, x, after)) : chain = before ++ (op, x) :: after := by
  induction chain generalizing before with
  | nil => cases h
  | cons link rest ih =>
    obtain ⟨o, y⟩ := link
    rw [lowest?] at h
    split at h
    · rename_i hnone
      cases h
      rw [lowest?_none hnone]
      rfl
    · rename_i hrest
      split at h <;> cases h
      · rw [ih hrest, List.cons_append]
      · rfl

/-- The tree of a chain, split at its rightmost operator of the lowest level. -/
def split (x : Expr) (chain : Chain) : Expr :=
  match _h : lowest? chain with
  | none => x
  | some (before, op, y, after) => .binary op (split x before) (split y after) {}
termination_by chain.length
decreasing_by
  · rw [lowest?_eq _h, List.length_append, List.length_cons]
    omega
  · rw [lowest?_eq _h, List.length_append, List.length_cons]
    omega

theorem lowest?_of_levels {before after : Chain} {op : BinaryOp} {x : Expr}
    (hb : ∀ link ∈ before, op.level ≤ link.1.level) (ha : ∀ link ∈ after, op.level < link.1.level) :
    lowest? (before ++ (op, x) :: after) = some (before, op, x, after) := by
  induction before with
  | nil =>
    rw [List.nil_append, lowest?]
    cases hl : lowest? after with
    | none => rw [lowest?_none hl]
    | some low =>
      obtain ⟨before, o, y, rest⟩ := low
      have hlow : op.level < o.level := ha (o, y) (by simp [lowest?_eq hl])
      exact if_neg (Nat.not_le.mpr hlow)
  | cons link before ih =>
    rw [List.cons_append, lowest?, ih fun link h => hb link (List.mem_cons_of_mem _ h)]
    exact if_pos (hb link List.mem_cons_self)

theorem split_nil (x : Expr) : split x [] = x := by
  rw [split]
  rfl

theorem split_append {x y : Expr} {before after : Chain} {op : BinaryOp}
    (hb : ∀ link ∈ before, op.level ≤ link.1.level) (ha : ∀ link ∈ after, op.level < link.1.level) :
    split x (before ++ (op, y) :: after) = .binary op (split x before) (split y after) {} := by
  rw [split]
  split
  · rename_i h
    rw [lowest?_of_levels hb ha] at h
    cases h
  · rename_i h
    rw [lowest?_of_levels hb ha] at h
    cases h
    rfl

/-- Whether an operator binds at least as tightly as a level. -/
def binds (least : Nat) (link : BinaryOp × Expr) : Bool :=
  least ≤ link.1.level

/-- Puts signs before an operand: `-` takes nothing else, and `not` takes what follows as long as
it binds like comparisons or tighter. -/
def sign : List UnaryOp → Expr → Chain → Expr × Chain
  | [], x, chain => (x, chain)
  | .neg :: signs, x, chain =>
    let (y, rest) := sign signs x chain
    (.unary .neg y {}, rest)
  | .not :: signs, x, chain =>
    let (y, rest) := sign signs x chain
    let inside := binds (BinaryOp.level .eq)
    (.unary .not (split y (rest.takeWhile inside)) {}, rest.dropWhile inside)

/-- Puts signs before all operands. -/
def settle : SignedChain → Chain
  | [] => []
  | (op, signs, x) :: rest =>
    let (y, chain) := sign signs x (settle rest)
    (op, y) :: chain

/-- The tree of a chain that begins with an operand. -/
def tree (signs : List UnaryOp) (x : Expr) (rest : SignedChain) : Expr :=
  let (y, chain) := sign signs x (settle rest)
  split y chain

def signSymbol : UnaryOp → Symbol
  | .neg => .minus
  | .not => .not

/-- A name that may be called, which may stand in parentheses. -/
inductive IsCallee : List Token → String → Prop
  | name (s : String) : IsCallee [.name s] s
  | parens {ts : List Token} {s : String} : IsCallee ts s →
      IsCallee (.symbol .openParen :: (ts ++ [.symbol .closeParen])) s

mutual

/-- The tokens of a whole expression and its tree. -/
inductive IsExpr : List Token → Expr → Prop
  | chain {ts us : List Token} {signs : List UnaryOp} {x : Expr} {rest : SignedChain} :
      IsOperand ts signs x → IsTail us rest → IsExpr (ts ++ us) (tree signs x rest)

/-- Operators and operands that go on with an expression. -/
inductive IsTail : List Token → SignedChain → Prop
  | nil : IsTail [] []
  | cons {ts us : List Token} {op : BinaryOp} {signs : List UnaryOp} {x : Expr}
      {rest : SignedChain} : IsOperand ts signs x → IsTail us rest →
      IsTail (.symbol op.symbol :: (ts ++ us)) ((op, signs, x) :: rest)

/-- A primary expression after any number of signs and `not`s. -/
inductive IsOperand : List Token → List UnaryOp → Expr → Prop
  | primary {ts : List Token} {x : Expr} : IsPrimary ts x → IsOperand ts [] x
  | sign {ts : List Token} {signs : List UnaryOp} {x : Expr} (op : UnaryOp) :
      IsOperand ts signs x → IsOperand (.symbol (signSymbol op) :: ts) (op :: signs) x

inductive IsPrimary : List Token → Expr → Prop
  | yes : IsPrimary [.symbol .yes] (.bool true {})
  | no : IsPrimary [.symbol .no] (.bool false {})
  | integer (n : Int) : IsPrimary [.integer n] (.integer n {})
  | float (x : Float) : IsPrimary [.float x] (.float x {})
  | text (s : String) : IsPrimary [.text s] (.text s {})
  | name (s : String) : IsPrimary [.name s] (.name s {})
  | list {ts : List Token} {items : List Expr} : IsItems ts items →
      IsPrimary (.symbol .openBracket :: (ts ++ [.symbol .closeBracket])) (.list items {})
  | parens {ts : List Token} {x : Expr} : IsExpr ts x →
      IsPrimary (.symbol .openParen :: (ts ++ [.symbol .closeParen])) x
  | call {ts us : List Token} {function : String} {args : List Arg} : IsCallee ts function →
      IsArgs us args →
      IsPrimary (ts ++ .symbol .openParen :: (us ++ [.symbol .closeParen]))
        (.call function args {})

/-- Expressions with commas between them, and there may be one after the last. -/
inductive IsItems : List Token → List Expr → Prop
  | nil : IsItems [] []
  | last {ts : List Token} {x : Expr} : IsExpr ts x → IsItems ts [x]
  | cons {ts us : List Token} {x : Expr} {items : List Expr} : IsExpr ts x → IsItems us items →
      IsItems (ts ++ .symbol .comma :: us) (x :: items)

inductive IsArgs : List Token → List Arg → Prop
  | nil : IsArgs [] []
  | last {ts : List Token} {arg : Arg} : IsArg ts arg → IsArgs ts [arg]
  | cons {ts us : List Token} {arg : Arg} {args : List Arg} : IsArg ts arg → IsArgs us args →
      IsArgs (ts ++ .symbol .comma :: us) (arg :: args)

/-- An argument is an expression, which may be named. -/
inductive IsArg : List Token → Arg → Prop
  | positional {ts : List Token} {x : Expr} : IsExpr ts x → IsArg ts (none, x)
  | named {ts : List Token} {x : Expr} (key : String) : IsExpr ts x →
      IsArg (.name key :: .symbol .assign :: ts) (some key, x)

end

end Grammar

end EntropyGame
