import EntropyGame.Source.Span
import EntropyGame.Source.Token
import EntropyGame.Text.Escape

namespace EntropyGame

inductive BinaryOp
  | add
  | sub
  | mul
  | cutBefore
  | cutAfter
  | decorate
  | eq
  | ne
  | lt
  | le
  | gt
  | ge
  | and
  | or
  deriving DecidableEq, Repr

namespace BinaryOp

def symbol : BinaryOp → Symbol
  | add => .plus
  | sub => .minus
  | mul => .star
  | cutBefore => .slashes
  | cutAfter => .percent
  | decorate => .bar
  | eq => .equals
  | ne => .differs
  | lt => .less
  | le => .lessEqual
  | gt => .greater
  | ge => .greaterEqual
  | and => .and
  | or => .or

def spelling (op : BinaryOp) : String :=
  op.symbol.spelling

def ofSymbol? : Symbol → Option BinaryOp
  | .plus => some add
  | .minus => some sub
  | .star => some mul
  | .slashes => some cutBefore
  | .percent => some cutAfter
  | .bar => some decorate
  | .equals => some eq
  | .differs => some ne
  | .less => some lt
  | .lessEqual => some le
  | .greater => some gt
  | .greaterEqual => some ge
  | .and => some and
  | .or => some or
  | _ => none

theorem ofSymbol?_symbol (op : BinaryOp) : ofSymbol? op.symbol = some op := by
  cases op <;> rfl

/-- How tightly an operator binds. -/
def level : BinaryOp → Nat
  | or => 10
  | and => 20
  | eq | ne | lt | le | gt | ge => 30
  | decorate => 35
  | add | sub => 40
  | mul | cutBefore | cutAfter => 50

end BinaryOp

inductive UnaryOp
  | neg
  | not
  deriving DecidableEq, Repr

def UnaryOp.spelling : UnaryOp → String
  | .neg => "-"
  | .not => "not"

/-- An expression; the arguments of a call may be named. -/
inductive Expr
  | integer (n : Int) (span : Span)
  | float (x : Float) (span : Span)
  | text (s : String) (span : Span)
  | bool (b : Bool) (span : Span)
  | name (s : String) (span : Span)
  | list (items : List Expr) (span : Span)
  | unary (op : UnaryOp) (operand : Expr) (span : Span)
  | binary (op : BinaryOp) (left right : Expr) (span : Span)
  | call (function : String) (args : List (Option String × Expr)) (span : Span)

abbrev Arg := Option String × Expr

namespace Expr

def span : Expr → Span
  | integer _ s | float _ s | text _ s | bool _ s | name _ s | list _ s | unary _ _ s
  | binary _ _ _ s | call _ _ s => s

def name? : Expr → Option String
  | name s _ => some s
  | _ => none

mutual

/-- Every part of an expression, each before the parts it is made of. -/
def parts : Expr → List Expr
  | e@(integer ..) | e@(float ..) | e@(text ..) | e@(bool ..) | e@(name ..) => [e]
  | e@(list items _) => e :: partsOfList items
  | e@(unary _ operand _) => e :: operand.parts
  | e@(binary _ left right _) => e :: (left.parts ++ right.parts)
  | e@(call _ args _) => e :: partsOfArgs args

def partsOfList : List Expr → List Expr
  | [] => []
  | e :: es => e.parts ++ partsOfList es

def partsOfArgs : List (Option String × Expr) → List Expr
  | [] => []
  | (_, e) :: args => e.parts ++ partsOfArgs args

end

mutual

/-- The text that shows an expression; every operator with two operands is in parentheses. -/
def display : Expr → String
  | integer n _ => toString n
  | float x _ => Decimal.Layout.plain.write x
  | text s _ => Text.quoted s
  | bool b _ => if b then "true" else "false"
  | name s _ => s
  | list items _ => "[" ++ ", ".intercalate (displayList items) ++ "]"
  | unary .neg operand _ => "-" ++ operand.display
  | unary .not operand _ => "not " ++ operand.display
  | binary op left right _ => "(" ++ left.display ++ " " ++ op.spelling ++ " " ++ right.display ++ ")"
  | call function args _ => function ++ "(" ++ ", ".intercalate (displayArgs args) ++ ")"

def displayList : List Expr → List String
  | [] => []
  | e :: es => e.display :: displayList es

def displayArgs : List (Option String × Expr) → List String
  | [] => []
  | (none, e) :: args => e.display :: displayArgs args
  | (some key, e) :: args => (key ++ "=" ++ e.display) :: displayArgs args

end

end Expr

end EntropyGame
