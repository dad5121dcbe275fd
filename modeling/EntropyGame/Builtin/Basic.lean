namespace EntropyGame

/-- The functions that expressions can call. -/
inductive Builtin
  | xent
  | nex
  | xed
  | dex
  | len
  | isTrue
  | isFalse
  | firstNTokens
  deriving DecidableEq, Repr

namespace Builtin

def all : List Builtin :=
  [xent, nex, xed, dex, len, isTrue, isFalse, firstNTokens]

def name : Builtin → String
  | xent => "xent"
  | nex => "nex"
  | xed => "xed"
  | dex => "dex"
  | len => "len"
  | isTrue => "is_true"
  | isFalse => "is_false"
  | firstNTokens => "first_n_tokens"

def ofName? (s : String) : Option Builtin :=
  all.find? (·.name = s)

/-- The fewest and the most arguments. -/
def arity : Builtin → Nat × Nat
  | xent | nex | xed | dex => (1, 2)
  | len | isTrue | isFalse => (1, 1)
  | firstNTokens => (2, 2)

def accepts (b : Builtin) (count : Nat) : Bool :=
  b.arity.1 ≤ count && count ≤ b.arity.2

end Builtin

end EntropyGame
