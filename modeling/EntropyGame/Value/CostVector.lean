import EntropyGame.Decimal.Layout
import EntropyGame.Text.Escape

namespace EntropyGame

/-- The cost of every token of a text, and a factor that multiplies all of them. The numbers may be
of any kind with the usual operations. -/
structure CostVector (R : Type) where
  pairs : List (String × R)
  factor : R
  deriving BEq

/-- Why two vectors are not about the same tokens. -/
inductive Misaligned
  | length (left right : Nat)
  | token (position : Nat) (left right : String)
  deriving DecidableEq, Repr

def Misaligned.message : Misaligned → String
  | length left right => s!"token sequences differ in length ({left} vs {right})"
  | token position left right =>
    s!"token sequences differ at position {position} ({Text.quoted left} vs {Text.quoted right})"

namespace CostVector

variable {R : Type}

def tokens (v : CostVector R) : List String :=
  v.pairs.map Prod.fst

def costs (v : CostVector R) : List R :=
  v.pairs.map Prod.snd

def size (v : CostVector R) : Nat :=
  v.pairs.length

/-- The first position at which two rows of tokens differ. -/
def firstDifference? (position : Nat) : List String → List String → Option Misaligned
  | l :: ls, r :: rs =>
    if l = r then firstDifference? (position + 1) ls rs else some (.token position l r)
  | _, _ => none

def misaligned? (v w : CostVector R) : Option Misaligned :=
  if v.size ≠ w.size then some (.length v.size w.size)
  else firstDifference? 0 v.tokens w.tokens

variable [Add R] [Mul R] [Neg R] [OfNat R 0] [OfNat R 1]

def ofPairs (pairs : List (String × R)) : CostVector R :=
  ⟨pairs, 1⟩

def scaledCosts (v : CostVector R) : List R :=
  v.costs.map (· * v.factor)

/-- The sum of the costs from left to right, times the factor. -/
def total (v : CostVector R) : R :=
  v.factor * v.costs.foldl (· + ·) (-0)

def scale (v : CostVector R) (k : R) : CostVector R :=
  ⟨v.pairs, v.factor * k⟩

def neg (v : CostVector R) : CostVector R :=
  v.scale (-1)

/-- The scaled costs of `v` plus `sign` times those of `w`, token by token. -/
def combine (sign : R) (v w : CostVector R) : Except Misaligned (CostVector R) :=
  match misaligned? v w with
  | some e => .error e
  | none => .ok (ofPairs (List.zipWith
      (fun (token, x) (_, y) => (token, v.factor * x + sign * w.factor * y)) v.pairs w.pairs))

def add (v w : CostVector R) : Except Misaligned (CostVector R) :=
  combine 1 v w

def sub (v w : CostVector R) : Except Misaligned (CostVector R) :=
  combine (-1) v w

def isFinite (v : CostVector Float) : Bool :=
  v.factor.isFinite && v.costs.all Float.isFinite && v.total.isFinite

def display (v : CostVector Float) : String :=
  let parts := List.zipWith (fun token cost => Text.quoted token ++ ": " ++ Decimal.fixed 3 cost)
    v.tokens v.scaledCosts
  "xent[" ++ ", ".intercalate parts ++ "] = " ++ Decimal.fixed 3 v.total

end CostVector

end EntropyGame
