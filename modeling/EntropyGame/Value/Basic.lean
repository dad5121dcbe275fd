import EntropyGame.Value.CostVector
import EntropyGame.Value.Phrase
import EntropyGame.Value.Verdict

namespace EntropyGame

/-- What expressions yield. Registers hold phrases and lists of phrases only. -/
inductive Value
  | phrase (p : Phrase)
  | list (ps : List Phrase)
  | costs (v : CostVector Float)
  | verdict (v : Verdict)
  | number (x : Float)
  | bool (b : Bool)
  deriving BEq

inductive Kind
  | phrase
  | list
  | costs
  | verdict
  | number
  | bool
  deriving DecidableEq, Repr

def Kind.words : Kind → String
  | phrase => "string"
  | list => "list"
  | costs => "xent vector"
  | verdict => "validated bool"
  | number => "number"
  | bool => "bool"

def displayPhrases (ps : List Phrase) : String :=
  "[" ++ ", ".intercalate (ps.map fun p => Text.quoted p.primary) ++ "]"

namespace Value

def ofText (s : String) : Value :=
  .phrase { primary := s }

def kind : Value → Kind
  | phrase _ => .phrase
  | list _ => .list
  | costs _ => .costs
  | verdict _ => .verdict
  | number _ => .number
  | bool _ => .bool

def isFinite : Value → Bool
  | number x => x.isFinite
  | costs v => v.isFinite
  | _ => true

/-- The truth of a plain or a traced boolean. -/
def condition? : Value → Option Bool
  | bool b => some b
  | verdict v => some v.holds
  | _ => none

def greatestCount : Nat := 2 ^ 32 - 1

/-- A number as a count: whole, not negative and below `2 ^ 32`. -/
def count? : Value → Option Nat
  | number x =>
    let n := x.toUInt64.toNat
    if 0 ≤ x ∧ n ≤ greatestCount ∧ Float.ofNat n == x then some n else none
  | _ => none

def display : Value → String
  | phrase p => p.primary
  | list ps => displayPhrases ps
  | costs v => v.display
  | verdict v => v.display
  | number x => Decimal.Layout.plain.write x
  | bool b => boolText b

end Value

end EntropyGame
