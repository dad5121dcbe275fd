-- Powers of numbers are those of the core library, also where an algebra library is in scope.
attribute [instance (20000), default_instance (20000)] instPowNat

namespace EntropyGame.Decimal

/-- What a double stands for; a finite one is `mantissa * 2 ^ exponent` with a sign. -/
inductive Binary64
  | nan
  | infinite (negative : Bool)
  | finite (negative : Bool) (mantissa : Nat) (exponent : Int)
  deriving DecidableEq, Repr

namespace Binary64

/-- The exponent of the doubles next to zero. -/
def leastExponent : Int := -1074

def ofBits (bits : Nat) : Binary64 :=
  let negative := decide (2 ^ 63 ≤ bits)
  let field : Nat := bits / 2 ^ 52 % 2 ^ 11
  let fraction : Nat := bits % 2 ^ 52
  if field = 2047 then
    if fraction = 0 then .infinite negative else .nan
  else if field = 0 then .finite negative fraction leastExponent
  else .finite negative (2 ^ 52 + fraction) ((field : Int) - 1075)

def ofFloat (x : Float) : Binary64 :=
  ofBits x.toBits.toNat

end Binary64

/-- Where a value exactly between two neighbours goes. -/
inductive Tie
  | even
  | up
  deriving DecidableEq, Repr

/-- Whether the upper neighbour of a quotient `below + rest / den` is the nearer one. -/
def Tie.roundsUp (tie : Tie) (below rest den : Nat) : Bool :=
  match compare (2 * rest) den with
  | .lt => false
  | .gt => true
  | .eq => match tie with
    | .even => below % 2 == 1
    | .up => true

/-- The whole number next to `num / den`. -/
def roundDiv (tie : Tie) (num den : Nat) : Nat :=
  let below := num / den
  if tie.roundsUp below (num % den) den then below + 1 else below

def digitValue (c : Char) : Nat :=
  c.toNat - '0'.toNat

/-- The number that a row of decimal digits stands for. -/
def ofDigits (ds : List Char) : Nat :=
  ds.foldl (fun n d => 10 * n + digitValue d) 0

/-- The double nearest to `digits * 10 ^ exponent`. Values far outside the range of doubles are
settled by the place of their first digit. -/
def toFloat (digits : Nat) (exponent : Int) : Float :=
  let point : Int := (Nat.log2 digits : Int) * 30103 / 100000 + exponent
  if digits = 0 ∨ point < -400 then 0.0
  else if 400 < point then 1.0 / 0.0
  else Float.ofScientific digits (exponent < 0) exponent.natAbs

end EntropyGame.Decimal
