import EntropyGame.Decimal.Shortest

namespace EntropyGame.Decimal

/-- How a double is written with the fewest digits that read back. The point of a number
`0.d₁d₂… * 10 ^ p` is at `p`; where `positional` fails the exponent is written out. -/
structure Layout where
  tie : Tie
  positional : Int → Bool
  /-- What follows the digits of a whole number. -/
  whole : String

def zeros (n : Nat) : String :=
  String.ofList (List.replicate n '0')

namespace Layout

def place (l : Layout) (digits : String) (point : Int) : String :=
  let size : Int := digits.length
  if point ≤ 0 then "0." ++ zeros (-point).toNat ++ digits
  else if size ≤ point then digits ++ zeros (point - size).toNat ++ l.whole
  else
    let cs := digits.toList
    String.ofList (cs.take point.toNat) ++ "." ++ String.ofList (cs.drop point.toNat)

def withExponent (digits : String) (point : Int) : String :=
  let mantissa := match digits.toList with
    | [] => ""
    | [d] => d.toString
    | d :: ds => d.toString ++ "." ++ String.ofList ds
  let power := point - 1
  mantissa ++ "e" ++ (if 0 ≤ power then "+" else "-") ++ toString power.natAbs

def magnitude (l : Layout) (n : Numeral) : String :=
  if n.digits = 0 then "0" ++ l.whole
  else
    let digits := toString n.digits
    let point := digits.length + n.exponent
    if l.positional point then l.place digits point else withExponent digits point

def write (l : Layout) (x : Float) : String :=
  match Binary64.ofFloat x with
  | .nan => "NaN"
  | .infinite negative => if negative then "-inf" else "inf"
  | .finite negative mantissa exponent =>
    (if negative then "-" else "") ++ l.magnitude (shortest l.tie mantissa exponent)

/-- Positional throughout, and nothing after a whole number. -/
def plain : Layout where
  tie := .up
  positional _ := true
  whole := ""

/-- Positional from `0.00001` up to sixteen digits before the point, and always recognisable as a
number with a fraction. -/
def document : Layout where
  tie := .even
  positional p := -4 ≤ p && p ≤ 16
  whole := ".0"

end Layout

/-- `n / 10 ^ places`, written with that many places. -/
def placed (places n : Nat) : String :=
  let fraction := toString (n % 10 ^ places)
  toString (n / 10 ^ places) ++ "." ++ zeros (places - fraction.length) ++ fraction

/-- The exact value of a double rounded to a number of places; a half goes to the even neighbour
and the sign of the double stays. -/
def fixed (places : Nat) (x : Float) : String :=
  match Binary64.ofFloat x with
  | .nan => "NaN"
  | .infinite negative => if negative then "-inf" else "inf"
  | .finite negative mantissa exponent =>
    let n := roundDiv .even (mantissa * 2 ^ exponent.toNat * 10 ^ places) (2 ^ (-exponent).toNat)
    (if negative then "-" else "") ++ placed places n

end EntropyGame.Decimal
