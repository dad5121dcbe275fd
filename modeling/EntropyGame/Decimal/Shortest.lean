import EntropyGame.Decimal.Binary64

namespace EntropyGame.Decimal

/-- The decimal `digits * 10 ^ exponent`. -/
structure Numeral where
  digits : Nat
  exponent : Int
  deriving DecidableEq, Repr

/-- The reals that round to one double, in quarters of its last place: everything between `low` and
`high`, both included iff `closed`. -/
structure Rounded where
  low : Nat
  value : Nat
  high : Nat
  closed : Bool
  exponent : Int

/-- Below a power of two the doubles lie twice as close. -/
def Rounded.of (mantissa : Nat) (exponent : Int) : Rounded where
  low := if mantissa = 2 ^ 52 ∧ Binary64.leastExponent < exponent then 4 * mantissa - 1
    else 4 * mantissa - 2
  value := 4 * mantissa
  high := 4 * mantissa + 2
  closed := mantissa % 2 == 0
  exponent := exponent - 2

/-- `2 ^ two / 10 ^ ten` as a fraction. -/
def scale (two ten : Int) : Nat × Nat :=
  (2 ^ two.toNat * 10 ^ (-ten).toNat, 2 ^ (-two).toNat * 10 ^ ten.toNat)

/-- Whether the point `c` of the grid lies among the reals of `r`, all of them times `up`, the grid
times `down`. -/
def Rounded.holds (r : Rounded) (up down c : Nat) : Bool :=
  if r.closed then r.low * up ≤ c * down && c * down ≤ r.high * up
  else r.low * up < c * down && c * down < r.high * up

/-- The point nearest to the value on the grid of step `10 ^ ten`, if one rounds to it. -/
def Rounded.onGrid? (r : Rounded) (tie : Tie) (ten : Int) : Option Numeral :=
  let (up, down) := scale r.exponent ten
  let below := r.value * up / down
  let lower := r.holds up down below
  let upper := r.holds up down (below + 1)
  if lower && upper then
    some ⟨roundDiv tie (r.value * up) down, ten⟩
  else if lower then some ⟨below, ten⟩
  else if upper then some ⟨below + 1, ten⟩
  else none

/-- Tries `steps` grids, each ten times finer than the one before. -/
def Rounded.search (r : Rounded) (tie : Tie) : Nat → Int → Numeral
  | 0, ten => ⟨r.value * (scale r.exponent ten).1 / (scale r.exponent ten).2, ten⟩
  | steps + 1, ten => (r.onGrid? tie ten).getD (r.search tie steps (ten - 1))

/-- A power of ten above `mantissa * 2 ^ exponent`. -/
def powerAbove (mantissa : Nat) (exponent : Int) : Int :=
  (mantissa.log2 + 1 + exponent) * 30103 / 100000 + 1

/-- The fewest digits that round to `mantissa * 2 ^ exponent`, and of those the nearest to it. -/
def shortest (tie : Tie) (mantissa : Nat) (exponent : Int) : Numeral :=
  if mantissa = 0 then ⟨0, 0⟩
  else (Rounded.of mantissa exponent).search tie 24 (powerAbove mantissa exponent)

end EntropyGame.Decimal
