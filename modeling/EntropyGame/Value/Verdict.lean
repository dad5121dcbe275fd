namespace EntropyGame

/-- A truth value that remembers how it was found. -/
structure Verdict where
  holds : Bool
  trace : String
  deriving DecidableEq, Repr

def boolText (b : Bool) : String :=
  if b then "true" else "false"

namespace Verdict

def ofBool (b : Bool) : Verdict :=
  ⟨b, boolText b⟩

def and (v w : Verdict) : Verdict :=
  ⟨v.holds && w.holds, s!"({v.trace}) and ({w.trace})"⟩

def or (v w : Verdict) : Verdict :=
  ⟨v.holds || w.holds, s!"({v.trace}) or ({w.trace})"⟩

def not (v : Verdict) : Verdict :=
  ⟨!v.holds, s!"not ({v.trace})"⟩

def toFloat (v : Verdict) : Float :=
  if v.holds then 1.0 else 0.0

def display (v : Verdict) : String :=
  s!"{boolText v.holds} [{v.trace}]"

end Verdict

end EntropyGame
