namespace EntropyGame

/-- A text to be scored, and a decoration that is read before it but not scored. -/
structure Phrase where
  primary : String
  decoration : String := ""
  deriving DecidableEq, Inhabited, Repr

/-- A text before and after the first place where `cut` stands. -/
def splitAtFirst? (cut : List Char) : List Char → Option (List Char × List Char)
  | [] => if cut.isEmpty then some ([], []) else none
  | c :: cs =>
    if cut.isPrefixOf (c :: cs) then some ([], (c :: cs).drop cut.length)
    else (splitAtFirst? cut cs).map fun (before, after) => (c :: before, after)

namespace Phrase

def size (p : Phrase) : Nat :=
  p.primary.length

def isEmpty (p : Phrase) : Bool :=
  p.primary.isEmpty

def isDecorated (p : Phrase) : Bool :=
  !p.decoration.isEmpty

def plain (p : Phrase) : Phrase :=
  { primary := p.primary }

/-- Replaces the decoration by the primary text of another phrase. -/
def decorate (p context : Phrase) : Phrase :=
  { p with decoration := context.primary }

/-- Joins the primary texts; the decoration of the left phrase stays. -/
def append (p q : Phrase) : Phrase :=
  { p with primary := p.primary ++ q.primary }

/-- What stands before the first `cut`; everything if it is empty or stands nowhere. -/
def cutBefore (p : Phrase) (cut : String) : Phrase :=
  if cut.isEmpty then p
  else match splitAtFirst? cut.toList p.primary.toList with
    | none => p
    | some (before, _) => { p with primary := String.ofList before }

/-- What stands after the first `cut`; everything if it is empty and nothing if it stands
nowhere. -/
def cutAfter (p : Phrase) (cut : String) : Phrase :=
  if cut.isEmpty then p
  else match splitAtFirst? cut.toList p.primary.toList with
    | none => { p with primary := "" }
    | some (_, after) => { p with primary := String.ofList after }

end Phrase

end EntropyGame
