import EntropyGame.Source.Span
import EntropyGame.Source.Token

namespace EntropyGame

/-- Where in a line a token stands that does not belong there. -/
inductive Place
  | inExpression
  | afterExpression
  | afterInstruction
  deriving DecidableEq, Repr

def Place.words : Place → String
  | .inExpression => "in expression"
  | .afterExpression => "after expression"
  | .afterInstruction => "after instruction"

/-- Why a line does not parse; the end of the line is found where no token is. -/
inductive ParseFault
  | unrecognized (text : String)
  | expected (wanted : Symbol) (found : Option Token)
  | unexpected (found : Option Token) (place : Place)
  | callOfNoName
  | noCall
  | tooManyLines
  | unknownInstruction (name : String)

def ParseFault.message : ParseFault → String
  | unrecognized text => s!"unrecognized input '{text}'"
  | expected wanted none => s!"expected '{wanted.spelling}', found end of line"
  | expected wanted (some t) => s!"expected '{wanted.spelling}', found '{t.display}'"
  | unexpected none place => s!"unexpected end of line {place.words}"
  | unexpected (some t) place => s!"unexpected '{t.display}' {place.words}"
  | callOfNoName => "only named functions can be called"
  | noCall => "line is not a single instruction call"
  | tooManyLines => "program has too many lines"
  | unknownInstruction name => s!"unknown instruction '{name}'"

structure ParseError where
  fault : ParseFault
  span : Span

namespace ParseError

def message (e : ParseError) : String :=
  e.fault.message

def display (e : ParseError) : String :=
  s!"{e.message} at {e.span.text}"

end ParseError

end EntropyGame
