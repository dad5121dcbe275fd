import EntropyGame.Decimal.Binary64
import EntropyGame.Source.Token
import EntropyGame.Text.Utf8

namespace EntropyGame.Lexer

def isBlank (c : Char) : Bool :=
  c == ' ' || c == '\t' || c == '\r' || c == '\n'

def isNameStart (c : Char) : Bool :=
  c.isAlpha || c == '_'

def isNamePart (c : Char) : Bool :=
  c.isAlphanum || c == '_'

/-- What the characters at the head of a text are. -/
inductive Lexeme
  | skipped
  | token (t : Token)
  | unknown

/-- The digits at the head of a text. -/
def digits (cs : List Char) : List Char :=
  cs.takeWhile Char.isDigit

/-- The digits of the fraction that follows, if a point and at least one digit do. -/
def fraction (cs : List Char) : List Char :=
  match cs with
  | '.' :: cs => digits cs
  | _ => []

/-- The sign and the digits of the exponent that follows, with the sign's width. -/
def exponent (cs : List Char) : Int × Nat × List Char :=
  match cs with
  | e :: '+' :: cs => if e == 'e' || e == 'E' then (1, 1, digits cs) else (1, 0, [])
  | e :: '-' :: cs => if e == 'e' || e == 'E' then (-1, 1, digits cs) else (1, 0, [])
  | e :: cs => if e == 'e' || e == 'E' then (1, 0, digits cs) else (1, 0, [])
  | [] => (1, 0, [])

def integer (ds : List Char) : Lexeme :=
  let n := Decimal.ofDigits ds
  if n < 2 ^ 63 then .token (.integer n) else .unknown

def float (ds : List Char) (power : Int) : Lexeme :=
  let x := Decimal.toFloat (Decimal.ofDigits ds) power
  if x.isFinite then .token (.float x) else .unknown

/-- A number whose first character is a digit, and how many characters it has. A fraction or an
exponent makes it a float. -/
def number (cs : List Char) : Lexeme × Nat :=
  let whole := digits cs
  let part := fraction (cs.drop whole.length)
  let width := whole.length + if part.isEmpty then 0 else 1 + part.length
  let (sign, signWidth, power) := exponent (cs.drop width)
  if power.isEmpty then
    if part.isEmpty then (integer whole, width) else (float (whole ++ part) (-part.length), width)
  else
    (float (whole ++ part) (sign * Decimal.ofDigits power - part.length),
      width + 1 + signWidth + power.length)

def unescape? : Char → Option Char
  | 'n' => some '\n'
  | 'r' => some '\r'
  | 't' => some '\t'
  | '\\' => some '\\'
  | '"' => some '"'
  | '\'' => some '\''
  | '#' => some '#'
  | _ => none

/-- The text between the quotes with its escapes resolved. -/
def unescapeAll? : List Char → Option (List Char)
  | [] => some []
  | '\\' :: c :: cs => do
    return (← unescape? c) :: (← unescapeAll? cs)
  | c :: cs => if c == '\\' then none else (unescapeAll? cs).map (c :: ·)

/-- The characters after an opening quote up to the closing one, or up to where no closing one can
be reached. A backslash takes the character after it along, but not a newline. -/
def quotedBody (quote : Char) : List Char → List Char × Bool
  | [] => ([], false)
  | '\\' :: c :: cs =>
    if c == '\n' then ([], false)
    else
      let (body, closed) := quotedBody quote cs
      ('\\' :: c :: body, closed)
  | c :: cs =>
    if c == quote then ([], true)
    else if c == '\\' then ([], false)
    else
      let (body, closed) := quotedBody quote cs
      (c :: body, closed)

def quoted (quote : Char) (cs : List Char) : Lexeme × Nat :=
  let (body, closed) := quotedBody quote cs
  if closed then
    match unescapeAll? body with
    | some text => (.token (.text (String.ofList text)), body.length + 2)
    | none => (.unknown, body.length + 2)
  else (.unknown, body.length + 1)

/-- A name, unless it is one of the reserved words. -/
def word (cs : List Char) : Lexeme × Nat :=
  let name := String.ofList (cs.takeWhile isNamePart)
  match Symbol.words.find? (·.spelling = name) with
  | some s => (.token (.symbol s), (cs.takeWhile isNamePart).length)
  | none => (.token (.name name), (cs.takeWhile isNamePart).length)

def sign (cs : List Char) : Lexeme × Nat :=
  match Symbol.signs.find? fun s => s.spelling.toList.isPrefixOf cs with
  | some s => (.token (.symbol s), s.spelling.length)
  | none => (.unknown, 1)

/-- The longest lexeme at the head of `c :: cs`, and how many characters it has. -/
def lexeme (c : Char) (cs : List Char) : Lexeme × Nat :=
  if isBlank c then (.skipped, ((c :: cs).takeWhile isBlank).length)
  else if c == '#' then (.skipped, 1 + (cs.takeWhile (· != '\n')).length)
  else if c.isDigit then number (c :: cs)
  else if c == '"' || c == '\'' then quoted c cs
  else if isNameStart c then word (c :: cs)
  else sign (c :: cs)

/-- The part of a line that no rule accepts. -/
structure Failure where
  start : Nat
  stop : Nat
  text : String
  deriving DecidableEq, Repr

def Failure.message (e : Failure) : String :=
  s!"unrecognized input '{e.text}'"

def Failure.display (e : Failure) : String :=
  s!"{e.message} at {e.start}..{e.stop}"

/-- The tokens of a text that begins at byte `start`. -/
def tokensFrom (start : Nat) (cs : List Char) : Except Failure (List Located) :=
  match cs with
  | [] => .ok []
  | c :: cs =>
    let (kind, size) := lexeme c cs
    let read := c :: cs.take (size - 1)
    let stop := start + Text.byteLength read
    match kind with
    | .skipped => tokensFrom stop (cs.drop (size - 1))
    | .unknown => .error ⟨start, stop, String.ofList read⟩
    | .token t => (tokensFrom stop (cs.drop (size - 1))).map (⟨t, start, stop⟩ :: ·)
termination_by cs.length
decreasing_by all_goals simp only [List.length_drop, List.length_cons]; omega

/-- The tokens of one line, without blanks and comments; the first unknown part ends the reading. -/
def tokens (line : String) : Except Failure (List Located) :=
  tokensFrom 0 line.toList

end EntropyGame.Lexer
