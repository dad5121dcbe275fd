import EntropyGame.Decimal.Layout

namespace EntropyGame

/-- The tokens with a fixed spelling. -/
inductive Symbol
  | yes
  | no
  | and
  | or
  | not
  | plus
  | minus
  | star
  | slashes
  | percent
  | bar
  | equals
  | differs
  | less
  | lessEqual
  | greater
  | greaterEqual
  | assign
  | comma
  | openParen
  | closeParen
  | openBracket
  | closeBracket
  deriving DecidableEq, Repr

namespace Symbol

def words : List Symbol :=
  [yes, no, and, or, not]

/-- The symbols that are not words; of two that begin alike the longer one comes first. -/
def signs : List Symbol :=
  [slashes, equals, differs, lessEqual, greaterEqual, plus, minus, star, percent, bar, less,
    greater, assign, comma, openParen, closeParen, openBracket, closeBracket]

def spelling : Symbol → String
  | yes => "true"
  | no => "false"
  | and => "and"
  | or => "or"
  | not => "not"
  | plus => "+"
  | minus => "-"
  | star => "*"
  | slashes => "//"
  | percent => "%"
  | bar => "|"
  | equals => "=="
  | differs => "!="
  | less => "<"
  | lessEqual => "<="
  | greater => ">"
  | greaterEqual => ">="
  | assign => "="
  | comma => ","
  | openParen => "("
  | closeParen => ")"
  | openBracket => "["
  | closeBracket => "]"

end Symbol

inductive Token
  | symbol (s : Symbol)
  | integer (n : Int)
  | float (x : Float)
  | text (s : String)
  | name (s : String)

/-- How messages show a token; the text of a string stands in single quotes as it is. -/
def Token.display : Token → String
  | .symbol s => s.spelling
  | .integer n => toString n
  | .float x => Decimal.Layout.plain.write x
  | .text s => "'" ++ s ++ "'"
  | .name s => s

/-- A token and the bytes of its line that it was read from. -/
structure Located where
  token : Token
  start : Nat
  stop : Nat

end EntropyGame
