import EntropyGame.Json.Document
import EntropyGame.Decimal.Layout

namespace EntropyGame.Json

def hexDigit (n : Nat) : Char :=
  if n < 10 then Char.ofNat ('0'.toNat + n) else Char.ofNat ('a'.toNat + (n - 10))

/-- Quotes, backslashes and the characters below the space are escaped, nothing else. -/
def escapeChar (c : Char) : List Char :=
  match c with
  | '"' => ['\\', '"']
  | '\\' => ['\\', '\\']
  | '\x08' => ['\\', 'b']
  | '\x0c' => ['\\', 'f']
  | '\n' => ['\\', 'n']
  | '\r' => ['\\', 'r']
  | '\t' => ['\\', 't']
  | c =>
    if c.toNat < 0x20 then ['\\', 'u', '0', '0', hexDigit (c.toNat / 16), hexDigit (c.toNat % 16)]
    else [c]

def writeString (s : String) : String :=
  String.ofList ('"' :: (s.toList.flatMap escapeChar ++ ['"']))

def writeInt (n : Int) : String :=
  (if n < 0 then "-" else "") ++ toString n.natAbs

def writeFloat (x : Float) : String :=
  if x.isFinite then Decimal.Layout.document.write x else "null"

mutual

/-- A document without any space. A flawed part is written as null. -/
def compact : Json → String
  | .null | .flawed => "null"
  | .bool b => if b then "true" else "false"
  | .int n => writeInt n
  | .float x => writeFloat x
  | .string s => writeString s
  | .array items => "[" ++ ",".intercalate (compactItems items) ++ "]"
  | .object fields | .disguised fields =>
    "\x7b" ++ ",".intercalate (compactFields fields) ++ "\x7d"

def compactItems : List Json → List String
  | [] => []
  | item :: items => compact item :: compactItems items

def compactFields : List (String × Json) → List String
  | [] => []
  | (name, value) :: fields => (writeString name ++ ":" ++ compact value) :: compactFields fields

end

def newline (depth : Nat) : String :=
  String.ofList ('\n' :: List.replicate (2 * depth) ' ')

/-- Parts on lines of their own between brackets, which stay together when there are none. -/
def block (depth : Nat) (opening closing : String) (parts : List String) : String :=
  if parts.isEmpty then opening ++ closing
  else
    let line := newline (depth + 1)
    opening ++ line ++ ("," ++ line).intercalate parts ++ newline depth ++ closing

mutual

/-- A document with every item and field on its own line, two spaces deeper than what holds it. -/
def pretty (depth : Nat) : Json → String
  | .null | .flawed => "null"
  | .bool b => if b then "true" else "false"
  | .int n => writeInt n
  | .float x => writeFloat x
  | .string s => writeString s
  | .array items => block depth "[" "]" (prettyItems (depth + 1) items)
  | .object fields | .disguised fields =>
    block depth "\x7b" "\x7d" (prettyFields (depth + 1) fields)

def prettyItems (depth : Nat) : List Json → List String
  | [] => []
  | item :: items => pretty depth item :: prettyItems depth items

def prettyFields (depth : Nat) : List (String × Json) → List String
  | [] => []
  | (name, value) :: fields =>
    (writeString name ++ ": " ++ pretty depth value) :: prettyFields depth fields

end

def toPretty (j : Json) : String :=
  j.pretty 0

end EntropyGame.Json
