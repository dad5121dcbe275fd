namespace EntropyGame

/-- A document. The fields of an object keep their order and may repeat a name. A disguised object
has a field whose name is a number spelled with escapes. A flawed part follows the grammar of
documents and yet stands for nothing: a number too large, a string with half of a surrogate pair,
an object with such a name, or what is nested too deep. -/
inductive Json
  | null
  | bool (b : Bool)
  | int (n : Int)
  | float (x : Float)
  | string (s : String)
  | array (items : List Json)
  | object (fields : List (String × Json))
  | disguised (fields : List (String × Json))
  | flawed
  deriving Inhabited

namespace Json

/-- Documents have no infinities and nothing that is not a number. -/
def number (x : Float) : Json :=
  if x.isFinite then .float x else .null

def nat (n : Nat) : Json :=
  .int n

mutual

/-- Whether no part of a document is flawed. -/
def isSound : Json → Bool
  | .array items => areSound items
  | .object fields | .disguised fields => haveSoundValues fields
  | .flawed => false
  | _ => true

def areSound : List Json → Bool
  | [] => true
  | item :: items => isSound item && areSound items

def haveSoundValues : List (String × Json) → Bool
  | [] => true
  | (_, value) :: fields => isSound value && haveSoundValues fields

end

end Json

end EntropyGame
