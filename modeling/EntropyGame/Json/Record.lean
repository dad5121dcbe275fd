import EntropyGame.Decimal.Binary64
import EntropyGame.Json.Document

namespace EntropyGame.Json

/-- The value of a field whose name occurs once. -/
def lookup (name : String) : List (String × Json) → Option Json
  | [] => none
  | (n, v) :: fields => if n = name then some v else lookup name fields

/-- The fields of a record with the given names, found by name in an object or by position in an
array. A name that stands twice in an object and an item beyond the last name are refused; fields
with other names are passed over. -/
def record? (names : List String) : Json → Option (String → Option Json)
  | .object fields | .disguised fields =>
    if names.all fun name => (fields.filter (·.1 = name)).length ≤ 1 then
      some fun name => lookup name fields
    else none
  | .array items =>
    if items.length ≤ names.length then some fun name => lookup name (names.zip items) else none
  | _ => none

def toBool? : Json → Option Bool
  | .bool b => some b
  | _ => none

def toText? : Json → Option String
  | .string s => some s
  | _ => none

/-- A whole number below `bound`. -/
def toNat? (bound : Nat) : Json → Option Nat
  | .int n => if 0 ≤ n ∧ n < bound then some n.toNat else none
  | _ => none

def word : Nat := 2 ^ 64

def halfWord : Nat := 2 ^ 32

def toFloat? : Json → Option Float
  | .int n => some (Float.ofInt n)
  | .float x => some x
  | _ => none

def toItems? : Json → Option (List Json)
  | .array items => some items
  | _ => none

def toFields? : Json → Option (List (String × Json))
  | .object fields | .disguised fields => some fields
  | _ => none

/-- Whether a document says no more than that there is nothing. Where documents are kept whole
before they are read, an empty object says so too. -/
def isNothing (kept : Bool) : Json → Bool
  | .null => true
  | .object [] => kept
  | _ => false

/-- The name of one of some cases as the first item of an array. Where documents are kept whole before
they are read, the number of the case will do. -/
def toName? (kept : Bool) (cases : List String) : Json → Option String
  | .string name => some name
  | .int n => if kept && 0 ≤ n then cases[n.toNat]? else none
  | _ => none

/-- The name of a case as a field: alone or as the only field of an object with nothing in it. -/
def toCase? (kept : Bool) : Json → Option String
  | .string name => some name
  | .object [(name, value)] | .disguised [(name, value)] =>
    if value.isNothing kept then some name else none
  | _ => none

/-- Reads a list item by item. -/
def toList? {α : Type} (item : Json → Option α) (j : Json) : Option (List α) :=
  j.toItems?.bind fun items => items.mapM item

/-- Reads a value that may be null. -/
def toNullable? {α : Type} (value : Json → Option α) : Json → Option (Option α)
  | .null => some none
  | j => (value j).map some

/-- Reads a field that may be missing but not null. -/
def orDefault {α : Type} (default : α) (value : Json → Option α) : Option Json → Option α
  | none => some default
  | some j => value j

/-- Reads a field that may be missing or null. -/
def orNone {α : Type} (value : Json → Option α) : Option Json → Option (Option α)
  | none => some none
  | some j => toNullable? value j

/-- A whole number written as the name of a field: digits without a leading zero. -/
def nameNat? (name : String) : Option Nat :=
  let cs := name.toList
  if cs.isEmpty || !cs.all Char.isDigit || (cs.head? == some '0' && cs.length != 1) then none
  else
    let n := cs.foldl (fun n c => 10 * n + (c.toNat - '0'.toNat)) 0
    if n < word then some n else none

end EntropyGame.Json
