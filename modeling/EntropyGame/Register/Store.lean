import EntropyGame.Json.Map
import EntropyGame.Register.Basic
import EntropyGame.Value.Codec

namespace EntropyGame

/-- The contents of registers. -/
abbrev Registers := OrderedMap Register Value

/-- Why a value cannot be written to a register. -/
inductive WriteFault
  | static (r : Register)
  | kind (r : Register) (found : Kind)
  deriving DecidableEq, Repr

def WriteFault.message : WriteFault → String
  | static r => s!"register '{r.name}' is static"
  | kind r found => s!"register '{r.name}' holds a {r.kind.words}, cannot store a {found.words}"

namespace Registers

/-- What a register holds at first: static ones a preset text, all others nothing. -/
def initial (presets : OrderedMap String String) (r : Register) : Value :=
  if r.isList then .list []
  else .ofText (if r.isStatic then (presets.get? r.name).getD "" else "")

def ofPresets (presets : OrderedMap String String) : Registers :=
  .ofList (Register.all.map fun r => (r, initial presets r))

/-- Writes a register that may change with a value of its kind. -/
def set (rs : Registers) (r : Register) (v : Value) : Except WriteFault Registers :=
  if r.isStatic then .error (.static r)
  else if v.kind ≠ r.kind then .error (.kind r v.kind)
  else .ok (rs.insert r v)

/-- What players are shown, by name. -/
def snapshot (rs : Registers) : List (String × Value) :=
  (rs.entries.filter (·.1.isPublic)).map fun e => (e.1.name, e.2)

/-- Empties the lists; everything else lasts from round to round. -/
def resetLists (rs : Registers) : Registers :=
  rs.mapWithKey fun r v => if r.isList then .list [] else v

def toJson (rs : Registers) : Json :=
  .object [("slots", .ofMap Register.name Value.toJson rs)]

/-- Registers may go by any of their names. -/
def ofJson? (j : Json) : Option Registers := do
  let field ← j.record? ["slots"]
  (← field "slots").toMap? Register.ofName? Value.ofJson?

end Registers

end EntropyGame
