import EntropyGame.Data.OrderedMap
import EntropyGame.Json.Record

namespace EntropyGame.Json

variable {α β : Type}

/-- A map as an object, whose fields are named by the keys. -/
def ofMap (name : α → String) (value : β → Json) (m : OrderedMap α β) : Json :=
  .object (m.entries.map fun e => (name e.1, value e.2))

def toPair? (key? : String → Option α) (value? : Json → Option β) (field : String × Json) :
    Option (α × β) := do
  return (← key? field.1, ← value? field.2)

/-- Reads a map. Two fields for one key are one entry, with the later value at the earlier
place. -/
def toMap? [DecidableEq α] (key? : String → Option α) (value? : Json → Option β) (j : Json) :
    Option (OrderedMap α β) := do
  return .ofList (← (← j.toFields?).mapM (toPair? key? value?))

/-- Reads a map from numbers, whose names are written without escapes. -/
def toCounts? (value? : Json → Option β) : Json → Option (OrderedMap Nat β)
  | .disguised _ => none
  | j => j.toMap? nameNat? value?

end EntropyGame.Json
