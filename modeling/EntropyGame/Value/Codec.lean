import EntropyGame.Json.Record
import EntropyGame.Value.Basic

namespace EntropyGame

/-- An empty decoration is left out. -/
def Phrase.toJson (p : Phrase) : Json :=
  .object (("primary", .string p.primary) ::
    if p.isDecorated then [("prefix", .string p.decoration)] else [])

def Phrase.ofJson? (j : Json) : Option Phrase := do
  let field ← j.record? ["primary", "prefix"]
  return ⟨← (← field "primary").toText?, ← Json.orDefault "" Json.toText? (field "prefix")⟩

def costPairToJson (p : String × Float) : Json :=
  .array [.string p.1, .number p.2]

def costPairOfJson? : Json → Option (String × Float)
  | .array [token, cost] => do return (← token.toText?, ← cost.toFloat?)
  | _ => none

def CostVector.toJson (v : CostVector Float) : Json :=
  .object [("pairs", .array (v.pairs.map costPairToJson)), ("scale", .number v.factor)]

def CostVector.ofJson? (j : Json) : Option (CostVector Float) := do
  let field ← j.record? ["pairs", "scale"]
  return ⟨← Json.toList? costPairOfJson? (← field "pairs"), ← (← field "scale").toFloat?⟩

def Verdict.toJson (v : Verdict) : Json :=
  .object [("value", .bool v.holds), ("trace", .string v.trace)]

def Verdict.ofJson? (j : Json) : Option Verdict := do
  let field ← j.record? ["value", "trace"]
  return ⟨← (← field "value").toBool?, ← (← field "trace").toText?⟩

namespace Value

/-- The name of a kind beside a content. -/
def tagged (kind : String) (content : Json) : Json :=
  .object [("kind", .string kind), ("value", content)]

def toJson : Value → Json
  | phrase p => tagged "str" p.toJson
  | list ps => tagged "list" (.array (ps.map Phrase.toJson))
  | costs v => tagged "xent" v.toJson
  | verdict v => tagged "validated" v.toJson
  | number x => tagged "number" (.number x)
  | bool b => tagged "bool" (.bool b)

/-- Whether the content of a value stands before its kind. -/
def isContentFirst (j : Json) : Bool :=
  (j.toFields?.bind fun fields =>
    fields.find? fun f => f.1 = "kind" || f.1 = "value").any (·.1 = "value")

def kinds : List String :=
  ["str", "list", "xent", "validated", "number", "bool"]

/-- The value of a kind with a content. -/
def ofContent? (content : Json) (kind : String) : Option Value :=
  match kind with
  | "str" => (Phrase.ofJson? content).map phrase
  | "list" => (Json.toList? Phrase.ofJson? content).map list
  | "xent" => (CostVector.ofJson? content).map costs
  | "validated" => (Verdict.ofJson? content).map verdict
  | "number" => content.toFloat?.map number
  | "bool" => content.toBool?.map bool
  | _ => none

/-- Reads a value. A content that stands before its kind is kept whole until the kind is known, so
no part of it may be flawed. -/
def decode? (kept : Bool) : Json → Option Value
  | .array [kind, content] => (kind.toName? kept kinds).bind (ofContent? content)
  | .array _ => none
  | j => do
    let field ← j.record? ["kind", "value"]
    let content ← field "value"
    guard (!isContentFirst j || content.isSound)
    ofContent? content (← (← field "kind").toCase? kept)

def ofJson? : Json → Option Value :=
  decode? false

/-- Reads a value from a part of a document that was kept whole. -/
def ofKeptJson? : Json → Option Value :=
  decode? true

end Value

end EntropyGame
