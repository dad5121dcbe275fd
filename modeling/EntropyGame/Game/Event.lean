import EntropyGame.Value.Codec

namespace EntropyGame

/-- What can happen in a round. -/
inductive Event
  | roundStarted (round : Nat)
  | elicitRequest (line : Nat) (register : String) (maxLength : Nat)
  | elicitResponse (line : Nat) (register : String) (response : Phrase)
  | reveal (line : Nat) (values : List Value)
  | reward (line : Nat) (value : Value) (score : Float)
  | failedEnsure (line : Nat) (results : List Bool) (retryLine : Nat) (attempt : Nat)
  | roundFinished (round : Nat) (score : Float)
  deriving BEq

namespace Event

def name : Event → String
  | roundStarted .. => "round_started"
  | elicitRequest .. => "elicit_request"
  | elicitResponse .. => "elicit_response"
  | reveal .. => "reveal"
  | reward .. => "reward"
  | failedEnsure .. => "failed_ensure"
  | roundFinished .. => "round_finished"

def fields : Event → List (String × Json)
  | roundStarted round => [("round", .nat round)]
  | elicitRequest line register maxLength =>
    [("line", .nat line), ("register", .string register), ("max_len", .nat maxLength)]
  | elicitResponse line register response =>
    [("line", .nat line), ("register", .string register), ("response", response.toJson)]
  | reveal line values => [("line", .nat line), ("values", .array (values.map Value.toJson))]
  | reward line value score =>
    [("line", .nat line), ("value", value.toJson), ("score", .number score)]
  | failedEnsure line results retryLine attempt =>
    [("line", .nat line), ("results", .array (results.map Json.bool)),
      ("retry_line", .nat retryLine), ("attempt", .nat attempt)]
  | roundFinished round score => [("round", .nat round), ("score", .number score)]

/-- The fields of an event come after its name. -/
def toJson (e : Event) : Json :=
  .object (("type", .string e.name) :: e.fields)

/-- A document without its tag, which is a field of an object or the first item of an array. -/
def untag? (tag : String) : Json → Option (Json × Json)
  | .object fields | .disguised fields =>
    match fields.filter (·.1 = tag) with
    | [(_, value)] => some (value, .object (fields.filter (·.1 ≠ tag)))
    | _ => none
  | .array (value :: items) => some (value, .array items)
  | _ => none

def count? (field : Option Json) : Option Nat :=
  field.bind (Json.toNat? Json.word)

def text? (field : Option Json) : Option String :=
  field.bind Json.toText?

def float? (field : Option Json) : Option Float :=
  field.bind Json.toFloat?

/-- The fields are kept whole until the name is known, so none of them may be flawed. -/
def ofJson? (j : Json) : Option Event := do
  let (tag, body) ← untag? "type" j
  guard body.isSound
  match ← tag.toText? with
  | "round_started" =>
    let field ← body.record? ["round"]
    return roundStarted (← count? (field "round"))
  | "elicit_request" =>
    let field ← body.record? ["line", "register", "max_len"]
    return elicitRequest (← count? (field "line")) (← text? (field "register"))
      (← count? (field "max_len"))
  | "elicit_response" =>
    let field ← body.record? ["line", "register", "response"]
    return elicitResponse (← count? (field "line")) (← text? (field "register"))
      (← Phrase.ofJson? (← field "response"))
  | "reveal" =>
    let field ← body.record? ["line", "values"]
    return reveal (← count? (field "line")) (← Json.toList? Value.ofKeptJson? (← field "values"))
  | "reward" =>
    let field ← body.record? ["line", "value", "score"]
    return reward (← count? (field "line")) (← Value.ofKeptJson? (← field "value"))
      (← float? (field "score"))
  | "failed_ensure" =>
    let field ← body.record? ["line", "results", "retry_line", "attempt"]
    return failedEnsure (← count? (field "line")) (← Json.toList? Json.toBool? (← field "results"))
      (← count? (field "retry_line")) (← (field "attempt").bind (Json.toNat? Json.halfWord))
  | "round_finished" =>
    let field ← body.record? ["round", "score"]
    return roundFinished (← count? (field "round")) (← float? (field "score"))
  | _ => none

end Event

end EntropyGame
