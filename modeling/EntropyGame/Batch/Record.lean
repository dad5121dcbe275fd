import EntropyGame.Game.Checkpoint

namespace EntropyGame

/-- What is stored of a work unit. -/
structure UnitRecord where
  game : String
  player : String
  seed : Nat
  totalScore : Float
  usage : Usage
  checkpoint : Checkpoint
  deriving BEq

namespace UnitRecord

def isComplete (r : UnitRecord) : Bool :=
  r.checkpoint.isComplete

def toJson (r : UnitRecord) : Json :=
  .object [("game", .string r.game), ("player", .string r.player), ("seed", .nat r.seed),
    ("total_score", .number r.totalScore), ("usage", r.usage.toJson),
    ("checkpoint", r.checkpoint.toJson)]

def ofJson? (j : Json) : Option UnitRecord := do
  let field ← j.record? ["game", "player", "seed", "total_score", "usage", "checkpoint"]
  return {
    game := ← (← field "game").toText?
    player := ← (← field "player").toText?
    seed := ← (← field "seed").toNat? Json.word
    totalScore := ← (← field "total_score").toFloat?
    usage := ← Usage.ofJson? (← field "usage")
    checkpoint := ← Checkpoint.ofJson? (← field "checkpoint") }

def write (r : UnitRecord) : String :=
  r.toJson.toPretty

def read? (text : String) : Option UnitRecord :=
  (Json.ofText? text).bind ofJson?

end UnitRecord

end EntropyGame
