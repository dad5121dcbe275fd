import EntropyGame.Game.Config
import EntropyGame.Text.Escape

namespace EntropyGame

/-- A named program with its limits. -/
structure GameSpec where
  name : String
  program : String
  config : GameConfig := {}
  deriving BEq

/-- A scripted player: what it answers, and whether it halts or repeats itself after that. -/
structure PlayerSpec where
  id : String
  responses : List String := []
  haltWhenExhausted : Bool := false
  deriving DecidableEq

/-- A game to be played once. -/
structure WorkUnit where
  game : GameSpec
  player : PlayerSpec
  seed : Nat

namespace WorkUnit

/-- The name under which a unit is stored. Underscores are written otherwise within each part, so
that two of them always separate parts. -/
def key (u : WorkUnit) : String :=
  s!"{Text.Percent.encode u.game.name}__{Text.Percent.encode u.player.id}__{u.seed}"

/-- Every game with every player and every seed, in that order. -/
def product (games : List GameSpec) (players : List PlayerSpec) (seeds : List Nat) :
    List WorkUnit :=
  games.flatMap fun game => players.flatMap fun player => seeds.map fun seed => ⟨game, player, seed⟩

end WorkUnit

namespace GameSpec

def toJson (g : GameSpec) : Json :=
  .object [("name", .string g.name), ("program", .string g.program), ("config", g.config.toJson)]

def ofJson? (j : Json) : Option GameSpec := do
  let field ← j.record? ["name", "program", "config"]
  return {
    name := ← (← field "name").toText?
    program := ← (← field "program").toText?
    config := ← Json.orDefault {} GameConfig.ofJson? (field "config") }

end GameSpec

namespace PlayerSpec

def toJson (p : PlayerSpec) : Json :=
  .object [("id", .string p.id), ("responses", .array (p.responses.map Json.string)),
    ("halt_when_exhausted", .bool p.haltWhenExhausted)]

def ofJson? (j : Json) : Option PlayerSpec := do
  let field ← j.record? ["id", "responses", "halt_when_exhausted"]
  return {
    id := ← (← field "id").toText?
    responses := ← Json.orDefault [] (Json.toList? Json.toText?) (field "responses")
    haltWhenExhausted := ← Json.orDefault false Json.toBool? (field "halt_when_exhausted") }

end PlayerSpec

end EntropyGame
