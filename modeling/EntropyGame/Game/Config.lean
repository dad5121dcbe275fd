import EntropyGame.Json.Map

namespace EntropyGame

/-- The limits of a game, and texts for its static registers by name. -/
structure GameConfig where
  rounds : Nat := 1
  maxEnsureFailures : Nat := 10
  maxSteps : Nat := 10000
  maxLines : Nat := 64
  presets : OrderedMap String String := .empty
  deriving BEq, Inhabited

namespace GameConfig

def toJson (c : GameConfig) : Json :=
  .object [("rounds", .nat c.rounds), ("max_ensure_failures", .nat c.maxEnsureFailures),
    ("max_steps", .nat c.maxSteps), ("max_lines", .nat c.maxLines),
    ("presets", .ofMap id .string c.presets)]

/-- Every field may be missing. -/
def ofJson? (j : Json) : Option GameConfig := do
  let field ← j.record? ["rounds", "max_ensure_failures", "max_steps", "max_lines", "presets"]
  let base : GameConfig := {}
  return {
    rounds := ← Json.orDefault base.rounds (Json.toNat? Json.word) (field "rounds")
    maxEnsureFailures := ← Json.orDefault base.maxEnsureFailures (Json.toNat? Json.halfWord)
      (field "max_ensure_failures")
    maxSteps := ← Json.orDefault base.maxSteps (Json.toNat? Json.word) (field "max_steps")
    maxLines := ← Json.orDefault base.maxLines (Json.toNat? Json.word) (field "max_lines")
    presets := ← Json.orDefault base.presets (Json.toMap? some Json.toText?) (field "presets") }

end GameConfig

end EntropyGame
