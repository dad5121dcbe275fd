import EntropyGame.Json.Record

namespace EntropyGame

/-- What a judge is built from. -/
structure JudgeConfig where
  model : String := "cache"
  seed : Nat := 0
  deriving DecidableEq, Inhabited, Repr

namespace JudgeConfig

def toJson (c : JudgeConfig) : Json :=
  .object [("model", .string c.model), ("seed", .nat c.seed)]

def ofJson? (j : Json) : Option JudgeConfig := do
  let field ← j.record? ["model", "seed"]
  return {
    model := ← (← field "model").toText?
    seed := ← Json.orDefault 0 (Json.toNat? Json.word) (field "seed") }

end JudgeConfig

inductive JudgeFault
  | unknownModel (model : String)
  | beyondEnd (given size : Nat)
  | costCount (expected found : Nat)
  | failed (message : String)
  deriving DecidableEq, Repr

def JudgeFault.message : JudgeFault → String
  | unknownModel model => s!"unknown judge model '{model}'"
  | beyondEnd given size => s!"prefix length {given} exceeds sequence length {size}"
  | costCount expected found => s!"judge returned {found} costs for {expected} tokens"
  | failed message => s!"judge backend failed: {message}"

/-- A language model: it splits texts into tokens, and tells for a row of tokens what each one
after the first few costs in bits, given all tokens before it. -/
structure Judge where
  config : JudgeConfig
  tokenize : String → List String
  score : List String → Nat → Except JudgeFault (List Float)

/-- A way to build judges. -/
abbrev JudgeMaker := JudgeConfig → Except JudgeFault Judge

end EntropyGame
