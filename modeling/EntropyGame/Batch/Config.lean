import EntropyGame.Batch.Store
import EntropyGame.Batch.Unit
import EntropyGame.Files.Path

namespace EntropyGame

/-- A game of a run: its program or the path to it, and its own limits if it has any. -/
structure GameEntry where
  name : String
  path : Option String := none
  program : Option String := none
  config : Option GameConfig := none

/-- What to run: games, players and seeds, the judge, limits for games without their own, how many
units may run at once, and where records go. -/
structure RunConfig where
  games : List GameEntry
  players : List PlayerSpec
  seeds : List Nat := [0]
  judge : JudgeConfig := {}
  game : GameConfig := {}
  maxConcurrency : Nat := 4
  outputFolder : String := "results"

namespace GameEntry

def optionalField {α : Type} (name : String) (toJson : α → Json) : Option α → List (String × Json)
  | none => []
  | some a => [(name, toJson a)]

/-- Fields without a value are left out. -/
def toJson (g : GameEntry) : Json :=
  .object (("name", .string g.name) :: (optionalField "path" .string g.path ++
    optionalField "program" .string g.program ++ optionalField "config" GameConfig.toJson g.config))

def ofJson? (j : Json) : Option GameEntry := do
  let field ← j.record? ["name", "path", "program", "config"]
  return {
    name := ← (← field "name").toText?
    path := ← Json.orNone Json.toText? (field "path")
    program := ← Json.orNone Json.toText? (field "program")
    config := ← Json.orNone GameConfig.ofJson? (field "config") }

/-- The path that the program has to be read from. -/
def pathToRead? (g : GameEntry) : Option String :=
  if g.program.isNone then g.path else none

end GameEntry

/-- At least one unit runs at a time. -/
def effectiveConcurrency (limit : Nat) : Nat :=
  max limit 1

namespace RunConfig

def toJson (c : RunConfig) : Json :=
  .object [("games", .array (c.games.map GameEntry.toJson)),
    ("players", .array (c.players.map PlayerSpec.toJson)),
    ("seeds", .array (c.seeds.map Json.nat)), ("judge", c.judge.toJson), ("game", c.game.toJson),
    ("max_concurrency", .nat c.maxConcurrency), ("output_dir", .string c.outputFolder)]

def fieldNames : List String :=
  ["games", "players", "seeds", "judge", "game", "max_concurrency", "output_dir"]

def ofJson? (j : Json) : Option RunConfig := do
  let field ← j.record? fieldNames
  let word := Json.toNat? Json.word
  return {
    games := ← Json.toList? GameEntry.ofJson? (← field "games")
    players := ← Json.toList? PlayerSpec.ofJson? (← field "players")
    seeds := ← Json.orDefault [0] (Json.toList? word) (field "seeds")
    judge := ← Json.orDefault {} JudgeConfig.ofJson? (field "judge")
    game := ← Json.orDefault {} GameConfig.ofJson? (field "game")
    maxConcurrency := ← Json.orDefault 4 word (field "max_concurrency")
    outputFolder := ← Json.orDefault "results" Json.toText? (field "output_dir") }

/-- Paths to programs are relative to the configuration file. -/
def locate (file : String) (c : RunConfig) : RunConfig :=
  { c with games := c.games.map fun g => { g with path := g.path.map (Path.beside file) } }

def read (file text : String) : Except BatchError RunConfig :=
  match (Json.ofText? text).bind ofJson? with
  | none => .error (.malformed .runConfig text)
  | some c => .ok (c.locate file)

/-- A game with its program, given the content at its path. -/
def gameSpec (c : RunConfig) (g : GameEntry) (content : Content) : Except BatchError GameSpec :=
  let spec (program : String) : GameSpec := ⟨g.name, program, g.config.getD c.game⟩
  match g.program, g.path with
  | some program, none => .ok (spec program)
  | none, some path =>
    match content with
    | .text program => .ok (spec program)
    | .missing fault | .unreadable fault => .error (.file path fault)
  | _, _ => .error (.config s!"game '{g.name}' needs exactly one of 'program' or 'path'")

/-- The work units, given the contents at the paths of the games. -/
def workUnits (c : RunConfig) (contents : List Content) : Except BatchError (List WorkUnit) :=
  if c.games.isEmpty || c.players.isEmpty || c.seeds.isEmpty then
    .error (.config "games, players and seeds must all be non-empty")
  else do
    let games ← (c.games.zip contents).mapM fun (g, content) => c.gameSpec g content
    return WorkUnit.product games c.players c.seeds

variable {m : Type → Type} [Monad m]

/-- Reads a configuration file. -/
def fetch (disk : Disk m) (file : String) : m (Except BatchError RunConfig) := do
  match ← disk.read file with
  | .text text => return read file text
  | .missing fault | .unreadable fault => return .error (.file file fault)

/-- Reads the programs that are elsewhere. -/
def fetchUnits (disk : Disk m) (c : RunConfig) : m (Except BatchError (List WorkUnit)) := do
  let contents ← c.games.mapM fun g =>
    match g.pathToRead? with
    | some path => disk.read path
    | none => pure (.missing .notFound)
  return c.workUnits contents

end RunConfig

end EntropyGame
