import EntropyGame.Game.Codec
import EntropyGame.Game.Run
import EntropyGame.Json.Reading
import EntropyGame.Json.Writing
import EntropyGame.Judge.Basic

namespace EntropyGame

/-- A game that was left off, with what it takes to go on. -/
structure SavedGame where
  program : String
  config : GameConfig
  state : State
  judge : JudgeConfig
  deriving BEq

/-- What is kept of a game: the results if it is finished, else everything. -/
inductive Checkpoint
  | results (rounds : Array RoundResult)
  | state (game : SavedGame)
  deriving BEq

namespace Game

/-- A game from the text of its program. -/
def load (source : String) (config : GameConfig) (judge : Judge) : Except GameError Game :=
  (Program.load source config).map fun program => ⟨program, config, judge⟩

def initial (g : Game) : State :=
  .initial g.config

def save (g : Game) (s : State) : SavedGame :=
  ⟨g.program.source, g.config, s, g.judge.config⟩

end Game

namespace SavedGame

/-- Loads the program again and builds a judge for it. -/
def resume (saved : SavedGame) (make : JudgeMaker) : Except GameError (Game × State) := do
  let program ← Program.load saved.program saved.config
  if program.size < saved.state.line then .error (.savedLine saved.state.line program.size)
  else
    match make saved.judge with
    | .error e => .error (.line saved.state.line (.judge e))
    | .ok judge => .ok (⟨program, saved.config, judge⟩, saved.state)

def toJson (saved : SavedGame) : Json :=
  .object [("program", .string saved.program), ("config", saved.config.toJson),
    ("vm", saved.state.toJson), ("judge", saved.judge.toJson)]

def ofJson? (j : Json) : Option SavedGame := do
  let field ← j.record? ["program", "config", "vm", "judge"]
  return {
    program := ← (← field "program").toText?
    config := ← GameConfig.ofJson? (← field "config")
    state := ← State.ofJson? (← field "vm")
    judge := ← JudgeConfig.ofJson? (← field "judge") }

end SavedGame

namespace Checkpoint

def isComplete : Checkpoint → Bool
  | results _ => true
  | state _ => false

def toJson : Checkpoint → Json
  | results rounds => .object [("results", roundsToJson rounds)]
  | state game => .object [("state", game.toJson)]

def ofJson? : Json → Option Checkpoint
  | .object [("results", rounds)] => (roundsOfJson? rounds).map results
  | .object [("state", game)] => (SavedGame.ofJson? game).map state
  | _ => none

def write (c : Checkpoint) : String :=
  c.toJson.toPretty

def read (text : String) : Except GameError Checkpoint :=
  match (Json.ofText? text).bind ofJson? with
  | some c => .ok c
  | none => .error (.malformed text)

end Checkpoint

end EntropyGame
