import EntropyGame.Batch.Store
import EntropyGame.Batch.Unit

namespace EntropyGame

/-- Why nothing comes of a work unit. -/
inductive UnitFault
  | error (e : BatchError)
  | panic (p : Panic)

/-- How a work unit ended. If something broke down, the number of its task is known too. -/
inductive UnitStatus
  | completed (score : Float)
  | suspended
  | skipped (score : Float)
  | failed (e : BatchError)
  | panicked (task : Nat) (p : Panic)

/-- How a work unit ends in a task. -/
def UnitFault.status (task : Nat) : UnitFault → UnitStatus
  | error e => .failed e
  | panic p => .panicked task p

/-- What is told of a work unit. -/
structure UnitReport where
  key : String
  game : String
  player : String
  seed : Nat
  status : UnitStatus

namespace UnitStatus

def fields (host : Host) : UnitStatus → List (String × Json)
  | completed score => [("status", .string "completed"), ("total_score", .number score)]
  | suspended => [("status", .string "suspended")]
  | skipped score => [("status", .string "skipped"), ("total_score", .number score)]
  | failed e => [("status", .string "failed"), ("error", .string (e.message host))]
  | panicked task p =>
    [("status", .string "failed"), ("error", .string s!"panicked: {host.panicText task p}")]

def isFailed : UnitStatus → Bool
  | failed _ | panicked .. => true
  | _ => false

end UnitStatus

def UnitReport.toJson (host : Host) (r : UnitReport) : Json :=
  .object ([("key", .string r.key), ("game", .string r.game), ("player", .string r.player),
    ("seed", .nat r.seed)] ++ r.status.fields host)

def WorkUnit.report (u : WorkUnit) (status : UnitStatus) : UnitReport :=
  ⟨u.key, u.game.name, u.player.id, u.seed, status⟩

/-- A work unit with the number of the task that it runs in. -/
structure Job where
  task : Nat
  unit : WorkUnit

/-- What the units of a batch share: the model and the maker of their judges, and players with a
memory of type `σ`, each of which begins as its specification and the seed tell. A player may break
down before its game or in it. -/
structure Batch (σ : Type) where
  model : String
  judges : JudgeMaker
  player : Player σ
  seat : PlayerSpec → Nat → Except UnitFault σ
  /-- What a player has thrown in its game. -/
  thrown : σ → Option Panic := fun _ => none

/-- The memory of a scripted player before its first request. -/
def PlayerSpec.script (p : PlayerSpec) : Script where
  responses := p.responses
  halts := p.haltWhenExhausted

namespace Batch

def scripted (model : String) (judges : JudgeMaker) : Batch Script where
  model := model
  judges := judges
  player := Script.player
  seat p _ := .ok p.script

variable {σ : Type}

/-- A new game for a unit, with a judge for its seed. -/
def newGame (b : Batch σ) (u : WorkUnit) : Except BatchError (Game × State) := do
  let judge ← (b.judges ⟨b.model, u.seed⟩).mapError .judge
  let g ← (Game.load u.game.program u.game.config judge).mapError .game
  return (g, g.initial)

/-- The game of a unit: the stored one if it was suspended, else a new one. -/
def start (b : Batch σ) (u : WorkUnit) : Option UnitRecord → Except BatchError (Game × State)
  | some { checkpoint := .state saved, .. } => (saved.resume b.judges).mapError .game
  | _ => b.newGame u

def record (u : WorkUnit) (s : State) (c : Checkpoint) : UnitRecord :=
  ⟨u.game.name, u.player.id, u.seed, s.totalScore, s.usage, c⟩

/-- Plays a game up to its end or a halt. -/
def play (b : Batch σ) (u : WorkUnit) (g : Game) (s : State) :
    Except UnitFault (UnitRecord × UnitStatus) := do
  let memory ← b.seat u.player u.seed
  let (session, outcome) := g.run b.player ⟨s, memory⟩
  let s := session.state
  match b.thrown session.memory, outcome with
  | some p, _ => .error (.panic p)
  | none, .finished => return (record u s (.results s.completed), .completed s.totalScore)
  | none, .halted => return (record u s (.state (g.save s)), .suspended)
  | none, .failed e => .error (.error (.game e))

/-- Plays what a unit still has to play. -/
def outcome (b : Batch σ) (u : WorkUnit) (stored : Option UnitRecord) :
    Except UnitFault (UnitRecord × UnitStatus) := do
  let (g, s) ← (b.start u stored).mapError .error
  b.play u g s

variable {m : Type → Type} [Monad m]

/-- Runs a unit unless the store has a complete record of it, and stores what comes of it. -/
def runUnit (b : Batch σ) (store : Store m) (task : Nat) (u : WorkUnit) : m UnitStatus := do
  match ← store.load u.key with
  | .error e => return .failed e
  | .ok stored =>
    match stored.filter UnitRecord.isComplete with
    | some r => return .skipped r.totalScore
    | none =>
      match b.outcome u stored with
      | .error e => return e.status task
      | .ok (r, status) =>
        match ← store.save u.key r with
        | .error e => return .failed e
        | .ok _ => return status

/-- Runs units one after another. -/
def run (b : Batch σ) (store : Store m) (jobs : List Job) : m (List UnitReport) :=
  jobs.mapM fun j => do return j.unit.report (← b.runUnit store j.task j.unit)

end Batch

/-- The work units of a batch with the numbers that their tasks get. -/
def Host.jobs (host : Host) (units : List WorkUnit) : List Job :=
  units.zipIdx.map fun (u, n) => ⟨host.task n, u⟩

end EntropyGame
