import EntropyGame.Batch.Config
import EntropyGame.Batch.Run
import EntropyGame.CommandLine.Arguments
import EntropyGame.Judge.Cache

namespace EntropyGame.CommandLine

/-- How a command ends: its exit code and what it prints. -/
structure Ending where
  code : Nat
  output : String := ""
  deriving DecidableEq, Repr

def done : Ending :=
  { code := 0 }

def failed : Ending :=
  { code := 1 }

def Stop.ending : Stop → Ending
  | help => { code := 0 }
  | wrong => { code := 2 }

/-- A record or a bare checkpoint. -/
inductive Saved
  | record (r : UnitRecord)
  | bare (c : Checkpoint)

namespace Saved

def read? (text : String) : Option Saved :=
  match UnitRecord.read? text with
  | some r => some (record r)
  | none => (Checkpoint.read text).toOption.map bare

def checkpoint : Saved → Checkpoint
  | record r => r.checkpoint
  | bare c => c

/-- The same with where the game stands now. -/
def update (s : State) (c : Checkpoint) : Saved → Saved
  | record r => record { r with totalScore := s.totalScore, usage := s.usage, checkpoint := c }
  | bare _ => bare c

def write : Saved → String
  | record r => r.write
  | bare c => c.write

end Saved

/-- The text that comes of a saved game when it goes on with more responses; none if it is
finished already. -/
def resumeText (text : String) (responses : List String) : Option (Option String) :=
  match Saved.read? text with
  | none => none
  | some saved =>
    match saved.checkpoint with
    | .results _ => some none
    | .state game =>
      match game.resume Judge.builtin with
      | .error _ => none
      | .ok (g, s) =>
        let (session, outcome) := g.run Script.player ⟨s, { responses, halts := true }⟩
        let s := session.state
        match outcome with
        | .finished => some (some (saved.update s (.results s.completed)).write)
        | .halted => some (some (saved.update s (.state (g.save s))).write)
        | .failed _ => none

variable {m : Type → Type} [Monad m]

def resume (disk : Disk m) (checkpoint : String) (responses : List String)
    (out : Option String) : m Ending := do
  match ← disk.read checkpoint with
  | .text text =>
    match resumeText text responses with
    | none => return failed
    | some none => return done
    | some (some text) =>
      match ← disk.write (out.getD checkpoint) text with
      | .error _ => return failed
      | .ok () => return done
  | _ => return failed

def reportText (host : Host) (reports : List UnitReport) : String :=
  (Json.array (reports.map (UnitReport.toJson host))).toPretty ++ "\n"

def runConfig (host : Host) (disk : Disk m) (c : RunConfig) : m Ending := do
  match ← c.fetchUnits disk with
  | .error _ => return failed
  | .ok units =>
    if ← disk.makeFolder c.outputFolder then
      let b := Batch.scripted c.judge.model Judge.builtin
      let reports ← b.run (.files disk c.outputFolder) (host.jobs units)
      return ⟨if reports.any (·.status.isFailed) then 1 else 0, reportText host reports⟩
    else return failed

def run (host : Host) (disk : Disk m) (file : String) (output : Option String)
    (limit : Option Nat) : m Ending := do
  match ← RunConfig.fetch disk file with
  | .error _ => return failed
  | .ok c =>
    runConfig host disk { c with
      outputFolder := output.getD c.outputFolder
      maxConcurrency := limit.getD c.maxConcurrency }

/-- Does what the arguments ask for. -/
def execute (host : Host) (disk : Disk m) (args : List String) : m Ending :=
  match Command.ofArguments args with
  | .error stop => return stop.ending
  | .ok (.run none _ _) => return failed
  | .ok (.run (some file) output limit) => run host disk file output limit
  | .ok (.resume checkpoint responses out) => resume disk checkpoint responses out

end EntropyGame.CommandLine
