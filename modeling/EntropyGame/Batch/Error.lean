import EntropyGame.Fault
import EntropyGame.Files.Disk

namespace EntropyGame

/-- What a text should have been. -/
inductive Document
  | checkpoint
  | record
  | runConfig
  deriving DecidableEq, Repr

/-- What was thrown where something broke down: its text if it has one. -/
structure Panic where
  text : Option String
  deriving DecidableEq, Repr

/-- What is not up to the program but to where it runs: the words for what went wrong outside of it,
and the numbers that tasks go by. -/
structure Host where
  fileText : FileFault → String
  /-- What keeps a text from being a document. -/
  documentText : Document → String → String
  /-- How the task with a number broke down. -/
  panicText : Nat → Panic → String
  /-- The number of the task for the work unit at a position. -/
  task : Nat → Nat

/-- Why a batch or one of its units comes to nothing. -/
inductive BatchError
  | game (e : GameError)
  | judge (e : JudgeFault)
  | file (path : String) (fault : FileFault)
  | malformed (document : Document) (text : String)
  | config (message : String)
  | unknownPlayer (id : String)
  deriving Inhabited

def BatchError.message (host : Host) : BatchError → String
  | game e => e.message (host.documentText .checkpoint)
  | judge e => s!"judge error: {e.message}"
  | file path fault => s!"I/O error at {path}: {host.fileText fault}"
  | malformed document text => s!"serialization error: {host.documentText document text}"
  | config message => s!"invalid run configuration: {message}"
  | unknownPlayer id => s!"unknown player '{id}'"

end EntropyGame
