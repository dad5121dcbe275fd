import EntropyGame.Batch.Error
import EntropyGame.Batch.Record
import EntropyGame.Files.Path

namespace EntropyGame

/-- Where records are kept by key, in `m`. Saving tells whether the record was taken. -/
structure Store (m : Type → Type) where
  load : String → m (Except BatchError (Option UnitRecord))
  save : String → UnitRecord → m (Except BatchError Bool)

namespace Store

/-- Keeps records as they are. A complete record stays. -/
def memory : Store (StateM (OrderedMap String UnitRecord)) where
  load key := do return .ok ((← get).get? key)
  save key r := do
    if ((← get).get? key).any UnitRecord.isComplete then return .ok false
    else
      modify (·.insert key r)
      return .ok true

/-- The path of the file for a key. -/
def path (folder key : String) : String :=
  Path.join folder (key ++ ".json")

variable {m : Type → Type} [Monad m]

def loadFile (disk : Disk m) (path : String) : m (Except BatchError (Option UnitRecord)) := do
  match ← disk.read path with
  | .missing _ => return .ok none
  | .unreadable fault => return .error (.file path fault)
  | .text text =>
    match UnitRecord.read? text with
    | none => return .error (.malformed .record text)
    | some r => return .ok (some r)

/-- Writes a text beside its path first, so that the file is never found half written. -/
def replaceFile (disk : Disk m) (path text : String) : m (Except BatchError Bool) := do
  let staging := Path.withExtension path "json.tmp"
  match ← disk.write staging text with
  | .error fault => return .error (.file staging fault)
  | .ok () =>
    match ← disk.rename staging path with
    | .error fault => return .error (.file path fault)
    | .ok () => return .ok true

/-- Keeps the texts of records in files in a folder. A complete record stays, and so does a text that
is no record. -/
def files (disk : Disk m) (folder : String) : Store m where
  load key := loadFile disk (path folder key)
  save key r := do
    match ← loadFile disk (path folder key) with
    | .error e => return .error e
    | .ok old =>
      if old.any UnitRecord.isComplete then return .ok false
      else replaceFile disk (path folder key) r.write

end Store

end EntropyGame
