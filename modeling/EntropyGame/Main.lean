import EntropyGame.CommandLine.Execute

namespace EntropyGame

/-- The code of the error that a folder cannot be read as a file. -/
def isFolderCode : UInt32 := 21

def faultOf : IO.Error → FileFault
  | .noFileOrDirectory .. => .notFound
  | .invalidArgument .. => .nameTooLong
  | .inappropriateType _ code _ => if code = isFolderCode then .isFolder else .notFolder
  | .userError _ => .notText
  | e => .other (toString e)

def attempt (action : IO Unit) : IO (Except FileFault Unit) := do
  try
    action
    return .ok ()
  catch e => return .error (faultOf e)

/-- The files of the machine. -/
def machine : Disk IO where
  read path := do
    try return .text (← IO.FS.readFile path)
    catch e =>
      match faultOf e with
      | .notFound => return .missing .notFound
      | .nameTooLong => return .missing .nameTooLong
      | .notFolder => return .missing .notFolder
      | fault => return .unreadable fault
  write path text := attempt (IO.FS.writeFile path text)
  rename source target := attempt (IO.FS.rename source target)
  makeFolder path := return (← attempt (IO.FS.createDirAll path)).isOk

def FileFault.words : FileFault → String
  | notFound => "No such file or directory"
  | notFolder => "Not a directory"
  | isFolder => "Is a directory"
  | nameTooLong => "File name too long"
  | zeroCharacter => "file name contained an unexpected NUL byte"
  | notText => "stream did not contain valid UTF-8"
  | other text => text

def Document.words : Document → String
  | checkpoint => "not a checkpoint"
  | record => "not a result record"
  | runConfig => "not a run configuration"

/-- Where the program runs: units run one after another, in tasks numbered from zero. -/
def host : Host where
  fileText := FileFault.words
  documentText document _ := document.words
  panicText task p :=
    match p.text with
    | none => s!"task {task} panicked"
    | some text => s!"task {task} panicked with message {Text.quoted text}"
  task n := n

end EntropyGame

def main (args : List String) : IO UInt32 := do
  let ending ← EntropyGame.CommandLine.execute EntropyGame.host EntropyGame.machine args
  IO.print ending.output
  return ending.code.toUInt32
