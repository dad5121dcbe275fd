namespace EntropyGame

/-- Why nothing can be read at a path, or nothing be put there. -/
inductive FileFault
  | notFound
  | notFolder
  | isFolder
  | nameTooLong
  | zeroCharacter
  | notText
  | other (text : String)
  deriving DecidableEq, Repr

/-- What is found at a path: nothing, something that is no text, or a text. -/
inductive Content
  | missing (fault : FileFault)
  | unreadable (fault : FileFault)
  | text (s : String)

def Content.text? : Content → Option String
  | text s => some s
  | _ => none

/-- Files that can be read and written in `m`. Writing and giving another name tell what was in the
way, and making folders tells whether it worked. -/
structure Disk (m : Type → Type) where
  read : String → m Content
  write : String → String → m (Except FileFault Unit)
  rename : String → String → m (Except FileFault Unit)
  makeFolder : String → m Bool

end EntropyGame
