import EntropyGame.Data.OrderedMap
import EntropyGame.Files.Disk

namespace EntropyGame

/-- Texts under paths, which are told apart by how they are spelled. Nothing fails there but giving
another path to what does not exist. -/
structure Texts where
  files : OrderedMap String String := .empty

namespace Texts

def read (t : Texts) (path : String) : Content :=
  match t.files.get? path with
  | some s => .text s
  | none => .missing .notFound

def write (t : Texts) (path text : String) : Texts :=
  { t with files := t.files.insert path text }

def rename (t : Texts) (source target : String) : Except FileFault Unit × Texts :=
  match t.files.get? source with
  | none => (.error .notFound, t)
  | some text => (.ok (), { t with files := (t.files.erase source).insert target text })

/-- Texts as a disk; there are no folders to make. -/
def disk : Disk (StateM Texts) where
  read path := do return (← get).read path
  write path text := modifyGet fun t => (.ok (), t.write path text)
  rename source target := modifyGet (·.rename source target)
  makeFolder _ := return true

end Texts

end EntropyGame
