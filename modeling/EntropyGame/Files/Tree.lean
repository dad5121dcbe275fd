import EntropyGame.Data.OrderedMap
import EntropyGame.Files.Disk
import EntropyGame.Files.Path

namespace EntropyGame

/-- Files and folders, each under the names that lead to it from the root. The folders above the root
are there too, but nothing is known of what they hold. -/
structure Tree where
  files : OrderedMap (List String) String := .empty
  folders : List (List String) := []

namespace Tree

/-- How many bytes a name may have. -/
def nameLimit : Nat := 255

/-- How many bytes a path may have. -/
def pathLimit : Nat := 4095

/-- Whether a path can lead anywhere in the tree. -/
def isPath (path : String) : Bool :=
  !Path.isAbsolute path && path.utf8ByteSize ≤ pathLimit && path.toList.all (· ≠ '\x00')

/-- Whether a place is the root or above it. -/
def isOutside (place : List String) : Bool :=
  place.all (· = "..")

/-- The folder that holds a place. -/
def above (place : List String) : List String :=
  if isOutside place then place ++ [".."] else place.dropLast

def isFolder (t : Tree) (place : List String) : Bool :=
  isOutside place || t.folders.contains place

/-- Where the parts of a path lead from a place; all but the last have to lead to a folder. -/
def walk (t : Tree) (place : List String) : List String → Option (List String)
  | [] => some place
  | name :: rest =>
    if !t.isFolder place || nameLimit < name.utf8ByteSize then none
    else if Path.isIdle name then t.walk place rest
    else if name = ".." then t.walk (above place) rest
    else t.walk (place ++ [name]) rest

/-- The place of a path, which is relative to the root and not empty. -/
def find? (t : Tree) (path : String) : Option (List String) :=
  if path.isEmpty || !isPath path then none else t.walk [] (Path.parts path)

/-- What is in the way of the parts of a path from a place, or wrong with what they lead to. -/
def wayFault (t : Tree) (place : List String) : List String → FileFault
  | [] => if t.isFolder place then .isFolder else .notFound
  | name :: rest =>
    if !t.isFolder place then if t.files.contains place then .notFolder else .notFound
    else if nameLimit < name.utf8ByteSize then .nameTooLong
    else if Path.isIdle name then t.wayFault place rest
    else if name = ".." then t.wayFault (above place) rest
    else t.wayFault (place ++ [name]) rest

/-- What is wrong with a path at which no file is read or written. -/
def fault (t : Tree) (path : String) : FileFault :=
  if path.toList.contains '\x00' then .zeroCharacter
  else if pathLimit < path.utf8ByteSize then .nameTooLong
  else if path.isEmpty || Path.isAbsolute path then .notFound
  else t.wayFault [] (Path.parts path)

/-- The file that is always empty and takes any text. -/
def nullPath : String := "/dev/null"

def read (t : Tree) (path : String) : Content :=
  match t.find? path with
  | none => if path = nullPath then .text "" else .missing (t.fault path)
  | some place =>
    match t.files.get? place with
    | some s => .text s
    | none =>
      if t.isFolder place then .unreadable (t.fault path) else .missing (t.fault path)

def write (t : Tree) (path text : String) : Except FileFault Unit × Tree :=
  match t.find? path with
  | none => (if path = nullPath then .ok () else .error (t.fault path), t)
  | some place =>
    if t.isFolder place then (.error (t.fault path), t)
    else (.ok (), { t with files := t.files.insert place text })

/-- Gives a file another path, where it takes the place of any file. -/
def rename (t : Tree) (source target : String) : Except FileFault Unit × Tree :=
  match t.find? source, t.find? target with
  | none, _ => (.error (t.fault source), t)
  | some _, none => (.error (t.fault target), t)
  | some old, some new =>
    match t.files.get? old with
    | none => (.error (t.fault source), t)
    | some text =>
      if t.isFolder new then (.error (t.fault target), t)
      else (.ok (), { t with files := (t.files.erase old).insert new text })

/-- Makes the folders on a way as far as there are none. The last one is not made if the way goes on
to it by a point. -/
def makeFolders (t : Tree) (place : List String) : List String → Bool × Tree
  | [] => (t.isFolder place, t)
  | name :: rest =>
    if !t.isFolder place || nameLimit < name.utf8ByteSize then (false, t)
    else if Path.isIdle name then t.makeFolders place rest
    else if name = ".." then t.makeFolders (above place) rest
    else
      let next := place ++ [name]
      if t.isFolder next then t.makeFolders next rest
      else if t.files.contains next || (rest.all Path.isIdle && rest.contains ".") then (false, t)
      else makeFolders { t with folders := t.folders ++ [next] } next rest

def makeFolder (t : Tree) (path : String) : Bool × Tree :=
  if isPath path then t.makeFolders [] (Path.parts path) else (false, t)

/-- A tree as a disk. -/
def disk : Disk (StateM Tree) where
  read path := do return (← get).read path
  write path text := modifyGet (·.write path text)
  rename source target := modifyGet (·.rename source target)
  makeFolder path := modifyGet (·.makeFolder path)

/-- A tree with a text at each of some paths. -/
def ofTexts (texts : List (String × String)) : Tree :=
  texts.foldl (fun t f => ((t.makeFolder (Path.folder f.1)).2.write f.1 f.2).2) {}

end Tree

end EntropyGame
