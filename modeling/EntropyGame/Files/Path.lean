namespace EntropyGame.Path

def isAbsolute (path : String) : Bool :=
  path.toList.head? = some '/'

/-- A path within a folder. -/
def join (folder path : String) : String :=
  if isAbsolute path || folder.isEmpty then path
  else if folder.toList.getLast? = some '/' then folder ++ path
  else folder ++ "/" ++ path

/-- The parts between the slashes of a path. -/
def parts (path : String) : List String :=
  (path.toList.splitOn '/').map String.ofList

/-- Whether a part of a path leads nowhere else. -/
def isIdle (part : String) : Bool :=
  part = "" || part = "."

/-- The parts without the idle ones at the end; the first one stays. -/
def dropIdle : List String → List String
  | [] => []
  | part :: rest => part :: (rest.reverse.dropWhile isIdle).reverse

def ofParts (parts : List String) : String :=
  if parts = [""] then "/" else "/".intercalate parts

/-- The folder of what is at a path. -/
def folder (path : String) : String :=
  ofParts (dropIdle (dropIdle (parts path)).dropLast)

/-- A path as seen from where another file is. -/
def beside (file path : String) : String :=
  join (folder file) path

/-- What comes up to the last slash of a path, and the name after it. -/
def splitLast (path : String) : String × String :=
  let cs := path.toList.reverse
  (String.ofList (cs.dropWhile (· ≠ '/')).reverse, String.ofList (cs.takeWhile (· ≠ '/')).reverse)

/-- What comes before the last point of a name; there is none in a name without a point that does
not begin it. -/
def stem? (name : String) : Option String :=
  match name.toList.reverse.dropWhile (· ≠ '.') with
  | '.' :: stem => if stem.isEmpty then none else some (String.ofList stem.reverse)
  | _ => none

/-- A path with another extension for its name. A name with nothing but a point before the old
extension gets none: without that extension it is the folder above. -/
def withExtension (path extension : String) : String :=
  let (front, name) := splitLast path
  match stem? name with
  | none => path ++ "." ++ extension
  | some stem => if stem = "." then front ++ ".." else front ++ stem ++ "." ++ extension

end EntropyGame.Path
