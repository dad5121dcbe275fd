import EntropyGame.Decimal.Binary64

namespace EntropyGame.CommandLine

/-- What can be asked for on the command line. -/
inductive Command
  | run (config : Option String) (output : Option String) (maxConcurrency : Option Nat)
  | resume (checkpoint : String) (responses : List String) (out : Option String)

/-- Why there is nothing to do: help is wanted, or the arguments make no sense. -/
inductive Stop
  | help
  | wrong
  deriving DecidableEq, Repr

/-- An option with one value, or with one or more of them each time it is given. -/
structure OptionSpec where
  name : String
  many : Bool := false
  accepts : String → Bool

/-- What was found among the arguments: those that stand for themselves, and those given to
options. -/
structure Found where
  places : List String := []
  values : List (String × List String) := []

namespace Found

def valuesOf (f : Found) (name : String) : List String :=
  (f.values.filter (·.1 = name)).flatMap Prod.snd

def has (f : Found) (name : String) : Bool :=
  f.values.any (·.1 = name)

/-- Adds an argument to those that stand for themselves, of which there may be `most`. -/
def addPlace (f : Found) (most : Nat) (arg : String) : Except Stop Found :=
  if arg.isEmpty || most ≤ f.places.length then .error .wrong
  else .ok { f with places := f.places ++ [arg] }

def addPlaces (f : Found) (most : Nat) (args : List String) : Except Stop Found :=
  args.foldlM (fun f arg => f.addPlace most arg) f

/-- Adds the values of an option, which can be given again only if it takes many. -/
def addValues (f : Found) (o : OptionSpec) (values : List String) : Except Stop Found :=
  if values.isEmpty || !values.all o.accepts || (f.has o.name && !o.many) then .error .wrong
  else .ok { f with values := f.values ++ [(o.name, values)] }

end Found

/-- Whether an argument can be the value of an option: options and `--` cannot. -/
def isValue (arg : String) : Bool :=
  match arg.toList with
  | '-' :: _ :: _ => false
  | _ => true

/-- A long option split at its first equals sign. -/
def splitLong (cs : List Char) : String × Option String :=
  let name := String.ofList (cs.takeWhile (· ≠ '='))
  match cs.dropWhile (· ≠ '=') with
  | [] => (name, none)
  | _ :: value => (name, some (String.ofList value))

/-- How many of the next arguments an option takes. -/
def OptionSpec.take (o : OptionSpec) (args : List String) : Nat :=
  if o.many then (args.takeWhile isValue).length else ((args.take 1).takeWhile isValue).length

/-- Goes through the arguments. After `--` all of them stand for themselves. -/
def scan (options : List OptionSpec) (most : Nat) (f : Found) :
    List String → Except Stop Found
  | [] => .ok f
  | arg :: args =>
    match arg.toList with
    | ['-', '-'] => f.addPlaces most args
    | '-' :: '-' :: cs =>
      match splitLong cs with
      | ("help", none) => .error .help
      | (name, value) =>
        match options.find? (·.name = name) with
        | none => .error .wrong
        | some o =>
          match value with
          | some v => do
            let f ← f.addValues o [v]
            scan options most f args
          | none => do
            let f ← f.addValues o (args.take (o.take args))
            scan options most f (args.drop (o.take args))
    | ['-'] => do
      let f ← f.addPlace most arg
      scan options most f args
    | '-' :: 'h' :: _ => .error .help
    | '-' :: _ => .error .wrong
    | _ => do
      let f ← f.addPlace most arg
      scan options most f args
termination_by args => args.length
decreasing_by all_goals simp only [List.length_drop, List.length_cons]; omega

/-- A number below `2 ^ 64` in digits, perhaps after a plus sign. -/
def number? (s : String) : Option Nat :=
  let digits := match s.toList with
    | '+' :: cs => cs
    | cs => cs
  if digits.isEmpty || !digits.all Char.isDigit then none
  else
    let n := digits.foldl (fun n c => 10 * n + (c.toNat - '0'.toNat)) 0
    if n < 2 ^ 64 then some n else none

def isPath (s : String) : Bool :=
  !s.isEmpty

def runOptions : List OptionSpec :=
  [⟨"output", false, isPath⟩, ⟨"max-concurrency", false, fun s => (number? s).isSome⟩]

def resumeOptions : List OptionSpec :=
  [⟨"responses", true, fun _ => true⟩, ⟨"out", false, isPath⟩]

namespace Command

def ofRun (args : List String) : Except Stop Command := do
  let f ← scan runOptions 1 {} args
  return .run f.places.head? (f.valuesOf "output").head?
    ((f.valuesOf "max-concurrency").head?.bind number?)

def ofResume (args : List String) : Except Stop Command := do
  let f ← scan resumeOptions 1 {} args
  match f.places with
  | [checkpoint] => return .resume checkpoint (f.valuesOf "responses") (f.valuesOf "out").head?
  | _ => .error .wrong

/-- Reads the arguments. The name of a command counts as such only in first place. -/
def ofArguments : List String → Except Stop Command
  | "resume" :: args => ofResume args
  | ["help"] | ["help", "resume"] | ["help", "help"] => .error .help
  | "help" :: _ => .error .wrong
  | args => ofRun args

end Command

end EntropyGame.CommandLine
