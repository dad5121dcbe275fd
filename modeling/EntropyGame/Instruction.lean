import EntropyGame.Fault

namespace EntropyGame

/-- What a line does. -/
inductive Instruction
  | assign (targets : List (Register × Expr))
  | reveal (values : List Expr)
  | elicit (targets : List Register) (budget : Expr)
  | ensure (conditions : List Expr)
  | reward (score : Expr)
  | beacon (name : String)
  | replay (name : String) (count : Expr)

/-- The register that a name stands for. -/
def Register.resolve (name : String) : Except Fault Register :=
  match ofName? name with
  | some r => .ok r
  | none => if isShaped name then .error (.undeclaredRegister name) else .error (.noRegister name)

namespace Instruction

def assignTarget (arg : String × Expr) : Except Fault (Register × Expr) := do
  let r ← Register.resolve arg.1
  if r.isStatic then .error (.staticTarget .assign r) else .ok (r, arg.2)

def elicitTarget (e : Expr) : Except Fault Register := do
  match e.name? with
  | none => .error (.targetShape e)
  | some name =>
    let r ← Register.resolve name
    if r.isStatic then .error (.staticTarget .elicit r)
    else if r.isList then .error (.listTarget r)
    else .ok r

def beaconName (verb : Verb) (e : Expr) : Except Fault String :=
  match e.name? with
  | none => .error (.beaconShape verb e)
  | some name => .ok name

def ofPositional (verb : Verb) (args : List Expr) : Except Fault Instruction :=
  match verb, args with
  | .reveal, values => .ok (.reveal values)
  | .elicit, args =>
    match args.getLast? with
    | none => .error .elicitNothing
    | some budget =>
      if args.dropLast.isEmpty then .error .elicitNoTarget
      else do
        let targets ← args.dropLast.mapM elicitTarget
        return .elicit targets budget
  | .ensure, [] => .error .ensureNothing
  | .ensure, conditions => .ok (.ensure conditions)
  | .reward, [score] => .ok (.reward score)
  | .beacon, [e] => do
    let name ← beaconName verb e
    return .beacon name
  | .replay, [e, count] => do
    let name ← beaconName verb e
    return .replay name count
  | verb, _ => .error (.argumentCount verb)

/-- Checks the shape of a call. Only targets of `assign` have names. -/
def ofCall (c : Call) : Except Fault Instruction :=
  match c.verb with
  | .assign =>
    if !c.positional.isEmpty then .error .assignPositional
    else if c.args.isEmpty then .error .assignNothing
    else do
      let targets ← c.named.mapM assignTarget
      return .assign targets
  | verb =>
    match c.named with
    | arg :: _ => .error (.namedArgument verb arg.1)
    | [] => ofPositional verb c.positional

def verb : Instruction → Verb
  | assign _ => .assign
  | reveal _ => .reveal
  | elicit .. => .elicit
  | ensure _ => .ensure
  | reward _ => .reward
  | beacon _ => .beacon
  | replay .. => .replay

/-- The expressions that are evaluated when the instruction runs. -/
def expressions : Instruction → List Expr
  | assign targets => targets.map Prod.snd
  | reveal values => values
  | elicit _ budget => [budget]
  | ensure conditions => conditions
  | reward score => [score]
  | beacon _ => []
  | replay _ count => [count]

end Instruction

end EntropyGame
