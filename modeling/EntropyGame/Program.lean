import EntropyGame.Eval
import EntropyGame.Game.Config
import EntropyGame.Instruction

namespace EntropyGame

/-- A program whose lines are checked; a blank line holds no instruction. -/
structure Program where
  source : String
  lines : Array (Option Instruction)

namespace Program

/-- Names have to be registers, and calls have to fit a builtin. -/
def checkPart : Expr → Except Fault Unit
  | .name s _ =>
    if (Builtin.ofName? s).isSome then .error (.builtinAsValue s)
    else (Register.resolve s).map fun _ => ()
  | .call function args _ =>
    match Builtin.ofName? function with
    | none => .error (.unknownFunction function)
    | some b => if b.accepts args.length then .ok () else .error (.builtinArity b args.length)
  | _ => .ok ()

def checkExpr (e : Expr) : Except Fault Unit :=
  e.parts.forM checkPart

def checkNames (i : Instruction) : Except Fault Unit :=
  i.expressions.forM checkExpr

/-- The instruction on a line of a program. -/
def loadLine (text : String) (line : Nat) : Except Fault (Option Instruction) :=
  match Call.parse text line with
  | .error e => .error (.parse e)
  | .ok none => .ok none
  | .ok (some call) => do
    let i ← Instruction.ofCall call
    checkNames i
    return some i

def loadNumbered (text : String) (line : Nat) : Except GameError (Option Instruction) :=
  if line < lineNumbers then
    match loadLine text line with
    | .error fault => .error (.line line fault)
    | .ok i => .ok i
  else .error .tooLong

/-- Reads and checks every line, once it is clear that there are not too many. -/
def load (source : String) (config : GameConfig) : Except GameError Program :=
  let texts := Text.lines source
  if config.maxLines < texts.length then .error (.tooManyLines texts.length config.maxLines)
  else do
    let lines ← texts.zipIdx.mapM fun (text, line) => loadNumbered text line
    return ⟨source, lines.toArray⟩

def size (p : Program) : Nat :=
  p.lines.size

end Program

end EntropyGame
