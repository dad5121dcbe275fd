import EntropyGame.Builtin.Basic
import EntropyGame.Judge.Basic
import EntropyGame.Register.Store
import EntropyGame.Source.Line

namespace EntropyGame

/-- What can be wrong with a line when a program is loaded or run. -/
inductive Fault
  | parse (e : ParseError)
  | namedArgument (verb : Verb) (name : String)
  | assignPositional
  | assignNothing
  | elicitNothing
  | elicitNoTarget
  | ensureNothing
  | argumentCount (verb : Verb)
  | targetShape (target : Expr)
  | beaconShape (verb : Verb) (target : Expr)
  | undeclaredRegister (name : String)
  | staticTarget (verb : Verb) (r : Register)
  | listTarget (r : Register)
  | listItem (found : Kind)
  | operand (op : UnaryOp) (found : Kind)
  | operands (op : BinaryOp) (left right : Kind)
  | logicOperand (op : BinaryOp) (found : Kind)
  | misaligned (e : Misaligned)
  | notFinite (found : Kind)
  | budget (found : Value)
  | replayCount (found : Value)
  | write (e : WriteFault)
  | condition (found : Kind)
  | score (found : Kind)
  | scoreOverflow (score : Float)
  | noRegister (name : String)
  | builtinAsValue (name : String)
  | unknownName (name : String)
  | unknownFunction (name : String)
  | builtinArity (b : Builtin) (count : Nat)
  | builtinArgument (b : Builtin) (position : Nat) (expected : String) (found : Kind)
  | builtinNamed (b : Builtin) (name : String)
  | tooManySteps (round limit : Nat)
  | noBeacon (name : String)
  | nothingToRetry
  | tooManyFailures (attempt : Nat)
  | outsideProgram (line : Nat)
  | jumpOutside (target : Nat)
  | undeclaredBeacon (name : String)
  | missingRegister (r : Register)
  | judge (e : JudgeFault)
  | player (message : String)

/-- The classes of faults. -/
inductive Fault.Class
  | syntactic
  | type
  | resolution
  | game
  | internal
  | judge
  | player
  deriving DecidableEq, Repr

def Fault.Class.words : Fault.Class → String
  | syntactic => "syntax"
  | type => "type"
  | resolution => "resolution"
  | game => "game"
  | internal => "internal"
  | judge => "judge"
  | player => "player"

/-- The beacons that a program can set. -/
def flags : List String :=
  ["flag_1", "flag_2", "flag_3", "flag_4"]

namespace Fault

def classOf : Fault → Class
  | parse _ | namedArgument .. | assignPositional | assignNothing | elicitNothing | elicitNoTarget
  | ensureNothing | argumentCount _ | targetShape _ | beaconShape .. | undeclaredRegister _ =>
    .syntactic
  | staticTarget .. | listTarget _ | listItem _ | operand .. | operands .. | logicOperand ..
  | misaligned _ | notFinite _ | budget _ | replayCount _ | write _ | condition _ | score _
  | scoreOverflow _ => .type
  | noRegister _ | builtinAsValue _ | unknownName _ | unknownFunction _ | builtinArity ..
  | builtinArgument .. | builtinNamed .. => .resolution
  | tooManySteps .. | noBeacon _ | nothingToRetry | tooManyFailures _ => .game
  | outsideProgram _ | jumpOutside _ | undeclaredBeacon _ | missingRegister _ => .internal
  | judge _ => .judge
  | player _ => .player

def arityText (b : Builtin) : String :=
  let (least, most) := b.arity
  if least = most then toString least else s!"{least} to {most}"

def message : Fault → String
  | parse e => e.display
  | namedArgument verb name => s!"{verb.spelling}() takes no keyword arguments, got '{name}'"
  | assignPositional => "assign() takes keyword arguments only"
  | assignNothing => "assign() needs at least one target"
  | elicitNothing => "elicit() needs targets and a length budget"
  | elicitNoTarget => "elicit() needs at least one target"
  | ensureNothing => "ensure() needs at least one condition"
  | argumentCount verb =>
    let wanted := if verb = .replay then "a beacon name and a count" else "exactly one argument"
    s!"{verb.spelling}() takes {wanted}"
  | targetShape target => s!"elicit target must be a register name, got {target.display}"
  | beaconShape verb target => s!"{verb.spelling}() needs a beacon name, got {target.display}"
  | undeclaredRegister name => s!"undeclared register '{name}'"
  | staticTarget .assign r => s!"cannot assign to static register '{r.name}'"
  | staticTarget verb r => s!"cannot {verb.spelling} into static register '{r.name}'"
  | listTarget r => s!"cannot elicit into list register '{r.name}'"
  | listItem found => s!"list items must be strings, got {found.words}"
  | operand op found => s!"cannot apply '{op.spelling}' to {found.words}"
  | operands op left right => s!"cannot apply '{op.spelling}' to {left.words} and {right.words}"
  | logicOperand op found => s!"'{op.spelling}' needs boolean operands, got {found.words}"
  | misaligned e => e.message
  | notFinite found => s!"{found.words} left the representable range"
  | budget found =>
    s!"elicit length budget must be a non-negative integer, got {found.display}"
  | replayCount found => s!"replay count must be a non-negative integer, got {found.display}"
  | write e => e.message
  | condition found => s!"ensure() needs boolean conditions, got {found.words}"
  | score found => s!"reward() needs a number or xent vector, got {found.words}"
  | scoreOverflow x => s!"reward of {Decimal.Layout.plain.write x} overflows the game score"
  | noRegister name => s!"'{name}' is not a register"
  | builtinAsValue name => s!"builtin '{name}' cannot be used as a value"
  | unknownName name => s!"unknown identifier '{name}'"
  | unknownFunction name => s!"unknown function '{name}'"
  | builtinArity b count => s!"{b.name}() takes {arityText b} argument(s), got {count}"
  | builtinArgument b position expected found =>
    s!"argument {position} of {b.name}() must be {expected}, got {found.words}"
  | builtinNamed b name => s!"{b.name}() does not take keyword argument '{name}'"
  | tooManySteps round limit => s!"round {round} exceeded {limit} executed instructions"
  | noBeacon name => s!"'{name}' is not a beacon; use one of " ++ ", ".intercalate flags
  | nothingToRetry => "ensure() failed with no earlier elicit to retry"
  | tooManyFailures attempt => s!"ensure() failed {attempt} times in a row"
  | outsideProgram line => s!"line pointer {line} is outside the program"
  | jumpOutside target => s!"jump target {target} is outside the program"
  | undeclaredBeacon name => s!"replay to undeclared beacon '{name}'"
  | missingRegister r => s!"register '{r.name}' missing from store"
  | judge e => e.message
  | player text => text

end Fault

/-- Why a game cannot be loaded, run or resumed. -/
inductive GameError
  | line (line : Nat) (fault : Fault)
  | tooManyLines (count limit : Nat)
  | tooLong
  | savedLine (line count : Nat)
  | malformed (text : String)

namespace GameError

def line? : GameError → Option Nat
  | line n _ => some n
  | _ => none

/-- What an error says; `complaint` says what keeps a text from being a checkpoint. -/
def message (complaint : String → String) : GameError → String
  | line n fault => s!"{fault.classOf.words} error on line {n}: {fault.message}"
  | tooManyLines count limit =>
    s!"configuration error: program has {count} lines, limit is {limit}"
  | tooLong => "configuration error: program too long"
  | savedLine n count => s!"checkpoint error: saved line {n} is outside the {count}-line program"
  | malformed text => s!"checkpoint error: {complaint text}"

end GameError

end EntropyGame
