import EntropyGame.Game.State
import EntropyGame.Program

namespace EntropyGame

/-- What stays the same while a game is played. -/
structure Game where
  program : Program
  config : GameConfig
  judge : Judge

/-- Where a game stands, and what its player remembers. -/
structure Session (σ : Type) where
  state : State
  memory : σ

/-- Where to go after a line; after a halt the same line is run again. -/
inductive Flow
  | next
  | jump (target : Nat)
  | halt
  deriving DecidableEq, Repr

/-- Puts an event into the history and shows it to the player. -/
def Session.emit {σ : Type} (player : Player σ) (e : Event) (s : Session σ) : Session σ :=
  { state := { s.state with history := s.state.history.push e }
    memory := player.notify s.memory e }

namespace State

/-- Writes values one by one up to the first fault. -/
def writeAll (s : State) : List (Register × Value) → State × Except Fault Flow
  | [] => (s, .ok .next)
  | (r, v) :: rest =>
    match s.registers.set r v with
    | .error e => (s, .error (.write e))
    | .ok registers => { s with registers }.writeAll rest

/-- The counter of a line. -/
def counter (counters : OrderedMap Nat Nat) (line : Nat) : Nat :=
  (counters.get? line).getD 0

/-- Where an `elicit` begins: at what it left when it was interrupted, or at its first target. -/
def progress (s : State) (line : Nat) : Pending :=
  match s.pending with
  | some p => if p.line = line then p else ⟨line, 0, false⟩
  | none => ⟨line, 0, false⟩

def setBeacon (s : State) (name : String) (line : Nat) : State :=
  { s with beacons := s.beacons.insert name line }

def addUsage (s : State) (u : Usage) : State :=
  { s with usage := s.usage + u, roundUsage := s.roundUsage + u }

def addScore (s : State) (x : Float) : State :=
  { s with roundScore := s.roundScore + x, totalScore := s.totalScore + x }

end State

namespace Game

variable {σ : Type}

def eval (g : Game) (s : State) (e : Expr) : Except Fault Value :=
  e.eval s.registers g.judge

/-- The value of an expression as a count; any other value is a fault of the given form. -/
def evalCount (g : Game) (s : State) (fault : Value → Fault) (e : Expr) : Except Fault Nat := do
  let v ← g.eval s e
  match v.count? with
  | some n => return n
  | none => .error (fault v)

def evalCondition (g : Game) (s : State) (e : Expr) : Except Fault Bool := do
  let v ← g.eval s e
  match v.condition? with
  | some b => return b
  | none => .error (.condition v.kind)

/-- The score that a value is worth. -/
def scoreOf : Value → Except Fault Float
  | .number x => .ok x
  | .costs v => .ok v.total
  | v => .error (.score v.kind)

/-- Every expression is evaluated before the first write. -/
def assign (g : Game) (targets : List (Register × Expr)) (s : State) :
    State × Except Fault Flow :=
  match targets.mapM fun t => g.eval s t.2 with
  | .error f => (s, .error f)
  | .ok values => s.writeAll ((targets.map Prod.fst).zip values)

def reveal (g : Game) (player : Player σ) (line : Nat) (values : List Expr) (s : Session σ) :
    Session σ × Except Fault Flow :=
  match values.mapM fun e => g.eval s.state e with
  | .error f => (s, .error f)
  | .ok vs => (s.emit player (.reveal line vs), .ok .next)

/-- Asks for one register after another, the first of which may have been announced already. -/
def ask (g : Game) (player : Player σ) (line budget : Nat) :
    List Register → Nat → Bool → Session σ → Session σ × Except Fault Flow
  | [], _, _, s => (s, .ok .next)
  | r :: rs, position, announced, s =>
    let s := if announced then s else s.emit player (.elicitRequest line r.name budget)
    let (answer, memory) := player.request s.memory ⟨r.name, budget, s.state.registers.snapshot⟩
    match answer with
    | .error .halt =>
      ({ state := { s.state with pending := some ⟨line, position, true⟩ }, memory }, .ok .halt)
    | .error (.failed message) => ({ s with memory }, .error (.player message))
    | .ok move =>
      let response := Measure.firstTokens g.judge { primary := move.response } budget
      match s.state.registers.set r (.phrase response) with
      | .error e => ({ s with memory }, .error (.write e))
      | .ok registers =>
        let s : Session σ := ⟨{ s.state with registers }.addUsage move.usage, memory⟩
        ask g player line budget rs (position + 1) false
          (s.emit player (.elicitResponse line r.name response))

/-- The line counts as the last `elicit` even if its budget is at fault. -/
def elicit (g : Game) (player : Player σ) (line : Nat) (targets : List Register) (budget : Expr)
    (s : Session σ) : Session σ × Except Fault Flow :=
  let s := { s with state := s.state.setBeacon previousElicit line }
  match g.evalCount s.state .budget budget with
  | .error f => (s, .error f)
  | .ok n =>
    let p := s.state.progress line
    g.ask player line n (targets.drop p.next) p.next p.requested
      { s with state := { s.state with pending := none } }

/-- Goes back to the last `elicit` unless all conditions hold, but not too often in a row. -/
def ensure (g : Game) (player : Player σ) (line : Nat) (conditions : List Expr) (s : Session σ) :
    Session σ × Except Fault Flow :=
  match conditions.mapM fun e => g.evalCondition s.state e with
  | .error f => (s, .error f)
  | .ok results =>
    if results.all id then
      ({ s with state :=
          { s.state with ensureFailures := s.state.ensureFailures.erase line } }, .ok .next)
    else
      match s.state.beacons.get? previousElicit with
      | none => (s, .error .nothingToRetry)
      | some target =>
        let attempt := State.counter s.state.ensureFailures line + 1
        let failures := s.state.ensureFailures.insert line attempt
        let s := { s with state := { s.state with ensureFailures := failures } }
        let s := s.emit player (.failedEnsure line results target attempt)
        if g.config.maxEnsureFailures ≤ attempt then (s, .error (.tooManyFailures attempt))
        else (s, .ok (.jump target))

/-- Adds to the scores, which have to stay finite. -/
def reward (g : Game) (player : Player σ) (line : Nat) (e : Expr) (s : Session σ) :
    Session σ × Except Fault Flow :=
  match g.eval s.state e with
  | .error f => (s, .error f)
  | .ok v =>
    match scoreOf v with
    | .error f => (s, .error f)
    | .ok x =>
      let state := s.state.addScore x
      if state.roundScore.isFinite && state.totalScore.isFinite then
        ({ s with state }.emit player (.reward line v x), .ok .next)
      else (s, .error (.scoreOverflow x))

def beacon (line : Nat) (name : String) (s : State) : State × Except Fault Flow :=
  if flags.contains name then (s.setBeacon name line, .ok .next)
  else (s, .error (.noBeacon name))

/-- The line where a replay goes on: the one after the beacon, but `start` has no line. -/
def replayTarget (name : String) (line : Nat) : Nat :=
  if name = startBeacon then line else line + 1

/-- Goes back to a beacon as often as the count tells, and then forgets that it did. -/
def replay (g : Game) (line : Nat) (name : String) (count : Expr) (s : State) :
    State × Except Fault Flow :=
  match g.evalCount s .replayCount count with
  | .error f => (s, .error f)
  | .ok n =>
    let taken := State.counter s.replayCounters line
    if n ≤ taken then ({ s with replayCounters := s.replayCounters.erase line }, .ok .next)
    else
      match s.beacons.get? name with
      | none => (s, .error (.undeclaredBeacon name))
      | some target =>
        ({ s with replayCounters := s.replayCounters.insert line (taken + 1) },
          .ok (.jump (replayTarget name target)))

/-- Runs what changes nothing but the state. -/
def quietly (run : State → State × Except Fault Flow) (s : Session σ) :
    Session σ × Except Fault Flow :=
  let (state, flow) := run s.state
  ({ s with state }, flow)

def execute (g : Game) (player : Player σ) (line : Nat) (i : Instruction) (s : Session σ) :
    Session σ × Except Fault Flow :=
  match i with
  | .assign targets => quietly (g.assign targets) s
  | .reveal values => g.reveal player line values s
  | .elicit targets budget => g.elicit player line targets budget s
  | .ensure conditions => g.ensure player line conditions s
  | .reward score => g.reward player line score s
  | .beacon name => quietly (beacon line name) s
  | .replay name count => quietly (g.replay line name count) s

/-- Whether a line is done, or waits for the player. -/
inductive Progress
  | running
  | halted
  deriving DecidableEq, Repr

def goTo (s : Session σ) (line : Nat) : Session σ :=
  { s with state := { s.state with line } }

/-- A line that was run to its end counts. -/
def finishLine (s : Session σ) (line : Nat) : Session σ :=
  { s with state := { s.state with line, steps := s.state.steps + 1 } }

/-- Moves the line pointer. -/
def follow (g : Game) (line : Nat) (s : Session σ) : Flow → Session σ × Except Fault Progress
  | .next => (finishLine s (line + 1), .ok .running)
  | .jump target =>
    if g.program.size < target then (s, .error (.jumpOutside target))
    else (finishLine s target, .ok .running)
  | .halt => (s, .ok .halted)

/-- Runs one line. Blank lines are free, and all others are limited in number for each round. -/
def step (g : Game) (player : Player σ) (s : Session σ) : Session σ × Except Fault Progress :=
  let line := s.state.line
  match g.program.lines[line]? with
  | none => (s, .error (.outsideProgram line))
  | some none => (goTo s (line + 1), .ok .running)
  | some (some i) =>
    if g.config.maxSteps ≤ s.state.steps then
      (s, .error (.tooManySteps s.state.round g.config.maxSteps))
    else
      match g.execute player line i s with
      | (s, .error f) => (s, .error f)
      | (s, .ok flow) => g.follow line s flow

end Game

end EntropyGame
