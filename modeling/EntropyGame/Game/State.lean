import EntropyGame.Game.Config
import EntropyGame.Game.Player
import EntropyGame.Register.Store

namespace EntropyGame

/-- What is left to ask of an `elicit` that was interrupted: the target at `next`, whose request may
have been announced already. -/
structure Pending where
  line : Nat
  next : Nat
  requested : Bool
  deriving DecidableEq, Repr

structure RoundResult where
  round : Nat
  score : Float
  usage : Usage
  history : Array Event
  deriving BEq

/-- Where a game stands. Counters belong to lines. -/
structure State where
  registers : Registers
  beacons : OrderedMap String Nat := .empty
  replayCounters : OrderedMap Nat Nat := .empty
  ensureFailures : OrderedMap Nat Nat := .empty
  line : Nat := 0
  round : Nat := 0
  roundStarted : Bool := false
  roundScore : Float := 0
  totalScore : Float := 0
  usage : Usage := {}
  roundUsage : Usage := {}
  steps : Nat := 0
  pending : Option Pending := none
  history : Array Event := #[]
  completed : Array RoundResult := #[]
  deriving BEq

/-- The beacon before the first line. -/
def startBeacon : String := "start"

/-- The beacon of the `elicit` that ran last. -/
def previousElicit : String := "previous_elicit"

namespace State

def initial (config : GameConfig) : State where
  registers := .ofPresets config.presets

/-- Opens a round: registers other than lists, totals and finished rounds stay. -/
def beginRound (s : State) : State :=
  { s with
    registers := s.registers.resetLists
    beacons := OrderedMap.empty.insert startBeacon 0
    replayCounters := .empty
    ensureFailures := .empty
    roundScore := 0
    roundUsage := {}
    steps := 0
    line := 0
    pending := none
    history := #[]
    roundStarted := true }

/-- Closes a round and puts it with the finished ones. -/
def finishRound (s : State) : State :=
  { s with
    completed := s.completed.push ⟨s.round, s.roundScore, s.roundUsage, s.history⟩
    history := #[]
    round := s.round + 1
    roundStarted := false
    line := 0
    steps := 0 }

end State

end EntropyGame
