import EntropyGame.Game.State
import EntropyGame.Register.Store

namespace EntropyGame

def Usage.toJson (u : Usage) : Json :=
  .object [("input_tokens", .nat u.inputTokens), ("output_tokens", .nat u.outputTokens)]

def Usage.ofJson? (j : Json) : Option Usage := do
  let field ← j.record? ["input_tokens", "output_tokens"]
  return ⟨← (← field "input_tokens").toNat? Json.word, ← (← field "output_tokens").toNat? Json.word⟩

def Pending.toJson (p : Pending) : Json :=
  .object [("line", .nat p.line), ("next", .nat p.next), ("requested", .bool p.requested)]

def Pending.ofJson? (j : Json) : Option Pending := do
  let field ← j.record? ["line", "next", "requested"]
  return {
    line := ← (← field "line").toNat? Json.word
    next := ← (← field "next").toNat? Json.word
    requested := ← (← field "requested").toBool? }

def historyToJson (history : Array Event) : Json :=
  .array (history.toList.map Event.toJson)

def historyOfJson? (j : Json) : Option (Array Event) := do
  return (← Json.toList? Event.ofJson? j).toArray

def RoundResult.toJson (r : RoundResult) : Json :=
  .object [("round", .nat r.round), ("score", .number r.score), ("usage", r.usage.toJson),
    ("history", historyToJson r.history)]

def RoundResult.ofJson? (j : Json) : Option RoundResult := do
  let field ← j.record? ["round", "score", "usage", "history"]
  return {
    round := ← (← field "round").toNat? Json.word
    score := ← (← field "score").toFloat?
    usage := ← Usage.ofJson? (← field "usage")
    history := ← historyOfJson? (← field "history") }

def roundsToJson (rounds : Array RoundResult) : Json :=
  .array (rounds.toList.map RoundResult.toJson)

def roundsOfJson? (j : Json) : Option (Array RoundResult) := do
  return (← Json.toList? RoundResult.ofJson? j).toArray

namespace State

def pendingToJson : Option Pending → Json
  | none => .null
  | some p => p.toJson

def toJson (s : State) : Json :=
  .object [("registers", s.registers.toJson), ("beacons", .ofMap id .nat s.beacons),
    ("replay_counters", .ofMap toString .nat s.replayCounters),
    ("ensure_failures", .ofMap toString .nat s.ensureFailures), ("line", .nat s.line),
    ("round", .nat s.round), ("round_started", .bool s.roundStarted),
    ("round_score", .number s.roundScore), ("total_score", .number s.totalScore),
    ("usage", s.usage.toJson), ("round_usage", s.roundUsage.toJson), ("steps", .nat s.steps),
    ("pending_elicit", pendingToJson s.pending), ("history", historyToJson s.history),
    ("completed_rounds", roundsToJson s.completed)]

def fieldNames : List String :=
  ["registers", "beacons", "replay_counters", "ensure_failures", "line", "round", "round_started",
    "round_score", "total_score", "usage", "round_usage", "steps", "pending_elicit", "history",
    "completed_rounds"]

/-- Failures are counted in half words, everything else in words. -/
def ofJson? (j : Json) : Option State := do
  let field ← j.record? fieldNames
  let word := Json.toNat? Json.word
  return {
    registers := ← Registers.ofJson? (← field "registers")
    beacons := ← (← field "beacons").toMap? some word
    replayCounters := ← Json.toCounts? word (← field "replay_counters")
    ensureFailures := ← Json.toCounts? (Json.toNat? Json.halfWord) (← field "ensure_failures")
    line := ← word (← field "line")
    round := ← word (← field "round")
    roundStarted := ← (← field "round_started").toBool?
    roundScore := ← (← field "round_score").toFloat?
    totalScore := ← (← field "total_score").toFloat?
    usage := ← Usage.ofJson? (← field "usage")
    roundUsage := ← Usage.ofJson? (← field "round_usage")
    steps := ← word (← field "steps")
    pending := ← Json.orNone Pending.ofJson? (field "pending_elicit")
    history := ← historyOfJson? (← field "history")
    completed := ← roundsOfJson? (← field "completed_rounds") }

end State

end EntropyGame
