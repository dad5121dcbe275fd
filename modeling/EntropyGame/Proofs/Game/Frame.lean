import EntropyGame.Judge.Cache
import EntropyGame.Proofs.Game.Ensure
import EntropyGame.Proofs.Game.Log

namespace EntropyGame

namespace Instruction

def isEnsure : Instruction → Bool
  | ensure _ => true
  | _ => false

/-- Whether an instruction is one of those that write to registers. -/
def writes : Instruction → Bool
  | assign _ | elicit .. => true
  | _ => false

end Instruction

namespace State

/-- What a state keeps when an instruction on a line fails and leaves another state behind. -/
structure Keeps (s : State) (line : Nat) (i : Instruction) (t : State) : Prop where
  pointer : t.line = s.line
  steps : t.steps = s.steps
  round : t.round = s.round
  started : t.roundStarted = s.roundStarted
  roundScore : t.roundScore = s.roundScore
  totalScore : t.totalScore = s.totalScore
  replayCounters : t.replayCounters = s.replayCounters
  completed : t.completed = s.completed
  beacon : ∀ name, name ≠ previousElicit → t.beacons.get? name = s.beacons.get? name
  elicit : i.isElicit = false → t.beacons = s.beacons ∧ t.pending = s.pending
  registers : i.writes = false → t.registers = s.registers
  failures : ∀ other, i.isEnsure = false ∨ other ≠ line →
    t.ensureFailures.get? other = s.ensureFailures.get? other
  usage : i.isElicit = false → t.usage = s.usage ∧ t.roundUsage = s.roundUsage
  history : i.isElicit = false → i.isEnsure = false → t.history = s.history
  grown : ∃ es, t.history.toList = s.history.toList ++ es

namespace Keeps

variable {s t : State} {line : Nat} {i : Instruction}

theorem refl (s : State) (line : Nat) (i : Instruction) : s.Keeps line i s where
  pointer := rfl
  steps := rfl
  round := rfl
  started := rfl
  roundScore := rfl
  totalScore := rfl
  replayCounters := rfl
  completed := rfl
  beacon _ _ := rfl
  elicit _ := ⟨rfl, rfl⟩
  registers _ := rfl
  failures _ _ := rfl
  usage _ := ⟨rfl, rfl⟩
  history _ _ := rfl
  grown := ⟨[], (List.append_nil _).symm⟩

theorem assign (s : State) (line : Nat) (targets : List (Register × Expr))
    (registers : Registers) : s.Keeps line (.assign targets) { s with registers } :=
  { refl s line (.assign targets) with registers := nofun }

/-- An `elicit` has set its beacon by the time it fails, and may have stored answers. -/
theorem asked (targets : List Register) (budget : Expr)
    (h : t = { s.setBeacon previousElicit line with
      registers := t.registers
      usage := t.usage
      roundUsage := t.roundUsage
      pending := t.pending
      history := t.history })
    (hgrown : ∃ es, t.history.toList = s.history.toList ++ es) :
    s.Keeps line (.elicit targets budget) t := by
  have hbeacon : ∀ name, name ≠ previousElicit →
      (s.setBeacon previousElicit line).beacons.get? name = s.beacons.get? name :=
    fun name hne => (OrderedMap.get?_insert ..).trans (if_neg hne)
  rw [h]
  exact { refl s line (.elicit targets budget) with
    beacon := hbeacon
    elicit := nofun
    registers := nofun
    usage := nofun
    history := nofun
    grown := hgrown }

/-- An `ensure` that fails once too often has counted that. -/
theorem noteFailure (s : State) (line : Nat) (conditions : List Expr) (results : List Bool)
    (target : Nat) : s.Keeps line (.ensure conditions) (s.noteFailure line results target) := by
  have hfailures : ∀ other, other ≠ line →
      (s.noteFailure line results target).ensureFailures.get? other =
        s.ensureFailures.get? other :=
    fun other hne => (OrderedMap.get?_insert ..).trans (if_neg hne)
  obtain ⟨es, hes⟩ := Game.noteFailure_adds s line results target
  exact { refl s line (.ensure conditions) with
    failures := fun other h => hfailures other (h.resolve_left nofun)
    history := nofun
    grown := ⟨es, hes.history⟩ }

end Keeps

end State

namespace Game

open State

variable {g : Game}

theorem Fails.keeps {line : Nat} {s t : State} {i : Instruction} {f : Fault}
    (h : Fails g line s i t f) : s.Keeps line i t := by
  obtain ⟨es, hes⟩ := h.adds
  have hgrown : ∃ es, t.history.toList = s.history.toList ++ es := ⟨es, hes.history⟩
  cases h with
  | eval =>
    cases i with
    | elicit targets budget => exact .asked targets budget rfl hgrown
    | _ => exact .refl ..
  | budget => exact .asked _ _ rfl hgrown
  | elicit _ ha =>
    refine .asked _ _ ?_ hgrown
    rw [ha.frame]
  | assign _ hw =>
    rw [writeAll_frame hw]
    exact .assign ..
  | tooManyFailures => exact .noteFailure ..
  | replayCount | condition | score | scoreOverflow | nothingToRetry | noBeacon
  | undeclaredBeacon => exact .refl ..

/-- The only failure that would not leave the counters alone is a jump out of the program, and the
beacons that games set rule it out. -/
theorem Breaks.keeps {s t : State} {i : Instruction} {f : Fault} {halted : Bool}
    (h : Breaks g s i t f) (hs : Reached g s halted) (ho : s.roundStarted = true)
    (hl : g.program.At s.line i) : s.Keeps s.line i t := by
  cases h with
  | ceiling => exact .refl ..
  | fails _ hfails => exact hfails.keeps
  | jumpOutside _ hruns hsize =>
    have hle := hruns.target_le hs.controlled.marked hl ho
    exact absurd hsize (Nat.not_lt.mpr hle)

theorem advance_of_step_error {σ : Type} {player : Player σ} {s t : Session σ} {f : Fault}
    {i : Instruction} (hr : s.state.round < g.config.rounds) (ho : s.state.roundStarted = true)
    (hl : g.program.At s.state.line i) (h : g.step player s = (t, .error f)) :
    g.advance player s = (t, some (.failed (.line s.state.line f))) := by
  simp [advance, isFinished, Nat.not_le.mpr hr, ho, hl.lt, h]

end Game

/-- An instruction that fails in an open round ends the game with an error that carries its line, and
all accounts are as they were before. -/
theorem Reached.step_error {σ : Type} {g : Game} {s : State} {halted : Bool} {i : Instruction}
    {player : Player σ} {memory : σ} {t : Session σ} {f : Fault} (hs : Reached g s halted)
    (ho : s.roundStarted = true) (hl : g.program.At s.line i)
    (h : g.step player ⟨s, memory⟩ = (t, .error f)) :
    g.advance player ⟨s, memory⟩ = (t, some (.failed (.line s.line f))) ∧
      s.Keeps s.line i t.state := by
  obtain ⟨ts, hplayed⟩ := hs.played
  have ha := Game.advance_of_step_error (hplayed.round_lt ho) ho hl h
  obtain ⟨f', i', -, -, -, hl', hbreaks⟩ := Game.advance_breaks ha
  obtain rfl := hl.eq hl'
  exact ⟨ha, hbreaks.keeps hs ho hl⟩

/-- The player that answers what was posted to it and fails when nothing is left. -/
def Player.impatient : Player (List String) where
  request
    | [], _ => (.error (.failed "no answer"), [])
    | r :: rs, _ => (.ok { response := r, usage := ⟨0, 1⟩ }, rs)

/-- A program that asks for two texts. -/
def brokenOff : Game where
  program := ⟨"elicit(s, t, 2)",
    #[some (.elicit [.first .s, .first .t] (.integer 2 ⟨0, 13, 14⟩))]⟩
  config := {}
  judge := Judge.Cache.judge 0

theorem brokenOff_load :
    Game.load brokenOff.program.source {} (Judge.Cache.judge 0) = .ok brokenOff := by
  cbv

/-- The second request fails when the first answer has been stored. -/
theorem Reached.step_error_brokenOff : ∃ (s : State) (t : Session (List String)),
    Reached brokenOff s false ∧ s.roundStarted = true ∧
      brokenOff.step .impatient ⟨s, ["a"]⟩ = (t, .error (.player "no answer")) ∧
      brokenOff.advance .impatient ⟨s, ["a"]⟩ =
        (t, some (.failed (.line 0 (.player "no answer")))) ∧
      t.state.usage = ⟨0, 1⟩ ∧ t.state.history.size = s.history.size + 3 ∧
      t.state.steps = s.steps ∧ t.state.totalScore = s.totalScore := by
  let opened := brokenOff.advance .impatient ⟨brokenOff.initial, ["a"]⟩
  have hopened : opened = (opened.1, none) := Prod.ext rfl rfl
  have hs : Reached brokenOff opened.1.state false := .advance (.new brokenOff_load) hopened
  have hstep : brokenOff.step .impatient ⟨opened.1.state, ["a"]⟩ =
      ((brokenOff.step .impatient ⟨opened.1.state, ["a"]⟩).1, .error (.player "no answer")) :=
    Prod.ext rfl rfl
  obtain ⟨hfailed, hkeeps⟩ := Reached.step_error hs rfl rfl hstep
  exact ⟨_, _, hs, rfl, hstep, hfailed, rfl, rfl, hkeeps.steps, hkeeps.totalScore⟩

end EntropyGame
