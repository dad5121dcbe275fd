import EntropyGame.Game.Step

namespace EntropyGame

/-- Why a game stops: all rounds are played, the player has to be waited for, or something went
wrong. -/
inductive Outcome
  | finished
  | halted
  | failed (e : GameError)

/-- What a game has come to so far. -/
structure Summary where
  rounds : Array RoundResult
  totalScore : Float
  usage : Usage

def State.summary (s : State) : Summary :=
  ⟨s.completed, s.totalScore, s.usage⟩

namespace Game

variable {σ : Type}

/-- The part of a state that tells how much is left to do. -/
structure Clock where
  round : Nat
  started : Bool
  steps : Nat
  line : Nat
  deriving DecidableEq

def clock (s : Session σ) : Clock :=
  ⟨s.state.round, s.state.roundStarted, s.state.steps, s.state.line⟩

def isFinished (g : Game) (s : State) : Bool :=
  g.config.rounds ≤ s.round

def startRound (player : Player σ) (s : Session σ) : Session σ :=
  { s with state := s.state.beginRound }.emit player (.roundStarted s.state.round)

def endRound (player : Player σ) (s : Session σ) : Session σ :=
  let s := s.emit player (.roundFinished s.state.round s.state.roundScore)
  { s with state := s.state.finishRound }

/-- Does what comes next: opens a round, runs a line or closes the round. -/
def advance (g : Game) (player : Player σ) (s : Session σ) : Session σ × Option Outcome :=
  if g.isFinished s.state then (s, some .finished)
  else if !s.state.roundStarted then (startRound player s, none)
  else if s.state.line < g.program.size then
    match g.step player s with
    | (s', .ok .running) => (s', none)
    | (s', .ok .halted) => (s', some .halted)
    | (s', .error f) => (s', some (.failed (.line s.state.line f)))
  else (endRound player s, none)

theorem clock_emit (player : Player σ) (e : Event) (s : Session σ) :
    clock (s.emit player e) = clock s :=
  rfl

theorem writeAll_clock (s : State) (ws : List (Register × Value)) (memory : σ) :
    clock ⟨(s.writeAll ws).1, memory⟩ = clock ⟨s, memory⟩ := by
  induction ws generalizing s with
  | nil => rfl
  | cons w ws ih =>
    rw [State.writeAll]
    split
    · rfl
    · rw [ih]
      rfl

theorem ask_clock (g : Game) (player : Player σ) (line budget : Nat) (rs : List Register)
    (position : Nat) (announced : Bool) (s : Session σ) :
    clock (g.ask player line budget rs position announced s).1 = clock s := by
  induction rs generalizing position announced s with
  | nil => rfl
  | cons r rs ih =>
    simp only [ask]
    split
    · cases announced <;> rfl
    · cases announced <;> rfl
    · split
      · cases announced <;> rfl
      · rw [ih]
        cases announced <;> rfl

theorem ensure_clock (g : Game) (player : Player σ) (line : Nat) (conditions : List Expr)
    (s : Session σ) : clock (g.ensure player line conditions s).1 = clock s := by
  simp only [ensure]
  split
  · rfl
  · split
    · rfl
    · split
      · rfl
      · split <;> rfl

theorem replay_clock (g : Game) (line : Nat) (name : String) (count : Expr) (s : State)
    (memory : σ) : clock ⟨(g.replay line name count s).1, memory⟩ = clock ⟨s, memory⟩ := by
  simp only [replay]
  split
  · rfl
  · split
    · rfl
    · split <;> rfl

theorem execute_clock (g : Game) (player : Player σ) (line : Nat) (i : Instruction)
    (s : Session σ) : clock (g.execute player line i s).1 = clock s := by
  cases i with
  | assign targets =>
    simp only [execute, quietly, assign]
    split
    · rfl
    · exact writeAll_clock _ _ _
  | reveal values =>
    simp only [execute, reveal]
    split <;> rfl
  | elicit targets budget =>
    simp only [execute, elicit]
    split
    · rfl
    · rw [ask_clock]
      rfl
  | ensure conditions => exact ensure_clock g player line conditions s
  | reward score =>
    simp only [execute, reward]
    split
    · rfl
    · split
      · rfl
      · split <;> rfl
  | beacon name =>
    simp only [execute, quietly, beacon]
    split <;> rfl
  | replay name count => exact replay_clock g line name count s.state s.memory

/-- The order in which what is left to do shrinks: rounds, a round to be opened, steps, lines. -/
abbrev Left := Nat × Nat × Nat × Nat

def Left.lt : Left → Left → Prop :=
  Prod.Lex (· < ·) (Prod.Lex (· < ·) (Prod.Lex (· < ·) (· < ·)))

/-- What is left of a game at a clock. -/
def left (g : Game) (c : Clock) : Left :=
  (g.config.rounds - c.round, if c.started then 0 else 1, g.config.maxSteps - c.steps,
    g.program.size - c.line)

theorem step_left (g : Game) (player : Player σ) (s : Session σ) (s' : Session σ)
    (h : g.step player s = (s', .ok .running)) (hl : s.state.line < g.program.size) :
    Left.lt (g.left (clock s')) (g.left (clock s)) := by
  simp only [step] at h
  split at h
  · simp at h
  · cases h
    exact .right _ (.right _ (.right _ (by
      show g.program.size - (s.state.line + 1) < g.program.size - s.state.line
      omega)))
  · split at h
    · simp at h
    · rename_i i _ hs
      have hc := execute_clock g player s.state.line i s
      split at h
      · simp at h
      · rename_i t flow he
        rw [he] at hc
        have counted : ∀ line, Left.lt (g.left (clock (finishLine t line))) (g.left (clock s)) := by
          intro line
          have hr : t.state.round = s.state.round := congrArg Clock.round hc
          have ho : t.state.roundStarted = s.state.roundStarted := congrArg Clock.started hc
          have ht : t.state.steps = s.state.steps := congrArg Clock.steps hc
          simp only [left, clock, finishLine, hr, ho, ht]
          exact .right _ (.right _ (.left _ _ (by omega)))
        cases flow with
        | next =>
          cases h
          exact counted _
        | jump target =>
          simp only [follow] at h
          split at h
          · simp at h
          · cases h
            exact counted _
        | halt => simp [follow] at h

theorem advance_left (g : Game) (player : Player σ) (s s' : Session σ)
    (h : g.advance player s = (s', none)) :
    Left.lt (g.left (clock s')) (g.left (clock s)) := by
  simp only [advance] at h
  split at h
  · simp at h
  · rename_i hf
    have hr : s.state.round < g.config.rounds := by simpa [isFinished] using hf
    split at h
    · rename_i hs
      have hs : s.state.roundStarted = false := by simpa using hs
      cases h
      refine .right _ (.left _ _ ?_)
      simp [clock, hs, startRound, Session.emit, State.beginRound]
    · split at h
      · rename_i hl
        split at h <;> cases h
        exact step_left g player s _ (by assumption) hl
      · cases h
        refine .left _ _ ?_
        show g.config.rounds - (s.state.round + 1) < g.config.rounds - s.state.round
        omega

/-- Plays on until all rounds are done, the player halts or something goes wrong. -/
def run (g : Game) (player : Player σ) (s : Session σ) : Session σ × Outcome :=
  match _h : g.advance player s with
  | (s', none) => run g player s'
  | (s', some outcome) => (s', outcome)
termination_by g.left (clock s)
decreasing_by exact advance_left g player s s' _h

theorem run_of_none {g : Game} {player : Player σ} {s s' : Session σ}
    (h : g.advance player s = (s', none)) : g.run player s = g.run player s' := by
  rw [run]
  split
  · rename_i he
    cases h.symm.trans he
    rfl
  · rename_i he
    cases h.symm.trans he

theorem run_of_some {g : Game} {player : Player σ} {s s' : Session σ} {outcome : Outcome}
    (h : g.advance player s = (s', some outcome)) : g.run player s = (s', outcome) := by
  rw [run]
  split
  · rename_i he
    cases h.symm.trans he
  · rename_i he
    cases h.symm.trans he
    rfl

end Game

end EntropyGame
