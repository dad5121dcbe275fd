import EntropyGame.Proofs.Game.Failure

namespace EntropyGame

/-- What the lines and rounds of one game are called in another. -/
structure Renaming where
  line : Nat → Nat
  round : Nat → Nat

/-- The beacon before the first line belongs to no line. -/
def Renaming.beacon (τ : Renaming) (name : String) (line : Nat) : Nat :=
  if name = startBeacon then line else τ.line line

def Event.rename (τ : Renaming) : Event → Event
  | roundStarted round => roundStarted (τ.round round)
  | elicitRequest line register maxLength => elicitRequest (τ.line line) register maxLength
  | elicitResponse line register response => elicitResponse (τ.line line) register response
  | reveal line values => reveal (τ.line line) values
  | reward line value score => reward (τ.line line) value score
  | failedEnsure line results retryLine attempt =>
    failedEnsure (τ.line line) results (τ.line retryLine) attempt
  | roundFinished round score => roundFinished (τ.round round) score

def Pending.rename (τ : Renaming) (p : Pending) : Pending :=
  { p with line := τ.line p.line }

def RoundResult.rename (τ : Renaming) (r : RoundResult) : RoundResult :=
  { r with round := τ.round r.round, history := r.history.map (Event.rename τ) }

/-- The message of one fault shows the number of the round. -/
def Fault.rename (τ : Renaming) : Fault → Fault
  | tooManySteps round limit => tooManySteps (τ.round round) limit
  | f => f

def GameError.rename (τ : Renaming) : GameError → GameError
  | line n f => line (τ.line n) (f.rename τ)
  | e => e

def Outcome.rename (τ : Renaming) : Outcome → Outcome
  | failed e => failed (e.rename τ)
  | o => o

variable {σ σ' : Type}

/-- Two players that answer alike as long as they are told the same up to names. -/
structure Player.Alike (τ : Renaming) (R : σ → σ' → Prop) (player : Player σ)
    (player' : Player σ') : Prop where
  request : ∀ {m m'} (q : Request), R m m' →
    (player'.request m' q).1 = (player.request m q).1 ∧
      R (player.request m q).2 (player'.request m' q).2
  notify : ∀ {m m'} (e : Event), R m m' → R (player.notify m e) (player'.notify m' (e.rename τ))

/-- A player that is told everything under other names. -/
def Player.through (τ : Renaming) (player : Player σ) : Player σ :=
  { player with notify := fun m e => player.notify m (e.rename τ) }

theorem Player.alike_through (τ : Renaming) (player : Player σ) :
    (player.through τ).Alike τ Eq player where
  request := by
    rintro m _ q rfl
    exact ⟨rfl, rfl⟩
  notify := by
    rintro m _ e rfl
    rfl

/-- Two states that agree up to names in all that plain instructions read and write. The totals of
the game have to agree only where whole games are compared. -/
structure State.Alike (τ : Renaming) (whole : Prop) (s s' : State) : Prop where
  registers : s'.registers = s.registers
  roundScore : s'.roundScore = s.roundScore
  roundUsage : s'.roundUsage = s.roundUsage
  pending : s'.pending = s.pending.map (Pending.rename τ)
  history : s'.history = s.history.map (Event.rename τ)
  usage : whole → s'.usage = s.usage
  totalScore : whole → s'.totalScore = s.totalScore

structure Session.Alike (τ : Renaming) (whole : Prop) (R : σ → σ' → Prop) (s : Session σ)
    (s' : Session σ') : Prop where
  state : s.state.Alike τ whole s'.state
  memory : R s.memory s'.memory

namespace State.Alike

variable {τ : Renaming} {whole : Prop} {s s' : State}

theorem record (h : s.Alike τ whole s') (e : Event) :
    (s.record e).Alike τ whole (s'.record (e.rename τ)) :=
  { h with history := by simp [State.record, h.history] }

theorem withRegisters (h : s.Alike τ whole s') (registers : Registers) :
    State.Alike τ whole { s with registers } { s' with registers } :=
  { h with registers := rfl }

theorem withPending (h : s.Alike τ whole s') (pending : Option Pending) :
    State.Alike τ whole { s with pending } { s' with pending := pending.map (Pending.rename τ) } :=
  { h with pending := rfl }

theorem addUsage (h : s.Alike τ whole s') (u : Usage) :
    (s.addUsage u).Alike τ whole (s'.addUsage u) :=
  { h with
    roundUsage := by rw [State.addUsage, State.addUsage, h.roundUsage]
    usage := fun hw => by rw [State.addUsage, State.addUsage, h.usage hw] }

theorem addScore (h : s.Alike τ whole s') (x : Float) :
    (s.addScore x).Alike τ whole (s'.addScore x) :=
  { h with
    roundScore := by rw [State.addScore, State.addScore, h.roundScore]
    totalScore := fun hw => by rw [State.addScore, State.addScore, h.totalScore hw] }

theorem setBeacon (h : s.Alike τ whole s') (name : String) (line line' : Nat) :
    (s.setBeacon name line).Alike τ whole (s'.setBeacon name line') :=
  { h with }

/-- Rounds open alike whatever the lists held before. -/
theorem beginRound (hregisters : s'.registers.resetLists = s.registers.resetLists)
    (husage : whole → s'.usage = s.usage) (htotal : whole → s'.totalScore = s.totalScore) :
    s.beginRound.Alike τ whole s'.beginRound where
  registers := hregisters
  roundScore := rfl
  roundUsage := rfl
  pending := rfl
  history := by simp [State.beginRound]
  usage := husage
  totalScore := htotal

/-- Rounds have the same results up to names. -/
theorem result (h : s.Alike τ whole s') (hround : s'.round = τ.round s.round) :
    RoundResult.rename τ ⟨s.round, s.roundScore, s.roundUsage, s.history⟩ =
      ⟨s'.round, s'.roundScore, s'.roundUsage, s'.history⟩ := by
  rw [RoundResult.rename, hround, h.roundScore, h.roundUsage, h.history]

/-- The results of all rounds stay the same up to names where one more is put with them. -/
theorem completed (h : s.Alike τ whole s') (hround : s'.round = τ.round s.round)
    (hcompleted : s'.completed = s.completed.map (RoundResult.rename τ)) :
    s'.finishRound.completed = s.finishRound.completed.map (RoundResult.rename τ) := by
  simp only [State.finishRound, Array.map_push, hcompleted, h.result hround]

/-- An interrupted `elicit` goes on where it would under the other name, unless another line has
that name. -/
theorem progress (h : s.Alike τ whole s') {line : Nat}
    (hname : ∀ p, s.pending = some p → τ.line p.line = τ.line line → p.line = line) :
    s'.progress (τ.line line) = (s.progress line).rename τ := by
  rw [State.progress, State.progress, h.pending]
  cases hp : s.pending with
  | none => rfl
  | some p =>
    by_cases hline : p.line = line
    · simp [Pending.rename, hline]
    · have hne : τ.line p.line ≠ τ.line line := fun he => hline (hname p hp he)
      simp [Pending.rename, hline, hne]

end State.Alike

theorem Session.Alike.emit {τ : Renaming} {whole : Prop} {R : σ → σ' → Prop} {player : Player σ}
    {player' : Player σ'} {s : Session σ} {s' : Session σ'} (hp : player.Alike τ R player')
    (h : s.Alike τ whole R s') (e : Event) :
    (s.emit player e).Alike τ whole R (s'.emit player' (e.rename τ)) :=
  ⟨h.state.record e, hp.notify e h.memory⟩

/-- The end of a round is announced with its number and its score. -/
theorem Session.Alike.emit_roundFinished {τ : Renaming} {whole : Prop} {R : σ → σ' → Prop}
    {player : Player σ} {player' : Player σ'} {s : Session σ} {s' : Session σ'}
    (hp : player.Alike τ R player') (h : s.Alike τ whole R s')
    (hround : s'.state.round = τ.round s.state.round) :
    (s.emit player (.roundFinished s.state.round s.state.roundScore)).Alike τ whole R
      (s'.emit player' (.roundFinished s'.state.round s'.state.roundScore)) := by
  have hevent : (Event.roundFinished s.state.round s.state.roundScore).rename τ =
      .roundFinished s'.state.round s'.state.roundScore := by
    rw [Event.rename, hround, h.state.roundScore]
  exact hevent ▸ h.emit hp _

/-- Two results of a line that agree up to names. -/
structure Agree {α : Type} (τ : Renaming) (whole : Prop) (R : σ → σ' → Prop) (x : Session σ × α)
    (x' : Session σ' × α) : Prop where
  session : x.1.Alike τ whole R x'.1
  result : x'.2 = x.2

/-- Whether a line fails because a score is too much for the total of the game. -/
def Exceeds (x : Session σ × Except Fault Flow) : Prop :=
  ∃ score, x.2 = .error (.scoreOverflow score) ∧
    (x.1.state.totalScore + score).isFinite = false

/-- Whether an instruction has nothing to do with the order in which lines are run. -/
def Instruction.isPlain : Instruction → Bool
  | assign _ | reveal _ | elicit .. | reward _ => true
  | ensure _ | beacon _ | replay .. => false

namespace Game

variable {g : Game} {τ : Renaming} {whole : Prop} {R : σ → σ' → Prop}

theorem eval_congr {s s' : State} (h : s'.registers = s.registers) (e : Expr) :
    g.eval s' e = g.eval s e := by
  rw [eval, eval, h]

theorem evalCount_congr {s s' : State} (h : s'.registers = s.registers) (fault : Value → Fault)
    (e : Expr) : g.evalCount s' fault e = g.evalCount s fault e := by
  rw [evalCount, evalCount, eval_congr h]

theorem evalCondition_congr {s s' : State} (h : s'.registers = s.registers) (e : Expr) :
    g.evalCondition s' e = g.evalCondition s e := by
  rw [evalCondition, evalCondition, eval_congr h]

theorem writeAll_alike {s s' : State} (h : s.Alike τ whole s') (ws : List (Register × Value)) :
    (s.writeAll ws).1.Alike τ whole (s'.writeAll ws).1 ∧
      (s'.writeAll ws).2 = (s.writeAll ws).2 := by
  induction ws generalizing s s' with
  | nil => exact ⟨h, rfl⟩
  | cons w ws ih =>
    simp only [State.writeAll, h.registers]
    cases s.registers.set w.1 w.2 with
    | error e => exact ⟨h, rfl⟩
    | ok registers => exact ih (h.withRegisters registers)

variable {player : Player σ} {player' : Player σ'} {s : Session σ} {s' : Session σ'}

theorem ask_alike (hp : player.Alike τ R player') (h : s.Alike τ whole R s') (line budget : Nat)
    (rs : List Register) (position : Nat) (announced : Bool) :
    Agree τ whole R (g.ask player line budget rs position announced s)
      (g.ask player' (τ.line line) budget rs position announced s') := by
  induction rs generalizing position announced s s' with
  | nil => exact ⟨h, rfl⟩
  | cons r rs ih =>
    have hu : Session.Alike τ whole R
        (if announced then s else s.emit player (.elicitRequest line r.name budget))
        (if announced then s'
          else s'.emit player' (.elicitRequest (τ.line line) r.name budget)) := by
      cases announced with
      | true => exact h
      | false => exact h.emit hp (.elicitRequest line r.name budget)
    rw [ask_emit, ask_emit player']
    generalize (if announced then s else _) = u at hu
    generalize (if announced then s' else _) = u' at hu
    obtain ⟨hanswer, hmemory⟩ :=
      hp.request ⟨r.name, budget, u.state.registers.snapshot⟩ hu.memory
    cases hmove : player.request u.memory ⟨r.name, budget, u.state.registers.snapshot⟩ with
    | mk answer memory =>
    cases hmove' : player'.request u'.memory ⟨r.name, budget, u.state.registers.snapshot⟩ with
    | mk answer' memory' =>
    rw [hmove, hmove'] at hanswer hmemory
    rw [← hu.state.registers] at hmove'
    obtain rfl : answer' = answer := hanswer
    simp only [ask, reduceIte, hmove, hmove']
    cases answer' with
    | error refusal =>
      cases refusal with
      | halt => exact ⟨⟨hu.state.withPending (some ⟨line, position, true⟩), hmemory⟩, rfl⟩
      | failed message => exact ⟨⟨hu.state, hmemory⟩, rfl⟩
    | ok move =>
      simp only
      rw [hu.state.registers]
      cases u.state.registers.set r
          (.phrase (Measure.firstTokens g.judge { primary := move.response } budget)) with
      | error e => exact ⟨⟨hu.state, hmemory⟩, rfl⟩
      | ok registers =>
        have ht : Session.Alike τ whole R
            ⟨{ u.state with registers }.addUsage move.usage, memory⟩
            ⟨{ u'.state with registers }.addUsage move.usage, memory'⟩ :=
          ⟨(hu.state.withRegisters registers).addUsage move.usage, hmemory⟩
        exact ih (ht.emit hp (.elicitResponse line r.name _)) (position + 1) false

theorem assign_alike (h : s.state.Alike τ whole s'.state) (targets : List (Register × Expr)) :
    (g.assign targets s.state).1.Alike τ whole (g.assign targets s'.state).1 ∧
      (g.assign targets s'.state).2 = (g.assign targets s.state).2 := by
  simp only [assign, eval_congr h.registers]
  cases targets.mapM fun t => g.eval s.state t.2 with
  | error f => exact ⟨h, rfl⟩
  | ok values => exact writeAll_alike h _

theorem reveal_alike (hp : player.Alike τ R player') (h : s.Alike τ whole R s') (line : Nat)
    (values : List Expr) :
    Agree τ whole R (g.reveal player line values s) (g.reveal player' (τ.line line) values s') := by
  simp only [reveal, eval_congr h.state.registers]
  cases values.mapM fun e => g.eval s.state e with
  | error f => exact ⟨h, rfl⟩
  | ok vs => exact ⟨h.emit hp (.reveal line vs), rfl⟩

theorem elicit_alike (hp : player.Alike τ R player') (h : s.Alike τ whole R s') {line : Nat}
    (hname : ∀ p, s.state.pending = some p → τ.line p.line = τ.line line → p.line = line)
    (targets : List Register) (budget : Expr) :
    Agree τ whole R (g.elicit player line targets budget s)
      (g.elicit player' (τ.line line) targets budget s') := by
  have hs := h.state.setBeacon previousElicit line (τ.line line)
  have hprogress := hs.progress hname
  simp only [elicit, evalCount_congr hs.registers, hprogress]
  cases g.evalCount (s.state.setBeacon previousElicit line) .budget budget with
  | error f => exact ⟨⟨hs, h.memory⟩, rfl⟩
  | ok n =>
    have hcleared : Session.Alike τ whole R
        ⟨{ s.state.setBeacon previousElicit line with pending := none }, s.memory⟩
        ⟨{ s'.state.setBeacon previousElicit (τ.line line) with pending := none }, s'.memory⟩ :=
      ⟨hs.withPending none, h.memory⟩
    exact ask_alike hp hcleared line n _ _ _

/-- Rewards agree, unless one of them is too much for the total of its game. -/
theorem reward_alike (hp : player.Alike τ R player') (h : s.Alike τ whole R s') (line : Nat)
    (e : Expr) :
    Agree τ whole R (g.reward player line e s) (g.reward player' (τ.line line) e s') ∨
      ¬ whole ∧ (Exceeds (g.reward player line e s) ∨
        Exceeds (g.reward player' (τ.line line) e s')) := by
  simp only [reward, eval_congr h.state.registers]
  cases g.eval s.state e with
  | error f => exact .inl ⟨h, rfl⟩
  | ok v =>
    simp only
    cases scoreOf v with
    | error f => exact .inl ⟨h, rfl⟩
    | ok x =>
      have ht : Session.Alike τ whole R ⟨s.state.addScore x, s.memory⟩
          ⟨s'.state.addScore x, s'.memory⟩ :=
        ⟨h.state.addScore x, h.memory⟩
      have hround : (s'.state.addScore x).roundScore = (s.state.addScore x).roundScore :=
        ht.state.roundScore
      have hemit := ht.emit hp (.reward line v x)
      simp only [hround]
      cases hr : (s.state.addScore x).roundScore.isFinite with
      | false => exact .inl ⟨h, rfl⟩
      | true =>
        cases ht : (s.state.addScore x).totalScore.isFinite with
        | true =>
          cases ht' : (s'.state.addScore x).totalScore.isFinite with
          | true => exact .inl ⟨hemit, rfl⟩
          | false =>
            refine .inr ⟨fun hw => ?_, .inr ⟨x, rfl, ht'⟩⟩
            have htotal := (h.state.addScore x).totalScore hw
            rw [htotal, ht] at ht'
            cases ht'
        | false =>
          cases ht' : (s'.state.addScore x).totalScore.isFinite with
          | true =>
            refine .inr ⟨fun hw => ?_, .inl ⟨x, rfl, ht⟩⟩
            have htotal := (h.state.addScore x).totalScore hw
            rw [htotal, ht] at ht'
            cases ht'
          | false => exact .inl ⟨h, rfl⟩

/-- Plain instructions do the same to states that agree. -/
theorem execute_alike (hp : player.Alike τ R player') (h : s.Alike τ whole R s') {line : Nat}
    (hname : ∀ p, s.state.pending = some p → τ.line p.line = τ.line line → p.line = line)
    {i : Instruction} (hi : i.isPlain = true) :
    Agree τ whole R (g.execute player line i s) (g.execute player' (τ.line line) i s') ∨
      ¬ whole ∧ (Exceeds (g.execute player line i s) ∨
        Exceeds (g.execute player' (τ.line line) i s')) := by
  cases i with
  | assign targets =>
    obtain ⟨hstate, hflow⟩ := assign_alike (g := g) h.state targets
    exact .inl ⟨⟨hstate, h.memory⟩, hflow⟩
  | reveal values => exact .inl (reveal_alike hp h line values)
  | elicit targets budget => exact .inl (elicit_alike hp h hname targets budget)
  | reward score => exact reward_alike hp h line score
  | ensure | beacon | replay => cases hi

end Game

end EntropyGame
