import EntropyGame.Proofs.Game.Bounded
import EntropyGame.Proofs.Game.Ensure

namespace EntropyGame

open Json

/-- A program has no more lines than there are line numbers. -/
theorem Program.size_le {source : String} {config : GameConfig} {p : Program}
    (h : load source config = .ok p) : p.size ≤ lineNumbers := by
  rw [load_size h]
  by_contra hsize
  have hlast := List.getElem?_eq_getElem (Nat.lt_of_not_le hsize)
  exact Nat.lt_irrefl _ (load_line h hlast).1

/-- What the numbers of a game must be below to be counted up. -/
structure Limits where
  steps : Nat
  failures : Nat
  replays : Nat
  lines : Nat
  rounds : Nat

namespace Limits

/-- The greatest numbers of their machine words. -/
def words : Limits where
  steps := word - 1
  failures := halfWord - 1
  replays := word - 1
  lines := word - 1
  rounds := word - 1

/-- Whether limits leave room for others. -/
structure Within (l m : Limits) : Prop where
  steps : l.steps ≤ m.steps
  failures : l.failures ≤ m.failures
  replays : l.replays ≤ m.replays
  lines : l.lines ≤ m.lines
  rounds : l.rounds ≤ m.rounds

theorem Within.refl (l : Limits) : l.Within l :=
  ⟨Nat.le_refl _, Nat.le_refl _, Nat.le_refl _, Nat.le_refl _, Nat.le_refl _⟩

end Limits

/-- The number after one that is below its limit. -/
def succ? (limit n : Nat) : Option Nat :=
  if n < limit then some (n + 1) else none

theorem succ?_of_lt {limit n : Nat} (h : n < limit) : succ? limit n = some (n + 1) :=
  if_pos h

namespace Game

variable {σ : Type}

/-- The limits that the rules of a game and the lines of its program set. -/
def limits (g : Game) : Limits where
  steps := g.config.maxSteps
  failures := max 1 g.config.maxEnsureFailures
  replays := Value.greatestCount
  lines := g.program.size
  rounds := g.config.rounds

section

/-! The moves of a game as before, but with limits on all numbers that are counted up. A move that
would pass over one of them has no result. -/

variable (g : Game) (l : Limits) (player : Player σ)

def ensure? (line : Nat) (conditions : List Expr) (s : Session σ) :
    Option (Session σ × Except Fault Flow) :=
  match conditions.mapM fun e => g.evalCondition s.state e with
  | .error f => some (s, .error f)
  | .ok results =>
    if results.all id then
      some ({ s with state :=
          { s.state with ensureFailures := s.state.ensureFailures.erase line } }, .ok .next)
    else
      match s.state.beacons.get? previousElicit with
      | none => some (s, .error .nothingToRetry)
      | some target => do
        let attempt ← succ? l.failures (State.counter s.state.ensureFailures line)
        let failures := s.state.ensureFailures.insert line attempt
        let s := { s with state := { s.state with ensureFailures := failures } }
        let s := s.emit player (.failedEnsure line results target attempt)
        if g.config.maxEnsureFailures ≤ attempt then some (s, .error (.tooManyFailures attempt))
        else some (s, .ok (.jump target))

def replayTarget? (name : String) (line : Nat) : Option Nat :=
  if name = startBeacon then some line else succ? l.lines line

def replay? (line : Nat) (name : String) (count : Expr) (s : State) :
    Option (State × Except Fault Flow) :=
  match g.evalCount s .replayCount count with
  | .error f => some (s, .error f)
  | .ok n =>
    let taken := State.counter s.replayCounters line
    if n ≤ taken then some ({ s with replayCounters := s.replayCounters.erase line }, .ok .next)
    else
      match s.beacons.get? name with
      | none => some (s, .error (.undeclaredBeacon name))
      | some beacon => do
        let visits ← succ? l.replays taken
        let target ← replayTarget? l name beacon
        some ({ s with replayCounters := s.replayCounters.insert line visits }, .ok (.jump target))

def execute? (line : Nat) (i : Instruction) (s : Session σ) :
    Option (Session σ × Except Fault Flow) :=
  match i with
  | .ensure conditions => g.ensure? l player line conditions s
  | .replay name count => do
    let (state, flow) ← g.replay? l line name count s.state
    some ({ s with state }, flow)
  | i => some (g.execute player line i s)

def finishLine? (s : Session σ) (line : Nat) : Option (Session σ) := do
  let steps ← succ? l.steps s.state.steps
  some { s with state := { s.state with line, steps } }

def follow? (line : Nat) (s : Session σ) : Flow → Option (Session σ × Except Fault Progress)
  | .next => do
    let line ← succ? l.lines line
    let s ← finishLine? l s line
    some (s, .ok .running)
  | .jump target =>
    if g.program.size < target then some (s, .error (.jumpOutside target))
    else do
      let s ← finishLine? l s target
      some (s, .ok .running)
  | .halt => some (s, .ok .halted)

def step? (s : Session σ) : Option (Session σ × Except Fault Progress) :=
  let line := s.state.line
  match g.program.lines[line]? with
  | none => some (s, .error (.outsideProgram line))
  | some none => do
    let line ← succ? l.lines line
    some (goTo s line, .ok .running)
  | some (some i) =>
    if g.config.maxSteps ≤ s.state.steps then
      some (s, .error (.tooManySteps s.state.round g.config.maxSteps))
    else do
      let (s, flow) ← g.execute? l player line i s
      match flow with
      | .error f => some (s, .error f)
      | .ok flow => g.follow? l line s flow

def endRound? (s : Session σ) : Option (Session σ) := do
  let s := s.emit player (.roundFinished s.state.round s.state.roundScore)
  let round ← succ? l.rounds s.state.round
  some { s with state := { s.state.finishRound with round } }

def advance? (s : Session σ) : Option (Session σ × Option Outcome) :=
  if g.isFinished s.state then some (s, some .finished)
  else if !s.state.roundStarted then some (startRound player s, none)
  else if s.state.line < g.program.size then do
    let (s', progress) ← g.step? l player s
    match progress with
    | .ok .running => some (s', none)
    | .ok .halted => some (s', some .halted)
    | .error f => some (s', some (.failed (.line s.state.line f)))
  else do
    let s ← endRound? l player s
    some (s, none)

def runFor? : Nat → Session σ → Option (Session σ × Option Outcome)
  | 0, s => some (s, none)
  | n + 1, s => do
    let (t, outcome) ← g.advance? l player s
    match outcome with
    | none => runFor? n t
    | some outcome => some (t, some outcome)

end

variable {g : Game} {l : Limits} {player : Player σ}

theorem ensure?_eq {line : Nat} {s : Session σ}
    (hcount : State.counter s.state.ensureFailures line < l.failures) (conditions : List Expr) :
    g.ensure? l player line conditions s = some (g.ensure player line conditions s) := by
  simp only [ensure?, ensure, succ?_of_lt hcount]
  cases conditions.mapM fun e => g.evalCondition s.state e with
  | error f => rfl
  | ok results =>
    by_cases hall : results.all id = true
    · simp only [if_pos hall]
    · cases s.state.beacons.get? previousElicit with
      | none => simp only [if_neg hall]
      | some target =>
        simp only [if_neg hall, Option.bind_eq_bind, Option.bind_some]
        exact (apply_ite some _ _ _).symm

theorem replayTarget?_eq {name : String} {line : Nat} (hline : line < l.lines) :
    replayTarget? l name line = some (replayTarget name line) := by
  rw [replayTarget?, replayTarget, succ?_of_lt hline]
  split <;> rfl

/-- A count bounds the replays of its line before it is reached, whatever it was on earlier visits. -/
theorem replay?_eq {line : Nat} {name : String} {s : State}
    (hreplays : Value.greatestCount ≤ l.replays)
    (hbeacon : ∀ beacon, s.beacons.get? name = some beacon → beacon < l.lines) (count : Expr) :
    g.replay? l line name count s = some (g.replay line name count s) := by
  simp only [replay?, replay]
  cases hn : g.evalCount s .replayCount count with
  | error f => rfl
  | ok n =>
    by_cases htaken : n ≤ State.counter s.replayCounters line
    · simp only [if_pos htaken]
    · have hle : n ≤ Value.greatestCount := evalCount_le hn
      have hlt : State.counter s.replayCounters line < l.replays := by omega
      cases hb : s.beacons.get? name with
      | none => simp only [if_neg htaken]
      | some beacon =>
        simp only [if_neg htaken, succ?_of_lt hlt, replayTarget?_eq (hbeacon beacon hb),
          Option.bind_eq_bind, Option.bind_some]

theorem finishLine?_eq {s : Session σ} (hsteps : s.state.steps < l.steps) (line : Nat) :
    finishLine? l s line = some (finishLine s line) := by
  rw [finishLine?, succ?_of_lt hsteps]
  rfl

theorem follow?_eq {line : Nat} {s : Session σ} (hline : line < l.lines)
    (hsteps : s.state.steps < l.steps) (flow : Flow) :
    g.follow? l line s flow = some (g.follow line s flow) := by
  cases flow with
  | next =>
    simp only [follow?, follow, succ?_of_lt hline, finishLine?_eq hsteps, Option.bind_eq_bind,
      Option.bind_some]
  | jump target =>
    simp only [follow?, follow, finishLine?_eq hsteps, Option.bind_eq_bind, Option.bind_some]
    exact (apply_ite some _ _ _).symm
  | halt => rfl

/-- What keeps the next move from a state within limits: they leave room for the rules of the game, and
the counters and beacons of the state are within these. -/
structure Limited (g : Game) (l : Limits) (s : State) : Prop where
  within : g.limits.Within l
  failures : ∀ line, State.counter s.ensureFailures line < max 1 g.config.maxEnsureFailures
  beacon : s.roundStarted = true → 0 < g.program.size → ∀ name beacon,
    s.beacons.get? name = some beacon → beacon < g.program.size

theorem execute?_eq {s : Session σ} {i : Instruction} (hs : g.Limited l s.state)
    (ho : s.state.roundStarted = true) {line : Nat} (hl : g.program.At line i) :
    g.execute? l player line i s = some (g.execute player line i s) := by
  cases i with
  | ensure conditions =>
    exact ensure?_eq (Nat.lt_of_lt_of_le (hs.failures line) hs.within.failures) conditions
  | replay name count =>
    have hsize : 0 < g.program.size := Nat.zero_lt_of_lt hl.lt
    have hbeacon : ∀ beacon, s.state.beacons.get? name = some beacon → beacon < l.lines :=
      fun beacon hb => Nat.lt_of_lt_of_le (hs.beacon ho hsize name beacon hb) hs.within.lines
    rw [execute?, replay?_eq hs.within.replays hbeacon]
    rfl
  | assign | reveal | elicit | reward | beacon => rfl

theorem step?_eq {s : Session σ} (hs : g.Limited l s.state) (ho : s.state.roundStarted = true) :
    g.step? l player s = some (g.step player s) := by
  simp only [step?, step]
  cases hline : g.program.lines[s.state.line]? with
  | none => rfl
  | some entry =>
    have hlt : s.state.line < g.program.size := (Array.getElem?_eq_some_iff.mp hline).1
    have hline' : s.state.line < l.lines := Nat.lt_of_lt_of_le hlt hs.within.lines
    cases entry with
    | none => simp only [succ?_of_lt hline', Option.bind_eq_bind, Option.bind_some]
    | some i =>
      by_cases hsteps : g.config.maxSteps ≤ s.state.steps
      · simp only [if_pos hsteps]
      · simp only [if_neg hsteps, execute?_eq hs ho hline, Option.bind_eq_bind, Option.bind_some]
        -- an instruction leaves the number of steps alone
        have hclock := execute_clock g player s.state.line i s
        generalize g.execute player s.state.line i s = executed at hclock ⊢
        obtain ⟨t, flow⟩ := executed
        cases flow with
        | error f => rfl
        | ok flow =>
          have ht : t.state.steps = s.state.steps := congrArg Clock.steps hclock
          have hlt : t.state.steps < g.limits.steps := ht ▸ Nat.lt_of_not_le hsteps
          exact follow?_eq hline' (Nat.lt_of_lt_of_le hlt hs.within.steps) flow

theorem endRound?_eq {s : Session σ} (hround : s.state.round < l.rounds) :
    endRound? l player s = some (endRound player s) := by
  simp only [endRound?, Session.emit, succ?_of_lt hround, Option.bind_eq_bind, Option.bind_some]
  rfl

theorem advance?_eq {s : Session σ} (hs : g.Limited l s.state) :
    g.advance? l player s = some (g.advance player s) := by
  simp only [advance?, advance]
  by_cases hf : g.isFinished s.state = true
  · simp only [if_pos hf]
  · have hround : s.state.round < g.config.rounds := by simpa [isFinished] using hf
    cases ho : s.state.roundStarted with
    | false => simp [hf]
    | true =>
      by_cases hline : s.state.line < g.program.size
      · simp only [if_neg hf, if_pos hline, step?_eq hs ho, Option.bind_eq_bind, Option.bind_some]
        generalize g.step player s = stepped
        obtain ⟨t, _ | _ | _⟩ := stepped <;> rfl
      · have hend : endRound? l player s = some (endRound player s) :=
          endRound?_eq (Nat.lt_of_lt_of_le hround hs.within.rounds)
        simp only [if_neg hf, if_neg hline, hend, Option.bind_eq_bind, Option.bind_some]
        rfl

/-- The rules of a game stop its numbers before their machine words do. -/
theorem limits_within_words (hg : g.IsLoaded) (hc : g.config.Fits) : g.limits.Within .words where
  steps := Nat.le_pred_of_lt hc.maxSteps
  failures := Nat.max_le.mpr ⟨by decide, Nat.le_pred_of_lt hc.maxEnsureFailures⟩
  replays := by
    show Value.greatestCount ≤ word - 1
    decide
  lines := Nat.le_trans (Program.size_le hg) (by decide)
  rounds := Nat.le_pred_of_lt hc.rounds

end Game

namespace Reached

variable {σ : Type} {g : Game} {s : State} {halted : Bool}

theorem counter_lt (hs : Reached g s halted) (line : Nat) :
    State.counter s.ensureFailures line < max 1 g.config.maxEnsureFailures := by
  obtain ⟨ts, hplayed⟩ := hs.played
  rw [hplayed.tallied.counter line]
  obtain hzero | hlt := hplayed.tallied.below line
  · omega
  · omega

theorem limited (hs : Reached g s halted) {l : Limits} (hl : g.limits.Within l) : g.Limited l s where
  within := hl
  failures := hs.counter_lt
  beacon ho hsize _ _ hb := by
    obtain ⟨-, rfl⟩ | ⟨i, hl⟩ := hs.controlled.marked.beacon_at ho hb
    · exact hsize
    · exact hl.lt

theorem runFor?_eq (hs : Reached g s halted) {l : Limits} (hl : g.limits.Within l)
    (player : Player σ) (n : Nat) (memory : σ) :
    g.runFor? l player n ⟨s, memory⟩ = some (g.runFor player n ⟨s, memory⟩) := by
  induction n generalizing s halted memory with
  | zero => rfl
  | succ n ih =>
    rw [Game.runFor?, Game.runFor, Game.advance?_eq (hs.limited hl)]
    cases ha : g.advance player ⟨s, memory⟩ with
    | mk t outcome =>
      cases outcome with
      | none => exact ih (.advance hs ha) t.memory
      | some outcome => rfl

/-- No run passes over the limits of its machine words, as the rules of the game stop all its numbers
before; and where a game has come to, its numbers are within these rules. -/
theorem no_overflow (hs : Reached g s halted) (hc : g.config.Fits) (player : Player σ)
    (memory : σ) :
    (∀ n, g.runFor? .words player n ⟨s, memory⟩ = some (g.runFor player n ⟨s, memory⟩)) ∧
    (∀ n, g.runFor? g.limits player n ⟨s, memory⟩ = some (g.runFor player n ⟨s, memory⟩)) ∧
    s.steps ≤ g.config.maxSteps ∧
    (∀ line, State.counter s.ensureFailures line < max 1 g.config.maxEnsureFailures) ∧
    (∀ line n, s.replayCounters.get? line = some n → n ≤ 2 ^ 32 - 1) ∧
    s.line ≤ g.program.size := by
  obtain ⟨ts, hplayed⟩ := hs.played
  have hsteps : s.steps ≤ g.config.maxSteps :=
    Nat.le_trans (Nat.le_add_right _ _) hplayed.counted.steps_le
  exact ⟨fun n => hs.runFor?_eq (Game.limits_within_words hs.isLoaded hc) player n memory,
    fun n => hs.runFor?_eq (.refl _) player n memory, hsteps, hs.counter_lt,
    (hs.bounded hc).replay, hs.controlled.line_le⟩

end Reached

/-- A program that may not fail even once, but run as long as there are numbers. -/
def utmost : Game where
  program := ⟨"elicit(s, 1)\nensure(false)",
    #[some (.elicit [.first .s] (.integer 1 ⟨0, 10, 11⟩)), some (.ensure [.bool false ⟨1, 7, 12⟩])]⟩
  config := { rounds := 2 ^ 64 - 1, maxEnsureFailures := 0, maxSteps := 2 ^ 64 - 1 }
  judge := Judge.Cache.judge 0

theorem utmost_load :
    Game.load utmost.program.source utmost.config (Judge.Cache.judge 0) = .ok utmost := by
  cbv

theorem Reached.no_overflow_utmost : ∃ t : Session (List String),
    Reached utmost utmost.initial false ∧ utmost.config.Fits ∧
      utmost.runFor? .words .mailbox 4 ⟨utmost.initial, ["a"]⟩ =
        some (t, some (.failed (.line 1 (.tooManyFailures 1)))) ∧
      State.counter t.state.ensureFailures 1 = max 1 utmost.config.maxEnsureFailures := by
  have hs : Reached utmost utmost.initial false := .new utmost_load
  have hc : utmost.config.Fits := ⟨by decide, by decide, by decide, by decide⟩
  obtain ⟨hwords, -⟩ := Reached.no_overflow hs hc .mailbox ["a"]
  exact ⟨_, hs, hc, (hwords 4).trans (congrArg some (Prod.ext rfl rfl)), rfl⟩

end EntropyGame
