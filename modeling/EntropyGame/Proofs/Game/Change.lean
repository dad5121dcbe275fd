import EntropyGame.Proofs.Game.Reached

namespace EntropyGame

namespace State

/-- Puts an event into the history. -/
def record (s : State) (e : Event) : State :=
  { s with history := s.history.push e }

/-- Announces the request for a register unless that has been done. -/
def announce (s : State) (line budget : Nat) (r : Register) (announced : Bool) : State :=
  if announced then s else s.record (.elicitRequest line r.name budget)

/-- Takes note of an answer that was written to a register. -/
def accept (s : State) (line : Nat) (r : Register) (registers : Registers) (usage : Usage)
    (response : Phrase) : State :=
  ({ s with registers }.addUsage usage).record (.elicitResponse line r.name response)

/-- Notes the failure of an `ensure` and goes back to an `elicit`. -/
def noteFailure (s : State) (line : Nat) (results : List Bool) (target : Nat) : State :=
  let attempt := counter s.ensureFailures line + 1
  { s with ensureFailures := s.ensureFailures.insert line attempt }.record
    (.failedEnsure line results target attempt)

/-- Moves on to a line and counts the one before. -/
def moveTo (s : State) (line : Nat) : State :=
  { s with line, steps := s.steps + 1 }

theorem counter_insert (m : OrderedMap Nat Nat) (key n line : Nat) :
    counter (m.insert key n) line = if line = key then n else counter m line := by
  rw [counter, OrderedMap.get?_insert]
  split <;> rfl

theorem counter_erase (m : OrderedMap Nat Nat) (key line : Nat) :
    counter (m.erase key) line = if line = key then 0 else counter m line := by
  rw [counter, OrderedMap.get?_erase]
  split <;> rfl

end State

namespace Game

/-- What an answer is stored as. -/
def response (g : Game) (budget : Nat) (move : Move) : Phrase :=
  Measure.firstTokens g.judge { primary := move.response } budget

/-- How the requests of an `elicit` may be answered: what they make of a state, and whether the
player halts. -/
inductive Asked (g : Game) (line budget : Nat) :
    List Register → Nat → Bool → State → State → Bool → Prop
  | done {position : Nat} {announced : Bool} {s : State} :
      Asked g line budget [] position announced s s false
  | halted {r : Register} {rs : List Register} {position : Nat} {announced : Bool} {s : State} :
      Asked g line budget (r :: rs) position announced s
        { s.announce line budget r announced with pending := some ⟨line, position, true⟩ } true
  | answered {r : Register} {rs : List Register} {position : Nat} {announced halted : Bool}
      {s t : State} {registers : Registers} (move : Move) :
      s.registers.set r (.phrase (g.response budget move)) = .ok registers →
      Asked g line budget rs (position + 1) false
        ((s.announce line budget r announced).accept line r registers move.usage
          (g.response budget move)) t halted →
      Asked g line budget (r :: rs) position announced s t halted

/-- What an instruction on a line can make of a state, and where it leads. -/
inductive Runs (g : Game) (line : Nat) (s : State) : Instruction → State → Flow → Prop
  | assign {targets : List (Register × Expr)} {values : List Value} {t : State} :
      (targets.mapM fun t => g.eval s t.2) = .ok values →
      s.writeAll ((targets.map Prod.fst).zip values) = (t, .ok .next) →
      Runs g line s (.assign targets) t .next
  | reveal {es : List Expr} {values : List Value} : (es.mapM fun e => g.eval s e) = .ok values →
      Runs g line s (.reveal es) (s.record (.reveal line values)) .next
  | elicit {targets : List Register} {budget : Expr} {n : Nat} {t : State} {halted : Bool} :
      g.evalCount (s.setBeacon previousElicit line) .budget budget = .ok n →
      Asked g line n (targets.drop (s.progress line).next) (s.progress line).next
        (s.progress line).requested { s.setBeacon previousElicit line with pending := none }
        t halted →
      Runs g line s (.elicit targets budget) t (if halted then .halt else .next)
  | passed {conditions : List Expr} {results : List Bool} :
      (conditions.mapM fun e => g.evalCondition s e) = .ok results → results.all id = true →
      Runs g line s (.ensure conditions)
        { s with ensureFailures := s.ensureFailures.erase line } .next
  | retried {conditions : List Expr} {results : List Bool} {target : Nat} :
      (conditions.mapM fun e => g.evalCondition s e) = .ok results → results.all id = false →
      s.beacons.get? previousElicit = some target →
      State.counter s.ensureFailures line + 1 < g.config.maxEnsureFailures →
      Runs g line s (.ensure conditions) (s.noteFailure line results target) (.jump target)
  | reward {e : Expr} {v : Value} {x : Float} : g.eval s e = .ok v → scoreOf v = .ok x →
      (s.addScore x).roundScore.isFinite = true → (s.addScore x).totalScore.isFinite = true →
      Runs g line s (.reward e) ((s.addScore x).record (.reward line v x)) .next
  | beacon {name : String} : name ∈ flags →
      Runs g line s (.beacon name) (s.setBeacon name line) .next
  | fellThrough {name : String} {count : Expr} {n : Nat} :
      g.evalCount s .replayCount count = .ok n → n ≤ State.counter s.replayCounters line →
      Runs g line s (.replay name count)
        { s with replayCounters := s.replayCounters.erase line } .next
  | replayed {name : String} {count : Expr} {n target : Nat} :
      g.evalCount s .replayCount count = .ok n → State.counter s.replayCounters line < n →
      s.beacons.get? name = some target →
      Runs g line s (.replay name count)
        { s with replayCounters :=
            s.replayCounters.insert line (State.counter s.replayCounters line + 1) }
        (.jump (replayTarget name target))

/-- What can come after a state, and whether the player halts there. -/
inductive Change (g : Game) (s : State) : State → Bool → Prop
  | opened : s.round < g.config.rounds → s.roundStarted = false →
      Change g s (s.beginRound.record (.roundStarted s.round)) false
  | closed : s.round < g.config.rounds → s.roundStarted = true → g.program.size ≤ s.line →
      Change g s (s.record (.roundFinished s.round s.roundScore)).finishRound false
  | blank : s.round < g.config.rounds → s.roundStarted = true →
      g.program.lines[s.line]? = some none → Change g s { s with line := s.line + 1 } false
  | next {i : Instruction} {t : State} : s.round < g.config.rounds → s.roundStarted = true →
      g.program.lines[s.line]? = some (some i) → s.steps < g.config.maxSteps →
      Runs g s.line s i t .next → Change g s (t.moveTo (s.line + 1)) false
  | jump {i : Instruction} {t : State} {target : Nat} : s.round < g.config.rounds →
      s.roundStarted = true → g.program.lines[s.line]? = some (some i) →
      s.steps < g.config.maxSteps → Runs g s.line s i t (.jump target) →
      target ≤ g.program.size → Change g s (t.moveTo target) false
  | halt {i : Instruction} {t : State} : s.round < g.config.rounds → s.roundStarted = true →
      g.program.lines[s.line]? = some (some i) → s.steps < g.config.maxSteps →
      Runs g s.line s i t .halt → Change g s t true

variable {σ : Type}

theorem state_announce (player : Player σ) (line budget : Nat) (r : Register) (announced : Bool)
    (s : Session σ) :
    (if announced then s else s.emit player (.elicitRequest line r.name budget)).state =
      s.state.announce line budget r announced := by
  cases announced <;> rfl

/-- A request is announced before it is made. -/
theorem ask_emit {g : Game} (player : Player σ) (line budget : Nat) (r : Register)
    (rs : List Register) (position : Nat) (announced : Bool) (s : Session σ) :
    g.ask player line budget (r :: rs) position announced s =
      g.ask player line budget (r :: rs) position true
        (if announced then s else s.emit player (.elicitRequest line r.name budget)) := by
  cases announced <;> rfl

theorem registers_announce (s : State) (line budget : Nat) (r : Register) (announced : Bool) :
    (s.announce line budget r announced).registers = s.registers := by
  cases announced <;> rfl

theorem ask_asked {g : Game} {player : Player σ} {line budget : Nat} {rs : List Register}
    {position : Nat} {announced : Bool} {s t : Session σ} {flow : Flow}
    (h : g.ask player line budget rs position announced s = (t, .ok flow)) :
    ∃ halted, Asked g line budget rs position announced s.state t.state halted ∧
      flow = if halted then .halt else .next := by
  induction rs generalizing position announced s with
  | nil =>
    simp only [ask, Prod.mk.injEq, Except.ok.injEq] at h
    obtain ⟨rfl, rfl⟩ := h
    exact ⟨false, .done, rfl⟩
  | cons r rs ih =>
    have hs := state_announce player line budget r announced s
    simp only [ask] at h
    generalize (if announced then s else s.emit player (.elicitRequest line r.name budget)) = u
      at h hs
    split at h
    · simp only [Prod.mk.injEq, Except.ok.injEq] at h
      obtain ⟨rfl, rfl⟩ := h
      refine ⟨true, ?_, rfl⟩
      simp only [hs]
      exact .halted
    · simp at h
    · rename_i move _
      split at h
      · simp at h
      · rename_i registers hset
        obtain ⟨halted, ha, hf⟩ := ih h
        rw [hs, registers_announce] at hset
        refine ⟨halted, .answered move hset ?_, hf⟩
        rw [← hs]
        exact ha

theorem writeAll_flow {s t : State} {ws : List (Register × Value)} {flow : Flow}
    (h : s.writeAll ws = (t, .ok flow)) : flow = .next := by
  induction ws generalizing s with
  | nil =>
    simp only [State.writeAll, Prod.mk.injEq, Except.ok.injEq] at h
    exact h.2.symm
  | cons w ws ih =>
    simp only [State.writeAll] at h
    split at h
    · simp at h
    · exact ih h

/-- Requests and answers leave everything alone but registers, usage, progress and history. -/
theorem Asked.frame {g : Game} {line budget : Nat} {rs : List Register} {position : Nat}
    {announced halted : Bool} {s t : State}
    (h : Asked g line budget rs position announced s t halted) :
    t = { s with
      registers := t.registers
      usage := t.usage
      roundUsage := t.roundUsage
      pending := t.pending
      history := t.history } := by
  induction h with
  | done => rfl
  | @halted _ _ _ announced _ => cases announced <;> rfl
  | @answered _ _ _ announced _ _ _ _ _ _ _ ih =>
    rw [ih]
    cases announced <;> rfl

theorem writeAll_frame {s t : State} {ws : List (Register × Value)} {flow : Except Fault Flow}
    (h : s.writeAll ws = (t, flow)) : t = { s with registers := t.registers } := by
  induction ws generalizing s with
  | nil =>
    cases h
    rfl
  | cons w ws ih =>
    simp only [State.writeAll] at h
    split at h
    · cases h
      rfl
    · rw [ih h]

theorem execute_runs {g : Game} {player : Player σ} {line : Nat} {i : Instruction}
    {s t : Session σ} {flow : Flow} (h : g.execute player line i s = (t, .ok flow)) :
    Runs g line s.state i t.state flow := by
  cases i with
  | assign targets =>
    simp only [execute, quietly, assign] at h
    split at h
    · simp at h
    · rename_i values hv
      simp only [Prod.mk.injEq] at h
      obtain ⟨rfl, hf⟩ := h
      have hw : s.state.writeAll ((targets.map Prod.fst).zip values) =
          ((s.state.writeAll ((targets.map Prod.fst).zip values)).1, .ok flow) := by rw [← hf]
      obtain rfl := writeAll_flow hw
      exact .assign hv hw
  | reveal values =>
    simp only [execute, reveal] at h
    split at h
    · simp at h
    · rename_i vs hv
      simp only [Prod.mk.injEq, Except.ok.injEq] at h
      obtain ⟨rfl, rfl⟩ := h
      exact .reveal hv
  | elicit targets budget =>
    simp only [execute, elicit] at h
    split at h
    · simp at h
    · rename_i n hn
      obtain ⟨halted, ha, rfl⟩ := ask_asked h
      exact .elicit hn ha
  | ensure conditions =>
    simp only [execute, ensure] at h
    split at h
    · simp at h
    · rename_i results hr
      split at h
      · rename_i hall
        simp only [Prod.mk.injEq, Except.ok.injEq] at h
        obtain ⟨rfl, rfl⟩ := h
        exact .passed hr hall
      · rename_i hall
        split at h
        · simp at h
        · rename_i target ht
          split at h
          · simp at h
          · rename_i hless
            simp only [Prod.mk.injEq, Except.ok.injEq] at h
            obtain ⟨rfl, rfl⟩ := h
            exact .retried hr (by simpa using hall) ht (Nat.lt_of_not_le hless)
  | reward score =>
    simp only [execute, reward] at h
    split at h
    · simp at h
    · rename_i v hv
      split at h
      · simp at h
      · rename_i x hx
        split at h
        · rename_i hfin
          simp only [Prod.mk.injEq, Except.ok.injEq] at h
          obtain ⟨rfl, rfl⟩ := h
          rw [Bool.and_eq_true] at hfin
          exact .reward hv hx hfin.1 hfin.2
        · simp at h
  | beacon name =>
    simp only [execute, quietly, beacon] at h
    split at h
    · rename_i hname
      simp only [Prod.mk.injEq, Except.ok.injEq] at h
      obtain ⟨rfl, rfl⟩ := h
      exact .beacon (by simpa using hname)
    · simp at h
  | replay name count =>
    simp only [execute, quietly, replay] at h
    split at h
    · simp at h
    · rename_i n hn
      split at h
      · rename_i hle
        simp only [Prod.mk.injEq, Except.ok.injEq] at h
        obtain ⟨rfl, rfl⟩ := h
        exact .fellThrough hn hle
      · rename_i hlt
        split at h
        · simp at h
        · rename_i target ht
          simp only [Prod.mk.injEq, Except.ok.injEq] at h
          obtain ⟨rfl, rfl⟩ := h
          exact .replayed hn (Nat.lt_of_not_le hlt) ht

theorem step_change {g : Game} {player : Player σ} {s t : Session σ} {progress : Progress}
    (hr : s.state.round < g.config.rounds) (hs : s.state.roundStarted = true)
    (h : g.step player s = (t, .ok progress)) :
    Change g s.state t.state (progress == .halted) := by
  simp only [step] at h
  split at h
  · simp at h
  · rename_i hline
    simp only [Prod.mk.injEq, Except.ok.injEq] at h
    obtain ⟨rfl, rfl⟩ := h
    exact .blank hr hs hline
  · rename_i i hline
    split at h
    · simp at h
    · rename_i hsteps
      have hsteps : s.state.steps < g.config.maxSteps := Nat.lt_of_not_le hsteps
      split at h
      · simp at h
      · rename_i u flow hu
        have hruns := execute_runs hu
        cases flow with
        | next =>
          simp only [follow, Prod.mk.injEq, Except.ok.injEq] at h
          obtain ⟨rfl, rfl⟩ := h
          exact .next hr hs hline hsteps hruns
        | jump target =>
          simp only [follow] at h
          split at h
          · simp at h
          · rename_i hsize
            simp only [Prod.mk.injEq, Except.ok.injEq] at h
            obtain ⟨rfl, rfl⟩ := h
            exact .jump hr hs hline hsteps hruns (Nat.le_of_not_lt hsize)
        | halt =>
          simp only [follow, Prod.mk.injEq, Except.ok.injEq] at h
          obtain ⟨rfl, rfl⟩ := h
          exact .halt hr hs hline hsteps hruns

theorem advance_done {g : Game} {player : Player σ} {s : Session σ}
    (hr : g.config.rounds ≤ s.state.round) : g.advance player s = (s, some .finished) := by
  simp [advance, isFinished, hr]

theorem advance_opened {g : Game} {player : Player σ} {s : Session σ}
    (hr : s.state.round < g.config.rounds) (ho : s.state.roundStarted = false) :
    g.advance player s = (startRound player s, none) := by
  simp [advance, isFinished, Nat.not_le.mpr hr, ho]

theorem advance_closed {g : Game} {player : Player σ} {s : Session σ}
    (hr : s.state.round < g.config.rounds) (ho : s.state.roundStarted = true)
    (hl : g.program.size ≤ s.state.line) : g.advance player s = (endRound player s, none) := by
  simp [advance, isFinished, Nat.not_le.mpr hr, ho, Nat.not_lt.mpr hl]

theorem advance_blank {g : Game} {player : Player σ} {s : Session σ}
    (hr : s.state.round < g.config.rounds) (ho : s.state.roundStarted = true)
    (hl : g.program.lines[s.state.line]? = some none) :
    g.advance player s = (goTo s (s.state.line + 1), none) := by
  have hlt : s.state.line < g.program.size := (Array.getElem?_eq_some_iff.mp hl).1
  simp [advance, isFinished, Nat.not_le.mpr hr, ho, hlt, step, hl]

/-- What an advance does where an instruction stands. -/
theorem advance_at {g : Game} {player : Player σ} {s : Session σ} {i : Instruction}
    (hr : s.state.round < g.config.rounds) (ho : s.state.roundStarted = true)
    (hl : g.program.At s.state.line i) :
    g.advance player s =
      if g.config.maxSteps ≤ s.state.steps then
        (s, some (.failed (.line s.state.line (.tooManySteps s.state.round g.config.maxSteps))))
      else
        match g.execute player s.state.line i s with
        | (t, .error f) => (t, some (.failed (.line s.state.line f)))
        | (t, .ok .next) => (finishLine t (s.state.line + 1), none)
        | (t, .ok (.jump target)) =>
          if g.program.size < target then
            (t, some (.failed (.line s.state.line (.jumpOutside target))))
          else (finishLine t target, none)
        | (t, .ok .halt) => (t, some .halted) := by
  have hl' : g.program.lines[s.state.line]? = some (some i) := hl
  simp only [advance, isFinished, Nat.not_le.mpr hr, decide_false, ho, hl.lt, step, hl',
    Bool.false_eq_true, if_false, Bool.not_true, if_true]
  by_cases hs : g.config.maxSteps ≤ s.state.steps
  · simp only [hs, if_true]
  · simp only [hs, if_false]
    cases he : g.execute player s.state.line i s with
    | mk t r =>
      cases r with
      | error f => rfl
      | ok flow =>
        cases flow with
        | next => rfl
        | halt => rfl
        | jump target => by_cases hsize : g.program.size < target <;> simp [follow, hsize]

/-- An advance that neither ends the game nor fails is one of the changes. -/
theorem advance_change {g : Game} {player : Player σ} {s t : Session σ} {o : Option Outcome}
    (h : g.advance player s = (t, o)) :
    (o = none → Change g s.state t.state false) ∧
      (o = some .halted → Change g s.state t.state true) := by
  simp only [advance] at h
  split at h
  · cases h
    simp
  · rename_i hf
    have hr : s.state.round < g.config.rounds := by simpa [isFinished] using hf
    split at h
    · rename_i hs
      cases h
      exact ⟨fun _ => .opened hr (by simpa using hs), by simp⟩
    · rename_i hs
      have hs : s.state.roundStarted = true := by simpa using hs
      split at h
      · split at h
        · rename_i hstep
          cases h
          exact ⟨fun _ => step_change hr hs hstep, by simp⟩
        · rename_i hstep
          cases h
          exact ⟨by simp, fun _ => step_change hr hs hstep⟩
        · cases h
          simp
      · rename_i hl
        cases h
        exact ⟨fun _ => .closed hr hs (Nat.le_of_not_lt hl), by simp⟩

theorem advance_finished {g : Game} {player : Player σ} {s t : Session σ}
    (h : g.advance player s = (t, some .finished)) : t = s ∧ g.config.rounds ≤ s.state.round := by
  simp only [advance] at h
  split at h
  · rename_i hf
    cases h
    exact ⟨rfl, by simpa [isFinished] using hf⟩
  · split at h
    · cases h
    · split at h
      · split at h <;> cases h
      · cases h

/-- Between rounds nothing can happen but the opening of the next. -/
theorem Change.opened_of_not_started {g : Game} {s t : State} {halted : Bool}
    (h : Change g s t halted) (ho : s.roundStarted = false) :
    t = s.beginRound.record (.roundStarted s.round) := by
  cases h with
  | opened => rfl
  | closed _ hs | blank _ hs | next _ hs | jump _ hs | halt _ hs => cases hs.symm.trans ho

end Game

end EntropyGame
