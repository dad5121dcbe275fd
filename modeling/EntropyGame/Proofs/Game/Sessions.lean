import EntropyGame.Proofs.Game.Control

namespace EntropyGame

/-- The player that makes given moves in order and halts when there is none left. -/
def Player.moves : Player (List Move) where
  request
    | [], _ => (.error .halt, [])
    | move :: moves, _ => (.ok move, moves)

/-- How a game ends: with its results, left off for later, or with an error. -/
inductive Ending
  | finished (results : Summary)
  | suspended (s : State)
  | failed (e : GameError)

def Outcome.ending (s : State) : Outcome → Ending
  | finished => .finished s.summary
  | halted => .suspended s
  | failed e => .failed e

/-- Drops what is pending. -/
def State.forget (s : State) : State :=
  { s with pending := none }

namespace Game

/-- How a game ends that is played with given moves. -/
def play (g : Game) (s : State) (moves : List Move) : Ending :=
  let (t, outcome) := g.run .moves ⟨s, moves⟩
  outcome.ending t.state

/-- How a game ends that is played in sessions, each with moves of its own: after a halt it is saved
and resumed for the next session. -/
def playSessions (make : JudgeMaker) (g : Game) (s : State) (moves : List Move) :
    List (List Move) → Ending
  | [] => g.play s moves
  | next :: later =>
    match g.run .moves ⟨s, moves⟩ with
    | (t, .halted) =>
      match (g.save t.state).resume make with
      | .ok (g', s') => playSessions make g' s' next later
      | .error e => .failed e
    | (t, outcome) => outcome.ending t.state

/-- A halt has left a state at an `elicit`, where the request for the target at `next` was announced
with a budget of `n`. -/
structure Asking (g : Game) (s : State) (targets : List Register) (budget : Expr) (next n : Nat) :
    Prop where
  pending : s.pending = some ⟨s.line, next, true⟩
  elicit : g.program.At s.line (.elicit targets budget)
  announced : ∃ r, targets[next]? = some r ∧
    s.history.back? = some (.elicitRequest s.line r.name n)

/-- Asks what is left to ask of an `elicit` and plays on. -/
def goOn (g : Game) (line n : Nat) (rs : List Register) (next : Nat) (announced : Bool)
    (s : Session (List Move)) : Session (List Move) × Outcome :=
  match g.ask .moves line n rs next announced s with
  | (t, .error f) => (t, .failed (.line line f))
  | (t, .ok .halt) => (t, .halted)
  | (t, .ok _) => g.run .moves (finishLine t (line + 1))

variable {σ : Type} {g : Game}

theorem elicit_ask {player : Player σ} {line : Nat} {targets : List Register} {budget : Expr}
    {s : Session σ} :
    g.elicit player line targets budget s =
      match g.evalCount (s.state.setBeacon previousElicit line) .budget budget with
      | .error f => ({ s with state := s.state.setBeacon previousElicit line }, .error f)
      | .ok n =>
        let p := s.state.progress line
        g.ask player line n (targets.drop p.next) p.next p.requested
          { s with state := (s.state.setBeacon previousElicit line).forget } :=
  rfl

theorem ask_flow {player : Player σ} {line budget : Nat} {rs : List Register} {position : Nat}
    {announced : Bool} {s t : Session σ} {flow : Flow}
    (h : g.ask player line budget rs position announced s = (t, .ok flow)) :
    flow = .next ∨ flow = .halt := by
  obtain ⟨halted, _, rfl⟩ := ask_asked h
  cases halted
  · exact .inl rfl
  · exact .inr rfl

theorem advance_elicit {player : Player σ} {s : Session σ} {targets : List Register} {budget : Expr}
    (hr : s.state.round < g.config.rounds) (ho : s.state.roundStarted = true)
    (hs : s.state.steps < g.config.maxSteps)
    (hl : g.program.At s.state.line (.elicit targets budget)) :
    g.advance player s =
      match g.elicit player s.state.line targets budget s with
      | (t, .error f) => (t, some (.failed (.line s.state.line f)))
      | (t, .ok .halt) => (t, some .halted)
      | (t, .ok _) => (finishLine t (s.state.line + 1), none) := by
  rw [advance_at hr ho hl, if_neg (Nat.not_le.mpr hs)]
  simp only [execute]
  cases he : g.elicit player s.state.line targets budget s with
  | mk t r =>
    cases r with
    | error f => rfl
    | ok flow =>
      have hf : flow = .next ∨ flow = .halt := by
        simp only [elicit] at he
        split at he
        · cases he
        · exact ask_flow he
      obtain rfl | rfl := hf <;> rfl

theorem run_elicit {s : Session (List Move)} {targets : List Register} {budget : Expr}
    (hr : s.state.round < g.config.rounds) (ho : s.state.roundStarted = true)
    (hs : s.state.steps < g.config.maxSteps)
    (hl : g.program.At s.state.line (.elicit targets budget)) :
    g.run .moves s =
      match g.evalCount (s.state.setBeacon previousElicit s.state.line) .budget budget with
      | .error f => ({ s with state := s.state.setBeacon previousElicit s.state.line },
          .failed (.line s.state.line f))
      | .ok n =>
        let p := s.state.progress s.state.line
        g.goOn s.state.line n (targets.drop p.next) p.next p.requested
          { s with state := (s.state.setBeacon previousElicit s.state.line).forget } := by
  have ha : g.advance .moves s = _ := advance_elicit hr ho hs hl
  rw [elicit_ask] at ha
  cases hn : g.evalCount (s.state.setBeacon previousElicit s.state.line) .budget budget with
  | error f =>
    simp only [hn] at ha
    exact run_of_some ha
  | ok n =>
    simp only [hn] at ha
    simp only [goOn]
    split at ha
    · rename_i hk
      rw [hk]
      exact run_of_some ha
    · rename_i hk
      rw [hk]
      exact run_of_some ha
    · rename_i hne hk
      rw [hk]
      obtain rfl | rfl := ask_flow hk
      · exact run_of_none ha
      · exact absurd rfl hne

theorem ask_moves_nil {line n : Nat} {r : Register} {rs : List Register} {next : Nat}
    {announced : Bool} {s : State} :
    g.ask .moves line n (r :: rs) next announced ⟨s, []⟩ =
      (⟨{ s.announce line n r announced with pending := some ⟨line, next, true⟩ }, []⟩,
        .ok .halt) := by
  cases announced <;> rfl

theorem ask_moves_cons {line n : Nat} {r : Register} {rs : List Register} {next : Nat}
    {announced : Bool} {s : State} {move : Move} {moves : List Move} :
    g.ask .moves line n (r :: rs) next announced ⟨s, move :: moves⟩ =
      match s.registers.set r (.phrase (g.response n move)) with
      | .error e => (⟨s.announce line n r announced, moves⟩, .error (.write e))
      | .ok registers =>
        g.ask .moves line n rs (next + 1) false
          ⟨(s.announce line n r announced).accept line r registers move.usage (g.response n move),
            moves⟩ := by
  cases announced <;> rfl

theorem ask_announced {line n : Nat} {r : Register} {rs : List Register} {next : Nat}
    {announced : Bool} {s : State} {moves : List Move} :
    g.ask .moves line n (r :: rs) next announced ⟨s, moves⟩ =
      g.ask .moves line n (r :: rs) next true ⟨s.announce line n r announced, moves⟩ := by
  cases announced <;> rfl

/-- Moves that come later change nothing before they are needed. -/
theorem ask_append {line n : Nat} {rs : List Register} {next : Nat} {announced : Bool} {s : State}
    {moves : List Move} {t : Session (List Move)} {r : Except Fault Flow}
    (h : g.ask .moves line n rs next announced ⟨s, moves⟩ = (t, r)) (hr : r ≠ .ok .halt)
    (later : List Move) :
    g.ask .moves line n rs next announced ⟨s, moves ++ later⟩ =
      (⟨t.state, t.memory ++ later⟩, r) := by
  induction rs generalizing next announced s moves with
  | nil =>
    cases h
    rfl
  | cons q rs ih =>
    cases moves with
    | nil =>
      rw [ask_moves_nil] at h
      cases h
      exact absurd rfl hr
    | cons move moves =>
      rw [ask_moves_cons] at h
      rw [List.cons_append, ask_moves_cons]
      cases hset : s.registers.set q (.phrase (g.response n move)) with
      | error e =>
        simp only [hset] at h
        cases h
        rfl
      | ok registers =>
        simp only [hset] at h
        exact ih h

/-- After a halt the moves that come later go on where it was. -/
theorem ask_halted {line n : Nat} {rs : List Register} {next : Nat} {announced : Bool} {s : State}
    {moves : List Move} {t : Session (List Move)}
    (h : g.ask .moves line n rs next announced ⟨s, moves⟩ = (t, .ok .halt))
    (hp : s.pending = none)
    (ha : announced = true →
      ∃ r, rs[0]? = some r ∧ s.history.back? = some (.elicitRequest line r.name n)) :
    t.memory = [] ∧ ∃ k r, t.state.pending = some ⟨line, next + k, true⟩ ∧ rs[k]? = some r ∧
      t.state.history.back? = some (.elicitRequest line r.name n) ∧
      ∀ later, g.ask .moves line n rs next announced ⟨s, moves ++ later⟩ =
        g.ask .moves line n (rs.drop k) (next + k) true
          ⟨t.state.forget, later⟩ := by
  induction rs generalizing next announced s moves with
  | nil => cases h
  | cons q rs ih =>
    cases moves with
    | nil =>
      rw [ask_moves_nil] at h
      cases h
      refine ⟨rfl, 0, q, rfl, rfl, ?_, fun later => ?_⟩
      · cases announced with
        | false => simp [State.announce, State.record]
        | true =>
          obtain ⟨r, hr, hb⟩ := ha rfl
          cases hr
          exact hb
      · have hs : (s.announce line n q announced).forget =
            s.announce line n q announced := by
          rw [State.forget, ← hp]
          cases announced <;> rfl
        rw [List.nil_append, ask_announced]
        exact congrArg (fun u => g.ask .moves line n (q :: rs) next true ⟨u, later⟩) hs.symm
    | cons move moves =>
      rw [ask_moves_cons] at h
      cases hset : s.registers.set q (.phrase (g.response n move)) with
      | error e =>
        simp only [hset] at h
        cases h
      | ok registers =>
        simp only [hset] at h
        have hp' : ((s.announce line n q announced).accept line q registers move.usage
            (g.response n move)).pending = none := by
          cases announced <;> exact hp
        obtain ⟨hm, k, r, hpend, hr, hb, hlater⟩ := ih h hp' (by simp)
        refine ⟨hm, k + 1, r, ?_, hr, hb, fun later => ?_⟩
        · rw [hpend, Nat.add_assoc, Nat.add_comm 1 k]
        · rw [List.cons_append, ask_moves_cons]
          simp only [hset]
          rw [hlater later, List.drop_succ_cons, Nat.add_assoc, Nat.add_comm 1 k]

/-- An instruction other than `elicit` does not ask for moves. -/
theorem execute_moves {line : Nat} {i : Instruction} (s : State) (moves : List Move)
    (hi : ∀ targets budget, i ≠ .elicit targets budget) :
    g.execute .moves line i ⟨s, moves⟩ =
      (⟨(g.execute .moves line i ⟨s, []⟩).1.state, moves⟩,
        (g.execute .moves line i ⟨s, []⟩).2) := by
  cases i with
  | assign targets => rfl
  | reveal values =>
    simp only [execute, reveal]
    split <;> rfl
  | elicit targets budget => exact absurd rfl (hi targets budget)
  | ensure conditions =>
    simp only [execute, ensure]
    split
    · rfl
    · split
      · rfl
      · split
        · rfl
        · split <;> rfl
  | reward score =>
    simp only [execute, reward]
    split
    · rfl
    · split
      · rfl
      · split <;> rfl
  | beacon name => rfl
  | replay name count => rfl

theorem execute_append {line : Nat} {i : Instruction} {s : State} {moves : List Move}
    {t : Session (List Move)} {r : Except Fault Flow}
    (h : g.execute .moves line i ⟨s, moves⟩ = (t, r)) (hr : r ≠ .ok .halt) (later : List Move) :
    g.execute .moves line i ⟨s, moves ++ later⟩ = (⟨t.state, t.memory ++ later⟩, r) := by
  by_cases hi : ∃ targets budget, i = .elicit targets budget
  · obtain ⟨targets, budget, rfl⟩ := hi
    simp only [execute, elicit] at h ⊢
    split at h
    · cases h
      rfl
    · exact ask_append h hr later
  · have hi' : ∀ targets budget, i ≠ .elicit targets budget := by
      rintro targets budget rfl
      exact hi ⟨targets, budget, rfl⟩
    rw [execute_moves s _ hi'] at h ⊢
    cases h
    rfl

theorem step_append {s : State} {moves : List Move} {t : Session (List Move)}
    {r : Except Fault Progress} (h : g.step .moves ⟨s, moves⟩ = (t, r)) (hr : r ≠ .ok .halted)
    (later : List Move) :
    g.step .moves ⟨s, moves ++ later⟩ = (⟨t.state, t.memory ++ later⟩, r) := by
  simp only [step] at h ⊢
  split at h
  · cases h
    rfl
  · cases h
    rfl
  · split at h
    · cases h
      simp [*]
    · rename_i hs
      rw [if_neg hs]
      split at h
      · rename_i he
        cases h
        rw [execute_append he (by simp)]
      · rename_i u flow he
        cases flow with
        | next =>
          cases h
          rw [execute_append he (by simp)]
          rfl
        | jump target =>
          rw [execute_append he (by simp)]
          simp only [follow] at h ⊢
          split at h <;> cases h <;> simp [finishLine, *]
        | halt =>
          cases h
          exact absurd rfl hr

theorem advance_append {s : State} {moves : List Move} {t : Session (List Move)}
    {o : Option Outcome} (h : g.advance .moves ⟨s, moves⟩ = (t, o)) (ho : o ≠ some .halted)
    (later : List Move) :
    g.advance .moves ⟨s, moves ++ later⟩ = (⟨t.state, t.memory ++ later⟩, o) := by
  simp only [advance] at h ⊢
  split at h
  · cases h
    rw [if_pos (by assumption)]
  · rw [if_neg (by assumption)]
    split at h
    · cases h
      rw [if_pos (by assumption)]
      rfl
    · rw [if_neg (by assumption)]
      split at h
      · rw [if_pos (by assumption)]
        split at h
        · rename_i hs
          cases h
          rw [step_append hs (by simp)]
        · cases h
          exact absurd rfl ho
        · rename_i hs
          cases h
          rw [step_append hs (by simp)]
      · cases h
        rw [if_neg (by assumption)]
        rfl

/-- A run that ends before its moves run out ends alike with more of them. -/
theorem run_append {s t : Session (List Move)} {o : Outcome} (h : g.run .moves s = (t, o))
    (ho : o ≠ .halted) (later : List Move) :
    g.run .moves ⟨s.state, s.memory ++ later⟩ = (⟨t.state, t.memory ++ later⟩, o) := by
  fun_induction Game.run g .moves s with
  | case1 s s' ha ih =>
    rw [run_of_none (advance_append ha (by simp) later)]
    exact ih h
  | case2 s s' outcome ha =>
    cases h
    exact run_of_some (advance_append ha (by simpa using ho) later)

theorem Runs.halt_elicit {line : Nat} {s t : State} {i : Instruction}
    (h : Runs g line s i t .halt) : ∃ targets budget, i = .elicit targets budget := by
  generalize hf : Flow.halt = flow at h
  cases h with
  | elicit => exact ⟨_, _, rfl⟩
  | _ => cases hf

theorem Change.halt_elicit {s t : State} (h : Change g s t true) :
    s.round < g.config.rounds ∧ s.roundStarted = true ∧ s.steps < g.config.maxSteps ∧
      ∃ targets budget, g.program.At s.line (.elicit targets budget) := by
  cases h with
  | halt hr ho hl hs hruns =>
    obtain ⟨targets, budget, rfl⟩ := hruns.halt_elicit
    exact ⟨hr, ho, hs, targets, budget, hl⟩

/-- What a halt leaves where nothing was pending, and how the run goes on with more moves. -/
theorem advance_halted {s t : Session (List Move)} (hp : s.state.pending = none)
    (h : g.advance .moves s = (t, some .halted)) :
    t.memory = [] ∧ ∃ targets budget next n, g.Asking t.state targets budget next n ∧
      ∀ later, g.run .moves ⟨s.state, s.memory ++ later⟩ =
        g.goOn t.state.line n (targets.drop next) next true
          ⟨t.state.forget, later⟩ := by
  obtain ⟨hr, ho, hs, targets, budget, hl⟩ := ((advance_change h).2 rfl).halt_elicit
  rw [advance_elicit hr ho hs hl] at h
  have he : g.elicit .moves s.state.line targets budget s = (t, .ok .halt) := by
    split at h <;> cases h
    assumption
  have hpr : s.state.progress s.state.line = ⟨s.state.line, 0, false⟩ := by
    simp [State.progress, hp]
  simp only [elicit_ask, hpr, List.drop_zero] at he
  split at he
  · cases he
  · rename_i n hn
    have hline : t.state.line = s.state.line := by
      have hc := ask_clock g .moves s.state.line n targets 0 false
        { s with state := (s.state.setBeacon previousElicit s.state.line).forget }
      rw [he] at hc
      exact congrArg Clock.line hc
    obtain ⟨hm, k, r, hpend, hk, hb, hlater⟩ := ask_halted he rfl (by simp)
    rw [Nat.zero_add] at hpend hlater
    refine ⟨hm, targets, budget, k, n, ⟨?_, ?_, r, hk, ?_⟩, fun later => ?_⟩
    · rw [hline, hpend]
    · rw [hline]
      exact hl
    · rw [hline, hb]
    · rw [run_elicit (s := ⟨s.state, s.memory ++ later⟩) hr ho hs hl]
      simp only [hn, hpr, List.drop_zero]
      rw [goOn, goOn, hline, hlater later]

theorem run_halted {s t : Session (List Move)} (hs : Reached g s.state false)
    (h : g.run .moves s = (t, .halted)) :
    t.memory = [] ∧ ∃ targets budget next n, g.Asking t.state targets budget next n ∧
      ∀ later, g.run .moves ⟨s.state, s.memory ++ later⟩ =
        g.goOn t.state.line n (targets.drop next) next true
          ⟨t.state.forget, later⟩ := by
  fun_induction Game.run g .moves s with
  | case1 s s' ha ih =>
    obtain ⟨hm, targets, budget, next, n, hask, hlater⟩ := ih (.advance hs ha) h
    refine ⟨hm, targets, budget, next, n, hask, fun later => ?_⟩
    rw [run_of_none (advance_append ha (by simp) later)]
    exact hlater later
  | case2 s s' outcome ha =>
    cases h
    have hp : s.state.pending = none := by
      have hsome := hs.controlled.pending
      cases hpend : s.state.pending with
      | none => rfl
      | some p =>
        rw [hpend] at hsome
        cases hsome
    exact advance_halted hp ha

theorem Asking.unique {s : State} {targets targets' : List Register} {budget budget' : Expr}
    {next next' n n' : Nat} (h : g.Asking s targets budget next n)
    (h' : g.Asking s targets' budget' next' n') :
    targets = targets' ∧ budget = budget' ∧ next = next' ∧ n = n' := by
  have hi := h.elicit.eq h'.elicit
  simp only [Instruction.elicit.injEq] at hi
  have hp := h.pending.symm.trans h'.pending
  simp only [Option.some.injEq, Pending.mk.injEq, and_true, true_and] at hp
  obtain ⟨r, _, hb⟩ := h.announced
  obtain ⟨r', _, hb'⟩ := h'.announced
  have he := hb.symm.trans hb'
  simp only [Option.some.injEq, Event.elicitRequest.injEq, true_and] at he
  exact ⟨hi.1, hi.2, hp, he.2⟩

/-- A state that waits goes on once its budget is evaluated again. -/
theorem run_waiting {s : State} {targets : List Register} {budget : Expr} {next n : Nat}
    (hs : g.Controlled s true) (h : g.Asking s targets budget next n) (moves : List Move) :
    g.run .moves ⟨s, moves⟩ =
      match g.evalCount s .budget budget with
      | .error f => (⟨s, moves⟩, .failed (.line s.line f))
      | .ok n => g.goOn s.line n (targets.drop next) next true ⟨s.forget, moves⟩ := by
  have hw := hs.waiting _ h.pending
  have hb : s.setBeacon previousElicit s.line = s := by
    rw [State.setBeacon, OrderedMap.insert_of_get? hw.elicit]
  have hpr : s.progress s.line = ⟨s.line, next, true⟩ := by
    simp [State.progress, h.pending]
  rw [run_elicit hw.round hw.started hw.steps h.elicit]
  simp only [hb, hpr]

end Game

end EntropyGame
