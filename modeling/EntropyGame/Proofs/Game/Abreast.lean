import EntropyGame.Proofs.Game.InStep

namespace EntropyGame

variable {σ σ' : Type}

theorem State.Parallel.finishRound {τ : Renaming} {s s' : State} (h : s.Parallel τ True s')
    (hround : τ.round = id) : s.finishRound.Parallel τ True s'.finishRound :=
  { h with
    history := by simp [State.finishRound]
    steps := rfl
    round := by simp [State.finishRound, h.round, hround]
    roundStarted := rfl
    completed := fun hw => h.toAlike.completed h.round (h.completed hw) }

namespace Game

/-- Two sessions of parallel games. -/
structure Abreast (g : Game) (τ : Renaming) (R : σ → σ' → Prop) (s : Session σ)
    (s' : Session σ') : Prop where
  parallel : s.Parallel τ True R s'
  round : s.state.roundStarted = true → g.InRound τ True R s s'

/-- What two moves of parallel games lead to. -/
structure Meets (g : Game) (τ : Renaming) (R : σ → σ' → Prop) (x : Session σ × Option Outcome)
    (x' : Session σ' × Option Outcome) : Prop where
  outcome : x'.2 = x.2.map (Outcome.rename τ)
  abreast : x.2 = none → g.Abreast τ R x.1 x'.1
  parallel : x.1.Parallel τ True R x'.1
  line : ∀ o, x.2 = some o → o ≠ .finished → x'.1.state.line = τ.line x.1.state.line

/-- What two runs of parallel games come to. -/
structure SameRun (τ : Renaming) (R : σ → σ' → Prop) (x : Session σ × Outcome)
    (x' : Session σ' × Outcome) : Prop where
  outcome : x'.2 = x.2.rename τ
  parallel : x.1.Parallel τ True R x'.1
  line : x.2 ≠ .finished → x'.1.state.line = τ.line x.1.state.line

variable {g g' : Game} {τ : Renaming} {R : σ → σ' → Prop} {player : Player σ}
  {player' : Player σ'} {s : Session σ} {s' : Session σ'}

/-- The second run is the same once it is past the blank lines before the next line. -/
theorem run_catchUp (player' : Player σ') (hf : g.program.Found τ g'.program)
    (h : g.InRound τ True R s s') (hr' : s'.state.round < g'.config.rounds) :
    ∃ t', g'.run player' s' = g'.run player' t' ∧ g.InRound τ True R s t' ∧
      t'.state.line = τ.line s.state.line := by
  induction hleft : τ.line s.state.line - s'.state.line generalizing s' with
  | zero =>
    have heq : s'.state.line = τ.line s.state.line :=
      Nat.le_antisymm h.place.1 (Nat.le_of_sub_eq_zero hleft)
    exact ⟨s', rfl, h, heq⟩
  | succ n ih =>
    obtain ⟨hskip, hnext⟩ := advance_skip player' hf h hr' (by omega)
    have hfewer : τ.line s.state.line - (s'.state.line + 1) = n := by omega
    obtain ⟨t', hrun, ht', hline⟩ := ih hnext hr' hfewer
    exact ⟨t', (run_of_none hskip).trans hrun, ht', hline⟩

/-- Rounds close in parallel. -/
theorem endRound_parallel (hp : player.Alike τ R player') (hround : τ.round = id)
    (h : s.Parallel τ True R s') :
    (endRound player s).Parallel τ True R (endRound player' s') := by
  have htold := h.alike.emit_roundFinished hp h.state.round
  have hstate : State.Parallel τ True
      (s.emit player (.roundFinished s.state.round s.state.roundScore)).state
      (s'.emit player' (.roundFinished s'.state.round s'.state.roundScore)).state :=
    { h.state with toAlike := htold.state }
  exact ⟨hstate.finishRound hround, htold.memory⟩

/-- Moves are made in parallel, once blank lines are skipped. -/
theorem advance_abreast (hp : player.Alike τ R player') (hround : τ.round = id)
    (hc : g'.config = g.config) (hj : g'.judge = g.judge) (hf : g.program.Found τ g'.program)
    (h : g.Abreast τ R s s') :
    ∃ t', g'.run player' s' = g'.run player' t' ∧
      g.Meets τ R (g.advance player s) (g'.advance player' t') := by
  have hsame : s'.state.round = s.state.round := by rw [h.parallel.state.round, hround, id]
  by_cases hr : g.config.rounds ≤ s.state.round
  · have hr' : g'.config.rounds ≤ s'.state.round := by rwa [hc, hsame]
    refine ⟨s', rfl, ?_⟩
    rw [advance_done hr, advance_done hr']
    exact ⟨rfl, by simp, h.parallel, fun o ho hne => absurd (Option.some.inj ho).symm hne⟩
  · have hr : s.state.round < g.config.rounds := Nat.lt_of_not_le hr
    have hr' : s'.state.round < g'.config.rounds := by rwa [hc, hsame]
    cases ho : s.state.roundStarted with
    | false =>
      have ho' : s'.state.roundStarted = false := h.parallel.state.roundStarted.trans ho
      have hopened : g.InRound τ True R (startRound player s) (startRound player' s') :=
        startRound_inRound hp (by rw [h.parallel.state.registers]) h.parallel.state.round
          h.parallel.state.usage h.parallel.state.totalScore h.parallel.state.completed
          h.parallel.memory
      refine ⟨s', rfl, ?_⟩
      rw [advance_opened hr ho, advance_opened hr' ho']
      exact ⟨rfl, fun _ => ⟨hopened.parallel, fun _ => hopened⟩, hopened.parallel, by simp⟩
    | true =>
      obtain ⟨t', hrun, ht', hline⟩ := run_catchUp player' hf (h.round ho) hr'
      have hsame' : t'.state.round = s.state.round := by
        rw [ht'.parallel.state.round, hround, id]
      have hr'' : t'.state.round < g'.config.rounds := by rwa [hc, hsame']
      refine ⟨t', hrun, ?_⟩
      rcases Nat.lt_or_ge s.state.line g.program.size with hlt | hge
      · obtain hstep | ⟨hwhole, _⟩ := advance_inStep hp hc hj hf ht' hr hr'' hline hlt
        · exact ⟨hstep.outcome, fun hn => ⟨hstep.parallel, fun _ => hstep.goes hn⟩,
            hstep.parallel, fun o ho _ => hstep.stops (by simp [ho])⟩
        · exact absurd trivial hwhole
      · have ho' : t'.state.roundStarted = true := ht'.parallel.state.roundStarted.trans ho
        have hge' : g'.program.size ≤ t'.state.line := by
          rw [hline, hf.size]
          exact hf.mono.monotone hge
        have hclosed := endRound_parallel hp hround ht'.parallel
        rw [advance_closed hr ho hge, advance_closed hr'' ho' hge']
        exact ⟨rfl, fun _ => ⟨hclosed, fun hs => absurd hs Bool.false_ne_true⟩, hclosed, by simp⟩

/-- Runs go on in parallel to the end. -/
theorem run_abreast (hp : player.Alike τ R player') (hround : τ.round = id)
    (hc : g'.config = g.config) (hj : g'.judge = g.judge) (hf : g.program.Found τ g'.program)
    (h : g.Abreast τ R s s') : SameRun τ R (g.run player s) (g'.run player' s') := by
  fun_induction Game.run g player s generalizing s' with
  | case1 s t ha ih =>
    obtain ⟨t', hrun, hmeets⟩ := advance_abreast hp hround hc hj hf h
    rw [ha] at hmeets
    have hnext : g'.advance player' t' = ((g'.advance player' t').1, none) :=
      Prod.ext rfl hmeets.outcome
    rw [hrun, run_of_none hnext]
    exact ih (hmeets.abreast rfl)
  | case2 s t outcome ha =>
    obtain ⟨t', hrun, hmeets⟩ := advance_abreast hp hround hc hj hf h
    rw [ha] at hmeets
    have hlast : g'.advance player' t' = ((g'.advance player' t').1, some (outcome.rename τ)) :=
      Prod.ext rfl hmeets.outcome
    rw [hrun, run_of_some hlast]
    exact ⟨rfl, hmeets.parallel, hmeets.line outcome rfl⟩

theorem initial_abreast (hc : g'.config = g.config) {memory : σ} {memory' : σ'}
    (hround : τ.round = id) (hmemory : R memory memory') :
    g.Abreast τ R ⟨g.initial, memory⟩ ⟨g'.initial, memory'⟩ := by
  have hinitial : g'.initial = g.initial := by rw [initial, initial, hc]
  refine ⟨⟨?_, hmemory⟩, fun hs => absurd hs Bool.false_ne_true⟩
  rw [hinitial]
  exact
    { registers := rfl
      roundScore := rfl
      roundUsage := rfl
      pending := rfl
      history := by simp [initial, State.initial]
      usage := fun _ => rfl
      totalScore := fun _ => rfl
      beacons := rfl
      replayCounters := .empty
      ensureFailures := .empty
      steps := rfl
      round := by rw [hround, id]
      roundStarted := rfl
      completed := fun _ => by simp [initial, State.initial] }

end Game

end EntropyGame
