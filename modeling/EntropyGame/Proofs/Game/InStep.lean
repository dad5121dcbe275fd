import EntropyGame.Proofs.Game.Parallel

namespace EntropyGame

variable {σ σ' : Type}

/-- Whether a game fails because a score is too much for its total. -/
def Overflows (x : Session σ × Option Outcome) : Prop :=
  ∃ line score, x.2 = some (.failed (.line line (.scoreOverflow score))) ∧
    (x.1.state.totalScore + score).isFinite = false

namespace Game

/-- Two sessions in parallel rounds, where the second may still be at the blank lines before the
next line. -/
structure InRound (g : Game) (τ : Renaming) (whole : Prop) (R : σ → σ' → Prop) (s : Session σ)
    (s' : Session σ') : Prop where
  parallel : s.Parallel τ whole R s'
  started : s.state.roundStarted = true
  marked : g.Marked s.state
  inside : s.state.line ≤ g.program.size
  place : τ.Finds s.state.line s'.state.line

/-- What two lines lead to that are run in step. -/
structure InStep (g : Game) (τ : Renaming) (whole : Prop) (R : σ → σ' → Prop)
    (x : Session σ × Option Outcome) (x' : Session σ' × Option Outcome) : Prop where
  outcome : x'.2 = x.2.map (Outcome.rename τ)
  parallel : x.1.Parallel τ whole R x'.1
  goes : x.2 = none → g.InRound τ whole R x.1 x'.1
  stops : x.2 ≠ none → x'.1.state.line = τ.line x.1.state.line

/-- No fault of an instruction shows the number of the round. -/
theorem Fails.rename {g : Game} (τ : Renaming) {line : Nat} {s t : State} {i : Instruction}
    {f : Fault} (h : Fails g line s i t f) : f.rename τ = f := by
  cases h with
  | eval _ hv =>
    have hclass := eval_ne_game hv
    unfold Fault.rename
    split
    · exact absurd rfl hclass
    · rfl
  | assign _ hw =>
    obtain ⟨e, rfl⟩ := writeAll_error hw
    rfl
  | elicit _ ha =>
    obtain ⟨message, rfl⟩ | ⟨e, rfl⟩ := ha.fault
    · rfl
    · rfl
  | _ => rfl

variable {g g' : Game} {τ : Renaming} {whole : Prop} {R : σ → σ' → Prop} {player : Player σ}
  {player' : Player σ'} {s : Session σ} {s' : Session σ'}

/-- Parallel rounds open in parallel if they find the same in the registers that last. -/
theorem startRound_inRound (hp : player.Alike τ R player')
    (hregisters : s'.state.registers.resetLists = s.state.registers.resetLists)
    (hround : s'.state.round = τ.round s.state.round)
    (husage : whole → s'.state.usage = s.state.usage)
    (htotal : whole → s'.state.totalScore = s.state.totalScore)
    (hcompleted : whole →
      s'.state.completed = s.state.completed.map (RoundResult.rename τ))
    (hmemory : R s.memory s'.memory) :
    g.InRound τ whole R (startRound player s) (startRound player' s') := by
  have hbeacons : (OrderedMap.empty.insert startBeacon 0).mapWithKey τ.beacon =
      OrderedMap.empty.insert startBeacon 0 := by
    rw [OrderedMap.mapWithKey_insert]
    rfl
  have hopened : s.state.beginRound.Parallel τ whole s'.state.beginRound :=
    { toAlike := .beginRound hregisters husage htotal
      beacons := hbeacons.symm
      replayCounters := .empty
      ensureFailures := .empty
      steps := rfl
      round := hround
      roundStarted := rfl
      completed := hcompleted }
  have hstate := hopened.record (.roundStarted s.state.round)
  have htold := hp.notify (.roundStarted s.state.round) hmemory
  rw [Event.rename, ← hround] at hstate htold
  exact
    { parallel := ⟨hstate, htold⟩
      started := rfl
      marked := (beginRound_marked g s.state).congr rfl rfl rfl rfl
      inside := Nat.zero_le _
      place := τ.finds_zero }

/-- While the second session is at a blank line it goes on alone. -/
theorem advance_skip (player' : Player σ') (hf : g.program.Found τ g'.program)
    (h : g.InRound τ whole R s s') (hr' : s'.state.round < g'.config.rounds)
    (hlt : s'.state.line < τ.line s.state.line) :
    g'.advance player' s' = (goTo s' (s'.state.line + 1), none) ∧
      g.InRound τ whole R s (goTo s' (s'.state.line + 1)) := by
  have hblank := hf.blank_before h.inside h.place hlt
  have ho' : s'.state.roundStarted = true := h.parallel.state.roundStarted.trans h.started
  refine ⟨advance_blank hr' ho' hblank, { h with parallel := ?_, place := ?_ }⟩
  · exact ⟨h.parallel.state.goTo s.state.line _, h.parallel.memory⟩
  · exact ⟨hlt, fun k hk => Nat.lt_succ_of_lt (h.place.2 k hk)⟩

/-- A line that is done is left in step, for the next one or for the target of a jump. -/
theorem finishLine_inStep (h : s.Parallel τ whole R s') (ho : s.state.roundStarted = true)
    (hm : g.Marked s.state) {line place : Nat} (hl : line ≤ g.program.size)
    (hplace : τ.Finds line place) :
    g.InStep τ whole R (finishLine s line, none) (finishLine s' place, none) := by
  have hnext : Session.Parallel τ whole R (finishLine s line) (finishLine s' place) :=
    ⟨h.state.moveTo line place, h.memory⟩
  refine ⟨rfl, hnext, fun _ => ⟨hnext, ho, ?_, hl, hplace⟩, by simp⟩
  exact hm.congr rfl rfl rfl rfl

section

variable (hp : player.Alike τ R player') (hc : g'.config = g.config) (hj : g'.judge = g.judge)
  (hf : g.program.Found τ g'.program) (h : g.InRound τ whole R s s')
  (hr : s.state.round < g.config.rounds) (hr' : s'.state.round < g'.config.rounds)
  (hline : s'.state.line = τ.line s.state.line)

include hf h hr hr' hline

/-- Blank lines are left in step. -/
theorem blank_inStep (hl : g.program.lines[s.state.line]? = some none) :
    g.InStep τ whole R (g.advance player s) (g'.advance player' s') := by
  have ho' : s'.state.roundStarted = true := h.parallel.state.roundStarted.trans h.started
  have hl' : g'.program.lines[s'.state.line]? = some none := hline ▸ hf.blank_at hl
  have hlt : s.state.line < g.program.size := (Array.getElem?_eq_some_iff.mp hl).1
  have hparallel : Session.Parallel τ whole R (goTo s (s.state.line + 1))
      (goTo s' (s'.state.line + 1)) :=
    ⟨h.parallel.state.goTo _ _, h.parallel.memory⟩
  rw [advance_blank hr h.started hl, advance_blank hr' ho' hl']
  refine ⟨rfl, hparallel, fun _ => ⟨hparallel, h.started, ?_, hlt, ?_⟩, by simp⟩
  · exact h.marked.congr rfl rfl rfl rfl
  · rw [hline]
    exact Renaming.finds_succ hf.mono s.state.line

include hp hc hj

/-- Instructions are run in step. -/
theorem instruction_inStep {i : Instruction} (hl : g.program.At s.state.line i) :
    g.InStep τ whole R (g.advance player s) (g'.advance player' s') ∨
      ¬ whole ∧ (Overflows (g.advance player s) ∨ Overflows (g'.advance player' s')) := by
  have ho' : s'.state.roundStarted = true := h.parallel.state.roundStarted.trans h.started
  obtain ⟨i', hl', hbare⟩ := hf.at hl
  have hsize : s.state.line < g.program.size := hl.lt
  have hexecute : g'.execute player' s'.state.line i' s' =
      g.execute player' (τ.line s.state.line) i s' := by
    rw [execute_congr (congrArg GameConfig.maxEnsureFailures hc) hj,
      execute_place g _ _ hbare, hline]
  rw [← hline] at hl'
  rw [advance_at hr h.started hl, advance_at hr' ho' hl', hexecute, hc, h.parallel.state.steps,
    h.parallel.state.round, hline]
  by_cases hsteps : g.config.maxSteps ≤ s.state.steps
  · simp only [hsteps, if_true]
    exact .inl ⟨rfl, h.parallel, by simp, fun _ => hline⟩
  · simp only [hsteps, if_false]
    have hmarked : ∀ flow, (g.execute player s.state.line i s).2 = .ok flow →
        g.Marked (g.execute player s.state.line i s).1.state :=
      fun flow hflow => (execute_runs (Prod.ext rfl hflow)).marked h.marked hl
    have htarget : ∀ target, (g.execute player s.state.line i s).2 = .ok (.jump target) →
        target ≤ g.program.size :=
      fun target hflow =>
        (execute_runs (Prod.ext rfl hflow)).target_le h.marked hl h.started
    have hfault : ∀ f, (g.execute player s.state.line i s).2 = .error f → f.rename τ = f :=
      fun f hflow => (execute_fails (Prod.ext rfl hflow)).rename τ
    have hclock := execute_clock g player s.state.line i s
    have hclock' := execute_clock g player' (τ.line s.state.line) i s'
    have hresult := execute_parallel (g := g) hp h.parallel hf.mono (h.marked.start h.started)
      s.state.line i
    generalize g.execute player s.state.line i s = x at *
    generalize g.execute player' (τ.line s.state.line) i s' = x' at *
    obtain ⟨t, result⟩ := x
    obtain ⟨t', result'⟩ := x'
    have hstay : t.state.line = s.state.line := congrArg Clock.line hclock
    have hstay' : t'.state.line = s'.state.line := congrArg Clock.line hclock'
    have hstarted : t.state.roundStarted = s.state.roundStarted := congrArg Clock.started hclock
    obtain ⟨hparallel, hflow⟩ | ⟨hwhole, hexceeds⟩ := hresult
    · left
      have hstarted' : t.state.roundStarted = true := hstarted.trans h.started
      have hstops : t'.state.line = τ.line t.state.line := by rw [hstay', hstay, hline]
      cases hflow with
      | same hne =>
        cases result with
        | error f =>
          refine ⟨?_, hparallel, by simp, fun _ => hstops⟩
          simp only [Option.map_some, Outcome.rename, GameError.rename, hfault f rfl]
        | ok flow =>
          cases flow with
          | next =>
            exact finishLine_inStep hparallel hstarted' (hmarked .next rfl) hsize
              (Renaming.finds_succ hf.mono s.state.line)
          | jump target => exact absurd rfl (hne target)
          | halt => exact ⟨rfl, hparallel, by simp, fun _ => hstops⟩
      | @jump target place hfinds =>
        have hinside : target ≤ g.program.size := htarget target rfl
        have hinside' : place ≤ g'.program.size := by
          rw [hf.size]
          exact Nat.le_trans hfinds.1 (hf.mono.monotone hinside)
        simp only [Nat.not_lt.mpr hinside, Nat.not_lt.mpr hinside', if_false]
        exact finishLine_inStep hparallel hstarted' (hmarked (.jump target) rfl) hinside hfinds
    · refine .inr ⟨hwhole, hexceeds.imp ?_ ?_⟩
      · rintro ⟨score, rfl, htotal⟩
        exact ⟨_, score, rfl, htotal⟩
      · rintro ⟨score, rfl, htotal⟩
        exact ⟨_, score, rfl, htotal⟩

/-- Lines are run in step. -/
theorem advance_inStep (hlt : s.state.line < g.program.size) :
    g.InStep τ whole R (g.advance player s) (g'.advance player' s') ∨
      ¬ whole ∧ (Overflows (g.advance player s) ∨ Overflows (g'.advance player' s')) := by
  cases hl : g.program.lines[s.state.line] with
  | none => exact .inl (blank_inStep hf h hr hr' hline (by rw [Array.getElem?_eq_getElem hlt, hl]))
  | some i =>
    exact instruction_inStep hp hc hj hf h hr hr' hline
      (show g.program.lines[s.state.line]? = _ by rw [Array.getElem?_eq_getElem hlt, hl])

end

end Game

end EntropyGame
