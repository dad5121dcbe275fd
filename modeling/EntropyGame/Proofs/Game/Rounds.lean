import EntropyGame.Proofs.Game.InStep
import EntropyGame.Proofs.Game.Registers

namespace EntropyGame

variable {σ σ' : Type}

namespace Game

/-- Plays on until the round is closed, the player halts or something goes wrong. -/
def runRound (g : Game) (player : Player σ) (s : Session σ) : Session σ × Option Outcome :=
  match _h : g.advance player s with
  | (t, none) => if t.state.roundStarted then runRound g player t else (t, none)
  | (t, some outcome) => (t, some outcome)
termination_by g.left (clock s)
decreasing_by exact advance_left g player s t _h

variable {g : Game} {player : Player σ} {s t : Session σ}

theorem runRound_of_open (h : g.advance player s = (t, none)) (ho : t.state.roundStarted = true) :
    g.runRound player s = g.runRound player t := by
  rw [runRound]
  split
  · rename_i he
    cases h.symm.trans he
    rw [if_pos ho]
  · rename_i he
    cases h.symm.trans he

theorem runRound_of_closed (h : g.advance player s = (t, none))
    (ho : t.state.roundStarted = false) : g.runRound player s = (t, none) := by
  rw [runRound]
  split
  · rename_i he
    cases h.symm.trans he
    rw [if_neg (by simp [ho])]
  · rename_i he
    cases h.symm.trans he

theorem runRound_of_some {outcome : Outcome} (h : g.advance player s = (t, some outcome)) :
    g.runRound player s = (t, some outcome) := by
  rw [runRound]
  split
  · rename_i he
    cases h.symm.trans he
  · rename_i he
    cases h.symm.trans he
    rfl

/-- A run plays one round after the other. -/
theorem run_eq_runRound (g : Game) (player : Player σ) (s : Session σ) :
    g.run player s = match g.runRound player s with
      | (t, none) => g.run player t
      | (t, some outcome) => (t, outcome) := by
  fun_induction Game.runRound g player s with
  | case1 s t h ho ih => rw [run_of_none h, ih]
  | case2 s t h ho => rw [run_of_none h]
  | case3 s t outcome h => rw [run_of_some h]

/-- What two rounds come to that are alike: both are closed with the same result, or both stop at
the same line in the same state but for what is left from earlier rounds. -/
structure SameRound (τ : Renaming) (R : σ → σ' → Prop) (x : Session σ × Option Outcome)
    (x' : Session σ' × Option Outcome) : Prop where
  outcome : x'.2 = x.2.map (Outcome.rename τ)
  memory : R x.1.memory x'.1.memory
  registers : x'.1.state.registers = x.1.state.registers
  closed : x.2 = none → ∃ result, x.1.state.completed.back? = some result ∧
    x'.1.state.completed.back? = some (result.rename τ)
  stopped : x.2 ≠ none →
    x.1.state.Parallel τ False x'.1.state ∧ x'.1.state.line = x.1.state.line

/-- Within a round its number does not change. -/
theorem Change.round_eq {s t : State} (h : Change g s t false) (ho : s.roundStarted = true)
    (hl : s.line < g.program.size) : t.round = s.round ∧ t.roundStarted = true := by
  cases h with
  | opened _ hs => cases hs.symm.trans ho
  | closed _ _ hsize => exact absurd hl (Nat.not_lt.mpr hsize)
  | blank => exact ⟨rfl, ho⟩
  | next _ _ _ _ hruns | jump _ _ _ _ hruns =>
    exact ⟨hruns.clock.2.1, hruns.clock.2.2.1.trans ho⟩

variable {τ : Renaming} {R : σ → σ' → Prop} {player' : Player σ'} {s' : Session σ'}

/-- Rounds in which the same lines are run close alike. -/
theorem endRound_sameRound (hp : player.Alike τ R player')
    (h : s.Parallel τ False R s') :
    SameRound τ R (endRound player s, none) (endRound player' s', none) := by
  have htold := h.alike.emit_roundFinished hp h.state.round
  have hresult := htold.state.result h.state.round
  refine ⟨rfl, htold.memory, h.state.registers, fun _ => ⟨_, Array.back?_push .., ?_⟩, by simp⟩
  exact (Array.back?_push ..).trans (congrArg some hresult.symm)

/-- Without blank lines in between, lines are run one by one. -/
theorem advance_same (hp : player.Alike τ R player') (hline : τ.line = id)
    (h : g.InRound τ False R s s') (hr : s.state.round < g.config.rounds)
    (hr' : s'.state.round < g.config.rounds) (hlt : s.state.line < g.program.size) :
    g.InStep τ False R (g.advance player s) (g.advance player' s') ∨
      ¬ False ∧ (Overflows (g.advance player s) ∨ Overflows (g.advance player' s')) :=
  advance_inStep hp rfl rfl (.self g.program hline) h hr hr'
    (by rw [h.place.eq hline, hline, id]) hlt

theorem runRound_overflows (h : Overflows (g.advance player s)) :
    Overflows (g.runRound player s) := by
  obtain ⟨line, score, hfails, htotal⟩ := h
  rw [runRound_of_some (Prod.ext rfl hfails)]
  exact ⟨line, score, rfl, htotal⟩

/-- Rounds that are at the same line go on alike. -/
theorem runRound_inRound (hp : player.Alike τ R player') (hline : τ.line = id)
    (h : g.InRound τ False R s s') (hr : s.state.round < g.config.rounds)
    (hr' : s'.state.round < g.config.rounds) :
    SameRound τ R (g.runRound player s) (g.runRound player' s') ∨
      Overflows (g.runRound player s) ∨ Overflows (g.runRound player' s') := by
  fun_induction Game.runRound g player s generalizing s' with
  | case1 s t ha ho ih =>
    have hlt : s.state.line < g.program.size := by
      refine Nat.lt_of_not_le fun hge => ?_
      rw [advance_closed hr h.started hge] at ha
      cases ha
      cases ho
    obtain hstep | ⟨-, hover | hover⟩ := advance_same hp hline h hr hr' hlt
    · rw [ha] at hstep
      have ha' : g.advance player' s' = ((g.advance player' s').1, none) :=
        Prod.ext rfl hstep.outcome
      have hnext := hstep.goes rfl
      have ho' : (g.advance player' s').1.state.roundStarted = true :=
        hnext.parallel.state.roundStarted.trans ho
      obtain ⟨hround, -⟩ := ((advance_change ha).1 rfl).round_eq h.started hlt
      rw [runRound_of_open ha' ho']
      refine ih hnext (by rwa [hround]) ?_
      rwa [hnext.parallel.state.round, hround, ← h.parallel.state.round]
    · obtain ⟨line, score, hfails, -⟩ := hover
      rw [ha] at hfails
      cases hfails
    · exact .inr (.inr (runRound_overflows hover))
  | case2 s t ha ho =>
    have hge : g.program.size ≤ s.state.line := by
      refine Nat.le_of_not_lt fun hlt => ?_
      exact ho (((advance_change ha).1 rfl).round_eq h.started hlt).2
    have ho' : s'.state.roundStarted = true := h.parallel.state.roundStarted.trans h.started
    have hge' : g.program.size ≤ s'.state.line := by rwa [h.place.eq hline]
    rw [advance_closed hr h.started hge] at ha
    cases ha
    rw [runRound_of_closed (advance_closed hr' ho' hge') rfl]
    exact .inl (endRound_sameRound hp h.parallel)
  | case3 s t outcome ha =>
    have hlt : s.state.line < g.program.size := by
      refine Nat.lt_of_not_le fun hge => ?_
      rw [advance_closed hr h.started hge] at ha
      cases ha
    obtain hstep | ⟨-, hover | hover⟩ := advance_same hp hline h hr hr' hlt
    · rw [ha] at hstep
      have ha' : g.advance player' s' =
          ((g.advance player' s').1, some (outcome.rename τ)) :=
        Prod.ext rfl hstep.outcome
      rw [runRound_of_some ha']
      have hstops := hstep.stops (by simp)
      rw [hline] at hstops
      exact .inl ⟨rfl, hstep.parallel.memory, hstep.parallel.state.registers, by simp,
        fun _ => ⟨hstep.parallel.state, hstops⟩⟩
    · rw [ha] at hover
      exact .inr (.inl hover)
    · exact .inr (.inr (runRound_overflows hover))

/-- A round depends on what came before it by the registers that last only. Two states between
rounds, of the same registers, lead to rounds that are alike if those registers hold the same,
whatever the lists, beacons, counters, histories and totals are, unless a score is too much for the
total of one of the games. -/
theorem runRound_alike (hp : player.Alike τ R player') (hline : τ.line = id)
    (hround : τ.round s.state.round = s'.state.round)
    (ho : s.state.roundStarted = false) (ho' : s'.state.roundStarted = false)
    (hr : s.state.round < g.config.rounds) (hr' : s'.state.round < g.config.rounds)
    (hkeys : s'.state.registers.keys = s.state.registers.keys)
    (hscalars : ∀ r : Register, r.isList = false →
      s'.state.registers.get? r = s.state.registers.get? r)
    (hmemory : R s.memory s'.memory) :
    SameRound τ R (g.runRound player s) (g.runRound player' s') ∨
      Overflows (g.runRound player s) ∨ Overflows (g.runRound player' s') := by
  have hopened : g.InRound τ False R (startRound player s) (startRound player' s') :=
    startRound_inRound hp (Registers.resetLists_congr hkeys hscalars) hround.symm False.elim
      False.elim False.elim hmemory
  rw [runRound_of_open (advance_opened hr ho) rfl, runRound_of_open (advance_opened hr' ho') rfl]
  exact runRound_inRound hp hline hopened hr hr'

end Game

/-- The game that gathers, in a later round and with much left over from earlier ones. -/
def gatheringLater : State :=
  { gathering.initial with
    registers := gathering.initial.registers.insert (.first .l) (.list [{ primary := "z" }])
    replayCounters := OrderedMap.empty.insert 3 2
    round := 1
    totalScore := 7
    usage := ⟨3, 2⟩
    pending := some ⟨0, 1, true⟩
    history := #[.roundFinished 0 7] }

theorem Game.runRound_alike_gathering : ∃ t t' result,
    gathering.runRound .mailbox ⟨gathering.initial, []⟩ = (t, none) ∧
      gathering.runRound .mailbox ⟨gatheringLater, []⟩ = (t', none) ∧
      t.state.completed.back? = some result ∧
      t'.state.completed.back? = some (result.rename ⟨id, fun _ => 1⟩) ∧
      t'.state.registers = t.state.registers := by
  have closes : ∀ s ∈ [gathering.initial, gatheringLater],
      ∃ t, gathering.runRound .mailbox ⟨s, []⟩ = (t, none) := by
    intro s hs
    have hs : s = gathering.initial ∨ s = gatheringLater := by simpa using hs
    let opened := (gathering.advance .mailbox ⟨s, []⟩).1
    let assigned := (gathering.advance .mailbox opened).1
    let closed := (gathering.advance .mailbox assigned).1
    have hopened : gathering.advance .mailbox ⟨s, []⟩ = (opened, none) := by
      obtain rfl | rfl := hs <;> exact Prod.ext rfl rfl
    have hassigned : gathering.advance .mailbox opened = (assigned, none) := by
      obtain rfl | rfl := hs <;> exact Prod.ext rfl rfl
    have hclosed : gathering.advance .mailbox assigned = (closed, none) := by
      obtain rfl | rfl := hs <;> exact Prod.ext rfl rfl
    refine ⟨closed, (runRound_of_open hopened ?_).trans <|
      (runRound_of_open hassigned ?_).trans (runRound_of_closed hclosed ?_)⟩ <;>
      obtain rfl | rfl := hs <;> rfl
  obtain ⟨t, ht⟩ := closes gathering.initial (by simp)
  obtain ⟨t', ht'⟩ := closes gatheringLater (by simp)
  have hscalars : ∀ r : Register, r.isList = false →
      gatheringLater.registers.get? r = gathering.initial.registers.get? r := by
    intro r hr
    have hne : r ≠ .first .l := by
      rintro rfl
      cases hr
    exact (OrderedMap.get?_insert ..).trans (if_neg hne)
  have hmailbox : Player.mailbox.Alike ⟨id, fun _ => 1⟩ Eq Player.mailbox :=
    Player.alike_through ⟨id, fun _ => 1⟩ .mailbox
  have hsame : Game.SameRound _ Eq (gathering.runRound .mailbox ⟨gathering.initial, []⟩)
        (gathering.runRound .mailbox ⟨gatheringLater, []⟩) ∨
      Overflows (gathering.runRound .mailbox ⟨gathering.initial, []⟩) ∨
      Overflows (gathering.runRound .mailbox ⟨gatheringLater, []⟩) :=
    Game.runRound_alike hmailbox rfl rfl rfl rfl (by decide) (by decide) rfl hscalars rfl
  rw [ht, ht'] at hsame
  obtain hsame | ⟨_, _, hfails, _⟩ | ⟨_, _, hfails, _⟩ := hsame
  · obtain ⟨result, hresult, hresult'⟩ := hsame.closed rfl
    exact ⟨t, t', result, ht, ht', hresult, hresult', hsame.registers⟩
  · cases hfails
  · cases hfails

end EntropyGame
