import EntropyGame.Proofs.Game.Ensure
import EntropyGame.Proofs.Game.Transcript

namespace EntropyGame

/-- The sum of the scores of events from left to right. -/
def scoreSum (es : List Event) : Float :=
  addScores 0 es

/-- The usage of an open round. -/
def State.openUsage (s : State) : Usage :=
  if s.roundStarted then s.roundUsage else {}

/-- Scores and usages are what the log and the finished rounds come to. -/
structure State.Balanced (s : State) : Prop where
  roundScore : s.roundStarted = true → s.roundScore = scoreSum s.history.toList
  totalScore : s.totalScore = scoreSum s.log
  completed : ∀ r ∈ s.completed, r.score = scoreSum r.history.toList
  usage : s.usage = usageSum (s.completed.toList.map RoundResult.usage) + s.openUsage

namespace State.Balanced

variable {s t : State}

theorem adds {es : List Event} (h : s.Balanced) (ha : Adds es s t) (ho : s.roundStarted = true) :
    t.Balanced where
  roundScore _ := by
    rw [ha.roundScore, h.roundScore ho, scoreSum, ← addScores_append, ← ha.history, scoreSum]
  totalScore := by
    rw [ha.totalScore, h.totalScore, scoreSum, ← addScores_append, ← ha.log, scoreSum]
  completed := ha.completed ▸ h.completed
  usage := by
    obtain ⟨u, hu, hround⟩ := ha.usage
    rw [hu, h.usage, ha.completed, openUsage, openUsage, ha.started, if_pos ho, if_pos ho, hround,
      Usage.add_assoc]

/-- An event that adds no score changes no sum of scores. -/
theorem scoreSum_concat {es : List Event} {e : Event} (he : e.score? = none) :
    scoreSum (es ++ [e]) = scoreSum es := by
  rw [scoreSum, addScores_append]
  simp [addScores, he, scoreSum]

/-- A round opens on an empty history. -/
theorem beginRound (h : s.Balanced) (ho : s.roundStarted = false) (hempty : s.history = #[]) :
    (s.beginRound.record (.roundStarted s.round)).Balanced where
  roundScore _ := rfl
  totalScore := by
    have hlog : (s.beginRound.record (.roundStarted s.round)).log =
        s.log ++ [.roundStarted s.round] := by
      simp [State.log, State.record, State.beginRound, hempty]
    rw [hlog, scoreSum_concat rfl]
    exact h.totalScore
  completed := h.completed
  usage := by
    have husage := h.usage
    rw [openUsage, if_neg (by simp [ho])] at husage
    exact husage

/-- A round that closes hands its scores and its usage over. -/
theorem finishRound (h : s.Balanced) (ho : s.roundStarted = true) :
    (s.record (.roundFinished s.round s.roundScore)).finishRound.Balanced where
  roundScore hopen := nomatch hopen
  totalScore := by
    have hlog : (s.record (.roundFinished s.round s.roundScore)).finishRound.log =
        s.log ++ [.roundFinished s.round s.roundScore] := by
      simp [State.log, State.record, State.finishRound]
    rw [hlog, scoreSum_concat rfl]
    exact h.totalScore
  completed r hr := by
    obtain hr | rfl := Array.mem_push.mp hr
    · exact h.completed r hr
    · simp only [State.record, Array.toList_push]
      rw [scoreSum_concat rfl]
      exact h.roundScore ho
  usage := by
    have husage := h.usage
    rw [openUsage, if_pos ho] at husage
    have hsum : usageSum ((s.record (.roundFinished s.round s.roundScore)).finishRound
        |>.completed.toList.map RoundResult.usage) =
        usageSum (s.completed.toList.map RoundResult.usage) + s.roundUsage := by
      simp only [State.finishRound, State.record, Array.toList_push, List.map_append,
        List.map_singleton, usageSum_concat]
    rw [hsum]
    exact husage

end State.Balanced

namespace Game

variable {g : Game}

theorem Change.balanced {s t : State} {halted : Bool} {waits : Prop} (h : Change g s t halted)
    (hw : s.WellLogged waits) (hs : s.Balanced) : t.Balanced := by
  cases h with
  | opened _ ho => exact hs.beginRound ho (hw.closed ho)
  | closed _ ho => exact hs.finishRound ho
  | blank => exact { hs with }
  | next _ ho _ _ hruns | jump _ ho _ _ hruns =>
    obtain ⟨es, hes⟩ := hruns.adds
    exact { hs.adds hes ho with }
  | halt _ ho _ _ hruns =>
    obtain ⟨es, hes⟩ := hruns.adds
    exact hs.adds hes ho

theorem initial_balanced (g : Game) : g.initial.Balanced where
  roundScore _ := rfl
  totalScore := rfl
  completed r hr := absurd hr (Array.not_mem_empty r)
  usage := rfl

end Game

theorem Reached.balanced {g : Game} {s : State} {halted : Bool} (h : Reached g s halted) :
    s.Balanced := by
  induction h with
  | new => exact Game.initial_balanced _
  | advance hr ha ih => exact ((Game.advance_change ha).1 rfl).balanced hr.wellLogged ih
  | halt hr ha ih => exact ((Game.advance_change ha).2 rfl).balanced hr.wellLogged ih
  | resume _ hres ih =>
    obtain ⟨-, -, -, rfl, -⟩ := SavedGame.resume_ok hres
    exact ih

namespace Game

variable {g : Game} {σ : Type}

/-- A game that fails leaves its scores and usages balanced. -/
theorem run_balanced {player : Player σ} {s t : Session σ} {o : Outcome}
    (h : g.run player s = (t, o)) {halted : Bool} (hs : Reached g s.state halted) :
    t.state.Balanced := by
  obtain ⟨_, ht⟩ | ⟨u, _, f, i, hu, ho, -, hbreaks⟩ := run_ends h hs
  · exact ht.balanced
  · obtain ⟨es, hes⟩ := hbreaks.adds
    exact hu.balanced.adds hes ho

end Game

/-- What is on the books of an open round: scores are the sums of the log, and usages those of the
moves. -/
structure Accounts (s : State) (ms : List Message) : Prop where
  roundScore : s.roundScore = scoreSum s.history.toList
  totalScore : s.totalScore =
    scoreSum (s.completed.toList.flatMap (·.history.toList) ++ s.history.toList)
  completed : ∀ r ∈ s.completed, r.score = scoreSum r.history.toList
  roundUsage : s.roundUsage = usageSum ((movesMade ms).map Move.usage)
  usage : s.usage = usageSum (s.completed.toList.map RoundResult.usage) + s.roundUsage

theorem State.Balanced.accounts {s : State} {ms : List Message} (h : s.Balanced)
    (hf : Faithful s ms) (ho : s.roundStarted = true) : Accounts s ms where
  roundScore := h.roundScore ho
  totalScore := h.totalScore
  completed := h.completed
  roundUsage := hf.usage
  usage := by
    have husage := h.usage
    rw [State.openUsage, if_pos ho] at husage
    exact husage

namespace Game

variable {σ : Type}

/-- A reward that a score would not survive is not given. -/
theorem advance_overflow {g : Game} {player : Player σ} {s : Session σ} {e : Expr} {v : Value}
    {x : Float} (hr : s.state.round < g.config.rounds) (ho : s.state.roundStarted = true)
    (hl : g.program.At s.state.line (.reward e)) (hv : g.eval s.state e = .ok v)
    (hx : scoreOf v = .ok x) (hover : ¬ ((s.state.roundScore + x).isFinite = true ∧
      (s.state.totalScore + x).isFinite = true)) :
    g.advance player s = (s, some (.failed (.line s.state.line
      (if g.config.maxSteps ≤ s.state.steps then .tooManySteps s.state.round g.config.maxSteps
        else .scoreOverflow x)))) := by
  rw [advance_at hr ho hl]
  split
  · rfl
  · have hover : ((s.state.addScore x).roundScore.isFinite &&
        (s.state.addScore x).totalScore.isFinite) = false := by
      rw [← Bool.not_eq_true, Bool.and_eq_true]
      exact hover
    simp only [execute, reward, hv, hx, hover, Bool.false_eq_true, reduceIte]

/-- Scores and usages equal what the log and the moves of all sessions come to, also where a game
has failed; and a reward that a score would not survive fails and changes nothing. -/
theorem accounts_kept (g : Game) :
    (∀ s halted, Reached g s halted ↔ ∃ ms, Followed ms g s halted) ∧
    ∀ ms s halted, Followed ms g s halted →
      (s.roundStarted = true → Accounts s ms) ∧
      (∀ (σ : Type) (player : Player σ) (memory : σ) (t : Session (σ × List Message)) (o : Outcome),
        g.run player.transcribed ⟨s, memory, ms⟩ = (t, o) →
        g.run player ⟨s, memory⟩ = (t.plain, o) ∧
          (t.state.roundStarted = true → Accounts t.state t.memory.2)) ∧
      ∀ (e : Expr) (v : Value) (x : Float), s.roundStarted = true →
        g.program.At s.line (.reward e) → g.eval s e = .ok v → scoreOf v = .ok x →
        ¬ ((s.roundScore + x).isFinite = true ∧ (s.totalScore + x).isFinite = true) →
        ∀ (σ : Type) (player : Player σ) (memory : σ),
          g.advance player ⟨s, memory⟩ = (⟨s, memory⟩, some (.failed (.line s.line
            (if g.config.maxSteps ≤ s.steps then .tooManySteps s.round g.config.maxSteps
              else .scoreOverflow x)))) := by
  constructor
  · intro s halted
    exact ⟨Reached.followed, fun ⟨_, h⟩ => h.reached⟩
  · intro ms s halted h
    refine ⟨fun ho => h.reached.balanced.accounts h.faithful ho, ?_, ?_⟩
    · intro σ player memory t o hrun
      obtain ⟨hplain, hf⟩ := run_transcribed player (u := ⟨s, memory, ms⟩) h.reached h.faithful
      rw [hrun] at hplain hf
      exact ⟨hplain, fun ho => (run_balanced hrun h.reached).accounts hf ho⟩
    · intro e v x ho hl hv hx hover σ player memory
      obtain ⟨ts, hts⟩ := h.reached.played
      exact advance_overflow (s := ⟨s, memory⟩) (hts.round_lt ho) ho hl hv hx hover

end Game

/-- More than half of what a number can hold. -/
def lavishPrice : Float := 1e308

/-- A judge to which each token costs the same high price. -/
def lavishJudge : Judge where
  config := ⟨"lavish", 0⟩
  tokenize text := [text]
  score tokens given := .ok (List.replicate (tokens.length - given) lavishPrice)

/-- A program that rewards an answer twice. -/
def lavish : Game where
  program := ⟨"elicit(s, 1)\nreward(xent(s))\nreward(xent(s))",
    #[some (.elicit [.first .s] (.integer 1 ⟨0, 10, 11⟩)),
      some (.reward (.call "xent" [(none, .name "s" ⟨1, 12, 13⟩)] ⟨1, 7, 14⟩)),
      some (.reward (.call "xent" [(none, .name "s" ⟨2, 12, 13⟩)] ⟨2, 7, 14⟩))]⟩
  config := {}
  judge := lavishJudge

theorem lavish_load : Game.load lavish.program.source {} lavishJudge = .ok lavish := by
  cbv

/-- Where a round of the game is open, and a player has a move to make. -/
def lavishOpened : Session (List Move × List Message) :=
  (lavish.advance Player.moves.transcribed ⟨lavish.initial, [⟨"a", ⟨3, 2⟩⟩], []⟩).1

/-- Where the move is made. -/
def lavishAnswered : Session (List Move × List Message) :=
  (lavish.advance Player.moves.transcribed lavishOpened).1

/-- What the answer costs. -/
def lavishCost : CostVector Float :=
  ⟨[("a", lavishPrice)], 1⟩

/-- Where the answer is rewarded once. -/
def lavishRewarded : Session (List Move × List Message) :=
  let added := { lavishAnswered with state := lavishAnswered.state.addScore lavishCost.total }
  Game.finishLine (added.emit Player.moves.transcribed
    (.reward 1 (.costs lavishCost) lavishCost.total)) 2

theorem lavish_eval {s : State} (hs : s.registers = lavishAnswered.state.registers)
    (span span' : Span) :
    lavish.eval s (.call "xent" [(none, .name "s" span)] span') = .ok (.costs lavishCost) := by
  have hname : Expr.valueOf lavishAnswered.state.registers "s" =
      .ok (.phrase { primary := "a" }) := rfl
  have hcall : Builtin.ofName? "xent" = some .xent := rfl
  have hcost : Measure.xent lavish.judge { primary := "a" } "" = .ok lavishCost := rfl
  have hfinite : (Value.costs lavishCost).isFinite = true := by decide +kernel
  simp only [Game.eval, hs, Expr.eval, Expr.evalArgs, hcall, hname, List.findSome?_cons,
    List.findSome?_nil, bind, Except.bind, pure, Except.pure]
  simp only [Builtin.call, Builtin.applyMeasure, Builtin.phraseAt, bind, Except.bind, hcost,
    Builtin.judged, Value.finite, hfinite, reduceIte]

theorem lavish_rewards :
    lavish.advance Player.moves.transcribed lavishAnswered = (lavishRewarded, none) := by
  have hround : (lavishAnswered.state.addScore lavishCost.total).roundScore.isFinite = true := by
    decide +kernel
  have htotal : (lavishAnswered.state.addScore lavishCost.total).totalScore.isFinite = true := by
    decide +kernel
  have hl : lavish.program.At 1 _ := rfl
  rw [Game.advance_at (s := lavishAnswered) (by decide) rfl hl, if_neg (by decide)]
  simp only [Game.execute, Game.reward, lavish_eval rfl, Game.scoreOf, hround, htotal, Bool.and_self]
  rfl

/-- One reward is on the books, and the next fails. -/
theorem Game.accounts_kept_lavish : ∃ ms s t x, Followed ms lavish s false ∧
    Accounts s ms ∧ s.roundScore = 0 + x ∧ s.usage = ⟨3, 2⟩ ∧
    lavish.advance .moves ⟨s, []⟩ = (⟨s, []⟩, some (.failed (.line 2 (.scoreOverflow x)))) ∧
    lavish.run Player.moves.transcribed ⟨s, [], ms⟩ = (t, .failed (.line 2 (.scoreOverflow x))) ∧
    Accounts t.state t.memory.2 := by
  let s := lavishRewarded.state
  let ms := lavishRewarded.memory.2
  have ho : lavish.advance Player.moves.transcribed ⟨lavish.initial, [⟨"a", ⟨3, 2⟩⟩], []⟩ =
      (lavishOpened, none) := Prod.ext rfl rfl
  have ha : lavish.advance Player.moves.transcribed lavishOpened = (lavishAnswered, none) :=
    Prod.ext rfl rfl
  have hs : Followed ms lavish s false :=
    (((Followed.new lavish_load).advance ho).advance ha).advance lavish_rewards
  have hl : lavish.program.At 2 _ := rfl
  have hover : ¬ ((s.roundScore + lavishCost.total).isFinite = true ∧
      (s.totalScore + lavishCost.total).isFinite = true) := by
    decide +kernel
  obtain ⟨-, hkept⟩ := Game.accounts_kept lavish
  obtain ⟨haccounts, hruns, hrewards⟩ := hkept ms s false hs
  have hfails := hrewards _ _ _ rfl hl (lavish_eval rfl _ _) rfl hover
  have hsteps : ¬ lavish.config.maxSteps ≤ s.steps := by decide
  simp only [if_neg hsteps] at hfails
  have hrun := run_of_some (hfails _ Player.moves.transcribed ([], ms))
  obtain ⟨-, haccounts'⟩ := hruns _ _ _ _ _ hrun
  exact ⟨ms, s, _, _, hs, haccounts rfl, rfl, rfl, hfails _ _ _, hrun, haccounts' rfl⟩

end EntropyGame
