import EntropyGame.Proofs.Game.Bounded
import EntropyGame.Proofs.Game.Log
import EntropyGame.Proofs.Game.Nulls

namespace EntropyGame

namespace Event

/-- The values that an event shows. -/
def values : Event → List Value
  | reveal _ values => values
  | reward _ value _ => [value]
  | _ => []

/-- The doubles of an event are finite, and so are the totals of its vectors. -/
structure IsFinite (e : Event) : Prop where
  floats : ∀ x ∈ e.floats, x.isFinite = true
  values : ∀ v ∈ e.values, v.isFinite = true

namespace IsFinite

theorem plain {e : Event} (hf : e.floats = []) (hv : e.values = []) : e.IsFinite where
  floats := by simp [hf]
  values := by simp [hv]

theorem reveal {values : List Value} (h : ∀ v ∈ values, v.isFinite = true) (line : Nat) :
    (Event.reveal line values).IsFinite where
  floats _ := isFinite_of_mem_reveal h
  values := h

theorem reward {v : Value} {x : Float} (hv : v.isFinite = true) (hx : x.isFinite = true)
    (line : Nat) : (Event.reward line v x).IsFinite where
  floats _ := isFinite_of_mem_reward hv hx
  values := List.forall_mem_singleton.mpr hv

theorem roundFinished {x : Float} (hx : x.isFinite = true) (round : Nat) :
    (Event.roundFinished round x).IsFinite where
  floats := List.forall_mem_singleton.mpr hx
  values := by simp [Event.values]

end IsFinite

end Event

/-- No number in a state is infinite or undefined; registers hold none at all. -/
structure State.IsFinite (s : State) : Prop where
  registers : s.registers.Typed
  history : ∀ e ∈ s.history, e.IsFinite
  scores : ∀ r ∈ s.completed, r.score.isFinite = true
  histories : ∀ r ∈ s.completed, ∀ e ∈ r.history, e.IsFinite
  roundScore : s.roundScore.isFinite = true
  totalScore : s.totalScore.isFinite = true

namespace State.IsFinite

variable {s : State}

theorem record (h : s.IsFinite) {e : Event} (he : e.IsFinite) : (s.record e).IsFinite :=
  { h with
    history := fun e' he' => by
      obtain he' | rfl := Array.mem_push.mp he'
      · exact h.history e' he'
      · exact he }

theorem announce (h : s.IsFinite) (line budget : Nat) (r : Register) (announced : Bool) :
    (s.announce line budget r announced).IsFinite := by
  cases announced with
  | false => exact h.record (.plain rfl rfl)
  | true => exact h

theorem accept (h : s.IsFinite) {registers : Registers} (hr : registers.Typed) (line : Nat)
    (r : Register) (usage : Usage) (response : Phrase) :
    (s.accept line r registers usage response).IsFinite :=
  have hnoted : ({ s with registers }.addUsage usage).IsFinite := { h with registers := hr }
  hnoted.record (.plain rfl rfl)

theorem noteFailure (h : s.IsFinite) (line : Nat) (results : List Bool) (target : Nat) :
    (s.noteFailure line results target).IsFinite :=
  let attempt := State.counter s.ensureFailures line + 1
  have hcounted : { s with ensureFailures := s.ensureFailures.insert line attempt }.IsFinite :=
    { h with }
  hcounted.record (.plain rfl rfl)

theorem writeAll (h : s.IsFinite) {ws : List (Register × Value)} {t : State}
    {flow : Except Fault Flow} (hw : s.writeAll ws = (t, flow)) : t.IsFinite := by
  have hr : t.registers.Typed := (congrArg (·.1.registers) hw) ▸ Game.writeAll_typed h.registers
  rw [Game.writeAll_frame hw]
  exact { h with registers := hr }

theorem beginRound (h : s.IsFinite) : s.beginRound.IsFinite where
  registers := Registers.resetLists_typed h.registers
  history e he := absurd he (Array.not_mem_empty e)
  scores := h.scores
  histories := h.histories
  roundScore := Game.isFinite_zero
  totalScore := h.totalScore

theorem finishRound (h : s.IsFinite) : s.finishRound.IsFinite where
  registers := h.registers
  history e he := absurd he (Array.not_mem_empty e)
  scores r hr := by
    obtain hr | rfl := Array.mem_push.mp hr
    · exact h.scores r hr
    · exact h.roundScore
  histories r hr := by
    obtain hr | rfl := Array.mem_push.mp hr
    · exact h.histories r hr
    · exact h.history
  roundScore := h.roundScore
  totalScore := h.totalScore

theorem log (h : s.IsFinite) : ∀ e ∈ s.log, e.IsFinite := by
  intro e he
  obtain he | he := List.mem_append.mp he
  · obtain ⟨r, hr, he⟩ := List.mem_flatMap.mp he
    exact h.histories r (Array.mem_toList_iff.mp hr) e (Array.mem_toList_iff.mp he)
  · exact h.history e (Array.mem_toList_iff.mp he)

theorem of_mem_historyFloats {history : Array Event} (h : ∀ e ∈ history, e.IsFinite) {x : Float}
    (hx : x ∈ historyFloats history) : x.isFinite = true := by
  obtain ⟨e, he, hx⟩ := List.mem_flatMap.mp hx
  exact (h e (Array.mem_toList_iff.mp he)).floats x hx

theorem of_mem_roundsFloats (h : s.IsFinite) {x : Float} (hx : x ∈ roundsFloats s.completed) :
    x.isFinite = true := by
  obtain ⟨r, hr, hx⟩ := List.mem_flatMap.mp hx
  have hr := Array.mem_toList_iff.mp hr
  obtain rfl | hx := List.mem_cons.mp hx
  · exact h.scores r hr
  · exact of_mem_historyFloats (h.histories r hr) hx

theorem of_mem_floats (h : s.IsFinite) {x : Float} (hx : x ∈ s.floats) : x.isFinite = true := by
  rw [State.floats, h.registers.floats, List.nil_append] at hx
  obtain rfl | hx := List.mem_cons.mp hx
  · exact h.roundScore
  · obtain rfl | hx := List.mem_cons.mp hx
    · exact h.totalScore
    · obtain hx | hx := List.mem_append.mp hx
      · exact of_mem_historyFloats h.history hx
      · exact h.of_mem_roundsFloats hx

end State.IsFinite

namespace Game

variable {g : Game} {s t : State}

theorem Asked.isFinite {line budget : Nat} {rs : List Register} {position : Nat}
    {announced halted : Bool} (h : Asked g line budget rs position announced s t halted)
    (hs : s.IsFinite) : t.IsFinite := by
  induction h with
  | done => exact hs
  | halted => exact { hs.announce _ _ _ _ with }
  | answered move hset _ ih =>
    exact ih ((hs.announce _ _ _ _).accept (Registers.set_typed hs.registers hset) _ _ _ _)

theorem AskFails.isFinite {line budget : Nat} {rs : List Register} {position : Nat}
    {announced : Bool} {f : Fault} (h : AskFails g line budget rs position announced s t f)
    (hs : s.IsFinite) : t.IsFinite := by
  induction h with
  | refused | unwritable => exact hs.announce _ _ _ _
  | answered move hset _ ih =>
    exact ih ((hs.announce _ _ _ _).accept (Registers.set_typed hs.registers hset) _ _ _ _)

/-- What an instruction shows and what it adds to the scores has been checked before. -/
theorem Runs.isFinite {line : Nat} {i : Instruction} {flow : Flow} (h : Runs g line s i t flow)
    (hg : g.IsLoaded) (hl : g.program.At line i) (hs : s.IsFinite) : t.IsFinite := by
  cases h with
  | assign _ hw => exact hs.writeAll hw
  | reveal hv => exact hs.record (.reveal (evalAll_isFinite hg hl hs.registers hv) line)
  | elicit _ ha => exact ha.isFinite { hs with }
  | retried => exact hs.noteFailure line _ _
  | reward hv hx hround htotal =>
    have hfin := eval_isFinite hg hl hs.registers List.mem_cons_self hv
    have hadd : (s.addScore _).IsFinite := { hs with roundScore := hround, totalScore := htotal }
    exact hadd.record (.reward hfin (scoreOf_isFinite hfin hx) line)
  -- what these evaluate is looked at and not kept
  | passed | beacon | fellThrough | replayed => exact { hs with }

theorem Fails.isFinite {line : Nat} {i : Instruction} {f : Fault} (h : Fails g line s i t f)
    (hs : s.IsFinite) : t.IsFinite := by
  cases h with
  | eval => cases i <;> exact { hs with }
  | assign _ hw => exact hs.writeAll hw
  | elicit _ ha => exact ha.isFinite { hs with }
  | tooManyFailures => exact hs.noteFailure line _ _
  | budget => exact { hs with }
  | replayCount | condition | score | scoreOverflow | nothingToRetry | noBeacon
  | undeclaredBeacon => exact hs

theorem Breaks.isFinite {i : Instruction} {f : Fault} (h : Breaks g s i t f) (hg : g.IsLoaded)
    (hl : g.program.At s.line i) (hs : s.IsFinite) : t.IsFinite := by
  cases h with
  | ceiling => exact hs
  | fails _ hfails => exact hfails.isFinite hs
  | jumpOutside _ hruns => exact hruns.isFinite hg hl hs

theorem Change.isFinite {halted : Bool} (h : Change g s t halted) (hg : g.IsLoaded)
    (hs : s.IsFinite) : t.IsFinite := by
  cases h with
  | opened => exact hs.beginRound.record (.plain rfl rfl)
  | closed => exact (hs.record (.roundFinished hs.roundScore _)).finishRound
  | blank => exact { hs with }
  | next _ _ hl _ hruns | jump _ _ hl _ hruns => exact { hruns.isFinite hg hl hs with }
  | halt _ _ hl _ hruns => exact hruns.isFinite hg hl hs

theorem initial_isFinite (g : Game) : g.initial.IsFinite where
  registers := Registers.ofPresets_typed _
  history e he := absurd he (Array.not_mem_empty e)
  scores r hr := absurd hr (Array.not_mem_empty r)
  histories r hr := absurd hr (Array.not_mem_empty r)
  roundScore := isFinite_zero
  totalScore := isFinite_zero

end Game

/-- Whatever a judge answers, the states of a game stay finite. -/
theorem Reached.isFinite {g : Game} {s : State} {halted : Bool} (h : Reached g s halted) :
    s.IsFinite := by
  induction h with
  | new => exact Game.initial_isFinite _
  | advance hr ha ih => exact ((Game.advance_change ha).1 rfl).isFinite hr.isLoaded ih
  | halt hr ha ih => exact ((Game.advance_change ha).2 rfl).isFinite hr.isLoaded ih
  | resume _ hres ih =>
    obtain ⟨-, -, -, rfl, -⟩ := SavedGame.resume_ok hres
    exact ih

/-- So does the state of a run that ends, also of one that fails. -/
theorem Game.run_isFinite {σ : Type} {g : Game} {player : Player σ} {s t : Session σ} {o : Outcome}
    (h : g.run player s = (t, o)) {halted : Bool} (hs : Reached g s.state halted) :
    t.state.IsFinite := by
  obtain ⟨_, ht⟩ | ⟨u, _, f, i, hu, -, hl, hbreaks⟩ := run_ends h hs
  · exact ht.isFinite
  · exact hbreaks.isFinite hu.isLoaded hl hu.isFinite

/-- What a game keeps of a state: finite numbers, vectors with finite totals, and texts that show a
null where no request is in progress but never in place of a number. -/
structure Game.Keeps (g : Game) (s : State) : Prop where
  floats : ∀ x ∈ s.floats, x.isFinite = true
  values : ∀ e ∈ s.log, ∀ v ∈ e.values, v.isFinite = true
  state : (Checkpoint.state (g.save s)).shownNulls = if s.pending.isNone then 1 else 0
  results : (Checkpoint.results s.completed).shownNulls = 0

theorem State.IsFinite.keeps {s : State} (h : s.IsFinite) (g : Game) : g.Keeps s where
  floats _ := h.of_mem_floats
  values e he := (h.log e he).values
  state := Checkpoint.shownNulls_state fun _ => h.of_mem_floats
  results := Checkpoint.shownNulls_results fun _ => h.of_mem_roundsFloats

/-- No number that is infinite or undefined gets into what is kept of a game, whatever its program,
its limits, its judge and its players are, and however its runs end. -/
theorem Reached.kept_finite {g : Game} {s : State} {halted : Bool} (h : Reached g s halted) :
    g.Keeps s ∧ ∀ (σ : Type) (player : Player σ) (memory : σ) (t : Session σ) (o : Outcome),
      g.run player ⟨s, memory⟩ = (t, o) → g.Keeps t.state :=
  ⟨h.isFinite.keeps g, fun _ _ _ _ _ hrun => (Game.run_isFinite hrun h).keeps g⟩

/-- A judge to which every token costs more than a number can hold. -/
def boundlessJudge : Judge where
  config := ⟨"boundless", 0⟩
  tokenize text := [text]
  score tokens given := .ok (List.replicate (tokens.length - given) (1 / 0))

/-- A program that pays a reward and then shows what an empty text costs. -/
def boundless : Game where
  program := ⟨"reward(3)\nreveal(xent(s))",
    #[some (.reward (.integer 3 ⟨0, 7, 8⟩)),
      some (.reveal [.call "xent" [(none, .name "s" ⟨1, 12, 13⟩)] ⟨1, 7, 14⟩])]⟩
  config := {}
  judge := boundlessJudge

theorem boundless_load : Game.load boundless.program.source {} boundlessJudge = .ok boundless := by
  cbv

/-- Where the reward is paid. -/
def boundlessPaid : Session (List String) :=
  (boundless.advance .mailbox (boundless.advance .mailbox ⟨boundless.initial, []⟩).1).1

theorem boundless_fails : boundless.advance .mailbox boundlessPaid =
    (boundlessPaid, some (.failed (.line 1 (.notFinite .costs)))) := by
  let cost : Value := .costs ⟨[("", 1 / 0)], 1⟩
  have hname : Expr.valueOf boundlessPaid.state.registers "s" = .ok (.phrase { primary := "" }) :=
    rfl
  have hcall : Builtin.ofName? "xent" = some .xent := rfl
  have happlied : Builtin.xent.call boundless.judge [.phrase { primary := "" }] = .ok cost := rfl
  have hinfinite : cost.finite = .error (.notFinite .costs) := by
    have hcost : cost.isFinite = false := by decide +kernel
    simp only [Value.finite, hcost, Bool.false_eq_true, reduceIte]
    rfl
  have hl : boundless.program.At 1 _ := rfl
  rw [Game.advance_at (s := boundlessPaid) (by decide) rfl hl, if_neg (by decide)]
  simp only [Game.execute, Game.reveal, Game.eval, List.mapM_cons, Expr.eval, Expr.evalArgs, hcall,
    hname, List.findSome?_cons, List.findSome?_nil, happlied, hinfinite, bind, Except.bind, pure,
    Except.pure]
  rfl

/-- The cost stays out of what is kept. -/
theorem Reached.kept_finite_boundless : ∃ s t, Reached boundless s false ∧
    boundlessJudge.score ["", ""] 1 = .ok [1 / 0] ∧ (1 / 0 : Float).isFinite = false ∧
    boundless.run .mailbox ⟨s, []⟩ = (t, .failed (.line 1 (.notFinite .costs))) ∧
    s.floats = [3, 3, 3, 3] ∧ boundless.Keeps s ∧ boundless.Keeps t.state := by
  have ho : boundless.advance .mailbox ⟨boundless.initial, []⟩ =
      ((boundless.advance .mailbox ⟨boundless.initial, []⟩).1, none) := Prod.ext rfl rfl
  have hp : boundless.advance .mailbox (boundless.advance .mailbox ⟨boundless.initial, []⟩).1 =
      (boundlessPaid, none) := Prod.ext rfl rfl
  have h : Reached boundless boundlessPaid.state false :=
    .advance (.advance (.new boundless_load) ho) hp
  have hrun := Game.run_of_some boundless_fails
  obtain ⟨hkept, hruns⟩ := Reached.kept_finite h
  exact ⟨_, _, h, rfl, by decide +kernel, hrun, rfl, hkept, hruns _ _ _ _ _ hrun⟩

end EntropyGame
