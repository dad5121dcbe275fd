import EntropyGame.Proofs.Game.Control
import EntropyGame.Proofs.Game.Renaming
import EntropyGame.Proofs.Place
import Mathlib.Order.Monotone.Basic

namespace EntropyGame

/-- Whether a line is what comes next at a place of another program: all lines before it stand
before that place, and it does not. -/
def Renaming.Finds (τ : Renaming) (line place : Nat) : Prop :=
  place ≤ τ.line line ∧ ∀ k < line, τ.line k < place

namespace Renaming

variable {τ : Renaming}

theorem finds_line (hmono : StrictMono τ.line) (line : Nat) : τ.Finds line (τ.line line) :=
  ⟨Nat.le_refl _, fun _ hk => hmono hk⟩

theorem finds_zero (τ : Renaming) : τ.Finds 0 0 :=
  ⟨Nat.zero_le _, fun _ hk => absurd hk (Nat.not_lt_zero _)⟩

theorem finds_succ (hmono : StrictMono τ.line) (line : Nat) :
    τ.Finds (line + 1) (τ.line line + 1) :=
  ⟨hmono (Nat.lt_succ_self line),
    fun _ hk => Nat.lt_succ_of_le (hmono.monotone (Nat.le_of_lt_succ hk))⟩

/-- Where lines keep their numbers, a place is the line that comes next there. -/
theorem Finds.eq {line place : Nat} (h : τ.Finds line place) (hline : τ.line = id) :
    place = line := by
  refine Nat.le_antisymm (by simpa [hline] using h.1) (Nat.le_of_not_lt fun hlt => ?_)
  have hself := h.2 place hlt
  rw [hline] at hself
  exact Nat.lt_irrefl place hself

end Renaming

/-- A program whose lines stand in another one in the same order, with nothing but blank lines
between them. -/
structure Program.Found (τ : Renaming) (p p' : Program) : Prop where
  mono : StrictMono τ.line
  line : ∀ {l i}, p.lines[l]? = some i →
    ∃ i', p'.lines[τ.line l]? = some i' ∧ i'.map Instruction.bare = i.map Instruction.bare
  blank : ∀ {l}, l < p'.size → (∀ k < p.size, τ.line k ≠ l) → p'.lines[l]? = some none
  size : p'.size = τ.line p.size

namespace Program

/-- Every program stands in itself. -/
theorem Found.self (p : Program) {τ : Renaming} (h : τ.line = id) : p.Found τ p where
  mono := h ▸ strictMono_id
  line hi := ⟨_, by rw [h]; exact hi, rfl⟩
  blank hl hne := absurd (congrFun h _) (hne _ hl)
  size := by rw [h, id]

variable {τ : Renaming} {p p' : Program}

theorem Found.at (hf : p.Found τ p') {line : Nat} {i : Instruction} (hi : p.At line i) :
    ∃ i', p'.At (τ.line line) i' ∧ i'.bare = i.bare := by
  obtain ⟨i', hi', hbare⟩ := hf.line hi
  cases i' with
  | none => cases hbare
  | some i' => exact ⟨i', hi', Option.some.inj hbare⟩

theorem Found.blank_at (hf : p.Found τ p') {line : Nat} (hi : p.lines[line]? = some none) :
    p'.lines[τ.line line]? = some none := by
  obtain ⟨i', hi', hbare⟩ := hf.line hi
  cases i' with
  | none => exact hi'
  | some i' => cases hbare

/-- Before the next line there are only blank ones. -/
theorem Found.blank_before (hf : p.Found τ p') {line place : Nat} (hline : line ≤ p.size)
    (hp : τ.Finds line place) (hlt : place < τ.line line) : p'.lines[place]? = some none := by
  have hsize : place < p'.size := by
    rw [hf.size]
    exact Nat.lt_of_lt_of_le hlt (hf.mono.monotone hline)
  refine hf.blank hsize fun k _ he => ?_
  rcases Nat.lt_or_ge k line with hk | hk
  · exact Nat.ne_of_lt (hp.2 k hk) he
  · exact Nat.ne_of_gt (Nat.lt_of_lt_of_le hlt (hf.mono.monotone hk)) he

end Program

variable {σ σ' : Type}

/-- Two states of a round that agree up to names. Where the line pointers are is another matter. -/
structure State.Parallel (τ : Renaming) (whole : Prop) (s s' : State) : Prop extends
    State.Alike τ whole s s' where
  beacons : s'.beacons = s.beacons.mapWithKey τ.beacon
  replayCounters : s.replayCounters.Renamed τ.line s'.replayCounters
  ensureFailures : s.ensureFailures.Renamed τ.line s'.ensureFailures
  steps : s'.steps = s.steps
  round : s'.round = τ.round s.round
  roundStarted : s'.roundStarted = s.roundStarted
  completed : whole → s'.completed = s.completed.map (RoundResult.rename τ)

structure Session.Parallel (τ : Renaming) (whole : Prop) (R : σ → σ' → Prop) (s : Session σ)
    (s' : Session σ') : Prop where
  state : s.state.Parallel τ whole s'.state
  memory : R s.memory s'.memory

namespace State.Parallel

variable {τ : Renaming} {whole : Prop} {s s' : State}

theorem record (h : s.Parallel τ whole s') (e : Event) :
    (s.record e).Parallel τ whole (s'.record (e.rename τ)) :=
  { h with toAlike := h.toAlike.record e }

theorem setBeacon (h : s.Parallel τ whole s') {name : String} (hname : name ≠ startBeacon)
    (line : Nat) : (s.setBeacon name line).Parallel τ whole (s'.setBeacon name (τ.line line)) :=
  { h with
    beacons := by
      simp only [State.setBeacon, h.beacons, OrderedMap.mapWithKey_insert, Renaming.beacon, hname,
        if_false] }

theorem counter {m m' : OrderedMap Nat Nat} (h : m.Renamed τ.line m')
    (hf : τ.line.Injective) (line : Nat) :
    State.counter m' (τ.line line) = State.counter m line := by
  rw [State.counter, State.counter, h.get? hf]

theorem beacon (h : s.Parallel τ whole s') (name : String) :
    s'.beacons.get? name = (s.beacons.get? name).map (τ.beacon name) := by
  rw [h.beacons, OrderedMap.get?_mapWithKey]

/-- States go on in parallel if they change in parallel but for what plain instructions leave
alone. -/
theorem of_alike {t t' : State} (h : s.Parallel τ whole s') (ht : t.Alike τ whole t')
    (hs : t = { s with
      registers := t.registers
      roundScore := t.roundScore
      totalScore := t.totalScore
      usage := t.usage
      roundUsage := t.roundUsage
      pending := t.pending
      history := t.history })
    (hs' : t' = { s' with
      registers := t'.registers
      roundScore := t'.roundScore
      totalScore := t'.totalScore
      usage := t'.usage
      roundUsage := t'.roundUsage
      pending := t'.pending
      history := t'.history }) : t.Parallel τ whole t' where
  toAlike := ht
  beacons := by
    rw [hs, hs']
    exact h.beacons
  replayCounters := by
    rw [hs, hs']
    exact h.replayCounters
  ensureFailures := by
    rw [hs, hs']
    exact h.ensureFailures
  steps := by
    rw [hs, hs']
    exact h.steps
  round := by
    rw [hs, hs']
    exact h.round
  roundStarted := by
    rw [hs, hs']
    exact h.roundStarted
  completed := by
    rw [hs, hs']
    exact h.completed

theorem enter (h : s.Parallel τ whole s') (line : Nat) (i : Instruction) :
    (s.enter line i).Parallel τ whole (s'.enter (τ.line line) i) := by
  cases i with
  | elicit => exact h.setBeacon (by decide) line
  | _ => exact h

/-- The line pointer may move and the step be counted. -/
theorem moveTo (h : s.Parallel τ whole s') (line line' : Nat) :
    (s.moveTo line).Parallel τ whole (s'.moveTo line') :=
  { h with steps := congrArg (· + 1) h.steps }

theorem goTo (h : s.Parallel τ whole s') (line line' : Nat) :
    State.Parallel τ whole { s with line } { s' with line := line' } :=
  { h with }

end State.Parallel

theorem Session.Parallel.alike {τ : Renaming} {whole : Prop} {R : σ → σ' → Prop} {s : Session σ}
    {s' : Session σ'} (h : s.Parallel τ whole R s') : s.Alike τ whole R s' :=
  ⟨h.state.toAlike, h.memory⟩

/-- Two ways to go on that lead to the same. -/
inductive Flow.Parallel (τ : Renaming) : Except Fault Flow → Except Fault Flow → Prop
  | same {r : Except Fault Flow} : (∀ target, r ≠ .ok (.jump target)) → Parallel τ r r
  | jump {target place : Nat} : τ.Finds target place →
    Parallel τ (.ok (.jump target)) (.ok (.jump place))

namespace Game

variable {g : Game}

/-- Plain instructions leave the control of a round alone, but for the beacon of an `elicit`. -/
theorem Runs.frame {line : Nat} {s t : State} {i : Instruction} {flow : Flow}
    (h : Runs g line s i t flow) (hi : i.isPlain = true) :
    t = { s.enter line i with
      registers := t.registers
      roundScore := t.roundScore
      totalScore := t.totalScore
      usage := t.usage
      roundUsage := t.roundUsage
      pending := t.pending
      history := t.history } := by
  cases h with
  | assign _ hw =>
    rw [writeAll_frame hw]
    rfl
  | elicit _ ha =>
    rw [ha.frame]
    rfl
  | reveal | reward => rfl
  | passed | retried | beacon | fellThrough | replayed => cases hi

theorem Fails.frame {line : Nat} {s t : State} {i : Instruction} {f : Fault}
    (h : Fails g line s i t f) (hi : i.isPlain = true) :
    t = { s.enter line i with
      registers := t.registers
      roundScore := t.roundScore
      totalScore := t.totalScore
      usage := t.usage
      roundUsage := t.roundUsage
      pending := t.pending
      history := t.history } := by
  cases h with
  | assign _ hw =>
    rw [writeAll_frame hw]
    rfl
  | elicit _ ha =>
    rw [ha.frame]
    rfl
  | eval | budget | score | scoreOverflow => rfl
  | replayCount | condition | nothingToRetry | tooManyFailures | noBeacon | undeclaredBeacon =>
    cases hi

theorem Runs.ne_jump {line : Nat} {s t : State} {i : Instruction} {flow : Flow}
    (h : Runs g line s i t flow) (hi : i.isPlain = true) (target : Nat) : flow ≠ .jump target := by
  cases h with
  | elicit => split <;> simp
  | assign | reveal | reward => simp
  | passed | retried | beacon | fellThrough | replayed => cases hi

theorem execute_ne_jump (player : Player σ) (line : Nat) {i : Instruction}
    (hi : i.isPlain = true) (s : Session σ) (target : Nat) :
    (g.execute player line i s).2 ≠ .ok (.jump target) :=
  fun hflow => (execute_runs (Prod.ext rfl hflow)).ne_jump hi target rfl

theorem execute_frame (player : Player σ) (line : Nat) {i : Instruction} (hi : i.isPlain = true)
    (s : Session σ) :
    (g.execute player line i s).1.state = { s.state.enter line i with
      registers := (g.execute player line i s).1.state.registers
      roundScore := (g.execute player line i s).1.state.roundScore
      totalScore := (g.execute player line i s).1.state.totalScore
      usage := (g.execute player line i s).1.state.usage
      roundUsage := (g.execute player line i s).1.state.roundUsage
      pending := (g.execute player line i s).1.state.pending
      history := (g.execute player line i s).1.state.history } := by
  cases he : g.execute player line i s with
  | mk t result =>
    cases result with
    | ok flow => exact (execute_runs he).frame hi
    | error f => exact (execute_fails he).frame hi

/-- What an instruction does depends on the judge and one of the rules, but not on the rest of the
program. -/
theorem execute_congr {g' : Game} (hc : g'.config.maxEnsureFailures = g.config.maxEnsureFailures)
    (hj : g'.judge = g.judge) (player : Player σ) (line : Nat) (i : Instruction) (s : Session σ) :
    g'.execute player line i s = g.execute player line i s := by
  have heval : ∀ (s : State) (e : Expr), g'.eval s e = g.eval s e := by
    intro s e
    rw [eval, eval, hj]
  have hask : ∀ (line budget : Nat) (rs : List Register) (position : Nat) (announced : Bool)
      (s : Session σ), g'.ask player line budget rs position announced s =
        g.ask player line budget rs position announced s := by
    intro line budget rs
    induction rs with
    | nil => exact fun _ _ _ => rfl
    | cons r rs ih =>
      intro position announced s
      simp only [ask, hj, ih]
  cases i with
  | assign targets => simp only [execute, quietly, assign, heval]
  | reveal values => simp only [execute, reveal, heval]
  | elicit targets budget => simp only [execute, elicit, evalCount, heval, hask]
  | ensure conditions => simp only [execute, ensure, evalCondition, heval, hc]
  | reward score => simp only [execute, reward, heval]
  | beacon name => rfl
  | replay name count => simp only [execute, quietly, replay, evalCount, heval]

variable {τ : Renaming} {whole : Prop} {R : σ → σ' → Prop} {player : Player σ}
  {player' : Player σ'} {s : Session σ} {s' : Session σ'}

theorem execute_plain (hp : player.Alike τ R player') (h : s.Parallel τ whole R s')
    (hmono : StrictMono τ.line) {line : Nat} {i : Instruction} (hi : i.isPlain = true) :
    (g.execute player line i s).1.Parallel τ whole R (g.execute player' (τ.line line) i s').1 ∧
        (g.execute player' (τ.line line) i s').2 = (g.execute player line i s).2 ∨
      ¬ whole ∧ (Exceeds (g.execute player line i s) ∨
        Exceeds (g.execute player' (τ.line line) i s')) := by
  have hname : ∀ p, s.state.pending = some p → τ.line p.line = τ.line line → p.line = line :=
    fun _ _ he => hmono.injective he
  obtain hagree | hexceeds := execute_alike (g := g) hp h.alike hname hi
  · have hstate := (h.state.enter line i).of_alike hagree.session.state
      (execute_frame player line hi s) (execute_frame player' (τ.line line) hi s')
    exact .inl ⟨⟨hstate, hagree.session.memory⟩, hagree.result⟩
  · exact .inr hexceeds

theorem ensure_parallel (hp : player.Alike τ R player') (h : s.Parallel τ whole R s')
    (hmono : StrictMono τ.line) (line : Nat) (conditions : List Expr) :
    (g.ensure player line conditions s).1.Parallel τ whole R
        (g.ensure player' (τ.line line) conditions s').1 ∧
      Flow.Parallel τ (g.ensure player line conditions s).2
        (g.ensure player' (τ.line line) conditions s').2 := by
  simp only [ensure, evalCondition_congr h.state.registers]
  cases conditions.mapM fun e => g.evalCondition s.state e with
  | error f => exact ⟨h, .same (by simp)⟩
  | ok results =>
    simp only
    split
    · refine ⟨⟨{ h.state with ensureFailures := ?_ }, h.memory⟩, .same (by simp)⟩
      exact h.state.ensureFailures.erase hmono.injective line
    · rw [h.state.beacon]
      cases s.state.beacons.get? previousElicit with
      | none => exact ⟨h, .same (by simp)⟩
      | some target =>
        have hbeacon : τ.beacon previousElicit target = τ.line target := if_neg (by decide)
        have hcounter := State.Parallel.counter h.state.ensureFailures hmono.injective line
        simp only [Option.map_some, hbeacon, hcounter]
        let attempt := State.counter s.state.ensureFailures line + 1
        have hcounted : State.Parallel τ whole
            { s.state with
              ensureFailures := s.state.ensureFailures.insert line attempt }
            { s'.state with
              ensureFailures := s'.state.ensureFailures.insert (τ.line line) attempt } :=
          { h.state with
            ensureFailures := h.state.ensureFailures.insert hmono.injective line attempt }
        have hnoted := hcounted.record (.failedEnsure line results target attempt)
        have hmemory := hp.notify (.failedEnsure line results target attempt) h.memory
        split
        · exact ⟨⟨hnoted, hmemory⟩, .same (by simp)⟩
        · exact ⟨⟨hnoted, hmemory⟩, .jump (Renaming.finds_line hmono target)⟩

theorem beacon_parallel (h : s.state.Parallel τ whole s'.state) (line : Nat) (name : String) :
    (beacon line name s.state).1.Parallel τ whole (beacon (τ.line line) name s'.state).1 ∧
      Flow.Parallel τ (beacon line name s.state).2 (beacon (τ.line line) name s'.state).2 := by
  simp only [beacon]
  split
  · rename_i hflag
    have hname : name ≠ startBeacon := by
      rintro rfl
      revert hflag
      decide
    exact ⟨h.setBeacon hname line, .same (by simp)⟩
  · exact ⟨h, .same (by simp)⟩

theorem replay_parallel (h : s.state.Parallel τ whole s'.state) (hmono : StrictMono τ.line)
    (hstart : s.state.beacons.get? startBeacon = some 0) (line : Nat) (name : String)
    (count : Expr) :
    (g.replay line name count s.state).1.Parallel τ whole
        (g.replay (τ.line line) name count s'.state).1 ∧
      Flow.Parallel τ (g.replay line name count s.state).2
        (g.replay (τ.line line) name count s'.state).2 := by
  have hcounter := State.Parallel.counter h.replayCounters hmono.injective line
  simp only [replay, evalCount_congr h.registers, hcounter, h.beacon]
  cases g.evalCount s.state .replayCount count with
  | error f => exact ⟨h, .same (by simp)⟩
  | ok n =>
    simp only
    split
    · refine ⟨{ h with replayCounters := ?_ }, .same (by simp)⟩
      exact h.replayCounters.erase hmono.injective line
    · cases hb : s.state.beacons.get? name with
      | none => exact ⟨h, .same (by simp)⟩
      | some target =>
        refine ⟨{ h with replayCounters := ?_ }, .jump ?_⟩
        · exact h.replayCounters.insert hmono.injective line _
        · by_cases hname : name = startBeacon
          · rw [hname, hstart] at hb
            cases hb
            simp only [replayTarget, Renaming.beacon, hname, if_true]
            exact τ.finds_zero
          · simp only [replayTarget, Renaming.beacon, hname, if_false]
            exact Renaming.finds_succ hmono target

/-- Whatever an instruction does to a state it does to one that is parallel, unless a score is too
much for the total of one game. -/
theorem execute_parallel (hp : player.Alike τ R player') (h : s.Parallel τ whole R s')
    (hmono : StrictMono τ.line) (hstart : s.state.beacons.get? startBeacon = some 0) (line : Nat)
    (i : Instruction) :
    (g.execute player line i s).1.Parallel τ whole R (g.execute player' (τ.line line) i s').1 ∧
        Flow.Parallel τ (g.execute player line i s).2 (g.execute player' (τ.line line) i s').2 ∨
      ¬ whole ∧ (Exceeds (g.execute player line i s) ∨
        Exceeds (g.execute player' (τ.line line) i s')) := by
  cases i with
  | ensure conditions => exact .inl (ensure_parallel hp h hmono line conditions)
  | beacon name =>
    obtain ⟨hstate, hflow⟩ := beacon_parallel h.state line name
    exact .inl ⟨⟨hstate, h.memory⟩, hflow⟩
  | replay name count =>
    obtain ⟨hstate, hflow⟩ := replay_parallel (g := g) h.state hmono hstart line name count
    exact .inl ⟨⟨hstate, h.memory⟩, hflow⟩
  | assign | reveal | elicit | reward =>
    refine (execute_plain hp h hmono rfl).imp_left fun ⟨hsession, hflow⟩ => ⟨hsession, ?_⟩
    rw [hflow]
    exact .same (execute_ne_jump player line rfl s)

end Game

end EntropyGame
