import EntropyGame.Judge.Cache
import EntropyGame.Proofs.Decimal.Whole
import EntropyGame.Proofs.Game.Reached
import EntropyGame.Proofs.Game.Requests
import EntropyGame.Proofs.Source.Loop

namespace EntropyGame

theorem getElem?_flatten_replicate {α : Type} {xs : List α} {c k times : Nat}
    (hk : k < xs.length) (hc : c < times) :
    (List.replicate times xs).flatten[c * xs.length + k]? = xs[k]? := by
  induction times generalizing c with
  | zero => exact absurd hc (Nat.not_lt_zero c)
  | succ times ih =>
    rw [List.replicate_succ, List.flatten_cons]
    cases c with
    | zero => rw [Nat.zero_mul, Nat.zero_add, List.getElem?_append_left hk]
    | succ c =>
      have hle : xs.length ≤ (c + 1) * xs.length + k := by
        rw [Nat.succ_mul]
        omega
      have hnext : (c + 1) * xs.length + k - xs.length = c * xs.length + k := by
        rw [Nat.succ_mul]
        omega
      rw [List.getElem?_append_right hle, hnext, ih (Nat.lt_of_succ_lt_succ hc)]

/-- Whether a text repeats lines as often as a loop over them, which is another text, runs them: the
lines are plain instructions, and the loop has them between a beacon and a replay to it. -/
structure Unrolls (body : List String) (n : Nat) (source source' : String) : Prop where
  plain : ∀ {k text}, body[k]? = some text →
    ∃ i, Program.loadLine text (k + 1) = .ok (some i) ∧ i.isPlain = true
  unrolled : Text.lines source = (List.replicate (n + 1) body).flatten
  loop : ∃ first last span, Text.lines source' = first :: (body ++ [last]) ∧
    Program.loadLine first 0 = .ok (some (.beacon "flag_1")) ∧
    Program.loadLine last (body.length + 1) = .ok (some (.replay "flag_1" (.integer n span)))

/-- Every count may stand in the replay of a loop. -/
theorem Unrolls.of_lines {body : List String} {n : Nat} {source source' : String}
    (hn : n ≤ Value.greatestCount)
    (hplain : ∀ {k text}, body[k]? = some text →
      ∃ i, Program.loadLine text (k + 1) = .ok (some i) ∧ i.isPlain = true)
    (hunrolled : Text.lines source = (List.replicate (n + 1) body).flatten)
    (hloop : Text.lines source' =
      "beacon(flag_1)" :: (body ++ [s!"replay(flag_1, {n})"])) :
    Unrolls body n source source' := by
  have hshort : n < 2 ^ 63 := Nat.lt_of_le_of_lt hn (by decide)
  obtain ⟨span, hreplay⟩ := Program.loadLine_replay hshort (body.length + 1)
  exact ⟨hplain, hunrolled, _, _, span, hloop, Program.loadLine_beacon 0, hreplay⟩

namespace Program

/-- A program that repeats plain instructions, and a loop over them. -/
structure Unrolls (n length : Nat) (p p' : Program) : Prop where
  size : p.size = (n + 1) * length
  size' : p'.size = length + 2
  beacon : p'.At 0 (.beacon "flag_1")
  replay : ∃ span, p'.At (length + 1) (.replay "flag_1" (.integer n span))
  line : ∀ {k}, k < length → ∃ i, i.isPlain = true ∧ p'.At (k + 1) i ∧
    ∀ c ≤ n, ∃ j, p.At (c * length + k) j ∧ j.bare = i.bare

/-- Loops over lines of text load as loops over instructions. -/
theorem load_unrolls {body : List String} {n : Nat} {source source' : String}
    {config : GameConfig} {p p' : Program} (h : EntropyGame.Unrolls body n source source')
    (hp : load source config = .ok p) (hp' : load source' config = .ok p') :
    p.Unrolls n body.length p' := by
  obtain ⟨first, last, span, hlines, hfirst, hlast⟩ := h.loop
  have hat : ∀ {line text i}, (Text.lines source')[line]? = some text →
      loadLine text line = .ok (some i) → p'.At line i := by
    intro line text i htext hi
    obtain ⟨-, j, hj, hline⟩ := load_line hp' htext
    cases hj.symm.trans hi
    exact hline
  have hbody : ∀ {k}, k < body.length → (Text.lines source')[k + 1]? = body[k]? := by
    intro k hk
    rw [hlines, List.getElem?_cons_succ, List.getElem?_append_left hk]
  have hend : (Text.lines source')[body.length + 1]? = some last := by
    rw [hlines, List.getElem?_cons_succ, List.getElem?_append_right (Nat.le_refl _), Nat.sub_self]
    rfl
  refine ⟨?_, ?_, hat (by rw [hlines]; rfl) hfirst, ⟨span, hat hend hlast⟩, ?_⟩
  · rw [load_size hp, h.unrolled, List.length_flatten, List.map_replicate, List.sum_replicate]
    rfl
  · rw [load_size hp', hlines, List.length_cons, List.length_append, List.length_singleton]
  · intro k hk
    have htext : body[k]? = some body[k] := List.getElem?_eq_getElem hk
    obtain ⟨i, hi, hplain⟩ := h.plain htext
    refine ⟨i, hplain, hat ((hbody hk).trans htext) hi, fun c hc => ?_⟩
    have hplace : (Text.lines source)[c * body.length + k]? = some body[k] := by
      rw [h.unrolled, getElem?_flatten_replicate hk (Nat.lt_succ_of_le hc), htext]
    obtain ⟨ts, hts⟩ := loadLine_tokens hi
    obtain ⟨j, hj, hbare⟩ := loadLine_place hts hts rfl hi (c * body.length + k)
    obtain ⟨-, i', hi', hline⟩ := load_line hp hplace
    cases hj.symm.trans hi'
    cases j with
    | none => cases hbare
    | some j => exact ⟨j, hline, Option.some.inj hbare⟩

end Program

/-- The line of a loop that a line of the unrolled program repeats. -/
def passes (length : Nat) : Renaming where
  line q := q % length + 1
  round := id

theorem passes_line {length k : Nat} (hk : k < length) (c : Nat) :
    (passes length).line (c * length + k) = k + 1 := by
  show (c * length + k) % length + 1 = k + 1
  rw [Nat.mul_comm, Nat.mul_add_mod, Nat.mod_eq_of_lt hk]

/-- Whether a game fails as there are too many steps in a round. -/
def Outcome.IsCeiling (o : Outcome) : Prop :=
  ∃ line round limit, o = .failed (.line line (.tooManySteps round limit))

theorem Outcome.isCeiling_rename {τ : Renaming} {o : Outcome} (h : (o.rename τ).IsCeiling) :
    o.IsCeiling := by
  obtain ⟨line, round, limit, h⟩ := h
  cases o with
  | finished | halted => cases h
  | failed e =>
    simp only [rename, failed.injEq] at h
    cases e with
    | line n f =>
      simp only [GameError.rename, GameError.line.injEq] at h
      unfold Fault.rename at h
      split at h
      · exact ⟨n, _, _, rfl⟩
      · exact ⟨n, round, limit, by rw [h.2]⟩
    | _ => cases h

/-- Two states that are at the same line of the same pass: the loop counts the passes that have been
made. -/
structure State.InPass (n length c k : Nat) (s s' : State) : Prop where
  pass : c ≤ n
  place : k ≤ length
  line : s.line = c * length + k
  line' : s'.line = k + 1
  counter : State.counter s'.replayCounters (length + 1) = c
  flag : s'.beacons.get? "flag_1" = some 0
  steps : s.steps ≤ s'.steps

namespace State

variable {n length c k : Nat} {s s' t t' : State}

theorem InPass.congr (h : s.InPass n length c k s') (hline : t.line = s.line)
    (hsteps : t.steps = s.steps) (hline' : t'.line = s'.line) (hsteps' : t'.steps = s'.steps)
    (hcounters : t'.replayCounters = s'.replayCounters)
    (hflag : t'.beacons.get? "flag_1" = s'.beacons.get? "flag_1") : t.InPass n length c k t' where
  pass := h.pass
  place := h.place
  line := hline.trans h.line
  line' := hline'.trans h.line'
  counter := by rw [hcounters, h.counter]
  flag := hflag.trans h.flag
  steps := by rw [hsteps, hsteps']; exact h.steps

theorem InPass.next (h : s.InPass n length c k s') (hk : k < length) :
    (s.moveTo (s.line + 1)).InPass n length c (k + 1) (s'.moveTo (s'.line + 1)) :=
  { h with
    place := hk
    line := congrArg (· + 1) h.line
    line' := congrArg (· + 1) h.line'
    steps := Nat.succ_le_succ h.steps }

/-- A pass that is not the last one is followed by another. -/
theorem InPass.again (h : s.InPass n length c length s') (hc : c < n) :
    s.InPass n length (c + 1) 0 { s' with
      replayCounters :=
        s'.replayCounters.insert s'.line (State.counter s'.replayCounters s'.line + 1)
      line := 1
      steps := s'.steps + 1 } where
  pass := hc
  place := Nat.zero_le _
  line := by rw [h.line, Nat.succ_mul, Nat.add_zero]
  line' := rfl
  counter := by rw [h.line', h.counter, counter_insert, if_pos rfl]
  flag := h.flag
  steps := Nat.le_succ_of_le h.steps

theorem enter_flag (s : State) (line : Nat) (i : Instruction) :
    (s.enter line i).beacons.get? "flag_1" = s.beacons.get? "flag_1" := by
  cases i with
  | elicit => exact (OrderedMap.get?_insert ..).trans (if_neg (by decide))
  | _ => rfl

end State

variable {σ σ' : Type}

/-- Two games that agree up to names, wherever they are in a round. -/
structure Session.Level (τ : Renaming) (R : σ → σ' → Prop) (s : Session σ) (s' : Session σ') :
    Prop where
  alike : s.Alike τ True R s'
  round : s'.state.round = s.state.round
  started : s'.state.roundStarted = s.state.roundStarted
  completed : s'.state.completed = s.state.completed.map (RoundResult.rename τ)

namespace Session.Level

variable {τ : Renaming} {R : σ → σ' → Prop} {s : Session σ} {s' : Session σ'}

/-- The second game may set beacons, count jumps and go to other lines alone. -/
theorem turn (h : s.Level τ R s') (beacons : OrderedMap String Nat)
    (replayCounters : OrderedMap Nat Nat) (line steps : Nat) :
    s.Level τ R ⟨{ s'.state with beacons, replayCounters, line, steps }, s'.memory⟩ :=
  ⟨⟨{ h.alike.state with }, h.alike.memory⟩, h.round, h.started, h.completed⟩

theorem moveTo (h : s.Level τ R s') (line line' : Nat) :
    Session.Level τ R (Game.finishLine s line) (Game.finishLine s' line') :=
  ⟨⟨{ h.alike.state with }, h.alike.memory⟩, h.round, h.started, h.completed⟩

end Session.Level

namespace Game

variable {g g' : Game} {n length : Nat}

theorem evalCount_integer (s : State) (fault : Value → Fault) (h : n ≤ Value.greatestCount)
    (span : Span) : g.evalCount s fault (.integer n span) = .ok n := by
  have hcount : (Value.number (Float.ofInt n)).count? = some n := Value.count?_ofNat h
  simp only [evalCount, eval, Expr.eval, bind, Except.bind, hcount]
  rfl

variable {player : Player σ} {player' : Player σ'} {s t : Session σ} {s' : Session σ'}

/-- A round that does not reach the ceiling has steps left wherever an instruction stands. -/
theorem steps_lt_of_run (hr : s.state.round < g.config.rounds) (ho : s.state.roundStarted = true)
    {i : Instruction} (hl : g.program.At s.state.line i) (hrun : ¬ (g.run player s).2.IsCeiling) :
    s.state.steps < g.config.maxSteps := by
  refine Nat.lt_of_not_le fun hmax => hrun ?_
  have hadvance : g.advance player s = _ := advance_at hr ho hl
  rw [if_pos hmax] at hadvance
  rw [run_of_some hadvance]
  exact ⟨_, _, _, rfl⟩

theorem execute_completed (player : Player σ) (line : Nat) {i : Instruction}
    (hi : i.isPlain = true) (s : Session σ) :
    (g.execute player line i s).1.state.completed = s.state.completed := by
  refine (congrArg State.completed (execute_frame player line hi s)).trans ?_
  cases i <;> rfl

section

variable (hr : s.state.round < g.config.rounds) (ho : s.state.roundStarted = true) {span : Span}
  (hl : g.program.At s.state.line (.replay "flag_1" (.integer n span)))
  (hn : n ≤ Value.greatestCount) (hsteps : s.state.steps < g.config.maxSteps)

include hr ho hl hn hsteps

/-- A replay that has jumped often enough falls through. -/
theorem advance_fallsThrough (hle : n ≤ State.counter s.state.replayCounters s.state.line) :
    g.advance player s = (⟨{ s.state with
      replayCounters := s.state.replayCounters.erase s.state.line
      line := s.state.line + 1
      steps := s.state.steps + 1 }, s.memory⟩, none) := by
  rw [advance_at hr ho hl, if_neg (Nat.not_le.mpr hsteps)]
  simp only [execute, quietly, replay, evalCount_integer _ _ hn, hle, if_true]
  rfl

/-- Until then it jumps to the line after the first, where its beacon stands. -/
theorem advance_jumpsBack (hlt : State.counter s.state.replayCounters s.state.line < n)
    (hflag : s.state.beacons.get? "flag_1" = some 0) :
    g.advance player s = (⟨{ s.state with
      replayCounters := s.state.replayCounters.insert s.state.line
        (State.counter s.state.replayCounters s.state.line + 1)
      line := 1
      steps := s.state.steps + 1 }, s.memory⟩, none) := by
  have hsize : ¬ g.program.size < 1 :=
    Nat.not_lt.mpr (Nat.lt_of_le_of_lt (Nat.zero_le _) hl.lt)
  have htarget : replayTarget "flag_1" 0 = 1 := rfl
  rw [advance_at hr ho hl, if_neg (Nat.not_le.mpr hsteps)]
  simp only [execute, quietly, replay, evalCount_integer _ _ hn, Nat.not_le.mpr hlt, hflag,
    htarget, hsize, if_false]
  rfl

end

variable {R : σ → σ' → Prop}

/-- Two sessions of a game and of one that has a loop for its lines. -/
structure AtPass (g : Game) (n length : Nat) (R : σ → σ' → Prop) (s : Session σ)
    (s' : Session σ') : Prop where
  level : s.Level (passes length) R s'
  controlled : g.Controlled s.state false
  inPass : s.state.roundStarted = true → ∃ c k, s.state.InPass n length c k s'.state

/-- What two games come to, one of which has a loop for the lines of the other: if they stop in a
line, it is the same line of the same pass. -/
structure SamePasses (n length : Nat) (R : σ → σ' → Prop) (x : Session σ × Outcome)
    (x' : Session σ' × Outcome) : Prop where
  outcome : x'.2 = x.2.rename (passes length)
  level : x.1.Level (passes length) R x'.1
  inPass : x.2 ≠ .finished →
    ∃ c k, k < length ∧ x.1.state.InPass n length c k x'.1.state

/-- What two moves of such games lead to. -/
structure MeetsPass (n length : Nat) (R : σ → σ' → Prop) (x : Session σ × Option Outcome)
    (x' : Session σ' × Option Outcome) : Prop where
  outcome : x'.2 = x.2.map (Outcome.rename (passes length))
  level : x.1.Level (passes length) R x'.1
  goes : x.2 = none → x.1.state.roundStarted = true →
    ∃ c k, x.1.state.InPass n length c k x'.1.state
  stops : ∀ o, x.2 = some o → o ≠ .finished →
    ∃ c k, k < length ∧ x.1.state.InPass n length c k x'.1.state

section

variable (hprogram : g.program.Unrolls n length g'.program) (hn : n ≤ Value.greatestCount)

include hprogram hn

/-- The loop goes on to a line of a pass, or to its end when the unrolled game is at its own. -/
theorem run_nextPass {c k : Nat} (hpass : s.state.InPass n length c k s'.state)
    (hlevel : s.Level (passes length) R s') (ho' : s'.state.roundStarted = true)
    (hr' : s'.state.round < g'.config.rounds) (hrun : ¬ (g'.run player' s').2.IsCeiling) :
    ∃ t', g'.run player' s' = g'.run player' t' ∧ s.Level (passes length) R t' ∧
      ((∃ c k, k < length ∧ s.state.InPass n length c k t'.state) ∨
        g.program.size ≤ s.state.line ∧ g'.program.size ≤ t'.state.line) := by
  induction hleft : n - c generalizing c k s' with
  | zero =>
    rcases Nat.lt_or_ge k length with hk | hk
    · exact ⟨s', rfl, hlevel, .inl ⟨c, k, hk, hpass⟩⟩
    · -- the last pass is over
      have hk : k = length := Nat.le_antisymm hpass.place hk
      have hc : c = n := Nat.le_antisymm hpass.pass (Nat.le_of_sub_eq_zero hleft)
      subst hk hc
      obtain ⟨span, hreplay⟩ := hprogram.replay
      rw [← hpass.line'] at hreplay
      have hsteps := steps_lt_of_run hr' ho' hreplay hrun
      have hcounter : c ≤ State.counter s'.state.replayCounters s'.state.line := by
        rw [hpass.line', hpass.counter]
      have hnext : g'.advance player' s' = _ :=
        advance_fallsThrough hr' ho' hreplay hn hsteps hcounter
      refine ⟨_, run_of_none hnext, hlevel.turn _ _ _ _, .inr ⟨?_, ?_⟩⟩
      · rw [hprogram.size, hpass.line, Nat.succ_mul]
      · show g'.program.size ≤ s'.state.line + 1
        rw [hprogram.size', hpass.line']
  | succ left ih =>
    rcases Nat.lt_or_ge k length with hk | hk
    · exact ⟨s', rfl, hlevel, .inl ⟨c, k, hk, hpass⟩⟩
    · have hk : k = length := Nat.le_antisymm hpass.place hk
      have hc : c < n := by omega
      subst hk
      obtain ⟨span, hreplay⟩ := hprogram.replay
      rw [← hpass.line'] at hreplay
      have hsteps := steps_lt_of_run hr' ho' hreplay hrun
      have hcounter : State.counter s'.state.replayCounters s'.state.line = c := by
        rw [hpass.line', hpass.counter]
      have hnext : g'.advance player' s' = _ :=
        advance_jumpsBack hr' ho' hreplay hn hsteps (hcounter.symm ▸ hc) hpass.flag
      have hfewer : n - (c + 1) = left := by omega
      rw [run_of_none hnext] at hrun ⊢
      exact ih (hpass.again hc) (hlevel.turn _ _ _ _) ho' hr' hrun hfewer

end

/-- Instructions that agree leave games level, and where they were in the pass. -/
theorem execute_level (hlevel : s.Level (passes length) R s') {c k line line' : Nat}
    (hpass : s.state.InPass n length c k s'.state) {i : Instruction} (hi : i.isPlain = true)
    (hagree : Agree (passes length) True R (g.execute player line i s)
      (g.execute player' line' i s')) :
    (g.execute player line i s).1.Level (passes length) R (g.execute player' line' i s').1 ∧
      (g.execute player line i s).1.state.InPass n length c k
        (g.execute player' line' i s').1.state := by
  have hclock := execute_clock g player line i s
  have hclock' := execute_clock g player' line' i s'
  have hframe := execute_frame (g := g) player' line' hi s'
  refine ⟨⟨hagree.session, ?_, ?_, ?_⟩, hpass.congr ?_ ?_ ?_ ?_ ?_ ?_⟩
  · have hround := hlevel.round.trans (congrArg Clock.round hclock).symm
    exact (congrArg Clock.round hclock').trans hround
  · exact (congrArg Clock.started hclock').trans
      (hlevel.started.trans (congrArg Clock.started hclock).symm)
  · rw [execute_completed player line hi, execute_completed player' line' hi, hlevel.completed]
  · exact congrArg Clock.line hclock
  · exact congrArg Clock.steps hclock
  · exact congrArg Clock.line hclock'
  · exact congrArg Clock.steps hclock'
  · refine (congrArg State.replayCounters hframe).trans ?_
    cases i <;> rfl
  · exact (congrArg (fun t => t.beacons.get? "flag_1") hframe).trans (State.enter_flag ..)

/-- A beacon is set on its line. -/
theorem advance_beacon (hr : s.state.round < g.config.rounds) (ho : s.state.roundStarted = true)
    (hl : g.program.At s.state.line (.beacon "flag_1"))
    (hsteps : s.state.steps < g.config.maxSteps) :
    g.advance player s = (⟨{ s.state with
      beacons := s.state.beacons.insert "flag_1" s.state.line
      line := s.state.line + 1
      steps := s.state.steps + 1 }, s.memory⟩, none) := by
  have hflag : flags.contains "flag_1" = true := by decide
  rw [advance_at hr ho hl, if_neg (Nat.not_le.mpr hsteps)]
  simp only [execute, quietly, beacon, hflag, if_true]
  rfl

theorem startRound_level (hp : player.Alike (passes length) R player')
    (h : s.Level (passes length) R s') :
    (startRound player s).Level (passes length) R (startRound player' s') := by
  have hopened : s.state.beginRound.Alike (passes length) True s'.state.beginRound :=
    .beginRound (by rw [h.alike.state.registers]) h.alike.state.usage h.alike.state.totalScore
  have hstate := hopened.record (.roundStarted s.state.round)
  have htold := hp.notify (.roundStarted s.state.round) h.alike.memory
  have hevent : (Event.roundStarted s.state.round).rename (passes length) =
      .roundStarted s'.state.round := by
    rw [h.round]
    rfl
  rw [hevent] at hstate htold
  exact ⟨⟨hstate, htold⟩, h.round, rfl, h.completed⟩

theorem endRound_level (hp : player.Alike (passes length) R player')
    (h : s.Level (passes length) R s') :
    (endRound player s).Level (passes length) R (endRound player' s') := by
  have htold := h.alike.emit_roundFinished hp h.round
  exact
    { alike := ⟨{ htold.state with history := by simp [endRound, State.finishRound] }, htold.memory⟩
      round := congrArg (· + 1) h.round
      started := rfl
      completed := htold.state.completed h.round h.completed }

section

variable (hp : player.Alike (passes length) R player') (hc : g'.config = g.config)
  (hj : g'.judge = g.judge) (hprogram : g.program.Unrolls n length g'.program)

include hp hc hj hprogram

/-- Lines of a pass do the same in both games. -/
theorem advance_inPass {c k : Nat} (hpass : s.state.InPass n length c k s'.state)
    (hk : k < length) (hlevel : s.Level (passes length) R s')
    (hpending : s.state.pending = none) (hr : s.state.round < g.config.rounds)
    (ho : s.state.roundStarted = true) (hrun : ¬ (g'.run player' s').2.IsCeiling) :
    MeetsPass n length R (g.advance player s) (g'.advance player' s') := by
  have ho' : s'.state.roundStarted = true := hlevel.started.trans ho
  have hr' : s'.state.round < g'.config.rounds := by rwa [hc, hlevel.round]
  obtain ⟨i, hi, hl', hfound⟩ := hprogram.line hk
  obtain ⟨i₀, hl, hbare⟩ := hfound c hpass.pass
  rw [← hpass.line'] at hl'
  rw [← hpass.line] at hl
  have hsteps' := steps_lt_of_run hr' ho' hl' hrun
  have hsteps : s.state.steps < g.config.maxSteps := by
    rw [← hc]
    exact Nat.lt_of_le_of_lt hpass.steps hsteps'
  have hline : (passes length).line s.state.line = s'.state.line := by
    rw [hpass.line, hpass.line', passes_line hk]
  have hinside : ∀ target, (g.execute player s.state.line i s).2 ≠ .ok (.jump target) :=
    execute_ne_jump player s.state.line hi s
  have hfault : ∀ f, (g.execute player s.state.line i s).2 = .error f →
      f.rename (passes length) = f :=
    fun f hflow => (execute_fails (Prod.ext rfl hflow)).rename _
  have hname : ∀ p, s.state.pending = some p →
      (passes length).line p.line = (passes length).line s.state.line → p.line = s.state.line :=
    fun p hsome => absurd (hpending.symm.trans hsome) nofun
  obtain hagree | ⟨hwhole, -⟩ := execute_alike (g := g) hp hlevel.alike hname hi
  · rw [hline] at hagree
    obtain ⟨hlevel', hpass'⟩ := execute_level hlevel hpass hi hagree
    have hresult := hagree.result
    rw [advance_at hr ho hl, advance_at hr' ho' hl', if_neg (Nat.not_le.mpr hsteps),
      if_neg (Nat.not_le.mpr hsteps'),
      execute_congr (congrArg GameConfig.maxEnsureFailures hc) hj, execute_place g _ _ hbare]
    have hstay : (g.execute player s.state.line i s).1.state.line = s.state.line :=
      congrArg Clock.line (execute_clock g player s.state.line i s)
    have hstay' : (g.execute player' s'.state.line i s').1.state.line = s'.state.line :=
      congrArg Clock.line (execute_clock g player' s'.state.line i s')
    generalize g.execute player s.state.line i s = x at *
    generalize g.execute player' s'.state.line i s' = x' at *
    obtain ⟨t, result⟩ := x
    obtain ⟨t', result'⟩ := x'
    obtain rfl : result' = result := hresult
    have hstops : ∀ o : Outcome, o ≠ .finished →
        ∃ c k, k < length ∧ t.state.InPass n length c k t'.state :=
      fun _ _ => ⟨c, k, hk, hpass'⟩
    cases result' with
    | error f =>
      refine ⟨?_, hlevel', by simp, fun o _ => hstops o⟩
      simp only [Option.map_some, Outcome.rename, GameError.rename, hfault f rfl, hline]
    | ok flow =>
      cases flow with
      | next =>
        have hnext := hpass'.next hk
        rw [hstay, hstay'] at hnext
        exact ⟨rfl, hlevel'.moveTo _ _, fun _ _ => ⟨c, k + 1, hnext⟩, by simp⟩
      | jump target => exact absurd rfl (hinside target)
      | halt => exact ⟨rfl, hlevel', by simp, fun o _ => hstops o⟩
  · exact absurd trivial hwhole

/-- Moves lead to the same, once the loop has gone on to its next line. -/
theorem advance_atPass (hn : n ≤ Value.greatestCount) (h : g.AtPass n length R s s')
    (hrun : ¬ (g'.run player' s').2.IsCeiling) :
    ∃ t', g'.run player' s' = g'.run player' t' ∧
      MeetsPass n length R (g.advance player s) (g'.advance player' t') := by
  by_cases hr : g.config.rounds ≤ s.state.round
  · have hr' : g'.config.rounds ≤ s'.state.round := by rwa [hc, h.level.round]
    refine ⟨s', rfl, ?_⟩
    rw [advance_done hr, advance_done hr']
    exact ⟨rfl, h.level, by simp, fun o ho hne => absurd (Option.some.inj ho).symm hne⟩
  · have hr : s.state.round < g.config.rounds := Nat.lt_of_not_le hr
    have hr' : s'.state.round < g'.config.rounds := by rwa [hc, h.level.round]
    cases ho : s.state.roundStarted with
    | false =>
      have ho' : s'.state.roundStarted = false := h.level.started.trans ho
      have hopened : g'.advance player' s' = _ := advance_opened hr' ho'
      rw [run_of_none hopened] at hrun
      have hsteps := steps_lt_of_run (s := startRound player' s') hr' rfl hprogram.beacon hrun
      refine ⟨startRound player' s', run_of_none hopened, ?_⟩
      rw [advance_opened hr ho,
        advance_beacon (s := startRound player' s') hr' rfl hprogram.beacon hsteps]
      refine ⟨rfl, (startRound_level hp h.level).turn _ _ _ _, fun _ _ => ⟨0, 0, ?_⟩, by simp⟩
      exact
        { pass := Nat.zero_le _
          place := Nat.zero_le _
          line := (Nat.zero_mul length).symm
          line' := rfl
          counter := rfl
          flag := (OrderedMap.get?_insert ..).trans (if_pos rfl)
          steps := Nat.zero_le _ }
    | true =>
      have ho' : s'.state.roundStarted = true := h.level.started.trans ho
      obtain ⟨c, k, hpass⟩ := h.inPass ho
      obtain ⟨t', hsame, hlevel, hplace⟩ := run_nextPass hprogram hn hpass h.level ho' hr' hrun
      have hr'' : t'.state.round < g'.config.rounds := by rwa [hc, hlevel.round]
      rw [hsame] at hrun
      refine ⟨t', hsame, ?_⟩
      obtain ⟨c, k, hk, hpass⟩ | ⟨hend, hend'⟩ := hplace
      · have hpending : s.state.pending = none := by
          simpa using h.controlled.pending
        exact advance_inPass hp hc hj hprogram hpass hk hlevel hpending hr ho hrun
      · rw [advance_closed hr ho hend, advance_closed hr'' (hlevel.started.trans ho) hend']
        exact ⟨rfl, endRound_level hp hlevel, fun _ hs => (nomatch hs), by simp⟩

/-- Runs come to the same. -/
theorem run_atPass (hn : n ≤ Value.greatestCount) (h : g.AtPass n length R s s')
    (hrun : ¬ (g'.run player' s').2.IsCeiling) :
    SamePasses n length R (g.run player s) (g'.run player' s') := by
  fun_induction Game.run g player s generalizing s' with
  | case1 s t ha ih =>
    obtain ⟨t', hsame, hmeets⟩ := advance_atPass hp hc hj hprogram hn h hrun
    rw [ha] at hmeets
    have hnext : g'.advance player' t' = ((g'.advance player' t').1, none) :=
      Prod.ext rfl hmeets.outcome
    have hcontrolled := ((advance_change ha).1 rfl).controlled h.controlled
    rw [hsame, run_of_none hnext] at hrun ⊢
    exact ih ⟨hmeets.level, hcontrolled, hmeets.goes rfl⟩ hrun
  | case2 s t outcome ha =>
    obtain ⟨t', hsame, hmeets⟩ := advance_atPass hp hc hj hprogram hn h hrun
    rw [ha] at hmeets
    have hlast : g'.advance player' t' =
        ((g'.advance player' t').1, some (outcome.rename (passes length))) :=
      Prod.ext rfl hmeets.outcome
    rw [hsame, run_of_some hlast]
    exact ⟨rfl, hmeets.level, hmeets.stops outcome rfl⟩

end

theorem initial_atPass (hc : g'.config = g.config) {memory : σ} {memory' : σ'}
    (hmemory : R memory memory') :
    g.AtPass n length R ⟨g.initial, memory⟩ ⟨g'.initial, memory'⟩ := by
  have hinitial : g'.initial = g.initial := by rw [initial, initial, hc]
  refine ⟨⟨⟨?_, hmemory⟩, ?_, ?_, ?_⟩, initial_controlled g, fun hs => absurd hs Bool.false_ne_true⟩
  · rw [hinitial]
    exact
      { registers := rfl
        roundScore := rfl
        roundUsage := rfl
        pending := rfl
        history := by simp [initial, State.initial]
        usage := fun _ => rfl
        totalScore := fun _ => rfl }
  · rw [hinitial]
  · rw [hinitial]
  · rw [hinitial]
    simp [initial, State.initial]

/-- A loop does what the program does that has its lines as often as the loop runs them, as long as
the steps suffice: the player is asked the same, and both come to the same or stop in the same line
of the same pass. -/
theorem run_unrolled {body : List String} {source source' : String} {config : GameConfig}
    {judge : Judge} (hbody : Unrolls body n source source') (hn : n ≤ Value.greatestCount)
    (hload : load source config judge = .ok g) (hload' : load source' config judge = .ok g')
    (hp : player.Alike (passes body.length) R player') {memory : σ} {memory' : σ'}
    (hmemory : R memory memory')
    (hrun : ¬ (g'.run player' ⟨g'.initial, memory'⟩).2.IsCeiling) :
    SamePasses n body.length R (g.run player ⟨g.initial, memory⟩)
        (g'.run player' ⟨g'.initial, memory'⟩) ∧
      g'.requests player' memory' = g.requests player memory := by
  obtain ⟨hg, hsource, hconfig, hjudge⟩ := load_ok hload
  obtain ⟨hg', hsource', hconfig', hjudge'⟩ := load_ok hload'
  rw [IsLoaded, hsource, hconfig] at hg
  rw [IsLoaded, hsource', hconfig'] at hg'
  have hprogram := Program.load_unrolls hbody hg hg'
  have hc : g'.config = g.config := hconfig'.trans hconfig.symm
  have hj : g'.judge = g.judge := hjudge'.trans hjudge.symm
  have hrun' : ¬ (g'.run player'.asked ⟨g'.initial, memory', []⟩).2.IsCeiling := by
    rw [(run_asked g' player' memory').outcome]
    exact fun h => hrun (Outcome.isCeiling_rename h)
  have hsame := run_atPass hp hc hj hprogram hn (initial_atPass hc hmemory) hrun
  have hasked := run_atPass (s := ⟨g.initial, memory, []⟩) hp.asked hc hj hprogram hn
    (initial_atPass hc ⟨hmemory, rfl⟩) hrun'
  exact ⟨hsame, hasked.level.alike.memory.2⟩

end Game

/-- A program that asks twice for a text. -/
def askTwice : Game where
  program := ⟨"elicit(s, 4)\nelicit(s, 4)",
    #[some (.elicit [.first .s] (.integer 4 ⟨0, 10, 11⟩)),
      some (.elicit [.first .s] (.integer 4 ⟨1, 10, 11⟩))]⟩
  config := {}
  judge := Judge.Cache.judge 0

/-- The same in a loop. -/
def askLoop : Game where
  program := ⟨"beacon(flag_1)\nelicit(s, 4)\nreplay(flag_1, 1)",
    #[some (.beacon "flag_1"), some (.elicit [.first .s] (.integer 4 ⟨1, 10, 11⟩)),
      some (.replay "flag_1" (.integer 1 ⟨2, 15, 16⟩))]⟩
  config := {}
  judge := Judge.Cache.judge 0

theorem askTwice_load :
    Game.load askTwice.program.source {} (Judge.Cache.judge 0) = .ok askTwice := by
  cbv

theorem askLoop_load :
    Game.load askLoop.program.source {} (Judge.Cache.judge 0) = .ok askLoop := by
  cbv

theorem askTwice_unrolls :
    Unrolls ["elicit(s, 4)"] 1 askTwice.program.source askLoop.program.source := by
  refine .of_lines (by decide) ?_ (by cbv) (by cbv)
  intro k text htext
  cases k with
  | zero =>
    cases htext
    exact ⟨_, by cbv, rfl⟩
  | succ k => cases htext

/-- Both stop at the second request. -/
theorem Game.run_unrolled_askTwice :
    ∃ t t', askTwice.run .mailbox ⟨askTwice.initial, ["a"]⟩ = (t, .halted) ∧
      askLoop.run .mailbox ⟨askLoop.initial, ["a"]⟩ = (t', .halted) ∧
      t'.state.registers = t.state.registers ∧
      t'.state.history = t.state.history.map (Event.rename (passes 1)) ∧
      askLoop.requests .mailbox ["a"] = askTwice.requests .mailbox ["a"] := by
  let opened := (askLoop.advance .mailbox ⟨askLoop.initial, ["a"]⟩).1
  let marked := (askLoop.advance .mailbox opened).1
  let answered := (askLoop.advance .mailbox marked).1
  let replayed : Session (List String) := ⟨{ answered.state with
    replayCounters := answered.state.replayCounters.insert 2 1
    line := 1
    steps := 3 }, answered.memory⟩
  let halted := (askLoop.advance .mailbox replayed).1
  have hopened : askLoop.advance .mailbox ⟨askLoop.initial, ["a"]⟩ = (opened, none) :=
    Prod.ext rfl rfl
  have hmarked : askLoop.advance .mailbox opened = (marked, none) := Prod.ext rfl rfl
  have hanswered : askLoop.advance .mailbox marked = (answered, none) := Prod.ext rfl rfl
  have hreplayed : askLoop.advance .mailbox answered = (replayed, none) :=
    Game.advance_jumpsBack (by decide) rfl rfl (by decide) (by decide) (by decide) rfl
  have hhalted : askLoop.advance .mailbox replayed = (halted, some .halted) := Prod.ext rfl rfl
  have hrun := (Game.run_of_none hopened).trans <| (Game.run_of_none hmarked).trans <|
    (Game.run_of_none hanswered).trans <| (Game.run_of_none hreplayed).trans <|
      Game.run_of_some hhalted
  have hceiling : ¬ (askLoop.run .mailbox ⟨askLoop.initial, ["a"]⟩).2.IsCeiling := by
    rw [hrun]
    exact fun ⟨_, _, _, h⟩ => nomatch h
  have hmailbox : Player.mailbox.Alike (passes 1) Eq Player.mailbox :=
    Player.alike_through (passes 1) .mailbox
  obtain ⟨hsame, hrequests⟩ := Game.run_unrolled askTwice_unrolls (by decide) askTwice_load
    askLoop_load hmailbox (rfl : ["a"] = ["a"]) hceiling
  rw [hrun] at hsame
  have houtcome : (askTwice.run .mailbox ⟨askTwice.initial, ["a"]⟩).2 = .halted := by
    have hrenamed := hsame.outcome
    generalize (askTwice.run .mailbox ⟨askTwice.initial, ["a"]⟩).2 = o at hrenamed ⊢
    cases o with
    | halted => rfl
    | finished | failed => cases hrenamed
  exact ⟨_, halted, Prod.ext rfl houtcome, hrun, hsame.level.alike.state.registers,
    hsame.level.alike.state.history, hrequests⟩

end EntropyGame
