import EntropyGame.Data.Results
import EntropyGame.Proofs.Eval
import EntropyGame.Proofs.Game.Change
import EntropyGame.Proofs.Program

namespace EntropyGame

/-- What an instruction does to a state before it evaluates anything. -/
def State.enter (s : State) (line : Nat) : Instruction → State
  | .elicit .. => s.setBeacon previousElicit line
  | _ => s

theorem State.registers_enter (s : State) (line : Nat) (i : Instruction) :
    (s.enter line i).registers = s.registers := by
  cases i <;> rfl

namespace Game

/-- How the requests of an `elicit` may fail: what they have made of a state by then, and why. -/
inductive AskFails (g : Game) (line budget : Nat) :
    List Register → Nat → Bool → State → State → Fault → Prop
  | refused {r : Register} {rs : List Register} {position : Nat} {announced : Bool} {s : State}
      (message : String) :
      AskFails g line budget (r :: rs) position announced s (s.announce line budget r announced)
        (.player message)
  | unwritable {r : Register} {rs : List Register} {position : Nat} {announced : Bool} {s : State}
      {e : WriteFault} (move : Move) :
      s.registers.set r (.phrase (g.response budget move)) = .error e →
      AskFails g line budget (r :: rs) position announced s (s.announce line budget r announced)
        (.write e)
  | answered {r : Register} {rs : List Register} {position : Nat} {announced : Bool}
      {s t : State} {f : Fault} {registers : Registers} (move : Move) :
      s.registers.set r (.phrase (g.response budget move)) = .ok registers →
      AskFails g line budget rs (position + 1) false
        ((s.announce line budget r announced).accept line r registers move.usage
          (g.response budget move)) t f →
      AskFails g line budget (r :: rs) position announced s t f

/-- How an instruction on a line may fail: what it has made of a state by then, and why. -/
inductive Fails (g : Game) (line : Nat) (s : State) : Instruction → State → Fault → Prop
  | eval {i : Instruction} {e : Expr} {f : Fault} : e ∈ i.expressions → g.eval s e = .error f →
      Fails g line s i (s.enter line i) f
  | budget {targets : List Register} {e : Expr} {v : Value} : g.eval s e = .ok v →
      v.count? = none →
      Fails g line s (.elicit targets e) (s.setBeacon previousElicit line) (.budget v)
  | replayCount {name : String} {e : Expr} {v : Value} : g.eval s e = .ok v → v.count? = none →
      Fails g line s (.replay name e) s (.replayCount v)
  | condition {conditions : List Expr} {e : Expr} {v : Value} : e ∈ conditions →
      g.eval s e = .ok v → v.condition? = none →
      Fails g line s (.ensure conditions) s (.condition v.kind)
  | score {e : Expr} {v : Value} : g.eval s e = .ok v → scoreOf v = .error (.score v.kind) →
      Fails g line s (.reward e) s (.score v.kind)
  | scoreOverflow {e : Expr} {v : Value} {x : Float} : g.eval s e = .ok v → scoreOf v = .ok x →
      ((s.addScore x).roundScore.isFinite && (s.addScore x).totalScore.isFinite) = false →
      Fails g line s (.reward e) s (.scoreOverflow x)
  | assign {targets : List (Register × Expr)} {values : List Value} {t : State} {f : Fault} :
      (targets.mapM fun t => g.eval s t.2) = .ok values →
      s.writeAll ((targets.map Prod.fst).zip values) = (t, .error f) →
      Fails g line s (.assign targets) t f
  | elicit {targets : List Register} {budget : Expr} {n : Nat} {t : State} {f : Fault} :
      g.evalCount (s.setBeacon previousElicit line) .budget budget = .ok n →
      AskFails g line n (targets.drop (s.progress line).next) (s.progress line).next
        (s.progress line).requested { s.setBeacon previousElicit line with pending := none } t f →
      Fails g line s (.elicit targets budget) t f
  | nothingToRetry {conditions : List Expr} {results : List Bool} :
      (conditions.mapM fun e => g.evalCondition s e) = .ok results → results.all id = false →
      s.beacons.get? previousElicit = none →
      Fails g line s (.ensure conditions) s .nothingToRetry
  | tooManyFailures {conditions : List Expr} {results : List Bool} {target : Nat} :
      (conditions.mapM fun e => g.evalCondition s e) = .ok results → results.all id = false →
      s.beacons.get? previousElicit = some target →
      g.config.maxEnsureFailures ≤ State.counter s.ensureFailures line + 1 →
      Fails g line s (.ensure conditions) (s.noteFailure line results target)
        (.tooManyFailures (State.counter s.ensureFailures line + 1))
  | noBeacon {name : String} : name ∉ flags → Fails g line s (.beacon name) s (.noBeacon name)
  | undeclaredBeacon {name : String} {count : Expr} {n : Nat} :
      g.evalCount s .replayCount count = .ok n → State.counter s.replayCounters line < n →
      s.beacons.get? name = none → Fails g line s (.replay name count) s (.undeclaredBeacon name)

/-- How a game may fail at an instruction. The last case is there for states that no game comes
to. -/
inductive Breaks (g : Game) (s : State) (i : Instruction) : State → Fault → Prop
  | ceiling : g.config.maxSteps ≤ s.steps →
      Breaks g s i s (.tooManySteps s.round g.config.maxSteps)
  | fails {t : State} {f : Fault} : s.steps < g.config.maxSteps → Fails g s.line s i t f →
      Breaks g s i t f
  | jumpOutside {t : State} {target : Nat} : s.steps < g.config.maxSteps →
      Runs g s.line s i t (.jump target) → g.program.size < target →
      Breaks g s i t (.jumpOutside target)

variable {σ : Type} {g : Game}

theorem ask_fails {player : Player σ} {line budget : Nat} {rs : List Register} {position : Nat}
    {announced : Bool} {s t : Session σ} {f : Fault}
    (h : g.ask player line budget rs position announced s = (t, .error f)) :
    AskFails g line budget rs position announced s.state t.state f := by
  induction rs generalizing position announced s with
  | nil => cases h
  | cons r rs ih =>
    have hs := state_announce player line budget r announced s
    simp only [ask] at h
    generalize (if announced then s else s.emit player (.elicitRequest line r.name budget)) = u
      at h hs
    split at h
    · cases h
    · cases h
      rw [hs]
      exact .refused _
    · rename_i move _
      split at h
      · rename_i hset
        cases h
        rw [hs, registers_announce] at hset
        rw [hs]
        exact .unwritable move hset
      · rename_i registers hset
        rw [hs, registers_announce] at hset
        refine .answered move hset ?_
        rw [← hs]
        exact ih h

theorem evalCount_error {s : State} {fault : Value → Fault} {e : Expr} {f : Fault}
    (h : g.evalCount s fault e = .error f) :
    g.eval s e = .error f ∨ ∃ v, g.eval s e = .ok v ∧ v.count? = none ∧ f = fault v := by
  obtain hv | ⟨v, hv, h⟩ := bind_error h
  · exact .inl hv
  · split at h
    · cases h
    · cases h
      exact .inr ⟨v, hv, ‹_›, rfl⟩

theorem scoreOf_error {v : Value} {f : Fault} (h : scoreOf v = .error f) : f = .score v.kind := by
  unfold scoreOf at h
  split at h <;> cases h
  rfl

theorem execute_fails {player : Player σ} {line : Nat} {i : Instruction} {s t : Session σ}
    {f : Fault} (h : g.execute player line i s = (t, .error f)) :
    Fails g line s.state i t.state f := by
  cases i with
  | assign targets =>
    simp only [execute, quietly, assign] at h
    split at h
    · rename_i he
      cases h
      obtain ⟨target, hmem, hx⟩ := mapM_error he
      exact .eval (i := .assign targets) (List.mem_map_of_mem hmem) hx
    · rename_i values hv
      simp only [Prod.mk.injEq] at h
      obtain ⟨rfl, hf⟩ := h
      exact .assign hv (Prod.ext rfl hf)
  | reveal values =>
    simp only [execute, reveal] at h
    split at h
    · rename_i he
      cases h
      obtain ⟨e, hmem, hx⟩ := mapM_error he
      exact .eval (i := .reveal values) hmem hx
    · cases h
  | elicit targets budget =>
    simp only [execute, elicit] at h
    split at h
    · rename_i he
      cases h
      obtain hv | ⟨v, hv, hn, rfl⟩ := evalCount_error he
      · exact .eval (i := .elicit targets budget) List.mem_cons_self hv
      · exact .budget hv hn
    · rename_i n hn
      exact .elicit hn (ask_fails h)
  | ensure conditions =>
    simp only [execute, ensure] at h
    split at h
    · rename_i he
      cases h
      obtain ⟨e, hmem, hx⟩ := mapM_error he
      obtain hv | ⟨v, hv, hx⟩ := bind_error hx
      · exact .eval (i := .ensure conditions) hmem hv
      · split at hx
        · cases hx
        · cases hx
          exact .condition hmem hv ‹_›
    · rename_i results hr
      split at h
      · cases h
      · rename_i hall
        have hall : results.all id = false := by simpa using hall
        split at h
        · rename_i hb
          cases h
          exact .nothingToRetry hr hall hb
        · rename_i target hb
          split at h
          · rename_i hmax
            cases h
            exact .tooManyFailures hr hall hb hmax
          · cases h
  | reward score =>
    simp only [execute, reward] at h
    split at h
    · rename_i he
      cases h
      exact .eval (i := .reward score) List.mem_cons_self he
    · rename_i v hv
      split at h
      · rename_i hx
        cases h
        obtain rfl := scoreOf_error hx
        exact .score hv hx
      · rename_i x hx
        split at h
        · cases h
        · rename_i hfin
          cases h
          exact .scoreOverflow hv hx (Bool.eq_false_iff.mpr hfin)
  | beacon name =>
    simp only [execute, quietly, beacon] at h
    split at h
    · cases h
    · rename_i hname
      cases h
      exact .noBeacon (by simpa using hname)
  | replay name count =>
    simp only [execute, quietly, replay] at h
    split at h
    · rename_i he
      cases h
      obtain hv | ⟨v, hv, hn, rfl⟩ := evalCount_error he
      · exact .eval (i := .replay name count) List.mem_cons_self hv
      · exact .replayCount hv hn
    · rename_i n hn
      split at h
      · cases h
      · rename_i hlt
        split at h
        · rename_i hb
          cases h
          exact .undeclaredBeacon hn (Nat.lt_of_not_le hlt) hb
        · cases h

theorem writeAll_error {s t : State} {ws : List (Register × Value)} {f : Fault}
    (h : s.writeAll ws = (t, .error f)) : ∃ e, f = .write e := by
  induction ws generalizing s with
  | nil => cases h
  | cons w ws ih =>
    simp only [State.writeAll] at h
    split at h
    · cases h
      exact ⟨_, rfl⟩
    · exact ih h

theorem AskFails.frame {line budget : Nat} {rs : List Register} {position : Nat}
    {announced : Bool} {s t : State} {f : Fault}
    (h : AskFails g line budget rs position announced s t f) :
    t = { s with
      registers := t.registers
      usage := t.usage
      roundUsage := t.roundUsage
      history := t.history } := by
  induction h with
  | @refused _ _ _ announced | @unwritable _ _ _ announced => cases announced <;> rfl
  | @answered _ _ _ announced _ _ _ _ _ _ _ ih =>
    rw [ih]
    cases announced <;> rfl

theorem AskFails.fault {line budget : Nat} {rs : List Register} {position : Nat}
    {announced : Bool} {s t : State} {f : Fault}
    (h : AskFails g line budget rs position announced s t f) :
    (∃ message, f = .player message) ∨ ∃ e, f = .write e := by
  induction h with
  | refused message => exact .inl ⟨message, rfl⟩
  | unwritable => exact .inr ⟨_, rfl⟩
  | answered _ _ _ ih => exact ih

/-- What is wrong with the value of an expression is no matter of the rules of the game. -/
theorem eval_ne_game {s : State} {e : Expr} {f : Fault} (h : g.eval s e = .error f) :
    f.classOf ≠ .game := by
  cases Expr.eval_faulty h with
  | operand hf => simp [Fault.classOf_of_isOperand hf]
  | misuse hm => simp [hm.classOf]
  | judge | register | value | name | function | arity => simp [Fault.classOf]

/-- An advance that fails does so at an instruction. -/
theorem advance_breaks {player : Player σ} {s t : Session σ} {e : GameError}
    (h : g.advance player s = (t, some (.failed e))) :
    ∃ f i, e = .line s.state.line f ∧ s.state.round < g.config.rounds ∧
      s.state.roundStarted = true ∧ g.program.At s.state.line i ∧ Breaks g s.state i t.state f := by
  have hopen : s.state.round < g.config.rounds ∧ s.state.roundStarted = true ∧
      ∃ i, g.program.At s.state.line i := by
    simp only [advance] at h
    split at h
    · cases h
    · rename_i hf
      split at h
      · cases h
      · rename_i ho
        refine ⟨by simpa [isFinished] using hf, by simpa using ho, ?_⟩
        split at h
        · rename_i hline
          simp only [step] at h
          split at h
          · cases h
          · cases h
          · rename_i hstep
            split at hstep
            · rename_i hnone
              exact absurd hline (Nat.not_lt.mpr (Array.getElem?_eq_none_iff.mp hnone))
            · cases hstep
            · rename_i i hi
              exact ⟨i, hi⟩
        · cases h
  obtain ⟨hr, ho, i, hl⟩ := hopen
  rw [advance_at hr ho hl] at h
  split at h
  · rename_i hmax
    cases h
    exact ⟨_, i, rfl, hr, ho, hl, .ceiling hmax⟩
  · rename_i hmax
    have hmax : s.state.steps < g.config.maxSteps := Nat.lt_of_not_le hmax
    split at h
    · rename_i hrun
      cases h
      exact ⟨_, i, rfl, hr, ho, hl, .fails hmax (execute_fails hrun)⟩
    · cases h
    · rename_i hrun
      split at h
      · rename_i hsize
        cases h
        exact ⟨_, i, rfl, hr, ho, hl, .jumpOutside hmax (execute_runs hrun) hsize⟩
      · cases h
    · cases h

/-- Whatever an advance comes to, it has changed the state, left it alone or broken at an
instruction. -/
theorem advance_effect {player : Player σ} {s t : Session σ} {o : Option Outcome}
    (h : g.advance player s = (t, o)) :
    (∃ halted, Change g s.state t.state halted) ∨ t = s ∨
      ∃ i f, g.program.At s.state.line i ∧ Breaks g s.state i t.state f :=
  match o with
  | none => .inl ⟨false, (advance_change h).1 rfl⟩
  | some .halted => .inl ⟨true, (advance_change h).2 rfl⟩
  | some .finished => .inr (.inl (advance_finished h).1)
  | some (.failed _) =>
    have ⟨f, i, _, _, _, hl, hbreaks⟩ := advance_breaks h
    .inr (.inr ⟨i, f, hl, hbreaks⟩)

/-- A run that fails breaks at the last state that it comes to. -/
theorem run_breaks {player : Player σ} {s t : Session σ} {e : GameError}
    (h : g.run player s = (t, .failed e)) {halted : Bool} (hs : Reached g s.state halted) :
    ∃ u halted f i, Reached g u halted ∧ e = .line u.line f ∧ u.roundStarted = true ∧
      g.program.At u.line i ∧ Breaks g u i t.state f := by
  fun_induction Game.run g player s generalizing halted with
  | case1 s s' ha ih => exact ih h (.advance hs ha)
  | case2 s s' outcome ha =>
    cases h
    obtain ⟨f, i, he, -, ho, hl, hbreaks⟩ := advance_breaks ha
    exact ⟨s.state, halted, f, i, hs, he, ho, hl, hbreaks⟩

/-- A run ends in a state that games come to, or breaks at an instruction in one. -/
theorem run_ends {player : Player σ} {s t : Session σ} {o : Outcome}
    (h : g.run player s = (t, o)) {halted : Bool} (hs : Reached g s.state halted) :
    (∃ halted, Reached g t.state halted) ∨
      ∃ u halted f i, Reached g u halted ∧ u.roundStarted = true ∧ g.program.At u.line i ∧
        Breaks g u i t.state f := by
  fun_induction Game.run g player s generalizing halted with
  | case1 s s' ha ih => exact ih h (.advance hs ha)
  | case2 s s' outcome ha =>
    cases h
    cases o with
    | finished => exact .inl ⟨halted, (advance_finished ha).1 ▸ hs⟩
    | halted => exact .inl ⟨true, .halt hs ha⟩
    | failed e =>
      obtain ⟨f, i, -, -, ho, hl, hbreaks⟩ := advance_breaks ha
      exact .inr ⟨s.state, halted, f, i, hs, ho, hl, hbreaks⟩

end Game

end EntropyGame
