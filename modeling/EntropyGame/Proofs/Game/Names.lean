import EntropyGame.Proofs.Game.Internal

namespace EntropyGame

/-- A checked expression is at fault for the kind of a value, for the judge, or for the way it calls
a builtin. -/
theorem Expr.Faulty.of_checked {registers : Registers} {judge : Judge} {e : Expr} {f : Fault}
    (h : Faulty registers judge e.parts f) (he : Program.Checked e) (hr : registers.Typed) :
    f.classOf = .type ∨ f.classOf = .judge ∨ Misuse registers judge e.parts f := by
  cases h with
  | operand hf => exact .inl (Fault.classOf_of_isOperand hf)
  | judge => exact .inr (.inl rfl)
  | register hnone => exact absurd hnone (hr.get?_ne_none _)
  | value hs hnone | name hs hnone =>
    obtain ⟨r, hr⟩ := Program.checkPart_name (he _ hs)
    cases hnone.symm.trans hr
  | function hcall hnone =>
    obtain ⟨b, hb, _⟩ := Program.checkPart_call (he _ hcall)
    cases hnone.symm.trans hb
  | arity hcall hb ha =>
    obtain ⟨b', hb', hok⟩ := Program.checkPart_call (he _ hcall)
    cases hb.symm.trans hb'
    rw [ha] at hok
    cases hok
  | misuse hm => exact .inr (.inr hm)

namespace Game

variable {g : Game} {line : Nat} {s t : State} {i : Instruction} {f : Fault}

theorem Fails.names (h : Fails g line s i t f) (hg : g.IsLoaded) (hl : g.program.At line i)
    (hs : s.registers.Typed) :
    f.classOf ≠ .syntactic ∧ (f.classOf = .resolution →
      ∃ e ∈ i.expressions, Expr.Misuse t.registers g.judge e.parts f) := by
  cases h with
  | @eval _ e _ he hv =>
    rw [State.registers_enter]
    obtain hf | hf | hm := (Expr.eval_faulty hv).of_checked (Program.load_checked hg hl he) hs
    · simp [hf]
    · simp [hf]
    · exact ⟨by simp [hm.classOf], fun _ => ⟨e, he, hm⟩⟩
  | assign _ hw =>
    obtain ⟨_, rfl⟩ := writeAll_error hw
    simp [Fault.classOf]
  | elicit _ ha =>
    obtain ⟨_, rfl⟩ | ⟨_, rfl⟩ := ha.fault <;> simp [Fault.classOf]
  | budget | replayCount | condition | score | scoreOverflow | nothingToRetry | tooManyFailures
  | noBeacon | undeclaredBeacon => simp [Fault.classOf]

theorem Breaks.names (h : Breaks g s i t f) (hg : g.IsLoaded) (hl : g.program.At s.line i)
    (hs : s.registers.Typed) :
    f.classOf ≠ .syntactic ∧ (f.classOf = .resolution →
      ∃ e ∈ i.expressions, Expr.Misuse t.registers g.judge e.parts f) := by
  cases h with
  | ceiling => simp [Fault.classOf]
  | fails _ hfails => exact hfails.names hg hl hs
  | jumpOutside => simp [Fault.classOf]

end Game

/-- What was checked when a program was loaded is never at fault when it runs: its syntax, its names
and the number of arguments of its calls. Of builtins only the use of an argument can be wrong. -/
theorem Reached.run_names {g : Game} {s : State} {halted : Bool} (h : Reached g s halted)
    {σ : Type} {player : Player σ} {memory : σ} {t : Session σ} {e : GameError}
    (hr : g.run player ⟨s, memory⟩ = (t, .failed e)) :
    ∃ line f, e = .line line f ∧ f.classOf ≠ .syntactic ∧ (∀ r, f ≠ .missingRegister r) ∧
      (f.classOf = .resolution → ∃ i, g.program.At line i ∧
        ∃ x ∈ i.expressions, Expr.Misuse t.state.registers g.judge x.parts f) := by
  obtain ⟨u, _, f, i, hu, he, ho, hl, hbreaks⟩ := Game.run_breaks hr h
  obtain ⟨hclass, hmisuse⟩ := hbreaks.names hu.isLoaded hl hu.typed
  refine ⟨u.line, f, he, hclass, ?_, fun hf => ⟨i, hl, hmisuse hf⟩⟩
  rintro r rfl
  obtain ⟨_, _, _, hne, _⟩ := hbreaks.internal hu.typed hu.controlled.marked ho hl rfl
  cases hne

/-- A program that gives a text where a count is wanted. -/
def textAsCount : Game where
  program := ⟨"elicit(s, 1)\nreveal(first_n_tokens(s, s))",
    #[some (.elicit [.first .s] (.integer 1 ⟨0, 10, 11⟩)),
      some (.reveal [.call "first_n_tokens" [(none, .name "s" ⟨1, 22, 23⟩),
        (none, .name "s" ⟨1, 25, 26⟩)] ⟨1, 7, 27⟩])]⟩
  config := {}
  judge := Judge.Cache.judge 0

theorem textAsCount_load :
    Game.load textAsCount.program.source {} (Judge.Cache.judge 0) = .ok textAsCount := by
  cbv

theorem Reached.run_names_textAsCount :
    ∃ s t i x, Reached textAsCount s true ∧
      textAsCount.run .mailbox ⟨s, ["a"]⟩ = (t, .failed (.line 1
        (.builtinArgument .firstNTokens 2 "a non-negative integer" .phrase))) ∧
      textAsCount.program.At 1 i ∧ x ∈ i.expressions ∧
      Expr.Misuse t.state.registers textAsCount.judge x.parts
        (.builtinArgument .firstNTokens 2 "a non-negative integer" .phrase) := by
  let opened := (textAsCount.advance .mailbox ⟨textAsCount.initial, []⟩).1
  let waiting := (textAsCount.advance .mailbox opened).1
  let answered := (textAsCount.advance .mailbox ⟨waiting.state, ["a"]⟩).1
  have ho : textAsCount.advance .mailbox ⟨textAsCount.initial, []⟩ = (opened, none) :=
    Prod.ext rfl rfl
  have hw : textAsCount.advance .mailbox opened = (waiting, some .halted) := Prod.ext rfl rfl
  have ha : textAsCount.advance .mailbox ⟨waiting.state, ["a"]⟩ = (answered, none) :=
    Prod.ext rfl rfl
  have hf : textAsCount.advance .mailbox answered =
      ((textAsCount.advance .mailbox answered).1, some (.failed (.line 1
        (.builtinArgument .firstNTokens 2 "a non-negative integer" .phrase)))) := by
    rfl
  have hr : Reached textAsCount waiting.state true :=
    .halt (.advance (.new textAsCount_load) ho) hw
  have hrun := (Game.run_of_none ha).trans (Game.run_of_some hf)
  obtain ⟨_, _, he, _, _, hmisuse⟩ := Reached.run_names hr hrun
  cases he
  obtain ⟨i, hl, x, hx, hm⟩ := hmisuse rfl
  exact ⟨_, _, i, x, hr, hrun, hl, hx, hm⟩

end EntropyGame
