import EntropyGame.Proofs.Source.Sound
import EntropyGame.Proofs.Spelling

namespace EntropyGame

namespace Instruction

/-- An instruction without the places that its expressions were read from. -/
def bare : Instruction → Instruction
  | assign targets => assign (targets.map fun t => (t.1, t.2.bare))
  | reveal values => reveal (values.map Expr.bare)
  | elicit targets budget => elicit targets budget.bare
  | ensure conditions => ensure (conditions.map Expr.bare)
  | reward score => reward score.bare
  | beacon name => beacon name
  | replay name count => replay name count.bare

theorem respell_id (i : Instruction) : i.respell id = i.bare := by
  have hexpr : Expr.respell id = Expr.bare := funext Expr.respell_id
  cases i <;> simp [respell, bare, hexpr]

end Instruction

namespace Call

/-- A call without the places that it was read from. -/
def bare (c : Call) : Call :=
  ⟨c.verb, Expr.bareArgs c.args, {}⟩

theorem respell_id (c : Call) : c.respell id = c.bare := by
  obtain ⟨verb, args, span⟩ := c
  have hid : ∀ respelt, spelledIf id respelt = id := by
    rintro (_ | _) <;> rfl
  rw [respell, bare, hid, hid, ← Expr.respellArgs_eq_all, Expr.respellArgs_id]

end Call

namespace Parser

open Grammar

theorem callOfTokens_ok {line : Nat} {ts : List Located} {c : Call}
    (h : callOfTokens line ts = .ok c) :
    ∃ function span, exprOfTokens line ts = .ok (.call function c.args span) ∧
      Verb.ofSpelling? function = some c.verb := by
  rw [callOfTokens] at h
  split at h
  · cases h
  · rename_i e he
    split at h
    · cases h
    · rename_i hrest
      split at h
      · rename_i function args span hvalue
        split at h
        · cases h
        · rename_i verb hverb
          cases h
          refine ⟨function, span, ?_, hverb⟩
          rw [exprOfTokens, he]
          simpa [hvalue] using hrest
      · cases h

theorem callOfTokens_of_call {line : Nat} {ts : List Located} {function : String}
    {args : List Arg} {span : Span} {verb : Verb}
    (h : exprOfTokens line ts = .ok (.call function args span))
    (hverb : Verb.ofSpelling? function = some verb) :
    ∃ c, callOfTokens line ts = .ok c ∧ c.verb = verb ∧ c.args = args := by
  rw [exprOfTokens] at h
  split at h
  · cases h
  · rename_i e he
    split at h
    · rename_i hrest
      cases e with
      | mk value stop rest shorter =>
        cases h
        rw [callOfTokens, he]
        simp only [hrest, hverb, Bool.not_true, Bool.false_eq_true, if_false]
        exact ⟨_, rfl, rfl, rfl⟩
    · cases h

/-- The same tokens spell the same call wherever they stand. -/
theorem callOfTokens_place {line : Nat} {ts : List Located} {c : Call}
    (h : callOfTokens line ts = .ok c) (line' : Nat) {ts' : List Located}
    (hrow : row ts' = row ts) : ∃ c', callOfTokens line' ts' = .ok c' ∧ c'.bare = c.bare := by
  obtain ⟨function, span, he, hverb⟩ := callOfTokens_ok h
  have hx := exprOfTokens_isExpr he
  obtain ⟨e', he', hbare⟩ := exprOfTokens_complete line' (hrow ▸ hx)
  cases e' with
  | call function' args' span' =>
    simp only [Expr.bare, Expr.call.injEq, and_true] at hbare
    obtain ⟨rfl, hargs⟩ := hbare
    obtain ⟨c', hc', hv, ha⟩ := callOfTokens_of_call he' hverb
    exact ⟨c', hc', by rw [Call.bare, Call.bare, hv, ha, hargs]⟩
  | _ => cases hbare

end Parser

namespace Call

theorem parse_eq {text : String} {ts : List Located} (h : Lexer.tokens text = .ok ts)
    (line : Nat) :
    parse text line =
      if ts.isEmpty then .ok none else (Parser.callOfTokens line ts).map some := by
  rw [parse, (Parser.tokens_eq_ok line).mpr h]
  cases ts <;> rfl

end Call

namespace Program

open Grammar

theorem isEmpty_eq {ts ts' : List Located} (h : row ts' = row ts) : ts'.isEmpty = ts.isEmpty := by
  rw [← List.isEmpty_map (f := Located.token), ← List.isEmpty_map (f := Located.token)]
  exact congrArg List.isEmpty h

theorem loadLine_tokens {text : String} {line : Nat} {i : Option Instruction}
    (h : loadLine text line = .ok i) : ∃ ts, Lexer.tokens text = .ok ts := by
  rw [loadLine, Call.parse, Parser.tokens] at h
  cases hts : Lexer.tokens text with
  | error e =>
    rw [hts] at h
    cases h
  | ok ts => exact ⟨ts, rfl⟩

/-- Lines load alike if their calls are alike. -/
theorem loadLine_alike {f : String → String} (hf : Spelling f) {text text' : String}
    {ts ts' : List Located} (hts : Lexer.tokens text = .ok ts) (hts' : Lexer.tokens text' = .ok ts')
    (hempty : ts'.isEmpty = ts.isEmpty) {line line' : Nat}
    (hcall : ∀ c, Parser.callOfTokens line ts = .ok c →
      ∃ c', Parser.callOfTokens line' ts' = .ok c' ∧ c'.respell f = c.respell f)
    {i : Option Instruction} (h : loadLine text line = .ok i) :
    ∃ i', loadLine text' line' = .ok i' ∧
      i'.map (Instruction.respell f) = i.map (Instruction.respell f) := by
  rw [loadLine, Call.parse_eq hts] at h
  rw [loadLine, Call.parse_eq hts', hempty]
  cases hb : ts.isEmpty with
  | true =>
    rw [hb] at h
    cases h
    exact ⟨none, rfl, rfl⟩
  | false =>
    simp only [hb, Bool.false_eq_true, if_false] at h ⊢
    cases hc : Parser.callOfTokens line ts with
    | error e =>
      rw [hc] at h
      cases h
    | ok c =>
      rw [hc] at h
      obtain ⟨j, hj, h⟩ := bind_ok h
      obtain ⟨_, hnames, h⟩ := bind_ok h
      cases h
      obtain ⟨c', hc', halike⟩ := hcall c hc
      obtain ⟨j', hj', halike⟩ := Instruction.ofCall_alike hf hj halike
      have hnames' : checkNames j' = .ok () := by
        rw [← Instruction.checkNames_respell hf, halike, Instruction.checkNames_respell hf, hnames]
      refine ⟨some j', ?_, by rw [Option.map_some, Option.map_some, halike]⟩
      rw [hc']
      simp only [Except.map, hj', hnames', bind, Except.bind, pure, Except.pure]

/-- The same tokens are the same instruction on whichever line they stand. -/
theorem loadLine_place {text text' : String} {ts ts' : List Located}
    (hts : Lexer.tokens text = .ok ts) (hts' : Lexer.tokens text' = .ok ts')
    (hrow : row ts' = row ts) {line : Nat} {i : Option Instruction}
    (h : loadLine text line = .ok i) (line' : Nat) :
    ∃ i', loadLine text' line' = .ok i' ∧ i'.map Instruction.bare = i.map Instruction.bare := by
  have hbare : Instruction.respell id = Instruction.bare := funext Instruction.respell_id
  rw [← hbare]
  refine loadLine_alike .same hts hts' (isEmpty_eq hrow) (fun c hc => ?_) h
  obtain ⟨c', hc', hplace⟩ := Parser.callOfTokens_place hc line' hrow
  exact ⟨c', hc', by rw [Call.respell_id, Call.respell_id, hplace]⟩

end Program

/-- Where an instruction was read from does not matter to what it does. -/
theorem Game.execute_place {σ : Type} (g : Game) (player : Player σ) (line : Nat)
    {i i' : Instruction} (h : i'.bare = i.bare) (s : Session σ) :
    g.execute player line i' s = g.execute player line i s := by
  refine g.execute_spelling .same player line ?_ s
  rw [Instruction.respell_id, Instruction.respell_id, h]

end EntropyGame
