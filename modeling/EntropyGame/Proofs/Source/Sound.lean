import EntropyGame.Proofs.Source.Complete
import EntropyGame.Source.Line

namespace EntropyGame.Grammar

open EntropyGame.Parser (Parsed Extended Site)

/-- An operand and what may follow it. -/
def IsChain (ts : List Token) : Prop :=
  ∃ us vs signs x rest, ts = us ++ vs ∧ IsOperand us signs x ∧ IsTail vs rest

theorem IsChain.isExpr {ts : List Token} (h : IsChain ts) : ∃ x, IsExpr ts x := by
  obtain ⟨us, vs, signs, x, rest, rfl, ho, ht⟩ := h
  exact ⟨_, .chain ho ht⟩

theorem IsChain.of_primary {ts : List Token} {x : Expr} (h : IsPrimary ts x) : IsChain ts :=
  ⟨ts, [], [], x, [], (List.append_nil _).symm, .primary h, .nil⟩

theorem IsChain.sign {ts : List Token} (op : UnaryOp) (h : IsChain ts) :
    IsChain (.symbol (signSymbol op) :: ts) := by
  obtain ⟨us, vs, signs, x, rest, rfl, ho, ht⟩ := h
  exact ⟨_, vs, _, x, rest, rfl, .sign op ho, ht⟩

theorem IsTail.append {ts us : List Token} {rest more : SignedChain} (h : IsTail ts rest)
    (h' : IsTail us more) : IsTail (ts ++ us) (rest ++ more) := by
  induction rest generalizing ts with
  | nil =>
    cases h
    exact h'
  | cons link rest ih =>
    cases h with
    | cons ho ht =>
      rw [List.cons_append, List.append_assoc]
      exact .cons ho (ih ht)

theorem IsChain.append {ts us : List Token} {rest : SignedChain} (h : IsChain ts)
    (ht : IsTail us rest) : IsChain (ts ++ us) := by
  obtain ⟨ts, vs, signs, x, rest', rfl, ho, ht'⟩ := h
  exact ⟨ts, vs ++ us, signs, x, _, List.append_assoc .., ho, ht'.append ht⟩

theorem IsChain.tail {ts : List Token} (op : BinaryOp) (h : IsChain ts) :
    ∃ rest, IsTail (.symbol op.symbol :: ts) rest := by
  obtain ⟨us, vs, signs, x, rest, rfl, ho, ht⟩ := h
  exact ⟨_, .cons ho ht⟩

theorem symbol_ofSymbol? {s : Symbol} {op : BinaryOp} (h : BinaryOp.ofSymbol? s = some op) :
    op.symbol = s := by
  cases s <;> cases h <;> rfl

/-- What the parser takes is an expression, and it is a callee if it comes to a name. -/
def SoundExpr (n : Nat) : Prop :=
  ∀ {site : Site} {least : Nat} {l : List Located} {p : Parsed Expr l},
    Parser.expr site least l = .ok p → l.length < n →
    ∃ ts, row l = ts ++ row p.rest ∧ IsChain ts ∧ ∀ f, p.value.name? = some f → IsCallee ts f

def SoundItems (n : Nat) : Prop :=
  ∀ {site : Site} {l : List Located} {p : Parsed (List Expr) l},
    Parser.items site l = .ok p → l.length < n →
    ∃ ts items, row l = ts ++ .symbol .closeBracket :: row p.rest ∧ IsItems ts items

def SoundArgs (n : Nat) : Prop :=
  ∀ {site : Site} {l : List Located} {p : Parsed (List Arg) l},
    Parser.args site l = .ok p → l.length < n →
    ∃ ts args, row l = ts ++ .symbol .closeParen :: row p.rest ∧ IsArgs ts args

section

variable {n : Nat} {site : Site}

theorem sound_atom (hx : SoundExpr n) (hi : SoundItems n) {l : List Located} {p : Parsed Expr l}
    (h : Parser.atom site l = .ok p) (hn : l.length ≤ n) :
    ∃ ts x, row l = ts ++ row p.rest ∧ IsPrimary ts x ∧
      ∀ f, p.value.name? = some f → IsCallee ts f := by
  rw [Parser.atom.eq_def] at h
  split at h
  · cases h
    exact ⟨_, _, rfl, .yes, by simp [Expr.name?]⟩
  · cases h
    exact ⟨_, _, rfl, .no, by simp [Expr.name?]⟩
  · cases h
    exact ⟨_, _, rfl, .integer _, by simp [Expr.name?]⟩
  · cases h
    exact ⟨_, _, rfl, .float _, by simp [Expr.name?]⟩
  · cases h
    exact ⟨_, _, rfl, .text _, by simp [Expr.name?]⟩
  · cases h
    refine ⟨_, _, rfl, .name _, ?_⟩
    rintro f hf
    cases hf
    exact .name _
  · split at h
    · cases h
    · rename_i hitems
      cases h
      obtain ⟨ts, items, hrow, hts⟩ := hi hitems hn
      refine ⟨_, _, ?_, .list hts, by simp [Expr.name?]⟩
      rw [List.cons_append, List.append_assoc, List.singleton_append, ← hrow]
      rfl
  · split at h
    · cases h
    · rename_i inner hinner
      split at h
      · rename_i hr
        cases h
        obtain ⟨ts, hrow, hts, hf⟩ := hx hinner hn
        obtain ⟨x, hx⟩ := hts.isExpr
        refine ⟨_, _, ?_, .parens hx, fun f h => .parens (hf f h)⟩
        rw [List.cons_append, List.append_assoc, List.singleton_append]
        rw [hr] at hrow
        exact congrArg (List.cons _) hrow
      · cases h
  · cases h

theorem sound_primary (hx : SoundExpr n) (hi : SoundItems n) (ha : SoundArgs n) {l : List Located}
    {p : Parsed Expr l} (h : Parser.primary site l = .ok p) (hn : l.length ≤ n) :
    ∃ ts x, row l = ts ++ row p.rest ∧ IsPrimary ts x ∧
      ∀ f, p.value.name? = some f → IsCallee ts f := by
  rw [Parser.primary.eq_def] at h
  split at h
  · cases h
  · rename_i head hhead
    obtain ⟨ts, x, hrow, hx', hf⟩ := sound_atom hx hi hhead hn
    split at h
    · rename_i hr
      split at h
      · cases h
      · rename_i function hname
        split at h
        · cases h
        · rename_i args hargs
          have hshort := head.shorter
          rw [hr, List.length_cons] at hshort
          obtain ⟨us, values, hinside, hus⟩ := ha hargs (by omega)
          dsimp only at h
          split at h
          · cases h
          · have hrest : row head.rest =
                .symbol .openParen :: (us ++ .symbol .closeParen :: row args.rest) := by
              rw [hr, ← hinside]
              rfl
            cases h
            refine ⟨_, _, ?_, .call (hf function hname) hus, by simp [Expr.name?]⟩
            rw [hrow, hrest, List.append_assoc, List.cons_append, List.append_assoc,
              List.singleton_append]
    · cases h
      exact ⟨ts, x, hrow, hx', hf⟩

theorem sound_operand (hx : SoundExpr n) (hi : SoundItems n) (ha : SoundArgs n) {l : List Located}
    {p : Parsed Expr l} (h : Parser.operand site l = .ok p) (hn : l.length ≤ n) :
    ∃ ts, row l = ts ++ row p.rest ∧ IsChain ts ∧ ∀ f, p.value.name? = some f → IsCallee ts f := by
  induction hm : l.length using Nat.strongRecOn generalizing l with
  | ind m ih =>
    rw [Parser.operand.eq_def] at h
    split at h
    · split at h
      · cases h
      · rename_i hinner
        cases h
        rw [List.length_cons] at hm hn
        obtain ⟨ts, hrow, hts, _⟩ := ih _ (by omega) hinner (by omega) rfl
        refine ⟨_, ?_, hts.sign .neg, by simp [Expr.name?]⟩
        exact congrArg (List.cons _) hrow
    · split at h
      · cases h
      · rename_i hinner
        cases h
        obtain ⟨ts, hrow, hts, _⟩ := hx hinner hn
        refine ⟨_, ?_, hts.sign .not, by simp [Expr.name?]⟩
        exact congrArg (List.cons _) hrow
    · obtain ⟨ts, x, hrow, hx', hf⟩ := sound_primary hx hi ha h hn
      exact ⟨ts, hrow, .of_primary hx', hf⟩

theorem sound_climb (hx : SoundExpr n) {least : Nat} {left : Expr} {stop : Nat} {l : List Located}
    {p : Extended Expr l} (h : Parser.climb site least left stop l = .ok p) (hn : l.length ≤ n) :
    ∃ ts rest, row l = ts ++ row p.rest ∧ IsTail ts rest ∧
      ∀ f, p.value.name? = some f → ts = [] ∧ left.name? = some f := by
  induction hm : l.length using Nat.strongRecOn generalizing l left stop with
  | ind m ih =>
    rw [Parser.climb.eq_def] at h
    split at h
    · rename_i s start stop' more
      split at h
      · cases h
        exact ⟨[], [], rfl, .nil, fun f hf => ⟨rfl, hf⟩⟩
      · rename_i op hop
        split at h
        · cases h
          exact ⟨[], [], rfl, .nil, fun f hf => ⟨rfl, hf⟩⟩
        · split at h
          · cases h
          · rename_i right hright
            dsimp only at h
            split at h
            · cases h
            · rename_i whole hwhole
              cases h
              rw [List.length_cons] at hm hn
              have hshort := right.shorter
              obtain ⟨ts, hrow, hts, _⟩ := hx hright hn
              obtain ⟨us, more', hrow', hus, hf⟩ := ih _ (by omega) hwhole (by omega) rfl
              obtain ⟨rest, hrest⟩ := hts.tail op
              refine ⟨_, _, ?_, hrest.append hus, fun f hname => ?_⟩
              · rw [symbol_ofSymbol? hop, List.cons_append, List.cons_append, List.append_assoc,
                  ← hrow', ← hrow]
                rfl
              · cases (hf f hname).2
    · cases h
      exact ⟨[], [], rfl, .nil, fun f hf => ⟨rfl, hf⟩⟩

theorem soundExpr_succ (hx : SoundExpr n) (hi : SoundItems n) (ha : SoundArgs n) :
    SoundExpr (n + 1) := by
  intro site least l p h hn
  rw [Parser.expr] at h
  split at h
  · cases h
  · rename_i left hleft
    dsimp only at h
    split at h
    · cases h
    · rename_i whole hwhole
      cases h
      have hshort := left.shorter
      obtain ⟨ts, hrow, hts, hf⟩ := sound_operand hx hi ha hleft (Nat.le_of_lt_succ hn)
      obtain ⟨us, rest, hrow', hus, hf'⟩ := sound_climb hx hwhole (by omega)
      refine ⟨ts ++ us, ?_, hts.append hus, fun f hname => ?_⟩
      · rw [hrow, hrow', List.append_assoc]
      · obtain ⟨rfl, hname⟩ := hf' f hname
        rw [List.append_nil]
        exact hf f hname

theorem soundItems_succ (hx : SoundExpr (n + 1)) (hi : SoundItems n) : SoundItems (n + 1) := by
  intro site l p h hn
  rw [Parser.items.eq_def] at h
  split at h
  · cases h
    exact ⟨[], [], rfl, .nil⟩
  · split at h
    · cases h
    · rename_i item hitem
      obtain ⟨ts, hrow, hts, _⟩ := hx hitem hn
      obtain ⟨x, hts⟩ := hts.isExpr
      dsimp only at h
      split at h
      · rename_i hr
        cases h
        rw [hr] at hrow
        exact ⟨ts, _, hrow, .last hts⟩
      · rename_i hr
        split at h
        · cases h
        · rename_i more hmore
          have hshort := item.shorter
          rw [hr, List.length_cons] at hshort
          obtain ⟨us, items, hrow', hus⟩ := hi hmore (by omega)
          have hrest : row item.rest =
              .symbol .comma :: (us ++ .symbol .closeBracket :: row more.rest) := by
            rw [hr, ← hrow']
            rfl
          cases h
          refine ⟨_, _, ?_, .cons hts hus⟩
          rw [hrow, hrest, List.append_assoc, List.cons_append]
      · cases h

theorem sound_arg (hx : SoundExpr n) {l : List Located} {p : Parsed Arg l}
    (h : Parser.arg site l = .ok p) (hn : l.length < n) :
    ∃ ts arg, row l = ts ++ row p.rest ∧ IsArg ts arg := by
  rw [Parser.arg.eq_def] at h
  split at h
  · rename_i key _ _ _ _ _
    split at h
    · cases h
    · rename_i hvalue
      cases h
      simp only [List.length_cons] at hn
      obtain ⟨ts, hrow, hts, _⟩ := hx hvalue (by omega)
      obtain ⟨x, hts⟩ := hts.isExpr
      refine ⟨_, _, ?_, .named key hts⟩
      exact congrArg (fun us => _ :: _ :: us) hrow
  · split at h
    · cases h
    · rename_i hvalue
      cases h
      obtain ⟨ts, hrow, hts, _⟩ := hx hvalue hn
      obtain ⟨x, hts⟩ := hts.isExpr
      exact ⟨ts, _, hrow, .positional hts⟩

theorem soundArgs_succ (hx : SoundExpr (n + 1)) (ha : SoundArgs n) : SoundArgs (n + 1) := by
  intro site l p h hn
  rw [Parser.args.eq_def] at h
  split at h
  · cases h
    exact ⟨[], [], rfl, .nil⟩
  · split at h
    · cases h
    · rename_i arg harg
      obtain ⟨ts, x, hrow, hts⟩ := sound_arg hx harg hn
      dsimp only at h
      split at h
      · rename_i hr
        cases h
        rw [hr] at hrow
        exact ⟨ts, _, hrow, .last hts⟩
      · rename_i hr
        split at h
        · cases h
        · rename_i more hmore
          have hshort := arg.shorter
          rw [hr, List.length_cons] at hshort
          obtain ⟨us, args, hrow', hus⟩ := ha hmore (by omega)
          have hrest : row arg.rest =
              .symbol .comma :: (us ++ .symbol .closeParen :: row more.rest) := by
            rw [hr, ← hrow']
            rfl
          cases h
          refine ⟨_, _, ?_, .cons hts hus⟩
          rw [hrow, hrest, List.append_assoc, List.cons_append]
      · cases h

theorem sound (n : Nat) : SoundExpr n ∧ SoundItems n ∧ SoundArgs n := by
  induction n with
  | zero =>
    refine ⟨?_, ?_, ?_⟩
    · intro _ _ _ _ _ hn
      exact absurd hn (Nat.not_lt_zero _)
    · intro _ _ _ _ hn
      exact absurd hn (Nat.not_lt_zero _)
    · intro _ _ _ _ hn
      exact absurd hn (Nat.not_lt_zero _)
  | succ n ih =>
    obtain ⟨hx, hi, ha⟩ := ih
    have hx' : SoundExpr (n + 1) := soundExpr_succ hx hi ha
    exact ⟨hx', soundItems_succ hx' hi, soundArgs_succ hx' ha⟩

end

theorem exprOfTokens_complete (line : Nat) {ts : List Located} {x : Expr} (h : IsExpr (row ts) x) :
    ∃ e, Parser.exprOfTokens line ts = .ok e ∧ e.bare = x := by
  obtain ⟨p, hp, hrow, hv⟩ := (reads _).1.whole (Parser.site line ts) h .nil
    (List.append_nil _).symm (Nat.lt_succ_self _)
  have hrest : p.rest = [] := List.map_eq_nil_iff.mp hrow
  exact ⟨p.value, by simp [Parser.exprOfTokens, hp, hrest], hv⟩

theorem exprOfTokens_sound {line : Nat} {ts : List Located} {e : Expr}
    (h : Parser.exprOfTokens line ts = .ok e) : ∃ x, IsExpr (row ts) x := by
  rw [Parser.exprOfTokens] at h
  split at h
  · cases h
  · rename_i p hp
    split at h
    · rename_i hrest
      obtain ⟨us, hrow, hus, _⟩ := (sound _).1 hp (Nat.lt_succ_self _)
      rw [List.isEmpty_iff.mp hrest] at hrow
      rw [hrow, row, List.map_nil, List.append_nil]
      exact hus.isExpr
    · cases h

theorem exprOfTokens_isExpr {line : Nat} {ts : List Located} {e : Expr}
    (h : Parser.exprOfTokens line ts = .ok e) : IsExpr (row ts) e.bare := by
  obtain ⟨x, hx⟩ := exprOfTokens_sound h
  -- the parser has one answer only, so this is its tree
  obtain ⟨e', he, hv⟩ := exprOfTokens_complete line hx
  rw [h] at he
  cases he
  exact hv ▸ hx

/-- The parser takes a row of tokens for an expression exactly if it is one, and builds its tree. -/
theorem exprOfTokens_iff (line : Nat) (ts : List Located) (x : Expr) :
    (∃ e, Parser.exprOfTokens line ts = .ok e ∧ e.bare = x) ↔ IsExpr (row ts) x := by
  constructor
  · rintro ⟨e, he, rfl⟩
    exact exprOfTokens_isExpr he
  · exact exprOfTokens_complete line

end EntropyGame.Grammar
