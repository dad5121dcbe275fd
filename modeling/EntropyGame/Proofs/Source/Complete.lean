import EntropyGame.Proofs.Source.Grammar

namespace EntropyGame.Grammar

open EntropyGame.Parser (Parsed Extended Site)

/-- The tokens of a row without their places. -/
def row (ts : List Located) : List Token :=
  ts.map Located.token

theorem row_eq_cons {ts : List Located} {t : Token} {us : List Token} (h : row ts = t :: us) :
    ∃ start stop rest, ts = ⟨t, start, stop⟩ :: rest ∧ row rest = us := by
  cases ts with
  | nil => cases h
  | cons head rest =>
    obtain ⟨token, start, stop⟩ := head
    cases h
    exact ⟨start, stop, rest, rfl, rfl⟩

theorem length_row (ts : List Located) : (row ts).length = ts.length :=
  List.length_map _

theorem next?_eq (ts : List Located) : Parser.next? ts = (row ts).head? := by
  cases ts <;> rfl

/-- An expression ends before these tokens. -/
def Stops (ts : List Token) : Prop :=
  ∀ s us, ts = .symbol s :: us → BinaryOp.ofSymbol? s = none ∧ s ≠ .openParen

/-- No arguments follow. -/
def NoCall (ts : List Token) : Prop :=
  ∀ us, ts ≠ .symbol .openParen :: us

theorem Stops.noCall {ts : List Token} (h : Stops ts) : NoCall ts := by
  intro us hus
  exact (h _ _ hus).2 rfl

theorem IsTail.noCall {us k : List Token} {rest : SignedChain} (h : IsTail us rest)
    (hk : Stops k) : NoCall (us ++ k) := by
  cases h with
  | nil => exact hk.noCall
  | @cons _ _ op =>
    intro us hus
    cases op <;> cases hus

theorem Stops.nil : Stops [] := by
  intro s us h
  cases h

theorem Stops.cons {s : Symbol} {ts : List Token} (hb : BinaryOp.ofSymbol? s = none)
    (hp : s ≠ .openParen) : Stops (.symbol s :: ts) := by
  intro s us h
  cases h
  exact ⟨hb, hp⟩

/-- The tokens that an operand may begin with. -/
def starts : Token → Bool
  | .symbol s => s ∈ [Symbol.yes, .no, .openParen, .openBracket]
  | _ => true

theorem IsCallee.starts {ts : List Token} {s : String} (h : IsCallee ts s) :
    ∃ t us, ts = t :: us ∧ Grammar.starts t = true := by
  cases h with
  | name s => exact ⟨_, _, rfl, rfl⟩
  | parens => exact ⟨_, _, rfl, rfl⟩

theorem IsPrimary.starts {ts : List Token} {x : Expr} (h : IsPrimary ts x) :
    ∃ t us, ts = t :: us ∧ Grammar.starts t = true := by
  cases h with
  | call hc _ =>
    obtain ⟨t, us, rfl, ht⟩ := hc.starts
    exact ⟨t, _, rfl, ht⟩
  | _ => exact ⟨_, _, rfl, rfl⟩

theorem IsOperand.starts {ts : List Token} {signs : List UnaryOp} {x : Expr}
    (h : IsOperand ts signs x) : ∃ t us, ts = t :: us ∧
      (Grammar.starts t = true ∨ t = .symbol .minus ∨ t = .symbol .not) := by
  cases h with
  | primary hp =>
    obtain ⟨t, us, rfl, ht⟩ := hp.starts
    exact ⟨t, us, rfl, .inl ht⟩
  | sign op =>
    cases op with
    | neg => exact ⟨_, _, rfl, .inr (.inl rfl)⟩
    | not => exact ⟨_, _, rfl, .inr (.inr rfl)⟩

section

variable {site : Site}

theorem operand_eq_primary {ts : List Located} {t : Token} {us : List Token}
    (h : row ts = t :: us) (ht : starts t = true) :
    Parser.operand site ts = Parser.primary site ts := by
  obtain ⟨start, stop, rest, rfl, -⟩ := row_eq_cons h
  rw [Parser.operand]
  · rintro _ _ _ h
    cases h
    cases ht
  · rintro _ _ _ h
    cases h
    cases ht

theorem primary_eq_atom {ts : List Located} {p : Parsed Expr ts}
    (h : Parser.atom site ts = .ok p) (hp : ∀ us, row p.rest ≠ .symbol .openParen :: us) :
    Parser.primary site ts = .ok p := by
  rw [Parser.primary]
  simp only [h]
  split
  · rename_i heq
    exact absurd (by rw [heq]; rfl) (hp _)
  · rfl

end

theorem IsExpr.of_primary {ts : List Token} {x : Expr} (h : IsPrimary ts x) : IsExpr ts x := by
  have he := IsExpr.chain (.primary h) .nil
  rwa [List.append_nil, show tree [] x [] = x from split_nil x] at he

theorem IsCallee.isPrimary {ts : List Token} {s : String} (h : IsCallee ts s) :
    IsPrimary ts (.name s {}) := by
  induction h with
  | name s => exact .name s
  | parens _ ih => exact .parens (.of_primary ih)

/-- What is left of a chain before other tokens. -/
def Left (k : List Token) (ts : List Located) (chain : Chain) : Prop :=
  ∃ us rest, row ts = us ++ k ∧ IsTail us rest ∧ settle rest = chain

theorem Left.nil {k : List Token} {ts : List Located} (h : Left k ts []) : row ts = k := by
  obtain ⟨us, rest, hrow, ht, hs⟩ := h
  cases ht with
  | nil => exact hrow
  | cons => cases hs

/-- The parser reads an operand and what follows it as far as it binds tightly enough. -/
def ReadsExpr (n : Nat) : Prop :=
  ∀ (site : Site) (least : Nat) {ts us k : List Token} {signs : List UnaryOp} {x : Expr}
    {rest : SignedChain} {l : List Located}, IsOperand ts signs x → IsTail us rest → Stops k →
    row l = ts ++ (us ++ k) → ts.length + us.length < n →
    ∃ p, Parser.expr site least l = .ok p ∧
      Left k p.rest ((sign signs x (settle rest)).2.dropWhile (binds least)) ∧
      p.value.bare = split (sign signs x (settle rest)).1
        ((sign signs x (settle rest)).2.takeWhile (binds least))

def ReadsItems (n : Nat) : Prop :=
  ∀ (site : Site) {ts k : List Token} {items : List Expr} {l : List Located}, IsItems ts items →
    row l = ts ++ .symbol .closeBracket :: k → ts.length < n →
    ∃ p, Parser.items site l = .ok p ∧ row p.rest = k ∧ Expr.bareItems p.value = items

def ReadsArgs (n : Nat) : Prop :=
  ∀ (site : Site) {ts k : List Token} {args : List Arg} {l : List Located}, IsArgs ts args →
    row l = ts ++ .symbol .closeParen :: k → ts.length < n →
    ∃ p, Parser.args site l = .ok p ∧ row p.rest = k ∧ Expr.bareArgs p.value = args

section

variable {n : Nat}

theorem takeWhile_binds_zero (chain : Chain) : chain.takeWhile (binds 0) = chain := by
  induction chain with
  | nil => rfl
  | cons link chain ih => rw [List.takeWhile_cons_of_pos (by simp [binds]), ih]

theorem dropWhile_binds_zero (chain : Chain) : chain.dropWhile (binds 0) = [] := by
  induction chain with
  | nil => rfl
  | cons link chain ih => rw [List.dropWhile_cons_of_pos (by simp [binds]), ih]

theorem ReadsExpr.whole (h : ReadsExpr n) (site : Site) {ts k : List Token} {x : Expr}
    {l : List Located} (hx : IsExpr ts x) (hk : Stops k) (hl : row l = ts ++ k) (hn : ts.length < n) :
    ∃ p, Parser.expr site 0 l = .ok p ∧ row p.rest = k ∧ p.value.bare = x := by
  cases hx with
  | chain ho ht =>
    rw [List.append_assoc] at hl
    rw [List.length_append] at hn
    obtain ⟨p, hp, hleft, hv⟩ := h site 0 ho ht hk hl hn
    rw [dropWhile_binds_zero] at hleft
    rw [takeWhile_binds_zero] at hv
    exact ⟨p, hp, hleft.nil, hv⟩

theorem reads_parens (hx : ReadsExpr n) (site : Site) {ts k : List Token} {x : Expr}
    {l : List Located} (h : IsExpr ts x)
    (hl : row l = .symbol .openParen :: (ts ++ .symbol .closeParen :: k)) (hn : ts.length < n) :
    ∃ p, Parser.atom site l = .ok p ∧ row p.rest = k ∧ p.value.bare = x := by
  obtain ⟨start, stop, rest, rfl, hrest⟩ := row_eq_cons hl
  obtain ⟨p, hp, hrow, hv⟩ := hx.whole site h (.cons rfl (by decide)) hrest hn
  obtain ⟨start', stop', rest', hr, hrow'⟩ := row_eq_cons hrow
  rw [Parser.atom]
  simp only [hp]
  split
  · rename_i heq
    rw [hr] at heq
    cases heq
    exact ⟨_, rfl, hrow', hv⟩
  · rename_i hne
    exact absurd hr (hne _ _ _)

/-- A callee is an atom, whatever comes after it. -/
theorem reads_callee (hx : ReadsExpr n) (site : Site) {ts k : List Token} {s : String}
    {l : List Located} (h : IsCallee ts s) (hl : row l = ts ++ k) (hn : ts.length < n) :
    ∃ p, Parser.atom site l = .ok p ∧ row p.rest = k ∧ p.value.name? = some s := by
  cases h with
  | name s =>
    obtain ⟨start, stop, rest, rfl, hrest⟩ := row_eq_cons hl
    exact ⟨_, by rw [Parser.atom], hrest, rfl⟩
  | parens hc =>
    simp only [List.cons_append, List.append_assoc, List.nil_append] at hl
    simp only [List.length_cons, List.length_append, List.length_nil] at hn
    obtain ⟨p, hp, hrow, hv⟩ := reads_parens hx site (.of_primary hc.isPrimary) hl (by omega)
    exact ⟨p, hp, hrow, by rw [← Expr.name?_bare, hv]; rfl⟩

/-- Atoms are primary expressions where no arguments follow. -/
theorem reads_atom {site : Site} {k : List Token} {x : Expr} {l : List Located} (hk : NoCall k)
    (h : ∃ p, Parser.atom site l = .ok p ∧ row p.rest = k ∧ p.value.bare = x) :
    ∃ p, Parser.primary site l = .ok p ∧ row p.rest = k ∧ p.value.bare = x := by
  obtain ⟨p, hp, hrow, hv⟩ := h
  exact ⟨p, primary_eq_atom hp fun us => hrow ▸ hk us, hrow, hv⟩

theorem reads_primary (hx : ReadsExpr n) (hi : ReadsItems n) (ha : ReadsArgs n) (site : Site)
    {ts k : List Token} {x : Expr} {l : List Located} (h : IsPrimary ts x) (hk : NoCall k)
    (hl : row l = ts ++ k) (hn : ts.length ≤ n) :
    ∃ p, Parser.primary site l = .ok p ∧ row p.rest = k ∧ p.value.bare = x := by
  cases h with
  | list hitems =>
    simp only [List.cons_append, List.append_assoc, List.nil_append] at hl
    simp only [List.length_cons, List.length_append, List.length_nil] at hn
    obtain ⟨start, stop, rest, rfl, hrest⟩ := row_eq_cons hl
    obtain ⟨p, hp, hrow, hv⟩ := hi site hitems hrest (by omega)
    refine reads_atom hk ⟨_, by rw [Parser.atom, hp], hrow, ?_⟩
    rw [Expr.bare, hv]
  | parens he =>
    simp only [List.cons_append, List.append_assoc, List.nil_append] at hl
    simp only [List.length_cons, List.length_append, List.length_nil] at hn
    exact reads_atom hk (reads_parens hx site he hl (by omega))
  | call hc hargs =>
    simp only [List.cons_append, List.append_assoc, List.nil_append] at hl
    simp only [List.length_cons, List.length_append, List.length_nil] at hn
    obtain ⟨head, hhead, hrow, hname⟩ := reads_callee hx site hc hl (by omega)
    obtain ⟨start, stop, inside, hr, hinside⟩ := row_eq_cons hrow
    obtain ⟨p, hp, hrest, hv⟩ := ha site hargs hinside (by omega)
    rw [Parser.primary]
    simp only [hhead]
    split
    · rename_i heq
      rw [hr] at heq
      cases heq
      simp only [hname, hp]
      split
      · rename_i hnext
        rw [next?_eq, hrest] at hnext
        obtain ⟨us, hus⟩ := List.head?_eq_some_iff.mp hnext
        exact absurd hus (hk us)
      · refine ⟨_, rfl, hrest, ?_⟩
        rw [Expr.bare, hv]
    · rename_i hne
      exact absurd hr (hne _ _ _)
  | _ =>
    obtain ⟨start, stop, rest, rfl, hrest⟩ := row_eq_cons hl
    exact reads_atom hk ⟨_, by rw [Parser.atom], hrest, rfl⟩

theorem reads_operand (hx : ReadsExpr n) (hi : ReadsItems n) (ha : ReadsArgs n) (site : Site)
    {ts us k : List Token} {signs : List UnaryOp} {x : Expr} {rest : SignedChain} {l : List Located}
    (ho : IsOperand ts signs x) (ht : IsTail us rest) (hk : Stops k)
    (hl : row l = ts ++ (us ++ k)) (hn : ts.length + us.length ≤ n) :
    ∃ p, Parser.operand site l = .ok p ∧ Left k p.rest (sign signs x (settle rest)).2 ∧
      p.value.bare = (sign signs x (settle rest)).1 := by
  induction signs generalizing ts l with
  | nil =>
    cases ho with
    | primary hp =>
      obtain ⟨t, more, rfl, hstart⟩ := hp.starts
      obtain ⟨p, hp, hrow, hv⟩ := reads_primary hx hi ha site hp (ht.noCall hk) hl (by omega)
      exact ⟨p, by rw [operand_eq_primary hl hstart, hp], ⟨us, rest, hrow, ht, rfl⟩, hv⟩
  | cons op signs ih =>
    cases ho with
    | sign _ ho =>
      rw [List.length_cons] at hn
      rw [List.cons_append] at hl
      cases op with
      | neg =>
        simp only [signSymbol] at hl
        obtain ⟨start, stop, more, rfl, hmore⟩ := row_eq_cons hl
        obtain ⟨p, hp, hleft, hv⟩ := ih ho hmore (by omega)
        refine ⟨_, by rw [Parser.operand, hp], hleft, ?_⟩
        rw [Expr.bare, hv]
        rfl
      | not =>
        simp only [signSymbol] at hl
        obtain ⟨start, stop, more, rfl, hmore⟩ := row_eq_cons hl
        obtain ⟨p, hp, hleft, hv⟩ := hx site Parser.notLevel ho ht hk hmore (by omega)
        refine ⟨_, by rw [Parser.operand, hp], hleft, ?_⟩
        rw [Expr.bare, hv]
        rfl

theorem climb_stops {site : Site} {least : Nat} {left : Expr} {stop : Nat} {l : List Located}
    (h : Stops (row l)) :
    Parser.climb site least left stop l = .ok ⟨left, stop, l, Nat.le_refl _⟩ := by
  rw [Parser.climb.eq_def]
  split
  · rename_i s _ _ _
    have hs := (h s _ rfl).1
    simp only [hs]
  · rfl

theorem takeWhile_binds {low high : Nat} (h : low ≤ high) (chain : Chain) :
    chain.takeWhile (binds high) ++ (chain.dropWhile (binds high)).takeWhile (binds low) =
      chain.takeWhile (binds low) := by
  induction chain with
  | nil => rfl
  | cons link chain ih =>
    by_cases hl : binds high link = true
    · have hlow : binds low link = true := by
        simp only [binds, decide_eq_true_eq] at hl ⊢
        omega
      rw [List.takeWhile_cons_of_pos hl, List.dropWhile_cons_of_pos hl, List.cons_append, ih,
        List.takeWhile_cons_of_pos hlow]
    · rw [List.takeWhile_cons_of_neg hl, List.dropWhile_cons_of_neg hl, List.nil_append]

theorem dropWhile_binds {low high : Nat} (h : low ≤ high) (chain : Chain) :
    (chain.dropWhile (binds high)).dropWhile (binds low) = chain.dropWhile (binds low) := by
  induction chain with
  | nil => rfl
  | cons link chain ih =>
    by_cases hl : binds high link = true
    · have hlow : binds low link = true := by
        simp only [binds, decide_eq_true_eq] at hl ⊢
        omega
      rw [List.dropWhile_cons_of_pos hl, ih, List.dropWhile_cons_of_pos hlow]
    · rw [List.dropWhile_cons_of_neg hl]

theorem level_of_mem_takeWhile {least : Nat} {chain : Chain} {link : BinaryOp × Expr}
    (h : link ∈ chain.takeWhile (binds least)) : least ≤ link.1.level := by
  have := List.all_takeWhile (p := binds least) (l := chain)
  simpa [binds] using List.all_eq_true.mp this link h

theorem level_of_head_dropWhile {least : Nat} {chain : Chain} {link : BinaryOp × Expr}
    (h : (chain.dropWhile (binds least)).head? = some link) : link.1.level < least := by
  have := List.head?_dropWhile_not (binds least) chain
  rw [h] at this
  simpa [binds] using this

/-- Operators come in with levels that do not rise, so that each is the lowest on the right of those
before it. -/
theorem reads_climb (hx : ReadsExpr n) (site : Site) (least : Nat) {us k : List Token}
    {rest : SignedChain} {l : List Located} {left x : Expr} {stop : Nat} {before : Chain}
    (ht : IsTail us rest) (hk : Stops k) (hl : row l = us ++ k) (hn : us.length ≤ n)
    (hleft : left.bare = split x before)
    (hb : ∀ link, (settle rest).head? = some link → ∀ b ∈ before, link.1.level ≤ b.1.level) :
    ∃ p, Parser.climb site least left stop l = .ok p ∧
      Left k p.rest ((settle rest).dropWhile (binds least)) ∧
      p.value.bare = split x (before ++ (settle rest).takeWhile (binds least)) := by
  induction hm : us.length using Nat.strongRecOn generalizing us rest l left stop before with
  | ind m ih =>
    cases ht with
    | nil =>
      refine ⟨_, climb_stops (hl ▸ hk), ⟨[], [], hl, .nil, rfl⟩, ?_⟩
      rw [hleft, settle, List.takeWhile_nil, List.append_nil]
    | @cons ts us op signs y rest ho ht =>
      have htail : IsTail (.symbol op.symbol :: (ts ++ us)) ((op, signs, y) :: rest) := .cons ho ht
      rw [List.cons_append, List.append_assoc] at hl
      obtain ⟨start, stop', more, rfl, hmore⟩ := row_eq_cons hl
      simp only [List.length_cons, List.length_append] at hm hn
      have hsettle : settle ((op, signs, y) :: rest) =
          (op, (sign signs y (settle rest)).1) :: (sign signs y (settle rest)).2 := rfl
      rw [hsettle] at hb ⊢
      by_cases hlevel : op.level < least
      · have hnot : ¬ binds least (op, (sign signs y (settle rest)).1) = true := by
          simpa [binds] using hlevel
        refine ⟨⟨left, stop, _, Nat.le_refl _⟩, ?_, ⟨_, _, ?_, htail, ?_⟩, ?_⟩
        · rw [Parser.climb]
          simp only [BinaryOp.ofSymbol?_symbol, if_pos hlevel]
        · rw [List.cons_append, List.append_assoc]
          exact hl
        · rw [List.dropWhile_cons_of_neg hnot, hsettle]
        · rw [List.takeWhile_cons_of_neg hnot, List.append_nil]
          exact hleft
      · obtain ⟨right, hright, ⟨us', rest', hrow, ht', hs'⟩, hv⟩ :=
          hx site (op.level + 1) ho ht hk hmore (by omega)
        have hlen : us'.length < m := by
          have hshort := right.shorter
          rw [← length_row, ← length_row, hrow, hmore] at hshort
          simp only [List.length_append] at hshort
          omega
        generalize hz : (sign signs y (settle rest)).1 = z at *
        generalize hchain : (sign signs y (settle rest)).2 = chain at *
        have hlow : ∀ link ∈ before, op.level ≤ link.1.level := hb (op, z) rfl
        have hjoined : (Expr.binary op left right.value (left.span.merge right.value.span)).bare =
            split x (before ++ (op, z) :: chain.takeWhile (binds (op.level + 1))) := by
          rw [split_append hlow fun link h => level_of_mem_takeWhile h, Expr.bare, hleft, hv]
        have hlevels : ∀ link, (settle rest').head? = some link →
            ∀ b ∈ before ++ (op, z) :: chain.takeWhile (binds (op.level + 1)),
              link.1.level ≤ b.1.level := by
          intro link hlink b hmem
          rw [hs'] at hlink
          have hlink := level_of_head_dropWhile hlink
          obtain hmem | hmem := List.mem_append.mp hmem
          · have := hlow b hmem
            omega
          · obtain rfl | hmem := List.mem_cons.mp hmem
            · exact Nat.le_of_lt_succ hlink
            · have := level_of_mem_takeWhile hmem
              omega
        obtain ⟨p, (hp : Parser.climb site least _ right.stop _ = _), hrest, hp'⟩ :=
          ih us'.length hlen ht' hrow (by omega) hjoined hlevels rfl
        have hbinds : binds least (op, z) = true := by
          simpa [binds] using hlevel
        have hle : least ≤ op.level + 1 := by omega
        refine ⟨⟨p.value, p.stop, p.rest, ?_⟩, ?_, ?_, ?_⟩
        · have := right.shorter
          have := p.notLonger
          simp only [List.length_cons]
          omega
        · rw [Parser.climb]
          simp only [BinaryOp.ofSymbol?_symbol, if_neg hlevel, hright, hp]
        · rw [List.dropWhile_cons_of_pos hbinds]
          rwa [hs', dropWhile_binds hle] at hrest
        · rw [hp', hs', List.takeWhile_cons_of_pos hbinds, List.append_assoc, List.cons_append,
            takeWhile_binds hle]

theorem readsExpr_succ (hx : ReadsExpr n) (hi : ReadsItems n) (ha : ReadsArgs n) :
    ReadsExpr (n + 1) := by
  intro site least ts us k signs x rest l ho ht hk hl hn
  obtain ⟨left, hleft, ⟨us', rest', hrow, ht', hs'⟩, hv⟩ :=
    reads_operand hx hi ha site ho ht hk hl (by omega)
  have hlen : us'.length ≤ n := by
    have hshort := left.shorter
    rw [← length_row, ← length_row, hrow, hl] at hshort
    simp only [List.length_append] at hshort
    omega
  obtain ⟨p, (hp : Parser.climb site least _ left.stop _ = _), hrest, hp'⟩ :=
    reads_climb hx site least ht' hk hrow hlen (hv.trans (split_nil _).symm) (by simp)
  rw [hs'] at hrest hp'
  refine ⟨⟨p.value, p.stop, p.rest, ?_⟩, ?_, hrest, hp'⟩
  · have := left.shorter
    have := p.notLonger
    omega
  · rw [Parser.expr]
    simp only [hleft, hp]

theorem IsExpr.starts {ts : List Token} {x : Expr} (h : IsExpr ts x) : ∃ t us, ts = t :: us ∧
    (Grammar.starts t = true ∨ t = .symbol .minus ∨ t = .symbol .not) := by
  cases h with
  | chain ho _ =>
    obtain ⟨t, us, rfl, ht⟩ := ho.starts
    exact ⟨t, _, rfl, ht⟩

/-- No expression begins with a token that ends lists. -/
theorem IsExpr.ne_symbol {ts k us : List Token} {x : Expr} {s : Symbol} (h : IsExpr ts x)
    (hs : s = .closeParen ∨ s = .closeBracket) : ts ++ k ≠ .symbol s :: us := by
  obtain ⟨t, more, rfl, ht⟩ := h.starts
  intro he
  cases he
  obtain rfl | rfl := hs <;> obtain ht | ht | ht := ht <;> cases ht

theorem readsItems_succ (hx : ReadsExpr (n + 1)) (hi : ReadsItems n) : ReadsItems (n + 1) := by
  intro site ts k items l h hl hn
  cases h with
  | nil =>
    obtain ⟨start, stop, rest, rfl, hrest⟩ := row_eq_cons hl
    exact ⟨_, by rw [Parser.items], hrest, rfl⟩
  | last he =>
    obtain ⟨p, hp, hrow, hv⟩ := hx.whole site he (.cons rfl (by decide)) hl hn
    obtain ⟨start, stop, rest, hr, hrest⟩ := row_eq_cons hrow
    rw [Parser.items]
    · simp only [hp]
      split
      · rename_i heq
        rw [hr] at heq
        cases heq
        exact ⟨_, rfl, hrest, by rw [Expr.bareItems, hv]; rfl⟩
      · rename_i heq
        rw [hr] at heq
        cases heq
      · rename_i hne _
        exact absurd hr (hne _ _ _)
    · rintro start stop rest rfl
      exact he.ne_symbol (.inr rfl) hl.symm
  | cons he hitems =>
    simp only [List.length_append, List.length_cons] at hn
    rw [List.append_assoc, List.cons_append] at hl
    obtain ⟨p, hp, hrow, hv⟩ := hx.whole site he (.cons rfl (by decide)) hl (by omega)
    obtain ⟨start, stop, rest, hr, hrest⟩ := row_eq_cons hrow
    obtain ⟨more, hmore, hmrow, hmv⟩ := hi site hitems hrest (by omega)
    rw [Parser.items]
    · simp only [hp]
      split
      · rename_i heq
        rw [hr] at heq
        cases heq
      · rename_i heq
        rw [hr] at heq
        cases heq
        simp only [hmore]
        exact ⟨_, rfl, hmrow, by rw [Expr.bareItems, hv, hmv]⟩
      · rename_i hne
        exact absurd hr (hne _ _ _)
    · rintro start stop rest rfl
      exact he.ne_symbol (.inr rfl) hl.symm

/-- A name at the head of an expression stands alone, or an operator or arguments follow. -/
theorem IsExpr.ne_assign {ts k us : List Token} {x : Expr} {key : String} (h : IsExpr ts x)
    (hk : ∀ us, k ≠ .symbol .assign :: us) : ts ++ k ≠ .name key :: .symbol .assign :: us := by
  cases h with
  | chain ho ht =>
    intro he
    cases ho with
    | sign op => cases he
    | primary hp =>
      cases hp with
      | name =>
        cases ht with
        | nil => exact hk _ (List.cons.inj he).2
        | @cons _ _ op => cases op <;> cases (List.cons.inj he).2
      | call hc =>
        cases hc with
        | name => cases (List.cons.inj he).2
        | parens => cases he
      | _ => cases he

theorem reads_arg (hx : ReadsExpr n) (site : Site) {ts k : List Token} {arg : Arg}
    {l : List Located} (h : IsArg ts arg) (hk : Stops k) (ha : ∀ us, k ≠ .symbol .assign :: us)
    (hl : row l = ts ++ k) (hn : ts.length < n) :
    ∃ p, Parser.arg site l = .ok p ∧ row p.rest = k ∧ (p.value.1, p.value.2.bare) = arg := by
  cases h with
  | positional he =>
    obtain ⟨p, hp, hrow, hv⟩ := hx.whole site he hk hl hn
    refine ⟨⟨(none, p.value), p.stop, p.rest, p.shorter⟩, ?_, hrow, congrArg (Prod.mk none) hv⟩
    rw [Parser.arg]
    · rw [hp]
    · rintro key start stop start' stop' rest rfl
      exact he.ne_assign ha hl.symm
  | named key he =>
    simp only [List.cons_append] at hl
    obtain ⟨start, stop, rest, rfl, hrest⟩ := row_eq_cons hl
    obtain ⟨start', stop', more, rfl, hmore⟩ := row_eq_cons hrest
    simp only [List.length_cons] at hn
    obtain ⟨p, hp, hrow, hv⟩ := hx.whole site he hk hmore (by omega)
    refine ⟨_, by rw [Parser.arg, hp], hrow, congrArg (Prod.mk (some key)) hv⟩

theorem IsArg.ne_symbol {ts k us : List Token} {arg : Arg} (h : IsArg ts arg) :
    ts ++ k ≠ .symbol .closeParen :: us := by
  cases h with
  | positional he => exact he.ne_symbol (.inl rfl)
  | named => simp

theorem readsArgs_succ (hx : ReadsExpr (n + 1)) (ha : ReadsArgs n) : ReadsArgs (n + 1) := by
  intro site ts k args l h hl hn
  cases h with
  | nil =>
    obtain ⟨start, stop, rest, rfl, hrest⟩ := row_eq_cons hl
    exact ⟨_, by rw [Parser.args], hrest, rfl⟩
  | last he =>
    obtain ⟨p, hp, hrow, rfl⟩ := reads_arg hx site he (.cons rfl (by decide)) (by simp) hl hn
    obtain ⟨start, stop, rest, hr, hrest⟩ := row_eq_cons hrow
    rw [Parser.args]
    · simp only [hp]
      split
      · rename_i heq
        rw [hr] at heq
        cases heq
        exact ⟨_, rfl, hrest, rfl⟩
      · rename_i heq
        rw [hr] at heq
        cases heq
      · rename_i hne _
        exact absurd hr (hne _ _ _)
    · rintro start stop rest rfl
      exact he.ne_symbol hl.symm
  | cons he hargs =>
    simp only [List.length_append, List.length_cons] at hn
    rw [List.append_assoc, List.cons_append] at hl
    obtain ⟨p, hp, hrow, rfl⟩ :=
      reads_arg hx site he (.cons rfl (by decide)) (by simp) hl (by omega)
    obtain ⟨start, stop, rest, hr, hrest⟩ := row_eq_cons hrow
    obtain ⟨more, hmore, hmrow, hmv⟩ := ha site hargs hrest (by omega)
    rw [Parser.args]
    · simp only [hp]
      split
      · rename_i heq
        rw [hr] at heq
        cases heq
      · rename_i heq
        rw [hr] at heq
        cases heq
        simp only [hmore]
        exact ⟨_, rfl, hmrow, by rw [Expr.bareArgs, hmv]⟩
      · rename_i hne
        exact absurd hr (hne _ _ _)
    · rintro start stop rest rfl
      exact he.ne_symbol hl.symm

/-- The parser reads expressions, lists and arguments of any length. -/
theorem reads (n : Nat) : ReadsExpr n ∧ ReadsItems n ∧ ReadsArgs n := by
  induction n with
  | zero =>
    refine ⟨?_, ?_, ?_⟩
    · intro _ _ _ _ _ _ _ _ _ _ _ _ _ hn
      exact absurd hn (Nat.not_lt_zero _)
    · intro _ _ _ _ _ _ _ hn
      exact absurd hn (Nat.not_lt_zero _)
    · intro _ _ _ _ _ _ _ hn
      exact absurd hn (Nat.not_lt_zero _)
  | succ n ih =>
    obtain ⟨hx, hi, ha⟩ := ih
    have hx' := readsExpr_succ hx hi ha
    exact ⟨hx', readsItems_succ hx' hi, readsArgs_succ hx' ha⟩

end

end EntropyGame.Grammar
