import EntropyGame.Proofs.Source.Respelling

namespace EntropyGame

namespace Expr

mutual

/-- The roles of the names in an expression, in the order of reading; whether the expression is read
for registers at all is given. -/
def roles (held : Bool) : Expr → List Bool
  | integer .. | float .. | text .. | bool .. => []
  | name .. => [held]
  | list items _ => rolesOfItems held items
  | unary _ operand _ => operand.roles held
  | binary _ left right _ => left.roles held ++ right.roles held
  | call _ args _ => false :: rolesOfArgs held args

def rolesOfItems (held : Bool) : List Expr → List Bool
  | [] => []
  | item :: items => item.roles held ++ rolesOfItems held items

def rolesOfArgs (held : Bool) : List Arg → List Bool
  | [] => []
  | (key, arg) :: args =>
    (key.map fun _ => false).toList ++ (arg.roles held ++ rolesOfArgs held args)

end

section

variable (f : String → String) (held : Bool)

mutual

theorem roles_respell : ∀ e : Expr, (e.respell f).roles held = e.roles held
  | integer .. | float .. | text .. | bool .. | name .. => rfl
  | list items _ => by rw [respell, roles, roles, rolesOfItems_respell items]
  | unary op operand _ => by rw [respell, roles, roles, roles_respell operand]
  | binary op left right _ => by
    rw [respell, roles, roles, roles_respell left, roles_respell right]
  | call function args _ => by rw [respell, roles, roles, rolesOfArgs_respell args]

theorem rolesOfItems_respell : ∀ items : List Expr,
    rolesOfItems held (respellItems f items) = rolesOfItems held items
  | [] => rfl
  | item :: items => by
    rw [respellItems, rolesOfItems, rolesOfItems, roles_respell item, rolesOfItems_respell items]

theorem rolesOfArgs_respell : ∀ args : List Arg,
    rolesOfArgs held (respellArgs f args) = rolesOfArgs held args
  | [] => rfl
  | (key, arg) :: args => by
    rw [respellArgs, rolesOfArgs, rolesOfArgs, roles_respell arg, rolesOfArgs_respell args]

end

end

end Expr

namespace Arg

/-- The roles of an argument's own name and of the names in its expression. -/
def roles (key held : Bool) (arg : Arg) : List Bool :=
  (arg.1.map fun _ => key).toList ++ arg.2.roles held

/-- The roles in arguments of which the first one may be read in a way of its own. -/
def rolesAll (key first held : Bool) : List Arg → List Bool
  | [] => []
  | arg :: args => arg.roles key first ++ args.flatMap (roles key held)

theorem rolesAll_self (key held : Bool) (args : List Arg) :
    rolesAll key held held args = args.flatMap (roles key held) := by
  cases args <;> simp [rolesAll]

end Arg

theorem Expr.rolesOfArgs_eq (held : Bool) (args : List Arg) :
    rolesOfArgs held args = Arg.rolesAll false held held args := by
  rw [Arg.rolesAll_self]
  induction args with
  | nil => rfl
  | cons arg args ih => rw [rolesOfArgs, ih, List.flatMap_cons, Arg.roles, List.append_assoc]

namespace Grammar

/-! ### Chains -/

/-- A chain with the names in its operands spelled another way. -/
def respellChain (f : String → String) (chain : Chain) : Chain :=
  chain.map fun link => (link.1, link.2.respell f)

def respellSigned (f : String → String) (chain : SignedChain) : SignedChain :=
  chain.map fun link => (link.1, link.2.1, link.2.2.respell f)

section

variable (f : String → String)

theorem lowest?_respell (chain : Chain) : lowest? (respellChain f chain) =
    (lowest? chain).map fun low =>
      (respellChain f low.1, low.2.1, low.2.2.1.respell f, respellChain f low.2.2.2) := by
  induction chain with
  | nil => rfl
  | cons link rest ih =>
    obtain ⟨op, x⟩ := link
    rw [respellChain, List.map_cons, ← respellChain, lowest?, lowest?, ih]
    cases lowest? rest with
    | none => rfl
    | some low =>
      obtain ⟨before, o, y, after⟩ := low
      simp only [Option.map_some]
      split <;> rfl

theorem split_respell (x : Expr) (chain : Chain) :
    (split x chain).respell f = split (x.respell f) (respellChain f chain) := by
  fun_induction split x chain with
  | case1 x chain h =>
    rw [lowest?_none h]
    exact (split_nil _).symm
  | case2 x chain before op y after h ihb iha =>
    have hlow := lowest?_respell f chain
    rw [h, Option.map_some] at hlow
    rw [Expr.respell, ihb, iha]
    conv_rhs => rw [split]
    split
    · rename_i hnone
      cases hnone.symm.trans hlow
    · rename_i hsome
      cases hsome.symm.trans hlow
      rfl

theorem sign_respell (signs : List UnaryOp) (x : Expr) (chain : Chain) :
    sign signs (x.respell f) (respellChain f chain) =
      ((sign signs x chain).1.respell f, respellChain f (sign signs x chain).2) := by
  induction signs generalizing x chain with
  | nil => rfl
  | cons op signs ih =>
    cases op with
    | neg => simp only [sign, ih, Expr.respell]
    | not =>
      simp only [sign, ih, Expr.respell, split_respell]
      simp only [respellChain, List.takeWhile_map, List.dropWhile_map]
      rfl

theorem settle_respell (chain : SignedChain) :
    settle (respellSigned f chain) = respellChain f (settle chain) := by
  induction chain with
  | nil => rfl
  | cons link rest ih =>
    rw [respellSigned, List.map_cons, ← respellSigned, settle, settle, ih, sign_respell]
    rfl

theorem tree_respell (signs : List UnaryOp) (x : Expr) (rest : SignedChain) :
    (tree signs x rest).respell f = tree signs (x.respell f) (respellSigned f rest) := by
  rw [tree, tree, settle_respell, sign_respell, split_respell]

end

section

variable (held : Bool)

def rolesOfChain (chain : Chain) : List Bool :=
  chain.flatMap fun link => link.2.roles held

def rolesOfSigned (chain : SignedChain) : List Bool :=
  chain.flatMap fun link => link.2.2.roles held

theorem roles_split (x : Expr) (chain : Chain) :
    (split x chain).roles held = x.roles held ++ rolesOfChain held chain := by
  fun_induction split x chain with
  | case1 x chain h =>
    rw [lowest?_none h]
    exact (List.append_nil _).symm
  | case2 x chain before op y after h ihb iha =>
    rw [Expr.roles, ihb, iha, lowest?_eq h]
    simp [rolesOfChain]

theorem roles_sign (signs : List UnaryOp) (x : Expr) (chain : Chain) :
    (sign signs x chain).1.roles held ++ rolesOfChain held (sign signs x chain).2 =
      x.roles held ++ rolesOfChain held chain := by
  induction signs generalizing x chain with
  | nil => rfl
  | cons op signs ih =>
    cases op with
    | neg => simp only [sign, Expr.roles, ih]
    | not =>
      simp only [sign, Expr.roles, roles_split, List.append_assoc]
      rw [rolesOfChain, rolesOfChain, ← List.flatMap_append, List.takeWhile_append_dropWhile]
      exact ih x chain

theorem roles_settle (chain : SignedChain) :
    rolesOfChain held (settle chain) = rolesOfSigned held chain := by
  induction chain with
  | nil => rfl
  | cons link rest ih =>
    have hs := roles_sign held link.2.1 link.2.2 (settle rest)
    rw [ih] at hs
    rw [rolesOfSigned, List.flatMap_cons, ← rolesOfSigned, ← hs]
    rfl

theorem roles_tree (signs : List UnaryOp) (x : Expr) (rest : SignedChain) :
    (tree signs x rest).roles held = x.roles held ++ rolesOfSigned held rest := by
  rw [tree, roles_split, roles_sign, roles_settle]

end

/-! ### Rows -/

/-- However registers are respelt in a row that begins with given tokens, what these turn into has a
property, and the rest is respelt too. -/
def Turns (roles : List Bool) (ts : List Token) (P : List Token → Prop) : Prop :=
  ∀ more rest row, Respelt (roles ++ more) (ts ++ rest) row →
    ∃ ts' rest', row = ts' ++ rest' ∧ Respelt more rest rest' ∧ P ts'

namespace Turns

variable {roles more : List Bool} {ts us : List Token} {P Q R : List Token → Prop}

theorem imp (h : Turns roles ts P) (hpq : ∀ ts', P ts' → Q ts') : Turns roles ts Q := by
  intro more rest row hr
  obtain ⟨ts', rest', rfl, hrest, hp⟩ := h more rest row hr
  exact ⟨ts', rest', rfl, hrest, hpq ts' hp⟩

theorem nil (h : P []) : Turns [] [] P :=
  fun _ _ row hr => ⟨[], row, rfl, hr, h⟩

theorem append (h : Turns roles ts P) (h' : Turns more us Q)
    (hpq : ∀ ts' us', P ts' → Q us' → R (ts' ++ us')) : Turns (roles ++ more) (ts ++ us) R := by
  intro last rest row hr
  rw [List.append_assoc, List.append_assoc] at hr
  obtain ⟨ts', row', rfl, hr, hp⟩ := h _ _ _ hr
  obtain ⟨us', rest', rfl, hrest, hq⟩ := h' _ _ _ hr
  exact ⟨ts' ++ us', rest', (List.append_assoc ..).symm, hrest, hpq ts' us' hp hq⟩

/-- What is no name stays. -/
theorem fixed {t : Token} (ht : ∀ roles, t.roles roles = roles) : Turns [] [t] (· = [t]) := by
  intro more rest row hr
  cases hr with
  | kept hr =>
    rw [ht] at hr
    exact ⟨[t], _, rfl, hr, rfl⟩
  | respelt => cases ht [true]

theorem cons {t : Token} (ht : ∀ roles, t.roles roles = roles)
    (h : Turns roles ts fun ts' => Q (t :: ts')) : Turns roles (t :: ts) Q :=
  (fixed ht).append h fun _ _ ht' hq => ht' ▸ hq

/-- The same with all that is known of what comes of it. -/
theorem after {t : Token} (ht : ∀ roles, t.roles roles = roles) (h : Turns roles ts P) :
    Turns roles (t :: ts) fun us => ∃ ts', us = t :: ts' ∧ P ts' :=
  .cons ht (h.imp fun ts' hp => ⟨ts', rfl, hp⟩)

theorem concat {t : Token} (ht : ∀ roles, t.roles roles = roles)
    (h : Turns roles ts fun ts' => Q (ts' ++ [t])) : Turns roles (ts ++ [t]) Q := by
  have happend := h.append (R := Q) (fixed ht) fun _ _ hq ht' => ht' ▸ hq
  rwa [List.append_nil] at happend

end Turns

/-- How names are spelled in messages if they are read for registers. -/
abbrev ownNameIf (held : Bool) : String → String :=
  spelledIf Register.ownName held

theorem turns_name (held : Bool) (s : String) : Turns [held] [.name s] fun ts =>
    ∃ s', ts = [.name s'] ∧ ownNameIf held s' = ownNameIf held s := by
  intro more rest row hr
  cases hr with
  | kept hr => exact ⟨_, _, rfl, hr, s, rfl, rfl⟩
  | respelt hsame hr => exact ⟨_, _, rfl, hr, _, rfl, hsame.ownName_eq⟩

theorem IsCallee.turns {ts : List Token} {s : String} (h : IsCallee ts s) :
    Turns [false] ts (IsCallee · s) := by
  induction h with
  | name s =>
    refine (turns_name false s).imp ?_
    rintro _ ⟨s', rfl, hs⟩
    obtain rfl : s' = s := hs
    exact .name s'
  | parens _ ih =>
    exact .cons (fun _ => rfl) (.concat (fun _ => rfl) (ih.imp fun _ => .parens))

/-- An expression turns into one with registers spelled in other ways. -/
def ExprTurns (ts : List Token) (x : Expr) : Prop :=
  ∀ held, Turns (x.roles held) ts fun ts' => ∃ x', IsExpr ts' x' ∧
    x'.respell (ownNameIf held) = x.respell (ownNameIf held)

def TailTurns (ts : List Token) (rest : SignedChain) : Prop :=
  ∀ held, Turns (rolesOfSigned held rest) ts fun ts' => ∃ rest', IsTail ts' rest' ∧
    respellSigned (ownNameIf held) rest' = respellSigned (ownNameIf held) rest

def OperandTurns (ts : List Token) (signs : List UnaryOp) (x : Expr) : Prop :=
  ∀ held, Turns (x.roles held) ts fun ts' => ∃ x', IsOperand ts' signs x' ∧
    x'.respell (ownNameIf held) = x.respell (ownNameIf held)

def PrimaryTurns (ts : List Token) (x : Expr) : Prop :=
  ∀ held, Turns (x.roles held) ts fun ts' => ∃ x', IsPrimary ts' x' ∧
    x'.respell (ownNameIf held) = x.respell (ownNameIf held)

def ItemsTurns (ts : List Token) (items : List Expr) : Prop :=
  ∀ held, Turns (Expr.rolesOfItems held items) ts fun ts' => ∃ items', IsItems ts' items' ∧
    Expr.respellItems (ownNameIf held) items' = Expr.respellItems (ownNameIf held) items

/-- The names of arguments may be read for registers too, and the first argument in a way of its
own. -/
def ArgsTurns (ts : List Token) (args : List Arg) : Prop :=
  ∀ key first held, Turns (Arg.rolesAll key first held args) ts fun ts' =>
    ∃ args', IsArgs ts' args' ∧
    Arg.respellAll (ownNameIf key) (ownNameIf first) (ownNameIf held) args' =
      Arg.respellAll (ownNameIf key) (ownNameIf first) (ownNameIf held) args

def ArgTurns (ts : List Token) (arg : Arg) : Prop :=
  ∀ key held, Turns (arg.roles key held) ts fun ts' => ∃ arg', IsArg ts' arg' ∧
    arg'.respell (ownNameIf key) (ownNameIf held) = arg.respell (ownNameIf key) (ownNameIf held)

section

variable {ts us : List Token} {x : Expr} {arg : Arg} {args : List Arg}

theorem PrimaryTurns.name (s : String) : PrimaryTurns [.name s] (.name s {}) := by
  intro held
  refine (turns_name held s).imp ?_
  rintro _ ⟨s', rfl, hs⟩
  exact ⟨_, .name s', by rw [Expr.respell, Expr.respell, hs]⟩

theorem ArgsTurns.call {function : String} (hc : IsCallee ts function) (ha : ArgsTurns us args)
    (key first held : Bool) : Turns (false :: Arg.rolesAll key first held args)
      (ts ++ .symbol .openParen :: (us ++ [.symbol .closeParen])) fun ts' => ∃ args',
        IsPrimary ts' (.call function args' {}) ∧
          Arg.respellAll (ownNameIf key) (ownNameIf first) (ownNameIf held) args' =
            Arg.respellAll (ownNameIf key) (ownNameIf first) (ownNameIf held) args := by
  have hinside : Turns (Arg.rolesAll key first held args) (us ++ [.symbol .closeParen])
      fun ts' => ∃ us' args', ts' = us' ++ [.symbol .closeParen] ∧ IsArgs us' args' ∧
        Arg.respellAll (ownNameIf key) (ownNameIf first) (ownNameIf held) args' =
          Arg.respellAll (ownNameIf key) (ownNameIf first) (ownNameIf held) args := by
    refine .concat (fun _ => rfl) ((ha key first held).imp ?_)
    rintro us' ⟨args', ha', hargs⟩
    exact ⟨us', args', rfl, ha', hargs⟩
  refine hc.turns.append (hinside.after fun _ => rfl) ?_
  rintro ts' _ hc' ⟨_, rfl, us', args', rfl, ha', hargs⟩
  exact ⟨args', .call hc' ha', hargs⟩

theorem PrimaryTurns.call {function : String} (hc : IsCallee ts function) (ha : ArgsTurns us args) :
    PrimaryTurns (ts ++ .symbol .openParen :: (us ++ [.symbol .closeParen]))
      (.call function args {}) := by
  intro held
  rw [Expr.roles, Expr.rolesOfArgs_eq]
  refine (ha.call hc false held held).imp ?_
  rintro ts' ⟨args', hp, hargs⟩
  refine ⟨_, hp, ?_⟩
  rw [Expr.respell, Expr.respell, Expr.respellArgs_eq_all, Expr.respellArgs_eq_all]
  exact congrArg (Expr.call function · {}) hargs

theorem ItemsTurns.cons {items : List Expr} (hx : ExprTurns ts x) (hi : ItemsTurns us items) :
    ItemsTurns (ts ++ .symbol .comma :: us) (x :: items) := by
  intro held
  rw [Expr.rolesOfItems]
  refine (hx held).append ((hi held).after fun _ => rfl) ?_
  rintro ts' _ ⟨x', hx', he⟩ ⟨us', rfl, items', hi', hitems⟩
  exact ⟨x' :: items', .cons hx' hi', by rw [Expr.respellItems, Expr.respellItems, he, hitems]⟩

theorem ArgTurns.positional (h : ExprTurns ts x) : ArgTurns ts (none, x) := by
  intro key held
  refine (h held).imp ?_
  rintro ts' ⟨x', hx', he⟩
  exact ⟨(none, x'), .positional hx', by rw [Arg.respell, Arg.respell, he]⟩

theorem ArgTurns.named (s : String) (h : ExprTurns ts x) :
    ArgTurns (.name s :: .symbol .assign :: ts) (some s, x) := by
  intro key held
  refine (turns_name key s).append ((h held).after fun _ => rfl) ?_
  rintro _ _ ⟨s', rfl, hs⟩ ⟨ts', rfl, x', hx', he⟩
  exact ⟨(some s', x'), .named s' hx', by
    rw [Arg.respell, Arg.respell, he, Option.map_some, Option.map_some, hs]⟩

theorem ArgsTurns.last (h : ArgTurns ts arg) : ArgsTurns ts [arg] := by
  intro key first held
  rw [Arg.rolesAll, List.flatMap_nil, List.append_nil]
  refine (h key first).imp ?_
  rintro ts' ⟨arg', ha', he⟩
  exact ⟨[arg'], .last ha', by rw [Arg.respellAll, Arg.respellAll, he]⟩

theorem ArgsTurns.cons (h : ArgTurns ts arg) (ha : ArgsTurns us args) :
    ArgsTurns (ts ++ .symbol .comma :: us) (arg :: args) := by
  intro key first held
  rw [Arg.rolesAll, ← Arg.rolesAll_self]
  refine (h key first).append ((ha key held held).after fun _ => rfl) ?_
  rintro ts' _ ⟨arg', ha', he⟩ ⟨us', rfl, args', hs', hargs⟩
  rw [Arg.respellAll_self, Arg.respellAll_self] at hargs
  exact ⟨arg' :: args', .cons ha' hs', by rw [Arg.respellAll, Arg.respellAll, he, hargs]⟩

end

/-- A respelt expression is an expression with registers spelled in other ways. -/
theorem IsExpr.turns {ts : List Token} {x : Expr} (h : IsExpr ts x) : ExprTurns ts x := by
  refine @IsExpr.rec (fun ts x _ => ExprTurns ts x) (fun ts rest _ => TailTurns ts rest)
    (fun ts signs x _ => OperandTurns ts signs x) (fun ts x _ => PrimaryTurns ts x)
    (fun ts items _ => ItemsTurns ts items) (fun ts args _ => ArgsTurns ts args)
    (fun ts arg _ => ArgTurns ts arg)
    ?chain ?tailNil ?tailCons ?primary ?sign ?yes ?no ?integer ?float ?text ?name ?list ?parens
    ?call ?itemsNil ?itemsLast ?itemsCons ?argsNil ?argsLast ?argsCons ?positional ?named ts x h
  case chain =>
    -- the tree of a chain has the names of the chain in their order, and respells with it
    intro ts us signs x rest _ _ ho ht held
    rw [roles_tree]
    refine (ho held).append (ht held) ?_
    rintro ts' us' ⟨x', ho', hx⟩ ⟨rest', ht', hrest⟩
    exact ⟨_, .chain ho' ht', by rw [tree_respell, tree_respell, hx, hrest]⟩
  case tailNil => exact fun _ => .nil ⟨[], .nil, rfl⟩
  case tailCons =>
    intro ts us op signs x rest _ _ ho ht held
    rw [rolesOfSigned, List.flatMap_cons, ← rolesOfSigned]
    refine .cons (fun _ => rfl) ((ho held).append (ht held) ?_)
    rintro ts' us' ⟨x', ho', hx⟩ ⟨rest', ht', hrest⟩
    refine ⟨_, .cons ho' ht', ?_⟩
    rw [respellSigned, respellSigned, List.map_cons, List.map_cons, hx, ← respellSigned,
      ← respellSigned, hrest]
  case primary =>
    intro ts x _ hp held
    refine (hp held).imp ?_
    rintro ts' ⟨x', hp', hx⟩
    exact ⟨x', .primary hp', hx⟩
  case sign =>
    intro ts signs x op _ ho held
    refine .cons (fun _ => rfl) ((ho held).imp ?_)
    rintro ts' ⟨x', ho', hx⟩
    exact ⟨x', .sign op ho', hx⟩
  case yes => exact fun _ => .cons (fun _ => rfl) (.nil ⟨_, .yes, rfl⟩)
  case no => exact fun _ => .cons (fun _ => rfl) (.nil ⟨_, .no, rfl⟩)
  case integer => exact fun n _ => .cons (fun _ => rfl) (.nil ⟨_, .integer n, rfl⟩)
  case float => exact fun x _ => .cons (fun _ => rfl) (.nil ⟨_, .float x, rfl⟩)
  case text => exact fun s _ => .cons (fun _ => rfl) (.nil ⟨_, .text s, rfl⟩)
  case name => exact .name
  case list =>
    intro ts items _ hi held
    refine .cons (fun _ => rfl) (.concat (fun _ => rfl) ((hi held).imp ?_))
    rintro ts' ⟨items', hi', hitems⟩
    exact ⟨_, .list hi', by rw [Expr.respell, Expr.respell, hitems]⟩
  case parens =>
    intro ts x _ hx held
    refine .cons (fun _ => rfl) (.concat (fun _ => rfl) ((hx held).imp ?_))
    rintro ts' ⟨x', hx', he⟩
    exact ⟨x', .parens hx', he⟩
  case call => exact fun hc _ ha => .call hc ha
  case itemsNil => exact fun _ => .nil ⟨[], .nil, rfl⟩
  case itemsLast =>
    intro ts x _ hx held
    rw [Expr.rolesOfItems, Expr.rolesOfItems, List.append_nil]
    refine (hx held).imp ?_
    rintro ts' ⟨x', hx', he⟩
    exact ⟨[x'], .last hx', by simp only [Expr.respellItems, he]⟩
  case itemsCons => exact fun _ _ hx hi => .cons hx hi
  case argsNil => exact fun _ _ _ => .nil ⟨[], .nil, rfl⟩
  case argsLast => exact fun _ ha => .last ha
  case argsCons => exact fun _ _ ha hs => .cons ha hs
  case positional => exact fun _ hx => .positional hx
  case named => exact fun s _ hx => .named s hx

theorem IsArgs.turns {ts : List Token} {args : List Arg} (h : IsArgs ts args) :
    ArgsTurns ts args := by
  have harg : ∀ {ts arg}, IsArg ts arg → ArgTurns ts arg := by
    rintro ts arg (hx | ⟨s, hx⟩)
    · exact .positional hx.turns
    · exact .named s hx.turns
  induction args generalizing ts with
  | nil =>
    cases h
    exact fun _ _ _ => .nil ⟨[], .nil, rfl⟩
  | cons arg args ih =>
    cases h with
    | last ha => exact .last (harg ha)
    | cons ha hs => exact .cons (harg ha) (ih hs)

theorem split_eq_call {x : Expr} {chain : Chain} {function : String} {args : List Arg} {s : Span}
    (h : split x chain = .call function args s) : chain = [] ∧ x = .call function args s := by
  rw [split] at h
  split at h
  · exact ⟨lowest?_none ‹_›, h⟩
  · cases h

/-- A tree that is a call has nothing before or after it. -/
theorem tree_eq_call {signs : List UnaryOp} {x : Expr} {rest : SignedChain} {function : String}
    {args : List Arg} {s : Span} (h : tree signs x rest = .call function args s) :
    signs = [] ∧ rest = [] ∧ x = .call function args s := by
  obtain ⟨hchain, hx⟩ := split_eq_call h
  rcases signs with _ | ⟨_ | _, signs⟩
  · refine ⟨rfl, ?_, hx⟩
    cases rest with
    | nil => rfl
    | cons => cases hchain
  · cases hx
  · cases hx

/-- The same for an expression that is a call as a whole, whose arguments are read in their own
way. -/
theorem IsExpr.turns_call {ts : List Token} {function : String} {args : List Arg}
    (h : IsExpr ts (.call function args {})) (key first held : Bool) :
    Turns (false :: Arg.rolesAll key first held args) ts fun ts' => ∃ args',
      IsExpr ts' (.call function args' {}) ∧
        Arg.respellAll (ownNameIf key) (ownNameIf first) (ownNameIf held) args' =
          Arg.respellAll (ownNameIf key) (ownNameIf first) (ownNameIf held) args := by
  -- a call may be in parentheses, which leave a shorter row inside
  induction hn : ts.length using Nat.strongRecOn generalizing ts with
  | ind n ih =>
    generalize hx : Expr.call function args {} = x at h
    cases h with
    | chain ho ht =>
      obtain ⟨rfl, rfl, rfl⟩ := tree_eq_call hx.symm
      cases ht
      rw [List.append_nil] at hn ⊢
      cases ho with
      | primary hp =>
        cases hp with
        | parens hinner =>
          rw [List.length_cons, List.length_append] at hn
          refine .cons (fun _ => rfl) (.concat (fun _ => rfl) ((ih _ (by omega) hinner rfl).imp ?_))
          rintro ts' ⟨args', hx', hargs⟩
          exact ⟨args', .of_primary (.parens hx'), hargs⟩
        | call hc ha =>
          refine (ha.turns.call hc key first held).imp ?_
          rintro ts' ⟨args', hp, hargs⟩
          exact ⟨args', .of_primary hp, hargs⟩

end Grammar

/-- The roles of the names on the line of a call. The verb is none of a register, the names of
arguments are if the call assigns, and the first argument is not if it is a beacon. -/
def Call.roles (c : Call) : List Bool :=
  false :: Arg.rolesAll c.verb.namesTargets (!c.verb.namesBeacon) true c.args

namespace Arg

theorem rolesAll_bareArgs (key first held : Bool) (args : List Arg) :
    rolesAll key first held (Expr.bareArgs args) = rolesAll key first held args := by
  have hroles : ∀ (held : Bool) (arg : Arg),
      Arg.roles key held (arg.1, arg.2.respell id) = arg.roles key held := by
    intro held arg
    rw [Arg.roles, Arg.roles, Expr.roles_respell]
  rw [← Expr.respellArgs_id, Expr.respellArgs_eq]
  cases args with
  | nil => rfl
  | cons arg args => simp only [List.map_cons, rolesAll, List.flatMap_map, hroles]

theorem respellAll_bareArgs (key first f : String → String) (args : List Arg) :
    respellAll key first f (Expr.bareArgs args) = respellAll key first f args := by
  have hrespell : ∀ (f : String → String) (arg : Arg),
      Arg.respell key f (arg.1, arg.2.respell id) = arg.respell key f := by
    intro f arg
    rw [Arg.respell, Arg.respell, Expr.respell_id, Expr.respell_bare]
  rw [← Expr.respellArgs_id, Expr.respellArgs_eq]
  cases args with
  | nil => rfl
  | cons arg args =>
    simp only [List.map_cons, respellAll, List.map_map, Function.comp_def, hrespell]

end Arg

namespace Parser

open Grammar

/-- A respelt row of tokens spells the same call but for the names of its registers. -/
theorem callOfTokens_respelt {line : Nat} {ts : List Located} {c : Call}
    (h : callOfTokens line ts = .ok c) (line' : Nat) {ts' : List Located}
    (hrow : Respelt c.roles (row ts) (row ts')) : ∃ c', callOfTokens line' ts' = .ok c' ∧
      c'.respell Register.ownName = c.respell Register.ownName := by
  obtain ⟨function, span, he, hverb⟩ := callOfTokens_ok h
  have hx := exprOfTokens_isExpr he
  rw [Expr.bare] at hx
  have hturns := hx.turns_call c.verb.namesTargets (!c.verb.namesBeacon) true
  rw [Arg.rolesAll_bareArgs] at hturns
  obtain ⟨ts'', rest, happend, hrest, args, hx', hargs⟩ :=
    hturns [] [] (row ts') (by rwa [List.append_nil, List.append_nil])
  cases hrest
  rw [List.append_nil] at happend
  obtain ⟨e', he', hbare⟩ := exprOfTokens_complete line' (happend ▸ hx')
  cases e' with
  | call function' args' span' =>
    simp only [Expr.bare, Expr.call.injEq, and_true] at hbare
    obtain ⟨rfl, rfl⟩ := hbare
    obtain ⟨c', hc', hv, ha⟩ := callOfTokens_of_call he' hverb
    refine ⟨c', hc', ?_⟩
    rw [Arg.respellAll_bareArgs, Arg.respellAll_bareArgs] at hargs
    rw [Call.respell, Call.respell, hv, ha]
    exact congrArg (Call.mk c.verb · {}) hargs
  | _ => cases hbare

end Parser

end EntropyGame
