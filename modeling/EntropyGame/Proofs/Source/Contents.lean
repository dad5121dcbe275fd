import EntropyGame.Proofs.Source.Sound

namespace EntropyGame

/-- Whether a token is a number, a text or a name. -/
def Token.hasContent : Token → Bool
  | .symbol _ => false
  | _ => true

namespace Expr

mutual

/-- The numbers, texts and names in an expression, in the order of reading. -/
def contents : Expr → List Token
  | integer n _ => [.integer n]
  | float x _ => [.float x]
  | text s _ => [.text s]
  | bool .. => []
  | name s _ => [.name s]
  | list items _ => contentsOfItems items
  | unary _ operand _ => operand.contents
  | binary _ left right _ => left.contents ++ right.contents
  | call function args _ => .name function :: contentsOfArgs args

def contentsOfItems : List Expr → List Token
  | [] => []
  | item :: items => item.contents ++ contentsOfItems items

def contentsOfArgs : List Arg → List Token
  | [] => []
  | (key, arg) :: args =>
    (key.map Token.name).toList ++ (arg.contents ++ contentsOfArgs args)

end

mutual

theorem contents_bare : ∀ e : Expr, e.bare.contents = e.contents
  | integer .. | float .. | text .. | bool .. | name .. => rfl
  | list items _ => by rw [bare, contents, contents, contentsOfItems_bare items]
  | unary op operand _ => by rw [bare, contents, contents, contents_bare operand]
  | binary op left right _ => by
    rw [bare, contents, contents, contents_bare left, contents_bare right]
  | call function args _ => by rw [bare, contents, contents, contentsOfArgs_bare args]

theorem contentsOfItems_bare : ∀ items : List Expr,
    contentsOfItems (bareItems items) = contentsOfItems items
  | [] => rfl
  | item :: items => by
    rw [bareItems, contentsOfItems, contentsOfItems, contents_bare item,
      contentsOfItems_bare items]

theorem contentsOfArgs_bare : ∀ args : List Arg,
    contentsOfArgs (bareArgs args) = contentsOfArgs args
  | [] => rfl
  | (key, arg) :: args => by
    rw [bareArgs, contentsOfArgs, contentsOfArgs, contents_bare arg, contentsOfArgs_bare args]

end

end Expr

namespace Grammar

def contentsOfChain (chain : Chain) : List Token :=
  chain.flatMap fun link => link.2.contents

def contentsOfSigned (chain : SignedChain) : List Token :=
  chain.flatMap fun link => link.2.2.contents

theorem contents_split (x : Expr) (chain : Chain) :
    (split x chain).contents = x.contents ++ contentsOfChain chain := by
  fun_induction split x chain with
  | case1 x chain h =>
    rw [lowest?_none h]
    exact (List.append_nil _).symm
  | case2 x chain before op y after h ihb iha =>
    rw [Expr.contents, ihb, iha, lowest?_eq h]
    simp [contentsOfChain]

theorem contents_sign (signs : List UnaryOp) (x : Expr) (chain : Chain) :
    (sign signs x chain).1.contents ++ contentsOfChain (sign signs x chain).2 =
      x.contents ++ contentsOfChain chain := by
  induction signs generalizing x chain with
  | nil => rfl
  | cons op signs ih =>
    cases op with
    | neg => simp only [sign, Expr.contents, ih]
    | not =>
      simp only [sign, Expr.contents, contents_split, List.append_assoc]
      rw [contentsOfChain, contentsOfChain, ← List.flatMap_append,
        List.takeWhile_append_dropWhile]
      exact ih x chain

theorem contents_settle (chain : SignedChain) :
    contentsOfChain (settle chain) = contentsOfSigned chain := by
  induction chain with
  | nil => rfl
  | cons link rest ih =>
    have hs := contents_sign link.2.1 link.2.2 (settle rest)
    rw [ih] at hs
    rw [contentsOfSigned, List.flatMap_cons, ← contentsOfSigned, ← hs]
    rfl

theorem contents_tree (signs : List UnaryOp) (x : Expr) (rest : SignedChain) :
    (tree signs x rest).contents = x.contents ++ contentsOfSigned rest := by
  rw [tree, contents_split, contents_sign, contents_settle]

theorem filter_symbol (s : Symbol) (ts : List Token) :
    (Token.symbol s :: ts).filter Token.hasContent = ts.filter Token.hasContent :=
  rfl

theorem IsCallee.contents_eq {ts : List Token} {s : String} (h : IsCallee ts s) :
    ts.filter Token.hasContent = [.name s] := by
  induction h with
  | name s => rfl
  | parens _ ih =>
    rw [filter_symbol, List.filter_append, ih]
    rfl

/-- An expression has the numbers, texts and names of its tokens, in the same order. -/
theorem IsExpr.contents_eq {ts : List Token} {x : Expr} (h : IsExpr ts x) :
    ts.filter Token.hasContent = x.contents := by
  refine @IsExpr.rec (fun ts x _ => ts.filter Token.hasContent = x.contents)
    (fun ts rest _ => ts.filter Token.hasContent = contentsOfSigned rest)
    (fun ts _ x _ => ts.filter Token.hasContent = x.contents)
    (fun ts x _ => ts.filter Token.hasContent = x.contents)
    (fun ts items _ => ts.filter Token.hasContent = Expr.contentsOfItems items)
    (fun ts args _ => ts.filter Token.hasContent = Expr.contentsOfArgs args)
    (fun ts arg _ => ts.filter Token.hasContent =
      (arg.1.map Token.name).toList ++ arg.2.contents)
    ?chain ?tailNil ?tailCons ?primary ?sign ?yes ?no ?integer ?float ?text ?name ?list ?parens
    ?call ?itemsNil ?itemsLast ?itemsCons ?argsNil ?argsLast ?argsCons ?positional ?named ts x h
  case chain =>
    intro ts us signs x rest _ _ ho ht
    rw [contents_tree, List.filter_append, ho, ht]
  case tailNil => rfl
  case tailCons =>
    intro ts us op signs x rest _ _ ho ht
    rw [filter_symbol, List.filter_append, ho, ht]
    rfl
  case primary =>
    intro ts x _ hx
    exact hx
  case sign =>
    intro ts signs x op _ ho
    exact ho
  case yes | no | integer | float | text | name =>
    intros
    rfl
  case list =>
    intro ts items _ hi
    rw [filter_symbol, List.filter_append, hi]
    exact List.append_nil _
  case parens =>
    intro ts x _ hx
    rw [filter_symbol, List.filter_append, hx]
    exact List.append_nil _
  case call =>
    intro ts us function args hc _ ha
    rw [List.filter_append, hc.contents_eq, filter_symbol, List.filter_append, ha]
    exact congrArg (_ :: ·) (List.append_nil _)
  case itemsNil => rfl
  case itemsLast =>
    intro ts x _ hx
    rw [hx]
    exact (List.append_nil _).symm
  case itemsCons =>
    intro ts us x items _ _ hx hi
    rw [List.filter_append, filter_symbol, hx, hi, Expr.contentsOfItems]
  case argsNil => rfl
  case argsLast =>
    intro ts arg _ ha
    rw [ha, Expr.contentsOfArgs, Expr.contentsOfArgs, List.append_nil]
  case argsCons =>
    intro ts us arg args _ _ hx ha
    rw [List.filter_append, filter_symbol, hx, ha, Expr.contentsOfArgs, List.append_assoc]
  case positional =>
    intro ts x _ hx
    exact hx
  case named =>
    intro ts x key _ hx
    exact congrArg (_ :: ·) hx

end Grammar

end EntropyGame
