import EntropyGame.Proofs.Source.Lexer
import EntropyGame.Proofs.Source.Sound

namespace EntropyGame

namespace Expr

/-- A token that a part of an expression is read from. -/
def token : Expr → Token
  | integer n _ => .integer n
  | float x _ => .float x
  | text s _ => .text s
  | bool b _ => .symbol (if b then .yes else .no)
  | name s _ => .name s
  | list .. => .symbol .openBracket
  | unary op .. => .symbol (Grammar.signSymbol op)
  | binary op .. => .symbol op.symbol
  | call .. => .symbol .openParen

variable (p : Token → Bool)

/-- How many parts of an expression come from tokens of a kind. -/
def weight (e : Expr) : Nat :=
  e.parts.countP fun part => p part.token

def weightOfList (items : List Expr) : Nat :=
  (partsOfList items).countP fun part => p part.token

def weightOfArgs (args : List Arg) : Nat :=
  (partsOfArgs args).countP fun part => p part.token

theorem weight_unary (op : UnaryOp) (x : Expr) (s : Span) :
    (unary op x s).weight p = x.weight p + [Token.symbol (Grammar.signSymbol op)].countP p := by
  simp [weight, parts, token, List.countP_cons]

theorem weight_binary (op : BinaryOp) (x y : Expr) (s : Span) :
    (binary op x y s).weight p =
      x.weight p + y.weight p + [Token.symbol op.symbol].countP p := by
  simp [weight, parts, token, List.countP_cons]

theorem weight_list (items : List Expr) (s : Span) :
    (list items s).weight p = weightOfList p items + [Token.symbol .openBracket].countP p := by
  simp [weight, weightOfList, parts, token, List.countP_cons]

theorem weight_call (function : String) (args : List Arg) (s : Span) :
    (call function args s).weight p = weightOfArgs p args + [Token.symbol .openParen].countP p := by
  simp [weight, weightOfArgs, parts, token, List.countP_cons]

theorem weightOfList_cons (x : Expr) (items : List Expr) :
    weightOfList p (x :: items) = x.weight p + weightOfList p items := by
  simp [weight, weightOfList, partsOfList]

theorem weightOfArgs_cons (arg : Arg) (args : List Arg) :
    weightOfArgs p (arg :: args) = arg.2.weight p + weightOfArgs p args := by
  simp [weight, weightOfArgs, partsOfArgs]

mutual

theorem weight_bare (e : Expr) : e.bare.weight p = e.weight p := by
  cases e with
  | integer | float | text | bool | name => rfl
  | list items _ => rw [bare, weight_list, weight_list, weightOfList_bare items]
  | unary op x _ => rw [bare, weight_unary, weight_unary, weight_bare x]
  | binary op x y _ => rw [bare, weight_binary, weight_binary, weight_bare x, weight_bare y]
  | call function args _ => rw [bare, weight_call, weight_call, weightOfArgs_bare args]

theorem weightOfList_bare (items : List Expr) :
    weightOfList p (bareItems items) = weightOfList p items := by
  cases items with
  | nil => rfl
  | cons x items =>
    rw [bareItems, weightOfList_cons, weightOfList_cons, weight_bare x, weightOfList_bare items]

theorem weightOfArgs_bare (args : List Arg) :
    weightOfArgs p (bareArgs args) = weightOfArgs p args := by
  cases args with
  | nil => rfl
  | cons arg args =>
    obtain ⟨key, x⟩ := arg
    rw [bareArgs, weightOfArgs_cons, weightOfArgs_cons, weight_bare x, weightOfArgs_bare args]

end

theorem self_mem_parts (e : Expr) : e ∈ e.parts := by
  cases e <;> simp [parts]

theorem weight_le_weightOfArgs {arg : Arg} {args : List Arg} (h : arg ∈ args) :
    arg.2.weight p ≤ weightOfArgs p args := by
  induction args with
  | nil => cases h
  | cons first args ih =>
    rw [weightOfArgs_cons]
    obtain rfl | h := List.mem_cons.mp h
    · omega
    · have := ih h
      omega

theorem length_le_weightOfArgs (args : List Arg) :
    args.length ≤ weightOfArgs (fun _ => true) args := by
  induction args with
  | nil => exact Nat.zero_le _
  | cons arg args ih =>
    have hpos : 0 < arg.2.weight fun _ => true :=
      List.countP_pos_iff.mpr ⟨arg.2, self_mem_parts _, rfl⟩
    rw [List.length_cons, weightOfArgs_cons]
    omega

/-- An expression whose parts have tokens of their own among given ones has its token there. -/
theorem token_mem {e : Expr} {ts : List Token} (h : ∀ p, e.weight p ≤ ts.countP p) :
    e.token ∈ ts := by
  classical
  have hle := h fun t => decide (t = e.token)
  have hpos : 0 < e.weight fun t => decide (t = e.token) :=
    List.countP_pos_iff.mpr ⟨e, self_mem_parts e, by simp⟩
  obtain ⟨t, ht, he⟩ := List.countP_pos_iff.mp (Nat.lt_of_lt_of_le hpos hle)
  rw [decide_eq_true_eq] at he
  exact he ▸ ht

end Expr

namespace Grammar

variable {p : Token → Bool}

/-- How many parts of a chain, its operators included, come from tokens of a kind. -/
def weight (p : Token → Bool) : Chain → Nat
  | [] => 0
  | (op, x) :: rest => [Token.symbol op.symbol].countP p + x.weight p + weight p rest

theorem weight_append (chain more : Chain) :
    weight p (chain ++ more) = weight p chain + weight p more := by
  induction chain with
  | nil => simp [weight]
  | cons link chain ih =>
    rw [List.cons_append, weight, weight, ih]
    omega

theorem weight_split (x : Expr) (chain : Chain) :
    (split x chain).weight p = x.weight p + weight p chain := by
  fun_induction split x chain with
  | case1 x chain h =>
    rw [lowest?_none h]
    rfl
  | case2 x chain before op y after h ihb iha =>
    rw [Expr.weight_binary, ihb, iha, lowest?_eq h, weight_append, weight]
    omega

theorem weight_sign (signs : List UnaryOp) (x : Expr) (chain : Chain) :
    (sign signs x chain).1.weight p + weight p (sign signs x chain).2 =
      (signs.map fun op => Token.symbol (signSymbol op)).countP p + x.weight p + weight p chain := by
  induction signs generalizing x chain with
  | nil => simp [sign]
  | cons op signs ih =>
    have hc := ih x chain
    cases op with
    | neg =>
      simp only [sign, Expr.weight_unary, List.map_cons, List.countP_cons, List.countP_nil]
      omega
    | not =>
      have hd := weight_append (p := p)
        ((sign signs x chain).2.takeWhile (binds (BinaryOp.level .eq)))
        ((sign signs x chain).2.dropWhile (binds (BinaryOp.level .eq)))
      rw [List.takeWhile_append_dropWhile] at hd
      simp only [sign, Expr.weight_unary, weight_split, List.map_cons, List.countP_cons,
        List.countP_nil]
      omega

/-- The same for a chain whose signs are still apart. -/
def signedWeight (p : Token → Bool) : SignedChain → Nat
  | [] => 0
  | (op, signs, x) :: rest =>
    [Token.symbol op.symbol].countP p +
      (signs.map fun op => Token.symbol (signSymbol op)).countP p + x.weight p + signedWeight p rest

theorem weight_settle (rest : SignedChain) : weight p (settle rest) = signedWeight p rest := by
  induction rest with
  | nil => rfl
  | cons link rest ih =>
    obtain ⟨op, signs, x⟩ := link
    have hs := weight_sign (p := p) signs x (settle rest)
    rw [settle, weight, signedWeight]
    omega

theorem weight_tree (signs : List UnaryOp) (x : Expr) (rest : SignedChain) :
    (tree signs x rest).weight p = (signs.map fun op => Token.symbol (signSymbol op)).countP p +
      x.weight p + signedWeight p rest := by
  have hs := weight_sign (p := p) signs x (settle rest)
  rw [tree, weight_split, hs, weight_settle]

/-- Every part of an expression has a token of its own. -/
theorem IsExpr.weight_le {ts : List Token} {x : Expr} (h : IsExpr ts x) :
    x.weight p ≤ ts.countP p := by
  refine @IsExpr.rec (fun ts x _ => x.weight p ≤ ts.countP p)
    (fun ts rest _ => signedWeight p rest ≤ ts.countP p)
    (fun ts signs x _ =>
      (signs.map fun op => Token.symbol (signSymbol op)).countP p + x.weight p ≤ ts.countP p)
    (fun ts x _ => x.weight p ≤ ts.countP p)
    (fun ts items _ => Expr.weightOfList p items ≤ ts.countP p)
    (fun ts args _ => Expr.weightOfArgs p args ≤ ts.countP p)
    (fun ts arg _ => arg.2.weight p ≤ ts.countP p)
    ?chain ?tailNil ?tailCons ?primary ?sign ?yes ?no ?integer ?float ?text ?name ?list ?parens
    ?call ?itemsNil ?itemsLast ?itemsCons ?argsNil ?argsLast ?argsCons ?positional ?named ts x h
  case chain =>
    intro ts us signs x rest _ _ ho ht
    rw [weight_tree, List.countP_append]
    omega
  case tailNil => exact Nat.le_refl _
  case tailCons =>
    intro ts us op signs x rest _ _ ho ht
    simp only [signedWeight, List.countP_cons, List.countP_append, List.countP_nil]
    omega
  case primary =>
    intro ts x _ hx
    simpa using hx
  case sign =>
    intro ts signs x op _ ho
    rw [List.map_cons, List.countP_cons, List.countP_cons]
    omega
  case yes | no | integer | float | text | name =>
    intros
    exact Nat.le_refl _
  case list =>
    intro ts items _ hi
    simp only [Expr.weight_list, List.countP_cons, List.countP_append, List.countP_nil]
    omega
  case parens =>
    intro ts x _ hx
    rw [List.countP_cons, List.countP_append]
    omega
  case call =>
    intro ts us function args _ _ ha
    simp only [Expr.weight_call, List.countP_cons, List.countP_append, List.countP_nil]
    omega
  case itemsNil => exact Nat.le_refl _
  case itemsLast =>
    intro ts x _ hx
    rw [Expr.weightOfList_cons]
    exact hx
  case itemsCons =>
    intro ts us x items _ _ hx hi
    rw [Expr.weightOfList_cons, List.countP_append, List.countP_cons]
    omega
  case argsNil => exact Nat.le_refl _
  case argsLast =>
    intro ts arg _ ha
    rw [Expr.weightOfArgs_cons]
    exact ha
  case argsCons =>
    intro ts us arg args _ _ ha hi
    rw [Expr.weightOfArgs_cons, List.countP_append, List.countP_cons]
    omega
  case positional =>
    intro ts x _ hx
    exact hx
  case named =>
    intro ts x key _ hx
    simp only [List.countP_cons]
    omega

end Grammar

open Grammar

theorem Parser.callOfTokens_weight {line : Nat} {ts : List Located} {c : Call}
    (h : callOfTokens line ts = .ok c) (p : Token → Bool) :
    Expr.weightOfArgs p c.args ≤ (row ts).countP p := by
  rw [callOfTokens] at h
  split at h
  · cases h
  · rename_i e he
    split at h
    · cases h
    · rename_i hrest
      split at h
      · rename_i function args span hvalue
        split at h
        · cases h
        · cases h
          have hx : exprOfTokens line ts = .ok (.call function args span) := by
            rw [exprOfTokens, he]
            simpa [hvalue] using hrest
          have hw := (exprOfTokens_isExpr hx).weight_le (p := p)
          rw [Expr.weight_bare, Expr.weight_call] at hw
          exact Nat.le_trans (Nat.le_add_right _ _) hw
      · cases h

namespace Call

/-- The arguments of a call are read from the tokens of its line. -/
theorem parse_tokens {text : String} {line : Nat} {c : Call}
    (h : parse text line = .ok (some c)) :
    ∃ ts, Lexer.tokens text = .ok ts ∧
      ∀ p, Expr.weightOfArgs p c.args ≤ (row ts).countP p := by
  obtain ⟨ts, hts, hc⟩ := tokens_of_parse h
  exact ⟨ts, hts, Parser.callOfTokens_weight hc⟩

theorem length_args {text : String} {line : Nat} {c : Call}
    (h : parse text line = .ok (some c)) : c.args.length ≤ text.length := by
  obtain ⟨ts, hts, hw⟩ := parse_tokens h
  have hlength := Lexer.length_tokensFrom hts
  have hargs := Expr.length_le_weightOfArgs c.args
  have hall := hw fun _ => true
  rw [List.countP_true, row, List.length_map] at hall
  rw [String.length_toList] at hlength
  omega

theorem isShort {text : String} {line : Nat} {c : Call} (h : parse text line = .ok (some c))
    {arg : Arg} (ha : arg ∈ c.args) {n : Int} {s : Span} (hn : arg.2 = .integer n s) :
    IsShort n := by
  obtain ⟨ts, hts, hw⟩ := parse_tokens h
  have hmem : arg.2.token ∈ row ts :=
    Expr.token_mem fun p => Nat.le_trans (Expr.weight_le_weightOfArgs p ha) (hw p)
  rw [hn] at hmem
  obtain ⟨t, ht, he⟩ := List.mem_map.mp hmem
  have hread := Lexer.isRead_of_mem_tokensFrom hts t ht
  rwa [he] at hread

end Call

end EntropyGame
