import EntropyGame.Source.Expr
import EntropyGame.Source.Lexer
import EntropyGame.Source.ParseError

namespace EntropyGame.Parser

/-- A line's number and the byte where its last token ends. -/
structure Site where
  line : Nat
  stop : Nat

/-- Something read from the head of a line: where its last token ends and the tokens after it, of
which there are fewer. -/
structure Parsed (α : Type) (ts : List Located) where
  value : α
  stop : Nat
  rest : List Located
  shorter : rest.length < ts.length

/-- The same for something that may take no token. -/
structure Extended (α : Type) (ts : List Located) where
  value : α
  stop : Nat
  rest : List Located
  notLonger : rest.length ≤ ts.length

def Site.span (site : Site) (t : Located) : Span :=
  ⟨site.line, t.start, t.stop⟩

/-- The next token, or the end of the line. -/
def Site.here (site : Site) : List Located → Span
  | [] => ⟨site.line, site.stop, site.stop⟩
  | t :: _ => site.span t

def next? : List Located → Option Token
  | [] => none
  | t :: _ => some t.token

def Site.expected (site : Site) (wanted : Symbol) (ts : List Located) : ParseError :=
  ⟨.expected wanted (next? ts), site.here ts⟩

def Site.unexpected (site : Site) (place : Place) (ts : List Located) : ParseError :=
  ⟨.unexpected (next? ts) place, site.here ts⟩

/-- How tightly an operator must bind inside the operand of `not`. -/
def notLevel : Nat := 30

mutual

/-- An expression whose operators bind at least as tightly as `least`. -/
def expr (site : Site) (least : Nat) (ts : List Located) : Except ParseError (Parsed Expr ts) :=
  match operand site ts with
  | .error e => .error e
  | .ok left =>
    have := left.shorter
    match climb site least left.value left.stop left.rest with
    | .error e => .error e
    | .ok whole => .ok ⟨whole.value, whole.stop, whole.rest, by
        have := whole.notLonger
        omega⟩
termination_by (ts.length, 5)

/-- Adds operators and right operands to `left` as long as they bind tightly enough. -/
def climb (site : Site) (least : Nat) (left : Expr) (stop : Nat) (ts : List Located) :
    Except ParseError (Extended Expr ts) :=
  match ts with
  | ⟨.symbol s, _, _⟩ :: rest =>
    match BinaryOp.ofSymbol? s with
    | none => .ok ⟨left, stop, _, Nat.le_refl _⟩
    | some op =>
      if op.level < least then .ok ⟨left, stop, _, Nat.le_refl _⟩
      else
        match expr site (op.level + 1) rest with
        | .error e => .error e
        | .ok right =>
          have := right.shorter
          let joined := .binary op left right.value (left.span.merge right.value.span)
          match climb site least joined right.stop right.rest with
          | .error e => .error e
          | .ok whole => .ok ⟨whole.value, whole.stop, whole.rest, by
              have := whole.notLonger
              simp only [List.length_cons]
              omega⟩
  | ts => .ok ⟨left, stop, ts, Nat.le_refl _⟩
termination_by (ts.length, 4)

/-- An operand: a primary expression after any number of signs and `not`s. -/
def operand (site : Site) (ts : List Located) : Except ParseError (Parsed Expr ts) :=
  match ts with
  | ⟨.symbol .minus, start, _⟩ :: rest =>
    match operand site rest with
    | .error e => .error e
    | .ok inner => .ok ⟨.unary .neg inner.value ⟨site.line, start, inner.stop⟩, inner.stop,
        inner.rest, by
          have := inner.shorter
          simp only [List.length_cons]
          omega⟩
  | ⟨.symbol .not, start, _⟩ :: rest =>
    match expr site notLevel rest with
    | .error e => .error e
    | .ok inner => .ok ⟨.unary .not inner.value ⟨site.line, start, inner.stop⟩, inner.stop,
        inner.rest, by
          have := inner.shorter
          simp only [List.length_cons]
          omega⟩
  | ts => primary site ts
termination_by (ts.length, 3)

/-- An atom, or the call of a name. -/
def primary (site : Site) (ts : List Located) : Except ParseError (Parsed Expr ts) :=
  match atom site ts with
  | .error e => .error e
  | .ok head =>
    have := head.shorter
    match hr : head.rest with
    | ⟨.symbol .openParen, _, _⟩ :: inside =>
      match head.value.name? with
      | none => .error ⟨.callOfNoName, head.value.span⟩
      | some function =>
        match args site inside with
        | .error e => .error e
        | .ok args =>
          let start := match ts with
            | [] => 0
            | t :: _ => t.start
          let span := ⟨site.line, start, args.stop⟩
          match next? args.rest with
          | some (.symbol .openParen) => .error ⟨.callOfNoName, span⟩
          | _ => .ok ⟨.call function args.value span, args.stop, args.rest, by
              have := args.shorter
              have := head.shorter
              simp only [hr, List.length_cons] at this
              omega⟩
    | _ => .ok head
termination_by (ts.length, 2)
decreasing_by
  · exact Prod.Lex.right _ (by omega)
  · have := head.shorter
    simp only [hr, List.length_cons] at this
    exact Prod.Lex.left _ _ (by omega)

/-- A literal, a name, a list, or an expression in parentheses, which keeps its own span. -/
def atom (site : Site) (ts : List Located) : Except ParseError (Parsed Expr ts) :=
  match ts with
  | ⟨.symbol .yes, start, stop⟩ :: rest =>
    .ok ⟨.bool true ⟨site.line, start, stop⟩, stop, rest, Nat.lt_succ_self _⟩
  | ⟨.symbol .no, start, stop⟩ :: rest =>
    .ok ⟨.bool false ⟨site.line, start, stop⟩, stop, rest, Nat.lt_succ_self _⟩
  | ⟨.integer n, start, stop⟩ :: rest =>
    .ok ⟨.integer n ⟨site.line, start, stop⟩, stop, rest, Nat.lt_succ_self _⟩
  | ⟨.float x, start, stop⟩ :: rest =>
    .ok ⟨.float x ⟨site.line, start, stop⟩, stop, rest, Nat.lt_succ_self _⟩
  | ⟨.text s, start, stop⟩ :: rest =>
    .ok ⟨.text s ⟨site.line, start, stop⟩, stop, rest, Nat.lt_succ_self _⟩
  | ⟨.name s, start, stop⟩ :: rest =>
    .ok ⟨.name s ⟨site.line, start, stop⟩, stop, rest, Nat.lt_succ_self _⟩
  | ⟨.symbol .openBracket, start, _⟩ :: rest =>
    match items site rest with
    | .error e => .error e
    | .ok items => .ok ⟨.list items.value ⟨site.line, start, items.stop⟩, items.stop, items.rest, by
        have := items.shorter
        simp only [List.length_cons]
        omega⟩
  | ⟨.symbol .openParen, _, _⟩ :: rest =>
    match expr site 0 rest with
    | .error e => .error e
    | .ok inner =>
      match hr : inner.rest with
      | ⟨.symbol .closeParen, _, stop⟩ :: after => .ok ⟨inner.value, stop, after, by
          have := inner.shorter
          simp only [hr, List.length_cons] at this ⊢
          omega⟩
      | after => .error (site.expected .closeParen after)
  | ts => .error (site.unexpected .inExpression ts)
termination_by (ts.length, 1)

/-- The items of a list up to and with its closing bracket. -/
def items (site : Site) (ts : List Located) : Except ParseError (Parsed (List Expr) ts) :=
  match ts with
  | ⟨.symbol .closeBracket, _, stop⟩ :: rest => .ok ⟨[], stop, rest, Nat.lt_succ_self _⟩
  | ts =>
    match expr site 0 ts with
    | .error e => .error e
    | .ok item =>
      have := item.shorter
      match hr : item.rest with
      | ⟨.symbol .closeBracket, _, stop⟩ :: rest => .ok ⟨[item.value], stop, rest, by
          simp only [hr, List.length_cons] at this
          omega⟩
      | ⟨.symbol .comma, _, _⟩ :: rest =>
        match items site rest with
        | .error e => .error e
        | .ok more => .ok ⟨item.value :: more.value, more.stop, more.rest, by
            have := item.shorter
            have := more.shorter
            simp only [hr, List.length_cons] at *
            omega⟩
      | rest => .error (site.expected .comma rest)
termination_by (ts.length, 6)
decreasing_by
  · exact Prod.Lex.right _ (by omega)
  · simp only [hr, List.length_cons] at this
    exact Prod.Lex.left _ _ (by omega)

/-- The arguments of a call up to and with its closing parenthesis. -/
def args (site : Site) (ts : List Located) : Except ParseError (Parsed (List Arg) ts) :=
  match ts with
  | ⟨.symbol .closeParen, _, stop⟩ :: rest => .ok ⟨[], stop, rest, Nat.lt_succ_self _⟩
  | ts =>
    match arg site ts with
    | .error e => .error e
    | .ok arg =>
      have := arg.shorter
      match hr : arg.rest with
      | ⟨.symbol .closeParen, _, stop⟩ :: rest => .ok ⟨[arg.value], stop, rest, by
          simp only [hr, List.length_cons] at this
          omega⟩
      | ⟨.symbol .comma, _, _⟩ :: rest =>
        match args site rest with
        | .error e => .error e
        | .ok more => .ok ⟨arg.value :: more.value, more.stop, more.rest, by
            have := arg.shorter
            have := more.shorter
            simp only [hr, List.length_cons] at *
            omega⟩
      | rest => .error (site.expected .comma rest)
termination_by (ts.length, 7)
decreasing_by
  · exact Prod.Lex.right _ (by omega)
  · simp only [hr, List.length_cons] at this
    exact Prod.Lex.left _ _ (by omega)

/-- One argument, named if a name and an equals sign stand before it. -/
def arg (site : Site) (ts : List Located) : Except ParseError (Parsed Arg ts) :=
  match ts with
  | ⟨.name key, _, _⟩ :: ⟨.symbol .assign, _, _⟩ :: rest =>
    match expr site 0 rest with
    | .error e => .error e
    | .ok value => .ok ⟨(some key, value.value), value.stop, value.rest, by
        have := value.shorter
        simp only [List.length_cons]
        omega⟩
  | ts =>
    match expr site 0 ts with
    | .error e => .error e
    | .ok value => .ok ⟨(none, value.value), value.stop, value.rest, value.shorter⟩
termination_by (ts.length, 6)

end

end EntropyGame.Parser
