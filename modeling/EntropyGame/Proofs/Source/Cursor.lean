import EntropyGame.Source.Line

namespace EntropyGame

/-- What reads tokens by their position in a line. The position is kept where it fails; there is no
outcome where its calls go deeper than allowed. -/
abbrev Reading :=
  ExceptT ParseError (StateT Nat Option)

namespace Reading

variable {α β : Type} {r : Reading α} {f : α → Reading β} {pos stop : Nat}

/-- What a reading comes to from a position, and the position by then. -/
def outcome (r : Reading α) (pos : Nat) : Option (Except ParseError α × Nat) :=
  r.run.run pos

def cut : Reading α :=
  fun _ => none

theorem outcome_bind_none (h : r.outcome pos = none) : (r >>= f).outcome pos = none := by
  change r pos = _ at h
  change (r pos).bind _ = _
  rw [h]
  rfl

theorem outcome_bind_ok {a : α} (h : r.outcome pos = some (.ok a, stop)) :
    (r >>= f).outcome pos = (f a).outcome stop := by
  change r pos = _ at h
  change (r pos).bind _ = _
  rw [h]
  rfl

theorem outcome_bind_error {e : ParseError} (h : r.outcome pos = some (.error e, stop)) :
    (r >>= f).outcome pos = some (.error e, stop) := by
  change r pos = _ at h
  change (r pos).bind _ = _
  rw [h]
  rfl

end Reading

namespace Cursor

section

variable (line : Nat) (ts : List Located)

def tokenAt (pos : Nat) : Option Token :=
  ts[pos]?.map Located.token

def startAt (pos : Nat) : Nat :=
  (ts[pos]?.map Located.start).getD 0

def stopBefore (pos : Nat) : Nat :=
  (ts[pos - 1]?.map Located.stop).getD 0

def isSymbol (s : Symbol) : Option Token → Bool
  | some (.symbol s') => s' = s
  | _ => false

def current : Reading Nat :=
  get

def peekNth (n : Nat) : Reading (Option Token) := do
  let pos ← current
  return tokenAt ts (pos + n)

def peek : Reading (Option Token) :=
  peekNth ts 0

/-- The next token, which is passed if there is one. -/
def advance : Reading (Option Token) := do
  let t ← peek ts
  if t.isSome then
    modify (· + 1)
  return t

def sees (s : Symbol) : Reading Bool := do
  return isSymbol s (← peek ts)

def atEnd : Reading Bool := do
  let pos ← current
  return ts.length ≤ pos

/-- The bytes from the token at `start` to the last one passed. -/
def spanFrom (start : Nat) : Reading Span := do
  let pos ← current
  return ⟨line, startAt ts start, stopBefore ts pos⟩

/-- The next token, or the end of the line. -/
def here : Reading Span := do
  let pos ← current
  return (Parser.site line ts).here (ts.drop pos)

def expect (s : Symbol) : Reading Span := do
  if ← sees ts s then
    let start ← current
    let _ ← advance ts
    spanFrom line ts start
  else
    throw ⟨.expected s (← peek ts), ← here line ts⟩

/-- The comma behind an entry of a row, if it is not the last one. -/
def separator (close : Symbol) : Reading Unit := do
  if ← sees ts close then
    return
  else
    let _ ← expect line ts .comma

/-- The name before an argument that has one. -/
def key : Reading (Option String) := do
  match ← peek ts, ← peekNth ts 1 with
  | some (.name key), some (.symbol .assign) =>
    let _ ← advance ts
    let _ ← expect line ts .assign
    return some key
  | _, _ => return none

def leaf (e : Span → Expr) : Reading Expr := do
  let start ← current
  let _ ← advance ts
  return e (← spanFrom line ts start)

-- The number is how deep calls may stand in one another, where another round of a loop counts as a
-- call in the round before. What would go deeper has no outcome, which is not the same as failing.
mutual

def expr (least : Nat) : Nat → Reading Expr
  | 0 => .cut
  | depth + 1 => do
    let left ← operand depth
    climb least left depth

def climb (least : Nat) (left : Expr) : Nat → Reading Expr
  | 0 => .cut
  | depth + 1 => do
    match ← peek ts with
    | some (.symbol s) =>
      match BinaryOp.ofSymbol? s with
      | none => return left
      | some op =>
        if op.level < least then
          return left
        else
          let _ ← advance ts
          let right ← expr (op.level + 1) depth
          climb least (.binary op left right (left.span.merge right.span)) depth
    | _ => return left

def operand : Nat → Reading Expr
  | 0 => .cut
  | depth + 1 => do
    let start ← current
    match ← peek ts with
    | some (.symbol .minus) =>
      let _ ← advance ts
      let inner ← operand depth
      return .unary .neg inner (← spanFrom line ts start)
    | some (.symbol .not) =>
      let _ ← advance ts
      let inner ← expr Parser.notLevel depth
      return .unary .not inner (← spanFrom line ts start)
    | _ => primary depth

def primary : Nat → Reading Expr
  | 0 => .cut
  | depth + 1 => do
    let start ← current
    let head ← atom depth
    if ← sees ts .openParen then
      match head.name? with
      | none => throw ⟨.callOfNoName, head.span⟩
      | some function =>
        let args ← arguments depth
        let span ← spanFrom line ts start
        if ← sees ts .openParen then
          throw ⟨.callOfNoName, span⟩
        else
          return .call function args span
    else
      return head

def atom : Nat → Reading Expr
  | 0 => .cut
  | depth + 1 => do
    match ← peek ts with
    | some (.symbol .yes) => leaf line ts (.bool true)
    | some (.symbol .no) => leaf line ts (.bool false)
    | some (.integer n) => leaf line ts (.integer n)
    | some (.float x) => leaf line ts (.float x)
    | some (.text s) => leaf line ts (.text s)
    | some (.name s) => leaf line ts (.name s)
    | some (.symbol .openBracket) => list depth
    | some (.symbol .openParen) => parens depth
    | other => throw ⟨.unexpected other .inExpression, ← here line ts⟩

def list : Nat → Reading Expr
  | 0 => .cut
  | depth + 1 => do
    let start ← current
    let _ ← expect line ts .openBracket
    let items ← items depth
    let _ ← expect line ts .closeBracket
    return .list items (← spanFrom line ts start)

def parens : Nat → Reading Expr
  | 0 => .cut
  | depth + 1 => do
    let _ ← expect line ts .openParen
    let inner ← expr 0 depth
    let _ ← expect line ts .closeParen
    return inner

/-- The loop over the items of a list, which goes on until their closing bracket is seen. -/
def items : Nat → Reading (List Expr)
  | 0 => .cut
  | depth + 1 => do
    if ← sees ts .closeBracket then
      return []
    else
      let x ← item depth
      let more ← items depth
      return x :: more

/-- A round of this loop. -/
def item : Nat → Reading Expr
  | 0 => .cut
  | depth + 1 => do
    let x ← expr 0 depth
    separator line ts .closeBracket
    return x

def arguments : Nat → Reading (List Arg)
  | 0 => .cut
  | depth + 1 => do
    let _ ← expect line ts .openParen
    let args ← args depth
    let _ ← expect line ts .closeParen
    return args

/-- The loop over the arguments of a call, which goes on until their closing parenthesis is seen. -/
def args : Nat → Reading (List Arg)
  | 0 => .cut
  | depth + 1 => do
    if ← sees ts .closeParen then
      return []
    else
      let x ← arg depth
      let more ← args depth
      return x :: more

/-- A round of this loop. -/
def arg : Nat → Reading Arg
  | 0 => .cut
  | depth + 1 => do
    let key ← key line ts
    let x ← expr 0 depth
    separator line ts .closeParen
    return (key, x)

end

/-- The expression that a row of tokens spells from its first token to its last. -/
def whole (depth : Nat) : Reading Expr := do
  let e ← expr line ts 0 depth
  if ← atEnd ts then
    return e
  else
    throw ⟨.unexpected (← peek ts) .afterExpression, ← here line ts⟩

/-- How deep the calls from a position go at most: seven calls lead from a token to the next one at
most, and so many fail at the end of the line. -/
def depthFrom (pos : Nat) : Nat :=
  7 * (ts.length - pos + 1)

end

variable {line : Nat} {ts : List Located} {α β : Type} {pos : Nat}

@[simp] theorem current_bind {f : Nat → Reading β} :
    (current >>= f).outcome pos = (f pos).outcome pos :=
  rfl

@[simp] theorem peekNth_bind {n : Nat} {f : Option Token → Reading β} :
    (peekNth ts n >>= f).outcome pos = (f (tokenAt ts (pos + n))).outcome pos :=
  rfl

@[simp] theorem peek_bind {f : Option Token → Reading β} :
    (peek ts >>= f).outcome pos = (f (tokenAt ts pos)).outcome pos :=
  rfl

@[simp] theorem sees_bind {s : Symbol} {f : Bool → Reading β} :
    (sees ts s >>= f).outcome pos = (f (isSymbol s (tokenAt ts pos))).outcome pos :=
  rfl

@[simp] theorem atEnd_bind {f : Bool → Reading β} :
    (atEnd ts >>= f).outcome pos = (f (ts.length ≤ pos)).outcome pos :=
  rfl

@[simp] theorem spanFrom_bind {start : Nat} {f : Span → Reading β} :
    (spanFrom line ts start >>= f).outcome pos =
      (f ⟨line, startAt ts start, stopBefore ts pos⟩).outcome pos :=
  rfl

@[simp] theorem here_bind {f : Span → Reading β} :
    (here line ts >>= f).outcome pos =
      (f ((Parser.site line ts).here (ts.drop pos))).outcome pos :=
  rfl

theorem lt_length {t : Token} (h : tokenAt ts pos = some t) : pos < ts.length := by
  obtain ⟨_, h, _⟩ := Option.map_eq_some_iff.mp h
  exact (List.getElem?_eq_some_iff.mp h).1

theorem isSymbol_iff {s : Symbol} {t : Option Token} :
    isSymbol s t = true ↔ t = some (.symbol s) := by
  cases t with
  | none => simp [isSymbol]
  | some t => cases t <;> simp [isSymbol]

theorem next?_drop : Parser.next? (ts.drop pos) = tokenAt ts pos := by
  rw [tokenAt, ← List.head?_drop]
  cases ts.drop pos <;> rfl

theorem advance_bind {t : Token} {f : Option Token → Reading β} (h : tokenAt ts pos = some t) :
    (advance ts >>= f).outcome pos = (f (some t)).outcome (pos + 1) := by
  apply Reading.outcome_bind_ok
  rw [advance, peek_bind, h]
  rfl

theorem expect_bind {s : Symbol} {f : Span → Reading β} (h : tokenAt ts pos = some (.symbol s)) :
    (expect line ts s >>= f).outcome pos =
      (f ⟨line, startAt ts pos, stopBefore ts (pos + 1)⟩).outcome (pos + 1) := by
  apply Reading.outcome_bind_ok
  rw [expect, sees_bind, isSymbol_iff.mpr h, if_pos rfl, current_bind, advance_bind h]
  rfl

theorem expect_error {s : Symbol} (h : isSymbol s (tokenAt ts pos) = false) :
    (expect line ts s).outcome pos =
      some (.error ((Parser.site line ts).expected s (ts.drop pos)), pos) := by
  rw [expect, sees_bind, h, if_neg Bool.false_ne_true, peek_bind, here_bind, Parser.Site.expected,
    next?_drop]
  rfl

/-- Whether a reading has halted, at `pos` or further on but not beyond the tokens, and if it
succeeded no sooner than its value calls for. -/
def Halts (ts : List Located) (pos : Nat) (goal : α → Nat)
    (out : Option (Except ParseError α × Nat)) : Prop :=
  ∃ result stop, out = some (result, stop) ∧ pos ≤ stop ∧ stop ≤ max pos ts.length ∧
    ∀ a, result = .ok a → goal a ≤ stop

namespace Halts

variable {r : Reading α} {out : Option (Except ParseError α × Nat)} {goal goal' : α → Nat}
  {stop : Nat}

theorem ok {a : α} (hpos : pos ≤ stop) (hstop : stop ≤ max pos ts.length) (hgoal : goal a ≤ stop) :
    Halts ts pos goal (some (.ok a, stop)) := by
  refine ⟨_, stop, rfl, hpos, hstop, fun _ h => ?_⟩
  cases h
  exact hgoal

theorem error {e : ParseError} (hpos : pos ≤ stop) (hstop : stop ≤ max pos ts.length) :
    Halts ts pos goal (some (.error e, stop)) := by
  refine ⟨_, stop, rfl, hpos, hstop, fun _ h => ?_⟩
  cases h

theorem ok_here {a : α} (hgoal : goal a ≤ pos) : Halts ts pos goal (some (.ok a, pos)) :=
  ok (Nat.le_refl pos) (Nat.le_max_left ..) hgoal

theorem error_here {e : ParseError} : Halts ts pos goal (some (.error e, pos)) :=
  error (Nat.le_refl pos) (Nat.le_max_left ..)

/-- What halts from further on halts from here. -/
theorem earlier (h : Halts ts stop goal' out) (hpos : pos ≤ stop) (hstop : stop ≤ max pos ts.length)
    (hgoal : ∀ a, goal a ≤ max stop (goal' a)) : Halts ts pos goal out := by
  obtain ⟨result, next, hout, hnext, hlen, hreach⟩ := h
  refine ⟨result, next, hout, by omega, by omega, fun a ha => ?_⟩
  have hfar := hreach a ha
  have hnear := hgoal a
  omega

/-- A reading goes on from where another one halted. -/
theorem bind {start : Nat} {f : α → Reading β} {goal' : β → Nat}
    (h : Halts ts start goal (r.outcome start)) (hpos : pos ≤ start)
    (hstart : start ≤ max pos ts.length)
    (hf : ∀ a stop, start ≤ stop → stop ≤ max pos ts.length → goal a ≤ stop →
      Halts ts pos goal' ((f a).outcome stop)) : Halts ts pos goal' ((r >>= f).outcome start) := by
  obtain ⟨result, stop, hout, hstop, hlen, hgoal⟩ := h
  cases result with
  | error e =>
    rw [Reading.outcome_bind_error hout]
    exact error (by omega) (by omega)
  | ok a =>
    rw [Reading.outcome_bind_ok hout]
    exact hf a stop hstop (by omega) (hgoal a rfl)

theorem bind_here {f : α → Reading β} {goal' : β → Nat} (h : Halts ts pos goal (r.outcome pos))
    (hf : ∀ a stop, pos ≤ stop → stop ≤ max pos ts.length → goal a ≤ stop →
      Halts ts pos goal' ((f a).outcome stop)) : Halts ts pos goal' ((r >>= f).outcome pos) :=
  h.bind (Nat.le_refl pos) (Nat.le_max_left ..) hf

/-- What takes a token to succeed fails at the end of the line. -/
theorem error_of_length_le (h : Halts ts pos (fun _ => pos + 1) out) (hpos : ts.length ≤ pos) :
    ∃ e, out = some (.error e, pos) := by
  obtain ⟨result, stop, rfl, hle, hlen, hgoal⟩ := h
  have hstop : stop = pos := by omega
  cases result with
  | error e => exact ⟨e, by rw [hstop]⟩
  | ok a =>
    have hfar : pos + 1 ≤ stop := hgoal a rfl
    omega

end Halts

theorem halts_expect (s : Symbol) :
    Halts ts pos (fun _ => pos + 1) ((expect line ts s).outcome pos) := by
  cases h : isSymbol s (tokenAt ts pos) with
  | false =>
    rw [expect_error h]
    exact .error_here
  | true =>
    have hs := isSymbol_iff.mp h
    have hlt := lt_length hs
    rw [← bind_pure (expect line ts s), expect_bind hs]
    exact .ok (by omega) (by omega) (Nat.le_refl _)

theorem halts_separator (close : Symbol) :
    Halts ts pos (fun _ => pos) ((separator line ts close).outcome pos) := by
  rw [separator, sees_bind]
  split
  · exact .ok_here (Nat.le_refl pos)
  · apply (halts_expect .comma).bind_here
    intro _ stop hstop hlen _
    exact .ok hstop hlen hstop

theorem halts_key : Halts ts pos (fun _ => pos) ((key line ts).outcome pos) := by
  rw [key, peek_bind, peekNth_bind]
  split
  · rename_i hname hassign
    have hlt := lt_length hassign
    rw [advance_bind hname, expect_bind hassign]
    exact .ok (by omega) (by omega) (by omega)
  · exact .ok_here (Nat.le_refl pos)

theorem halts_leaf {t : Token} (e : Span → Expr) (h : tokenAt ts pos = some t) :
    Halts ts pos (fun _ => pos + 1) ((leaf line ts e).outcome pos) := by
  have hlt := lt_length h
  rw [leaf, current_bind, advance_bind h, spanFrom_bind]
  exact .ok (by omega) (by omega) (Nat.le_refl _)

/-- What stands between two symbols halts if its inside does. -/
theorem halts_between {before after : Symbol} {r : Reading α} {f : α → Reading β}
    {goal : Nat → α → Nat}
    (hr : ∀ start, pos < start → start ≤ ts.length → Halts ts start (goal start) (r.outcome start))
    (hf : ∀ a stop, Halts ts stop (fun _ => stop) ((f a).outcome stop)) :
    Halts ts pos (fun _ => pos + 1) ((do
      let _ ← expect line ts before
      let a ← r
      let _ ← expect line ts after
      f a : Reading β).outcome pos) := by
  apply (halts_expect before).bind_here
  intro _ start _ hlen hstart
  apply (hr start (by omega) (by omega)).bind (by omega) hlen
  intro a stop hstop hlen _
  apply (halts_expect after).bind (by omega) hlen
  intro _ next hnext hlen _
  refine (hf a next).earlier (by omega) hlen fun _ => ?_
  omega

/-- A loop halts if its rounds do and it halts from further on. -/
theorem halts_row {close : Symbol} {entry : Reading α} {row : Reading (List α)}
    (hentry : Halts ts pos (fun _ => pos + 1) (entry.outcome pos))
    (hrow : ∀ start, pos < start → start ≤ ts.length →
      Halts ts start (fun xs => start + xs.length) (row.outcome start)) :
    Halts ts pos (fun xs => pos + xs.length) ((do
      if ← sees ts close then
        return []
      else
        let x ← entry
        let more ← row
        return x :: more : Reading (List α)).outcome pos) := by
  rw [sees_bind]
  split
  · exact .ok_here (Nat.le_refl pos)
  · apply hentry.bind_here
    intro x start _ hlen hstart
    apply (hrow start (by omega) (by omega)).bind (by omega) hlen
    intro more stop hstop hlen hmore
    refine .ok (by omega) hlen ?_
    rw [List.length_cons]
    omega

/-- Whether all that recurses halts from a position with its calls this deep at most; what reads an
expression takes a token at least, and so does each round of a loop. -/
structure HaltsFrom (line : Nat) (ts : List Located) (pos depth : Nat) : Prop where
  expr : ∀ least, Halts ts pos (fun _ => pos + 1) ((expr line ts least depth).outcome pos)
  climb : ∀ least left, Halts ts pos (fun _ => pos) ((climb line ts least left depth).outcome pos)
  operand : Halts ts pos (fun _ => pos + 1) ((operand line ts depth).outcome pos)
  primary : Halts ts pos (fun _ => pos + 1) ((primary line ts depth).outcome pos)
  atom : Halts ts pos (fun _ => pos + 1) ((atom line ts depth).outcome pos)
  list : Halts ts pos (fun _ => pos + 1) ((list line ts depth).outcome pos)
  parens : Halts ts pos (fun _ => pos + 1) ((parens line ts depth).outcome pos)
  items : Halts ts pos (fun xs => pos + xs.length) ((items line ts depth).outcome pos)
  item : Halts ts pos (fun _ => pos + 1) ((item line ts depth).outcome pos)
  arguments : Halts ts pos (fun _ => pos + 1) ((arguments line ts depth).outcome pos)
  args : Halts ts pos (fun xs => pos + xs.length) ((args line ts depth).outcome pos)
  arg : Halts ts pos (fun _ => pos + 1) ((arg line ts depth).outcome pos)

section

-- What is added to `depth` below is the place in the chain of calls that lead to the next token.
variable {depth : Nat}
  (later : ∀ start depth, pos < start → start ≤ ts.length → depthFrom ts start ≤ depth →
    HaltsFrom line ts start depth)

include later

/-- What is read from a token on may go as deep as what is read behind it. -/
theorem halts_after (h : 7 * (ts.length - pos) ≤ depth) {start : Nat} (hstart : pos < start)
    (hlen : start ≤ ts.length) : HaltsFrom line ts start depth := by
  apply later start depth hstart hlen
  rw [depthFrom]
  omega

theorem halts_list (h : 7 * (ts.length - pos) ≤ depth) :
    Halts ts pos (fun _ => pos + 1) ((list line ts (depth + 1)).outcome pos) := by
  rw [list, current_bind]
  apply halts_between
  · intro start hstart hlen
    exact (halts_after later h hstart hlen).items
  · intro items stop
    exact .ok_here (Nat.le_refl stop)

theorem halts_parens (h : 7 * (ts.length - pos) ≤ depth) :
    Halts ts pos (fun _ => pos + 1) ((parens line ts (depth + 1)).outcome pos) := by
  rw [parens]
  apply halts_between
  · intro start hstart hlen
    exact (halts_after later h hstart hlen).expr 0
  · intro inner stop
    exact .ok_here (Nat.le_refl stop)

theorem halts_arguments (h : 7 * (ts.length - pos) ≤ depth) :
    Halts ts pos (fun _ => pos + 1) ((arguments line ts (depth + 1)).outcome pos) := by
  rw [arguments]
  apply halts_between
  · intro start hstart hlen
    exact (halts_after later h hstart hlen).args
  · intro args stop
    exact .ok_here (Nat.le_refl stop)

theorem halts_atom (h : 7 * (ts.length - pos) ≤ depth) :
    Halts ts pos (fun _ => pos + 1) ((atom line ts (depth + 2)).outcome pos) := by
  rw [atom, peek_bind]
  split
  case h_7 => exact halts_list later h
  case h_8 => exact halts_parens later h
  case h_9 => exact .error_here
  all_goals
    rename_i ht
    exact halts_leaf _ ht

theorem halts_primary (h : 7 * (ts.length - pos) ≤ depth) :
    Halts ts pos (fun _ => pos + 1) ((primary line ts (depth + 3)).outcome pos) := by
  rw [primary, current_bind]
  apply (halts_atom later h).bind_here
  intro head start hle hlen hstart
  rw [sees_bind]
  split
  · split
    · exact .error hle hlen
    · have hargs : Halts ts start (fun _ => start + 1)
          ((arguments line ts (depth + 2)).outcome start) :=
        halts_arguments (fun next depth hnext => later next depth (by omega)) (by omega)
      apply hargs.bind hle hlen
      intro args stop hstop hlen _
      rw [spanFrom_bind, sees_bind]
      split
      · exact .error (by omega) hlen
      · exact .ok (by omega) hlen (by omega)
  · exact .ok hle hlen hstart

theorem halts_operand (h : 7 * (ts.length - pos) ≤ depth) :
    Halts ts pos (fun _ => pos + 1) ((operand line ts (depth + 4)).outcome pos) := by
  have h' : 7 * (ts.length - pos) ≤ depth + 3 := by omega
  rw [operand, current_bind, peek_bind]
  split
  · rename_i ht
    have hlt := lt_length ht
    rw [advance_bind ht]
    apply (halts_after later h' (Nat.lt_succ_self pos) hlt).operand.bind (by omega) (by omega)
    intro inner stop _ hlen _
    exact .ok (by omega) hlen (by omega)
  · rename_i ht
    have hlt := lt_length ht
    rw [advance_bind ht]
    apply ((halts_after later h' (Nat.lt_succ_self pos) hlt).expr _).bind (by omega) (by omega)
    intro inner stop _ hlen _
    exact .ok (by omega) hlen (by omega)
  · exact halts_primary later h

theorem halts_climb (h : 7 * (ts.length - pos) ≤ depth) (least : Nat) (left : Expr) :
    Halts ts pos (fun _ => pos) ((climb line ts least left (depth + 1)).outcome pos) := by
  rw [climb, peek_bind]
  split
  · rename_i ht
    have hlt := lt_length ht
    split
    · exact .ok_here (Nat.le_refl pos)
    · split
      · exact .ok_here (Nat.le_refl pos)
      · rw [advance_bind ht]
        apply ((halts_after later h (Nat.lt_succ_self pos) hlt).expr _).bind (by omega) (by omega)
        intro right stop _ hlen _
        refine ((halts_after later h (by omega) (by omega)).climb _ _).earlier (by omega) hlen
          fun _ => ?_
        omega
  · exact .ok_here (Nat.le_refl pos)

theorem halts_expr (h : 7 * (ts.length - pos) ≤ depth) (least : Nat) :
    Halts ts pos (fun _ => pos + 1) ((expr line ts least (depth + 5)).outcome pos) := by
  rw [expr]
  apply (halts_operand later h).bind_here
  intro left stop hle hlen hstop
  have hclimb : HaltsFrom line ts stop (depth + 4) :=
    halts_after later (by omega) (by omega) (by omega)
  refine (hclimb.climb least left).earlier hle hlen fun _ => ?_
  omega

theorem halts_item (h : 7 * (ts.length - pos) ≤ depth) :
    Halts ts pos (fun _ => pos + 1) ((item line ts (depth + 6)).outcome pos) := by
  rw [item]
  apply (halts_expr later h 0).bind_here
  intro x start hle hlen _
  apply (halts_separator .closeBracket).bind hle hlen
  intro _ stop _ hlen _
  exact .ok (by omega) hlen (by omega)

theorem halts_arg (h : 7 * (ts.length - pos) ≤ depth) :
    Halts ts pos (fun _ => pos + 1) ((arg line ts (depth + 6)).outcome pos) := by
  rw [arg]
  apply halts_key.bind_here
  intro key start hle hlen _
  have hx : Halts ts start (fun _ => start + 1) ((expr line ts 0 (depth + 5)).outcome start) :=
    halts_expr (fun next depth hnext => later next depth (by omega)) (by omega) 0
  apply hx.bind hle hlen
  intro x next _ hlen _
  apply (halts_separator .closeParen).bind (by omega) hlen
  intro _ stop _ hlen _
  exact .ok (by omega) hlen (by omega)

theorem halts_items (h : 7 * (ts.length - pos) ≤ depth) :
    Halts ts pos (fun xs => pos + xs.length) ((items line ts (depth + 7)).outcome pos) := by
  rw [items]
  apply halts_row (halts_item later h)
  intro start hstart hlen
  exact (halts_after later (by omega) hstart hlen).items

theorem halts_args (h : 7 * (ts.length - pos) ≤ depth) :
    Halts ts pos (fun xs => pos + xs.length) ((args line ts (depth + 7)).outcome pos) := by
  rw [args]
  apply halts_row (halts_arg later h)
  intro start hstart hlen
  exact (halts_after later (by omega) hstart hlen).args

end

theorem haltsFrom (line : Nat) (ts : List Located) (pos : Nat) {depth : Nat}
    (hdepth : depthFrom ts pos ≤ depth) : HaltsFrom line ts pos depth := by
  -- on the tokens left; where none is taken between two calls, the lemmas are in the calls' order
  induction hn : ts.length - pos using Nat.strongRecOn generalizing pos depth with
  | ind n ih =>
    have later : ∀ start depth, pos < start → start ≤ ts.length → depthFrom ts start ≤ depth →
        HaltsFrom line ts start depth :=
      fun start depth hstart hlen h => ih (ts.length - start) (by omega) start h rfl
    obtain ⟨depth, rfl⟩ := Nat.exists_eq_add_of_le' (Nat.le_trans (Nat.le_add_left 7 _) hdepth)
    have h : 7 * (ts.length - pos) ≤ depth := by
      rw [depthFrom] at hdepth
      omega
    exact
      { expr := halts_expr later (Nat.le_add_right_of_le h)
        climb := halts_climb later (Nat.le_add_right_of_le h)
        operand := halts_operand later (Nat.le_add_right_of_le h)
        primary := halts_primary later (Nat.le_add_right_of_le h)
        atom := halts_atom later (Nat.le_add_right_of_le h)
        list := halts_list later (Nat.le_add_right_of_le h)
        parens := halts_parens later (Nat.le_add_right_of_le h)
        items := halts_items later h
        item := halts_item later (Nat.le_add_right_of_le h)
        arguments := halts_arguments later (Nat.le_add_right_of_le h)
        args := halts_args later h
        arg := halts_arg later (Nat.le_add_right_of_le h) }

end Cursor

end EntropyGame
