import EntropyGame.Proofs.Source.Cursor

namespace EntropyGame

namespace Cursor

open EntropyGame.Parser (Parsed Extended site)

variable {line : Nat} {ts l rest : List Located} {t : Located} {α β γ : Type} {pos : Nat}

/-- Whether a reading by position, if it has an outcome, has come to what is read from the head of a
list: to the same fault, or to the same value with the same tokens left. -/
def Agrees (ts : List Located) (out : Option (Except ParseError α × Nat))
    (found : Except ParseError (α × Nat × List Located)) : Prop :=
  ∀ result pos, out = some (result, pos) →
    found = result.map fun a => (a, stopBefore ts pos, ts.drop pos)

/-- What is read, without the proof that fewer tokens are left. -/
def parsed (p : Parsed α l) : α × Nat × List Located :=
  (p.value, p.stop, p.rest)

def extended (p : Extended α l) : α × Nat × List Located :=
  (p.value, p.stop, p.rest)

namespace Agrees

variable {r : Reading α}

theorem cut {found : Except ParseError (α × Nat × List Located)} : Agrees ts none found := by
  intro _ _ h
  cases h

theorem error {e : ParseError} :
    Agrees ts (some (.error e, pos)) (.error e : Except _ (α × Nat × List Located)) := by
  intro _ _ h
  cases h
  rfl

theorem ok {a : α} {stop : Nat} (hstop : stop = stopBefore ts pos) (hrest : rest = ts.drop pos) :
    Agrees ts (some (.ok a, pos)) (.ok (a, stop, rest)) := by
  subst hstop hrest
  intro _ _ h
  cases h
  rfl

theorem bind_error {e : ParseError} {f : α → Reading β}
    (h : Agrees ts (r.outcome pos) (.error e)) :
    Agrees ts ((r >>= f).outcome pos) (.error e) := by
  cases hr : r.outcome pos with
  | none =>
    rw [Reading.outcome_bind_none hr]
    exact .cut
  | some out =>
    obtain ⟨result, next⟩ := out
    have hresult := h result next hr
    cases result with
    | error e' =>
      cases hresult
      rw [Reading.outcome_bind_error hr]
      exact .error
    | ok a => cases hresult

theorem bind_ok {a : α} {stop : Nat} {f : α → Reading β}
    {whole : Except ParseError (β × Nat × List Located)}
    (h : Agrees ts (r.outcome pos) (.ok (a, stop, rest)))
    (hf : ∀ next, stop = stopBefore ts next → rest = ts.drop next →
      Agrees ts ((f a).outcome next) whole) :
    Agrees ts ((r >>= f).outcome pos) whole := by
  cases hr : r.outcome pos with
  | none =>
    rw [Reading.outcome_bind_none hr]
    exact .cut
  | some out =>
    obtain ⟨result, next⟩ := out
    have hresult := h result next hr
    cases result with
    | error e => cases hresult
    | ok a' =>
      cases hresult
      rw [Reading.outcome_bind_ok hr]
      exact hf next rfl rfl

theorem bind {f : α → Reading β} {found : Except ParseError γ} {view : γ → α × Nat × List Located}
    {whole : Except ParseError (β × Nat × List Located)}
    (h : Agrees ts (r.outcome pos) (found.map view))
    (herror : ∀ e, found = .error e → whole = .error e)
    (hok : ∀ p next, found = .ok p → (view p).2.1 = stopBefore ts next →
      (view p).2.2 = ts.drop next → Agrees ts ((f (view p).1).outcome next) whole) :
    Agrees ts ((r >>= f).outcome pos) whole := by
  cases found with
  | error e =>
    rw [herror e rfl]
    exact h.bind_error
  | ok p => exact h.bind_ok fun next => hok p next rfl

end Agrees

section

variable {token : Token} {start stop : Nat}

theorem getElem?_eq_head? (h : ts.drop pos = l) : ts[pos]? = l.head? := by
  rw [← h, List.head?_drop]

theorem tokenAt_cons (h : ts.drop pos = t :: rest) : tokenAt ts pos = some t.token := by
  rw [tokenAt, getElem?_eq_head? h]
  rfl

theorem startAt_cons (h : ts.drop pos = t :: rest) : startAt ts pos = t.start := by
  rw [startAt, getElem?_eq_head? h]
  rfl

theorem stopBefore_cons (h : ts.drop pos = t :: rest) : stopBefore ts (pos + 1) = t.stop := by
  rw [stopBefore, Nat.add_sub_cancel, getElem?_eq_head? h]
  rfl

theorem drop_succ (h : ts.drop pos = t :: rest) : ts.drop (pos + 1) = rest := by
  rw [← List.drop_drop, h]
  rfl

theorem of_tokenAt (h : tokenAt ts pos = some token) :
    ∃ start stop rest, ts.drop pos = ⟨token, start, stop⟩ :: rest := by
  rw [tokenAt, ← List.head?_drop] at h
  obtain ⟨⟨_, start, stop⟩, hhead, rfl⟩ := Option.map_eq_some_iff.mp h
  obtain ⟨rest, hl⟩ := List.head?_eq_some_iff.mp hhead
  exact ⟨start, stop, rest, hl⟩

theorem isSymbol_cons {s : Symbol} (h : ts.drop pos = ⟨.symbol s, start, stop⟩ :: rest) :
    isSymbol s (tokenAt ts pos) = true :=
  isSymbol_iff.mpr (tokenAt_cons h)

theorem isSymbol_eq_false {s : Symbol}
    (h : ∀ start stop rest, ts.drop pos = ⟨.symbol s, start, stop⟩ :: rest → False) :
    isSymbol s (tokenAt ts pos) = false := by
  rw [Bool.eq_false_iff]
  intro hs
  obtain ⟨start, stop, rest, hl⟩ := of_tokenAt (isSymbol_iff.mp hs)
  exact h start stop rest hl

theorem agrees_leaf (e : Span → Expr) (h : ts.drop pos = ⟨token, start, stop⟩ :: rest) :
    Agrees ts ((leaf line ts e).outcome pos) (.ok (e ⟨line, start, stop⟩, stop, rest)) := by
  rw [leaf, current_bind, advance_bind (tokenAt_cons h), spanFrom_bind, startAt_cons h,
    stopBefore_cons h]
  exact .ok (stopBefore_cons h).symm (drop_succ h).symm

theorem agrees_expect {s : Symbol} {f : Span → Reading β} (hrest : rest = ts.drop pos)
    (h : ∀ start stop after, rest = ⟨.symbol s, start, stop⟩ :: after → False) :
    Agrees ts ((expect line ts s >>= f).outcome pos)
      (.error ((site line ts).expected s rest) : Except _ (β × Nat × List Located)) := by
  subst hrest
  rw [Reading.outcome_bind_error (expect_error (isSymbol_eq_false h))]
  exact .error

end

section

variable {close : Symbol} {start stop : Nat} {f : Unit → Reading β}

theorem separator_last (h : ts.drop pos = ⟨.symbol close, start, stop⟩ :: rest) :
    (separator line ts close >>= f).outcome pos = (f ()).outcome pos := by
  apply Reading.outcome_bind_ok
  rw [separator, sees_bind, isSymbol_cons h]
  rfl

theorem separator_comma (h : ts.drop pos = ⟨.symbol .comma, start, stop⟩ :: rest)
    (hclose : close ≠ .comma) :
    (separator line ts close >>= f).outcome pos = (f ()).outcome (pos + 1) := by
  have hcomma : isSymbol close (tokenAt ts pos) = false := by
    rw [tokenAt_cons h]
    exact decide_eq_false hclose.symm
  apply Reading.outcome_bind_ok
  rw [separator, sees_bind, hcomma, if_neg Bool.false_ne_true, expect_bind (tokenAt_cons h)]
  rfl

theorem agrees_separator (hrest : rest = ts.drop pos)
    (hclose : ∀ start stop after, rest = ⟨.symbol close, start, stop⟩ :: after → False)
    (hcomma : ∀ start stop after, rest = ⟨.symbol .comma, start, stop⟩ :: after → False) :
    Agrees ts ((separator line ts close >>= f).outcome pos)
      (.error ((site line ts).expected .comma rest) : Except _ (β × Nat × List Located)) := by
  subst hrest
  have hsep : (separator line ts close).outcome pos =
      some (.error ((site line ts).expected .comma (ts.drop pos)), pos) := by
    rw [separator, sees_bind, isSymbol_eq_false hclose, if_neg Bool.false_ne_true]
    exact Reading.outcome_bind_error (expect_error (isSymbol_eq_false hcomma))
  rw [Reading.outcome_bind_error hsep]
  exact .error

end

/-- The rest of a row up to and with the symbol that closes it. -/
def upTo (line : Nat) (ts : List Located) (close : Symbol) (row : Reading α) : Reading α := do
  let xs ← row
  let _ ← expect line ts close
  return xs

section

variable {close : Symbol} {entry : Reading α} {row : Reading (List α)}

theorem upTo_bind {r : Reading α} {f : α → Reading β} :
    upTo line ts close r >>= f = r >>= fun xs => expect line ts close >>= fun _ => f xs := by
  simp only [upTo, bind_assoc, pure_bind]

theorem upTo_last (h : isSymbol close (tokenAt ts pos) = true) :
    (upTo line ts close (do
      if ← sees ts close then
        return []
      else
        let x ← entry
        let more ← row
        return x :: more)).outcome pos = some (.ok [], pos + 1) := by
  rw [upTo, bind_assoc, sees_bind, h, if_pos rfl, pure_bind, expect_bind (isSymbol_iff.mp h)]
  rfl

theorem upTo_next (h : isSymbol close (tokenAt ts pos) = false) :
    (upTo line ts close (do
      if ← sees ts close then
        return []
      else
        let x ← entry
        let more ← row
        return x :: more)).outcome pos = (do
      let x ← entry
      let more ← upTo line ts close row
      return x :: more : Reading (List α)).outcome pos := by
  rw [upTo, bind_assoc, sees_bind, h, if_neg Bool.false_ne_true]
  simp only [upTo, bind_assoc, pure_bind]

end

section

variable {close : Symbol} {row : Reading (List α)} {x : α} {start stop next : Nat}

/-- Behind the last entry of a row stands the symbol that closes it. -/
theorem agrees_last (h : ts.drop next = ⟨.symbol close, start, stop⟩ :: rest)
    (hrow : Agrees ts ((upTo line ts close row).outcome next) (.ok ([], stop, rest))) :
    Agrees ts ((separator line ts close >>= fun _ =>
      upTo line ts close row >>= fun more => pure (x :: more)).outcome next)
      (.ok ([x], stop, rest)) := by
  rw [separator_last h]
  exact hrow.bind_ok fun _ hstop hrest => .ok hstop hrest

/-- Behind another entry stands a comma. -/
theorem agrees_more {found : Except ParseError (Parsed (List α) rest)}
    {whole : Except ParseError (List α × Nat × List Located)}
    (h : ts.drop next = ⟨.symbol .comma, start, stop⟩ :: rest) (hclose : close ≠ .comma)
    (hrow : Agrees ts ((upTo line ts close row).outcome (next + 1)) (found.map parsed))
    (herror : ∀ e, found = .error e → whole = .error e)
    (hok : ∀ more, found = .ok more → whole = .ok (x :: more.value, more.stop, more.rest)) :
    Agrees ts ((separator line ts close >>= fun _ =>
      upTo line ts close row >>= fun more => pure (x :: more)).outcome next) whole := by
  rw [separator_comma h hclose]
  refine hrow.bind herror fun more _ hfound hstop hrest => ?_
  rw [hok more hfound]
  exact .ok hstop hrest

end

/-- An argument without what follows it. -/
def argument (line : Nat) (ts : List Located) (depth : Nat) : Reading Arg := do
  let key ← key line ts
  let x ← expr line ts 0 depth
  return (key, x)

theorem arg_eq {depth : Nat} : arg line ts (depth + 1) = argument line ts depth >>= fun x =>
    separator line ts .closeParen >>= fun _ => pure x := by
  rw [arg]
  simp only [argument, bind_assoc, pure_bind]

/-- Whether reading by position agrees from a position with the parser of the tokens from there on;
a loop is taken together with the symbol that closes it. -/
structure AgreesFrom (line : Nat) (ts : List Located) (pos depth : Nat) : Prop where
  expr : ∀ least, Agrees ts ((expr line ts least depth).outcome pos)
    ((Parser.expr (site line ts) least (ts.drop pos)).map parsed)
  climb : ∀ least left, Agrees ts ((climb line ts least left depth).outcome pos)
    ((Parser.climb (site line ts) least left (stopBefore ts pos) (ts.drop pos)).map extended)
  operand : Agrees ts ((operand line ts depth).outcome pos)
    ((Parser.operand (site line ts) (ts.drop pos)).map parsed)
  primary : Agrees ts ((primary line ts depth).outcome pos)
    ((Parser.primary (site line ts) (ts.drop pos)).map parsed)
  atom : Agrees ts ((atom line ts depth).outcome pos)
    ((Parser.atom (site line ts) (ts.drop pos)).map parsed)
  items : Agrees ts ((upTo line ts .closeBracket (items line ts depth)).outcome pos)
    ((Parser.items (site line ts) (ts.drop pos)).map parsed)
  args : Agrees ts ((upTo line ts .closeParen (args line ts depth)).outcome pos)
    ((Parser.args (site line ts) (ts.drop pos)).map parsed)

section

-- Lists, parentheses and the rounds of a loop are calls of their own only where positions are read;
-- for what these calls read in turn, agreement is needed at a depth less by two.
variable {depth : Nat} (within : ∀ d ≤ depth, ∀ pos, AgreesFrom line ts pos d)

include within

theorem agrees_list {start stop : Nat}
    (hl : ts.drop pos = ⟨.symbol .openBracket, start, stop⟩ :: rest) :
    Agrees ts ((list line ts (depth + 1)).outcome pos)
      ((Parser.atom (site line ts) (ts.drop pos)).map parsed) := by
  have hitems := (within depth (Nat.le_refl depth) (pos + 1)).items
  rw [drop_succ hl] at hitems
  rw [list, current_bind, expect_bind (tokenAt_cons hl), ← upTo_bind, hl, Parser.atom]
  refine hitems.bind (fun e h => by rw [h]; rfl) fun items next h hstop hrest => ?_
  rw [h, spanFrom_bind, startAt_cons hl, ← hstop]
  exact .ok hstop hrest

theorem agrees_parens {start stop : Nat}
    (hl : ts.drop pos = ⟨.symbol .openParen, start, stop⟩ :: rest) :
    Agrees ts ((parens line ts (depth + 1)).outcome pos)
      ((Parser.atom (site line ts) (ts.drop pos)).map parsed) := by
  have hinner := (within depth (Nat.le_refl depth) (pos + 1)).expr 0
  rw [drop_succ hl] at hinner
  rw [parens, expect_bind (tokenAt_cons hl), hl, Parser.atom]
  refine hinner.bind (fun e h => by rw [h]; rfl) fun inner next h hstop hrest => ?_
  rw [h]
  obtain ⟨value, _, after, shorter⟩ := inner
  dsimp only [parsed] at hrest ⊢
  split
  · have hclose := hrest.symm
    rw [expect_bind (tokenAt_cons hclose)]
    exact .ok (stopBefore_cons hclose).symm (drop_succ hclose).symm
  · rename_i hclose
    exact agrees_expect hrest hclose

theorem agrees_arguments {start stop : Nat}
    (hl : ts.drop pos = ⟨.symbol .openParen, start, stop⟩ :: rest) :
    Agrees ts ((arguments line ts (depth + 1)).outcome pos)
      ((Parser.args (site line ts) rest).map parsed) := by
  have hargs := (within depth (Nat.le_refl depth) (pos + 1)).args
  rw [drop_succ hl] at hargs
  rw [arguments, expect_bind (tokenAt_cons hl)]
  exact hargs

theorem agrees_atom : Agrees ts ((atom line ts (depth + 1)).outcome pos)
    ((Parser.atom (site line ts) (ts.drop pos)).map parsed) := by
  rw [atom, peek_bind]
  split
  case h_7 =>
    rename_i h
    obtain ⟨_, _, _, hl⟩ := of_tokenAt h
    cases depth with
    | zero => exact .cut
    | succ depth => exact agrees_list (fun d hd => within d (Nat.le_succ_of_le hd)) hl
  case h_8 =>
    rename_i h
    obtain ⟨_, _, _, hl⟩ := of_tokenAt h
    cases depth with
    | zero => exact .cut
    | succ depth => exact agrees_parens (fun d hd => within d (Nat.le_succ_of_le hd)) hl
  case h_9 =>
    rename_i hyes hno hinteger hfloat htext hname hbracket hparen
    rw [Parser.atom]
    · rw [here_bind, ← next?_drop]
      exact .error
    · exact fun _ _ _ hl => hyes (tokenAt_cons hl)
    · exact fun _ _ _ hl => hno (tokenAt_cons hl)
    · exact fun _ _ _ _ hl => hinteger _ (tokenAt_cons hl)
    · exact fun _ _ _ _ hl => hfloat _ (tokenAt_cons hl)
    · exact fun _ _ _ _ hl => htext _ (tokenAt_cons hl)
    · exact fun _ _ _ _ hl => hname _ (tokenAt_cons hl)
    · exact fun _ _ _ hl => hbracket (tokenAt_cons hl)
    · exact fun _ _ _ hl => hparen (tokenAt_cons hl)
  all_goals
    rename_i h
    obtain ⟨_, _, _, hl⟩ := of_tokenAt h
    rw [hl, Parser.atom]
    exact agrees_leaf _ hl

theorem agrees_primary : Agrees ts ((primary line ts (depth + 1)).outcome pos)
    ((Parser.primary (site line ts) (ts.drop pos)).map parsed) := by
  have hatom := (within depth (Nat.le_refl depth) pos).atom
  rw [primary, current_bind]
  generalize hpos : ts.drop pos = l at hatom ⊢
  rw [Parser.primary]
  refine hatom.bind (fun e h => by rw [h]; rfl) fun head next h hstop hrest => ?_
  obtain ⟨value, stop, rest, shorter⟩ := head
  dsimp only [parsed] at hstop hrest
  rw [h, sees_bind]
  split
  · rename_i hopen
    obtain ⟨_, _, inside, hl⟩ := of_tokenAt (isSymbol_iff.mp hopen)
    obtain rfl := hrest.trans hl
    have hargs : Agrees ts ((arguments line ts depth).outcome next)
        ((Parser.args (site line ts) inside).map parsed) := by
      cases depth with
      | zero => exact .cut
      | succ depth => exact agrees_arguments (fun d hd => within d (Nat.le_succ_of_le hd)) hl
    dsimp only [parsed]
    cases value.name? with
    | none => exact .error
    | some function =>
      refine hargs.bind (fun e h => by rw [h]; rfl) fun args next h hstop hrest => ?_
      have hnext : Parser.next? args.rest = tokenAt ts next := by
        rw [show args.rest = ts.drop next from hrest, next?_drop]
      dsimp only
      rw [h, spanFrom_bind, sees_bind, ← hstop]
      cases l with
      | nil => cases shorter
      | cons t tail =>
        rw [startAt_cons hpos]
        dsimp only
        rw [hnext]
        split
        · rename_i hopen
          rw [isSymbol_iff.mp hopen]
          exact .error
        · rename_i hopen
          split
          · rename_i h
            exact absurd (isSymbol_iff.mpr h) hopen
          · exact .ok hstop hrest
  · rename_i hopen
    dsimp only
    split
    · exact absurd (isSymbol_cons hrest.symm) hopen
    · exact .ok hstop hrest

theorem agrees_operand : Agrees ts ((operand line ts (depth + 1)).outcome pos)
    ((Parser.operand (site line ts) (ts.drop pos)).map parsed) := by
  have hbehind := within depth (Nat.le_refl depth) (pos + 1)
  rw [operand, current_bind, peek_bind]
  split
  · rename_i h
    obtain ⟨start, stop, rest, hl⟩ := of_tokenAt h
    have hinner := hbehind.operand
    rw [drop_succ hl] at hinner
    rw [hl, advance_bind h, Parser.operand]
    refine hinner.bind (fun e h => by rw [h]; rfl) fun inner next h hstop hrest => ?_
    rw [h, spanFrom_bind, startAt_cons hl, ← hstop]
    exact .ok hstop hrest
  · rename_i h
    obtain ⟨start, stop, rest, hl⟩ := of_tokenAt h
    have hinner := hbehind.expr Parser.notLevel
    rw [drop_succ hl] at hinner
    rw [hl, advance_bind h, Parser.operand]
    refine hinner.bind (fun e h => by rw [h]; rfl) fun inner next h hstop hrest => ?_
    rw [h, spanFrom_bind, startAt_cons hl, ← hstop]
    exact .ok hstop hrest
  · rename_i hminus hnot
    rw [Parser.operand]
    · exact (within depth (Nat.le_refl depth) pos).primary
    · exact fun _ _ _ hl => hminus (tokenAt_cons hl)
    · exact fun _ _ _ hl => hnot (tokenAt_cons hl)

theorem agrees_climb (least : Nat) (left : Expr) :
    Agrees ts ((climb line ts least left (depth + 1)).outcome pos)
      ((Parser.climb (site line ts) least left (stopBefore ts pos) (ts.drop pos)).map
        extended) := by
  rw [climb, peek_bind]
  split
  · rename_i s h
    obtain ⟨start, stop, rest, hl⟩ := of_tokenAt h
    rw [hl, Parser.climb]
    cases BinaryOp.ofSymbol? s with
    | none => exact .ok rfl hl.symm
    | some op =>
      dsimp only
      split
      · exact .ok rfl hl.symm
      · have hright := (within depth (Nat.le_refl depth) (pos + 1)).expr (op.level + 1)
        rw [drop_succ hl] at hright
        rw [advance_bind h]
        refine hright.bind (fun e h => by rw [h]; rfl) fun right next h hstop hrest => ?_
        obtain ⟨value, _, _, shorter⟩ := right
        dsimp only [parsed] at hstop hrest
        subst hstop hrest
        rw [h]
        have hmore := (within depth (Nat.le_refl depth) next).climb least
          (.binary op left value (left.span.merge value.span))
        revert hmore
        dsimp only [parsed]
        cases Parser.climb (site line ts) least
            (.binary op left value (left.span.merge value.span)) (stopBefore ts next)
            (ts.drop next) with
        | error e => exact id
        | ok whole => exact id
  · rename_i h
    rw [Parser.climb]
    · exact .ok rfl rfl
    · exact fun _ _ _ _ hl => h _ (tokenAt_cons hl)

theorem agrees_expr (least : Nat) : Agrees ts ((expr line ts least (depth + 1)).outcome pos)
    ((Parser.expr (site line ts) least (ts.drop pos)).map parsed) := by
  have hleft := (within depth (Nat.le_refl depth) pos).operand
  rw [expr, Parser.expr]
  refine hleft.bind (fun e h => by rw [h]; rfl) fun left next h hstop hrest => ?_
  obtain ⟨value, _, _, shorter⟩ := left
  dsimp only [parsed] at hstop hrest
  subst hstop hrest
  rw [h]
  have hmore := (within depth (Nat.le_refl depth) next).climb least value
  revert hmore
  dsimp only [parsed]
  cases Parser.climb (site line ts) least value (stopBefore ts next) (ts.drop next) with
  | error e => exact id
  | ok whole => exact id

theorem agrees_items :
    Agrees ts ((upTo line ts .closeBracket (items line ts (depth + 1))).outcome pos)
      ((Parser.items (site line ts) (ts.drop pos)).map parsed) := by
  rw [items]
  cases hclose : isSymbol .closeBracket (tokenAt ts pos) with
  | true =>
    obtain ⟨start, stop, rest, hl⟩ := of_tokenAt (isSymbol_iff.mp hclose)
    rw [upTo_last hclose, hl, Parser.items]
    exact .ok (stopBefore_cons hl).symm (drop_succ hl).symm
  | false =>
    have hrow := fun next => (within depth (Nat.le_refl depth) next).items
    rw [upTo_next hclose, Parser.items]
    · cases depth with
      | zero => exact .cut
      | succ depth =>
        have hitem := (within depth (Nat.le_succ depth) pos).expr 0
        simp only [item, bind_assoc, pure_bind]
        refine hitem.bind (fun e h => by rw [h]; rfl) fun x next h hstop hrest => ?_
        obtain ⟨value, _, rest, shorter⟩ := x
        dsimp only [parsed] at hrest
        rw [h]
        dsimp only
        split
        · have hlast := hrow next
          rw [← hrest, Parser.items] at hlast
          exact agrees_last hrest.symm hlast
        · have hmore := hrow (next + 1)
          rw [drop_succ hrest.symm] at hmore
          refine agrees_more hrest.symm (by decide) hmore (fun e h => ?_) fun more h => ?_
          · rw [h]
            rfl
          · rw [h]
            rfl
        · rename_i hclose hcomma
          exact agrees_separator hrest hclose hcomma
    · intro _ _ _ hl
      rw [isSymbol_cons hl] at hclose
      cases hclose

theorem agrees_argument : Agrees ts ((argument line ts depth).outcome pos)
    ((Parser.arg (site line ts) (ts.drop pos)).map parsed) := by
  have hexpr := fun next => (within depth (Nat.le_refl depth) next).expr 0
  rw [argument, key, bind_assoc, peek_bind, bind_assoc, peekNth_bind]
  split
  · rename_i hname hassign
    obtain ⟨_, _, rest, hl⟩ := of_tokenAt hname
    obtain ⟨_, _, after, hafter⟩ := of_tokenAt hassign
    obtain rfl := (drop_succ hl).symm.trans hafter
    have hx := hexpr (pos + 1 + 1)
    rw [drop_succ hafter] at hx
    rw [hl, Parser.arg, bind_assoc, advance_bind hname, bind_assoc, expect_bind hassign, pure_bind]
    refine hx.bind (fun e h => by rw [h]; rfl) fun x next h hstop hrest => ?_
    rw [h]
    exact .ok hstop hrest
  · rename_i hkey
    rw [pure_bind, Parser.arg]
    · refine (hexpr pos).bind (fun e h => by rw [h]; rfl) fun x next h hstop hrest => ?_
      rw [h]
      exact .ok hstop hrest
    · exact fun _ _ _ _ _ _ hl => hkey _ (tokenAt_cons hl) (tokenAt_cons (drop_succ hl))

theorem agrees_args :
    Agrees ts ((upTo line ts .closeParen (args line ts (depth + 1))).outcome pos)
      ((Parser.args (site line ts) (ts.drop pos)).map parsed) := by
  rw [args]
  cases hclose : isSymbol .closeParen (tokenAt ts pos) with
  | true =>
    obtain ⟨start, stop, rest, hl⟩ := of_tokenAt (isSymbol_iff.mp hclose)
    rw [upTo_last hclose, hl, Parser.args]
    exact .ok (stopBefore_cons hl).symm (drop_succ hl).symm
  | false =>
    have hrow := fun next => (within depth (Nat.le_refl depth) next).args
    rw [upTo_next hclose, Parser.args]
    · cases depth with
      | zero => exact .cut
      | succ depth =>
        have harg : Agrees ts ((argument line ts depth).outcome pos)
            ((Parser.arg (site line ts) (ts.drop pos)).map parsed) :=
          agrees_argument fun d hd => within d (Nat.le_succ_of_le hd)
        rw [arg_eq]
        simp only [bind_assoc, pure_bind]
        refine harg.bind (fun e h => by rw [h]; rfl) fun x next h hstop hrest => ?_
        obtain ⟨value, _, rest, shorter⟩ := x
        dsimp only [parsed] at hrest
        rw [h]
        dsimp only
        split
        · have hlast := hrow next
          rw [← hrest, Parser.args] at hlast
          exact agrees_last hrest.symm hlast
        · have hmore := hrow (next + 1)
          rw [drop_succ hrest.symm] at hmore
          refine agrees_more hrest.symm (by decide) hmore (fun e h => ?_) fun more h => ?_
          · rw [h]
            rfl
          · rw [h]
            rfl
        · rename_i hclose hcomma
          exact agrees_separator hrest hclose hcomma
    · intro _ _ _ hl
      rw [isSymbol_cons hl] at hclose
      cases hclose

end

theorem agreesFrom (line : Nat) (ts : List Located) (pos depth : Nat) :
    AgreesFrom line ts pos depth := by
  induction depth using Nat.strongRecOn generalizing pos with
  | ind depth ih =>
    cases depth with
    | zero =>
      exact
        { expr := fun _ => .cut
          climb := fun _ _ => .cut
          operand := .cut
          primary := .cut
          atom := .cut
          items := .cut
          args := .cut }
    | succ depth =>
      have within : ∀ d ≤ depth, ∀ pos, AgreesFrom line ts pos d :=
        fun d hd pos => ih d (Nat.lt_succ_of_le hd) pos
      exact
        { expr := agrees_expr within
          climb := agrees_climb within
          operand := agrees_operand within
          primary := agrees_primary within
          atom := agrees_atom within
          items := agrees_items within
          args := agrees_args within }

/-- The whole line is read to its end by position with the same result, at no position beyond it. -/
theorem whole_eq (line : Nat) (ts : List Located) {depth : Nat} (hdepth : depthFrom ts 0 ≤ depth) :
    ∃ stop ≤ ts.length,
      (whole line ts depth).outcome 0 = some (Parser.exprOfTokens line ts, stop) := by
  obtain ⟨result, stop, hout, -, hlen, -⟩ := (haltsFrom line ts 0 hdepth).expr 0
  have hfound := (agreesFrom line ts 0 depth).expr 0 result stop hout
  refine ⟨stop, by omega, ?_⟩
  rw [List.drop_zero] at hfound
  rw [whole, Parser.exprOfTokens]
  cases hparser : Parser.expr (site line ts) 0 ts with
  | error e =>
    rw [hparser] at hfound
    cases result with
    | error e' =>
      cases hfound
      exact Reading.outcome_bind_error hout
    | ok x => cases hfound
  | ok p =>
    rw [hparser] at hfound
    cases result with
    | error e => cases hfound
    | ok x =>
      obtain ⟨value, _, rest, _⟩ := p
      cases hfound
      rw [Reading.outcome_bind_ok hout, atEnd_bind]
      by_cases hend : ts.length ≤ stop
      · simp only [hend, List.drop_eq_nil_of_le hend, decide_true, if_true, List.isEmpty_nil]
        rfl
      · have hmore : (ts.drop stop).isEmpty = false := by
          rw [List.isEmpty_eq_false_iff, ne_eq, List.drop_eq_nil_iff]
          exact hend
        simp only [hend, hmore, decide_false, Bool.false_eq_true, if_false, peek_bind, here_bind,
          ← next?_drop]
        rfl

/-- Wherever it starts in a row of tokens, reading by position comes to an end at no position beyond
them, with its calls no deeper than seven for each token left and seven more. What reads an
expression takes a token or fails, and so does each round of the loops over items and arguments,
which fails at the end of the line. All of it finds what the parser finds in the tokens left. -/
theorem always_halts (line : Nat) (ts : List Located) (extra : Nat) :
    (∀ pos, HaltsFrom line ts pos (depthFrom ts pos + extra) ∧
      AgreesFrom line ts pos (depthFrom ts pos + extra)) ∧
    (∀ n, ∃ e e',
      (item line ts (depthFrom ts (ts.length + n) + extra)).outcome (ts.length + n) =
        some (.error e, ts.length + n) ∧
      (arg line ts (depthFrom ts (ts.length + n) + extra)).outcome (ts.length + n) =
        some (.error e', ts.length + n)) ∧
    ∃ stop ≤ ts.length, (whole line ts (depthFrom ts 0 + extra)).outcome 0 =
      some (Parser.exprOfTokens line ts, stop) := by
  have hhalts : ∀ pos, HaltsFrom line ts pos (depthFrom ts pos + extra) :=
    fun pos => haltsFrom line ts pos (Nat.le_add_right ..)
  refine ⟨fun pos => ⟨hhalts pos, agreesFrom ..⟩, fun n => ?_, whole_eq line ts ?_⟩
  · obtain ⟨e, he⟩ := (hhalts (ts.length + n)).item.error_of_length_le (Nat.le_add_right ..)
    obtain ⟨e', he'⟩ := (hhalts (ts.length + n)).arg.error_of_length_le (Nat.le_add_right ..)
    exact ⟨e, e', he, he'⟩
  · exact Nat.le_add_right ..

/-- A call that breaks off after a comma. -/
example : (whole 0 [⟨.name "f", 0, 1⟩, ⟨.symbol .openParen, 1, 2⟩, ⟨.integer 1, 2, 3⟩,
    ⟨.symbol .comma, 3, 4⟩] 35).outcome 0 =
      some (.error ⟨.unexpected none .inExpression, ⟨0, 4, 4⟩⟩, 4) := by
  rfl

end Cursor

end EntropyGame
