import EntropyGame.Proofs.Source.Nesting
import EntropyGame.Proofs.Source.Partition
import EntropyGame.Source.Line

namespace EntropyGame

namespace Parser

open EntropyGame.Expr (Placed Nested)

/-- Tokens that are not empty and come one after the other. -/
structure InRow (ts : List Located) : Prop where
  start_lt : ∀ t ∈ ts, t.start < t.stop
  pairwise : ts.Pairwise fun a b => a.stop ≤ b.start

namespace InRow

variable {ts us : List Located} {t u : Located} {stop : Nat}

theorem left (h : InRow (ts ++ us)) : InRow ts :=
  ⟨fun t ht => h.start_lt t (List.mem_append_left us ht), (List.pairwise_append.mp h.pairwise).1⟩

theorem right (h : InRow (ts ++ us)) : InRow us :=
  ⟨fun t ht => h.start_lt t (List.mem_append_right ts ht),
    (List.pairwise_append.mp h.pairwise).2.1⟩

theorem tail (h : InRow (t :: ts)) : InRow ts := by
  rw [← List.singleton_append] at h
  exact h.right

theorem stop_le_start (h : InRow (ts ++ us)) (ht : t ∈ ts) (hu : u ∈ us) : t.stop ≤ u.start :=
  (List.pairwise_append.mp h.pairwise).2.2 t ht u hu

theorem start_le (h : InRow (t :: ts)) (hu : u ∈ t :: ts) : t.start ≤ u.start := by
  obtain rfl | hu := List.mem_cons.mp hu
  · exact Nat.le_refl _
  · have hpos := h.start_lt t List.mem_cons_self
    have hnext := (List.pairwise_cons.mp h.pairwise).1 u hu
    omega

theorem stop_le (h : InRow ts) (hstop : ts.getLast?.map Located.stop = some stop) (ht : t ∈ ts) :
    t.stop ≤ stop := by
  obtain ⟨last, hlast, rfl⟩ := Option.map_eq_some_iff.mp hstop
  obtain ⟨before, rfl⟩ := List.getLast?_eq_some_iff.mp hlast
  obtain ht | ht := List.mem_append.mp ht
  · have hpos := h.start_lt last (by simp)
    have hnext := h.stop_le_start ht (List.mem_singleton_self last)
    omega
  · rw [List.mem_singleton.mp ht]

end InRow

/-- Tokens from the head of a row, the last of which ends at `stop`, in which expressions are nested
one after the other. -/
def Takes (line : Nat) (ts rest : List Located) (stop : Nat) (es : List Expr) : Prop :=
  ∃ us, ts = us ++ rest ∧ us.getLast?.map Located.stop = some stop ∧
    (∀ e ∈ es, e.Nested line us) ∧ es.Pairwise fun a b => a.span.Before b.span

namespace Takes

variable {line stop stop' : Nat} {ts rest rest' : List Located} {t : Located} {es fs : List Expr}
  {e : Expr}

theorem inRow (h : Takes line ts rest stop es) (hrow : InRow ts) : InRow rest := by
  obtain ⟨us, rfl, -⟩ := h
  exact hrow.right

theorem single (t : Located) (rest : List Located) : Takes line (t :: rest) rest t.stop [] :=
  ⟨[t], rfl, rfl, nofun, .nil⟩

theorem forget (h : Takes line ts rest stop es) : Takes line ts rest stop [] := by
  obtain ⟨us, hts, hstop, -⟩ := h
  exact ⟨us, hts, hstop, nofun, .nil⟩

theorem append (h : Takes line ts rest stop es) (h' : Takes line rest rest' stop' fs)
    (hrow : InRow ts) : Takes line ts rest' stop' (es ++ fs) := by
  obtain ⟨us, rfl, -, hes, hesRow⟩ := h
  obtain ⟨vs, rfl, hstop, hfs, hfsRow⟩ := h'
  refine ⟨us ++ vs, (List.append_assoc ..).symm, ?_, ?_, List.pairwise_append.mpr
    ⟨hesRow, hfsRow, fun a ha b hb => ?_⟩⟩
  · rw [List.getLast?_append]
    obtain ⟨last, hlast, rfl⟩ := Option.map_eq_some_iff.mp hstop
    rw [hlast]
    rfl
  · intro e he
    obtain he | he := List.mem_append.mp he
    · exact (hes e he).mono (List.subset_append_left us vs)
    · exact (hfs e he).mono (List.subset_append_right us vs)
  · obtain ⟨t, ht, hstop⟩ := (hes a ha).placed.stop_mem
    obtain ⟨u, hu, hstart⟩ := (hfs b hb).placed.start_mem
    rw [Span.Before, hstop, hstart]
    exact hrow.stop_le_start ht (List.mem_append_left rest' hu)

/-- A token after what is taken. -/
theorem close (h : Takes line ts (t :: rest) stop es) (hrow : InRow ts) :
    Takes line ts rest t.stop es := by
  have hclose := h.append (single t rest) hrow
  rwa [List.append_nil] at hclose

/-- A token before what is taken. -/
theorem skip (h : Takes line ts rest stop es) (hrow : InRow (t :: ts)) :
    Takes line (t :: ts) rest stop es :=
  (single t ts).append h hrow

/-- An expression whose span is what is taken. -/
theorem whole (h : Takes line (t :: ts) rest stop e.children) (hrow : InRow (t :: ts))
    (hspan : e.span = ⟨line, t.start, stop⟩) : Takes line (t :: ts) rest stop [e] := by
  obtain ⟨us, hts, hstop, hes, hesRow⟩ := h
  obtain ⟨u, us, rfl⟩ := List.exists_cons_of_ne_nil (l := us) (by rintro rfl; cases hstop)
  rw [List.cons_append, List.cons.injEq] at hts
  obtain ⟨rfl, rfl⟩ := hts
  have husRow : InRow (t :: us) := InRow.left hrow
  obtain ⟨last, hlast, hlastStop⟩ := Option.map_eq_some_iff.mp hstop
  have hself : e.Placed line (t :: us) :=
    { line_eq := by rw [hspan]
      start_mem := ⟨t, List.mem_cons_self, by rw [hspan]⟩
      stop_mem := ⟨last, List.mem_of_getLast? hlast, by rw [hspan, hlastStop]⟩
      start_lt := by
        rw [hspan]
        exact Nat.lt_of_lt_of_le (husRow.start_lt t List.mem_cons_self)
          (husRow.stop_le hstop List.mem_cons_self)
      within := fun c hc => by
        obtain ⟨a, ha, hstart⟩ := (hes c hc).placed.start_mem
        obtain ⟨b, hb, hstop'⟩ := (hes c hc).placed.stop_mem
        rw [Span.Within, hspan, hstart, hstop']
        exact ⟨husRow.start_le ha, husRow.stop_le hstop hb⟩
      inOrder := hesRow }
  refine ⟨t :: us, rfl, hstop, ?_, List.pairwise_singleton ..⟩
  rw [List.forall_mem_singleton]
  exact Nested.iff_children.mpr ⟨hself, hes⟩

/-- An expression of one token. -/
theorem leaf (hrow : InRow (t :: rest)) (hspan : e.span = ⟨line, t.start, t.stop⟩)
    (hchildren : e.children = []) : Takes line (t :: rest) rest t.stop [e] :=
  whole (hchildren ▸ single t rest) hrow hspan

/-- An operator between two expressions, whose span is the one around both. -/
theorem binary {op : BinaryOp} {left right : Expr} (h : Takes line ts rest stop [left, right]) :
    Takes line ts rest stop [.binary op left right (left.span.merge right.span)] := by
  obtain ⟨us, hts, hstop, hes, hesRow⟩ := h
  rw [List.forall_mem_cons, List.forall_mem_singleton] at hes
  rw [List.pairwise_pair] at hesRow
  obtain ⟨hleft, hright⟩ := hes
  have hl := hleft.placed
  have hr := hright.placed
  have hlPos := hl.start_lt
  have hrPos := hr.start_lt
  have hbefore : left.span.stop ≤ right.span.start := hesRow
  have hspan : left.span.merge right.span = ⟨line, left.span.start, right.span.stop⟩ := by
    rw [Span.merge, hl.line_eq, Nat.min_eq_left (by omega), Nat.max_eq_right (by omega)]
  rw [hspan]
  refine ⟨us, hts, hstop, ?_, List.pairwise_singleton ..⟩
  rw [List.forall_mem_singleton, Nested.iff_children]
  have hself : (Expr.binary op left right ⟨line, left.span.start, right.span.stop⟩).Placed line us :=
    { line_eq := rfl
      start_mem := hl.start_mem
      stop_mem := hr.stop_mem
      start_lt := show left.span.start < right.span.stop by omega
      within := by
        rw [Expr.children, List.forall_mem_cons, List.forall_mem_singleton]
        exact ⟨⟨Nat.le_refl _, show left.span.stop ≤ right.span.stop by omega⟩,
          ⟨show left.span.start ≤ right.span.start by omega, Nat.le_refl _⟩⟩
      inOrder := List.pairwise_pair.mpr hbefore }
  refine ⟨hself, ?_⟩
  rw [Expr.children, List.forall_mem_cons, List.forall_mem_singleton]
  exact ⟨hleft, hright⟩

end Takes

/-- The expressions that the parser builds are nested in the tokens that it takes, where fewer than
`n` are left. -/
def PlacesExpr (n : Nat) : Prop :=
  ∀ {site : Site} {least : Nat} {l : List Located} {p : Parsed Expr l},
    expr site least l = .ok p → l.length < n → InRow l →
    Takes site.line l p.rest p.stop [p.value]

def PlacesItems (n : Nat) : Prop :=
  ∀ {site : Site} {l : List Located} {p : Parsed (List Expr) l},
    items site l = .ok p → l.length < n → InRow l → Takes site.line l p.rest p.stop p.value

def PlacesArgs (n : Nat) : Prop :=
  ∀ {site : Site} {l : List Located} {p : Parsed (List Arg) l},
    args site l = .ok p → l.length < n → InRow l →
    Takes site.line l p.rest p.stop (p.value.map Prod.snd)

section

variable {n : Nat} {site : Site}

theorem places_atom (hx : PlacesExpr n) (hi : PlacesItems n) {l : List Located}
    {p : Parsed Expr l} (h : atom site l = .ok p) (hn : l.length ≤ n) (hrow : InRow l) :
    Takes site.line l p.rest p.stop [p.value] := by
  rw [atom.eq_def] at h
  split at h
  · cases h
    exact .leaf hrow rfl rfl
  · cases h
    exact .leaf hrow rfl rfl
  · cases h
    exact .leaf hrow rfl rfl
  · cases h
    exact .leaf hrow rfl rfl
  · cases h
    exact .leaf hrow rfl rfl
  · cases h
    exact .leaf hrow rfl rfl
  · split at h
    · cases h
    · rename_i hitems
      cases h
      have hinside := hi hitems hn hrow.tail
      exact .whole (hinside.skip hrow) hrow rfl
  · split at h
    · cases h
    · rename_i inner hinner
      split at h
      · rename_i hr
        cases h
        have hinside := hx hinner hn hrow.tail
        rw [hr] at hinside
        exact (hinside.close hrow.tail).skip hrow
      · cases h
  · cases h

theorem places_primary (hx : PlacesExpr n) (hi : PlacesItems n) (ha : PlacesArgs n)
    {l : List Located} {p : Parsed Expr l} (h : primary site l = .ok p) (hn : l.length ≤ n)
    (hrow : InRow l) : Takes site.line l p.rest p.stop [p.value] := by
  rw [primary.eq_def] at h
  split at h
  · cases h
  · rename_i head hhead
    have hplaces := places_atom hx hi hhead hn hrow
    split at h
    · rename_i hr
      split at h
      · cases h
      · rename_i function hname
        split at h
        · cases h
        · rename_i args hargs
          have hshort := head.shorter
          rw [hr] at hplaces hshort
          rw [List.length_cons] at hshort
          have hinside := ha hargs (by omega) (hplaces.inRow hrow).tail
          -- the name is no child of the call
          have hcall := (hplaces.forget.close hrow).append hinside hrow
          dsimp only at h
          split at h
          · cases h
          · cases h
            cases l with
            | nil => cases hshort
            | cons t l => exact .whole hcall hrow rfl
    · cases h
      exact hplaces

theorem places_operand (hx : PlacesExpr n) (hi : PlacesItems n) (ha : PlacesArgs n)
    {l : List Located} {p : Parsed Expr l} (h : operand site l = .ok p) (hn : l.length ≤ n)
    (hrow : InRow l) : Takes site.line l p.rest p.stop [p.value] := by
  induction hm : l.length using Nat.strongRecOn generalizing l with
  | ind m ih =>
    rw [operand.eq_def] at h
    split at h
    · split at h
      · cases h
      · rename_i hinner
        cases h
        rw [List.length_cons] at hm hn
        have hplaces := ih _ (by omega) hinner (by omega) hrow.tail rfl
        exact .whole (hplaces.skip hrow) hrow rfl
    · split at h
      · cases h
      · rename_i hinner
        cases h
        have hplaces := hx hinner hn hrow.tail
        exact .whole (hplaces.skip hrow) hrow rfl
    · exact places_primary hx hi ha h hn hrow

theorem places_climb (hx : PlacesExpr n) {least : Nat} {whole l : List Located} {left : Expr}
    {stop : Nat} {p : Extended Expr l} (h : climb site least left stop l = .ok p)
    (hn : l.length ≤ n) (hrow : InRow whole) (hleft : Takes site.line whole l stop [left]) :
    Takes site.line whole p.rest p.stop [p.value] := by
  -- on the tokens left; `left` grows to a larger part of what is taken of `whole`
  induction hm : l.length using Nat.strongRecOn generalizing l left stop with
  | ind m ih =>
    rw [climb.eq_def] at h
    split at h
    · split at h
      · cases h
        exact hleft
      · split at h
        · cases h
          exact hleft
        · split at h
          · cases h
          · rename_i right hright
            dsimp only at h
            split at h
            · cases h
            · rename_i hmore
              cases h
              rw [List.length_cons] at hm hn
              have hshort := right.shorter
              have hplaces := hx hright hn (hleft.inRow hrow).tail
              have hboth := (hleft.close hrow).append hplaces hrow
              have hwhole := ih _ (by omega) hmore (by omega) hboth.binary rfl
              exact hwhole
    · cases h
      exact hleft

theorem placesExpr_succ (hx : PlacesExpr n) (hi : PlacesItems n) (ha : PlacesArgs n) :
    PlacesExpr (n + 1) := by
  intro site least l p h hn hrow
  rw [expr] at h
  split at h
  · cases h
  · rename_i left hleft
    dsimp only at h
    split at h
    · cases h
    · rename_i hwhole
      cases h
      have hshort := left.shorter
      have hplaces := places_operand hx hi ha hleft (by omega) hrow
      exact places_climb hx hwhole (by omega) hrow hplaces

theorem placesItems_succ (hx : PlacesExpr (n + 1)) (hi : PlacesItems n) :
    PlacesItems (n + 1) := by
  intro site l p h hn hrow
  rw [items.eq_def] at h
  split at h
  · cases h
    exact .single _ _
  · split at h
    · cases h
    · rename_i item hitem
      have hplaces := hx hitem hn hrow
      dsimp only at h
      split at h
      · rename_i hr
        cases h
        rw [hr] at hplaces
        exact hplaces.close hrow
      · rename_i hr
        split at h
        · cases h
        · rename_i more hmore
          cases h
          have hshort := item.shorter
          rw [hr] at hplaces hshort
          rw [List.length_cons] at hshort
          have hrest := hi hmore (by omega) (hplaces.inRow hrow).tail
          exact (hplaces.close hrow).append hrest hrow
      · cases h

theorem places_arg (hx : PlacesExpr n) {l : List Located} {p : Parsed Arg l}
    (h : arg site l = .ok p) (hn : l.length < n) (hrow : InRow l) :
    Takes site.line l p.rest p.stop [p.value.2] := by
  rw [arg.eq_def] at h
  split at h
  · split at h
    · cases h
    · rename_i hvalue
      cases h
      simp only [List.length_cons] at hn
      have hplaces := hx hvalue (by omega) hrow.tail.tail
      exact (hplaces.skip hrow.tail).skip hrow
  · split at h
    · cases h
    · rename_i hvalue
      cases h
      exact hx hvalue hn hrow

theorem placesArgs_succ (hx : PlacesExpr (n + 1)) (ha : PlacesArgs n) : PlacesArgs (n + 1) := by
  intro site l p h hn hrow
  rw [args.eq_def] at h
  split at h
  · cases h
    exact .single _ _
  · split at h
    · cases h
    · rename_i arg harg
      have hplaces := places_arg hx harg hn hrow
      dsimp only at h
      split at h
      · rename_i hr
        cases h
        rw [hr] at hplaces
        exact hplaces.close hrow
      · rename_i hr
        split at h
        · cases h
        · rename_i more hmore
          cases h
          have hshort := arg.shorter
          rw [hr] at hplaces hshort
          rw [List.length_cons] at hshort
          have hrest := ha hmore (by omega) (hplaces.inRow hrow).tail
          exact (hplaces.close hrow).append hrest hrow
      · cases h

theorem places (n : Nat) : PlacesExpr n ∧ PlacesItems n ∧ PlacesArgs n := by
  induction n with
  | zero =>
    refine ⟨?_, ?_, ?_⟩
    · intro _ _ _ _ _ hn
      exact absurd hn (Nat.not_lt_zero _)
    · intro _ _ _ _ hn
      exact absurd hn (Nat.not_lt_zero _)
    · intro _ _ _ _ hn
      exact absurd hn (Nat.not_lt_zero _)
  | succ n ih =>
    obtain ⟨hx, hi, ha⟩ := ih
    have hx' : PlacesExpr (n + 1) := placesExpr_succ hx hi ha
    exact ⟨hx', placesItems_succ hx' hi, placesArgs_succ hx' ha⟩

end

theorem Takes.children {line stop : Nat} {ts rest : List Located} {e : Expr}
    (h : Takes line ts rest stop [e]) : Takes line ts rest stop e.children := by
  obtain ⟨us, hts, hstop, hes, -⟩ := h
  obtain ⟨hself, hchildren⟩ := Nested.iff_children.mp (List.forall_mem_singleton.mp hes)
  exact ⟨us, hts, hstop, hchildren, hself.inOrder⟩

theorem Takes.nested {line stop : Nat} {ts : List Located} {e : Expr}
    (h : Takes line ts [] stop [e]) : e.Nested line ts := by
  obtain ⟨us, rfl, -, hes, -⟩ := h
  rw [List.append_nil]
  exact List.forall_mem_singleton.mp hes

theorem exprOfTokens_nested {line : Nat} {ts : List Located} {e : Expr}
    (h : exprOfTokens line ts = .ok e) (hrow : InRow ts) : e.Nested line ts := by
  rw [exprOfTokens] at h
  split at h
  · cases h
  · rename_i p hp
    split at h
    · rename_i hrest
      cases h
      have hplaces := (places _).1 hp (Nat.lt_succ_self _) hrow
      rw [List.isEmpty_iff.mp hrest] at hplaces
      exact hplaces.nested
    · cases h

/-- The call on a line is nested in its tokens like an expression that takes all of them, also where
it stands in parentheses. -/
theorem callOfTokens_nested {line : Nat} {ts : List Located} {c : Call}
    (h : callOfTokens line ts = .ok c) (hrow : InRow ts) :
    (Expr.call c.verb.spelling c.args c.span).Nested line ts := by
  rw [callOfTokens] at h
  split at h
  · cases h
  · rename_i p hp
    split at h
    · cases h
    · rename_i hrest
      split at h
      · rename_i function args span hvalue
        split at h
        · cases h
        · rename_i verb _
          cases h
          have hplaces := (places _).1 hp (Nat.lt_succ_self _) hrow
          have hempty : p.rest = [] := by simpa using hrest
          rw [hempty, hvalue] at hplaces
          cases ts with
          | nil => cases p.shorter
          | cons t ts =>
            have hcall : Takes line (t :: ts) [] p.stop
                [.call verb.spelling args ⟨line, t.start, p.stop⟩] :=
              .whole hplaces.children hrow rfl
            exact hcall.nested
      · cases h

end Parser

namespace Lexer

variable {text : String} {ts : List Located}

theorem inRow_tokens (h : tokens text = .ok ts) : Parser.InRow ts := by
  have hpartition := partition_of_tokensFrom h
  refine ⟨fun t ht => ?_, hpartition.pairwise⟩
  obtain ⟨-, hreads, hstop, -⟩ := hpartition.snippet_reads t ht
  have hpos := hreads.byteLength_pos
  omega

/-- A span from the begin of a token to the end of one covers a text that is not empty. -/
theorem snippet_ne_empty (h : tokens text = .ok ts) {s : Span}
    (hstart : ∃ t ∈ ts, s.start = t.start) (hstop : ∃ t ∈ ts, s.stop = t.stop)
    (hlt : s.start < s.stop) :
    s.stop ≤ Text.byteLength text.toList ∧ s.snippet text ≠ "" := by
  have hpartition := partition_of_tokensFrom h
  obtain ⟨t, ht, hstart⟩ := hstart
  obtain ⟨u, hu, hstop⟩ := hstop
  obtain ⟨hslice, -, -, -⟩ := hpartition.snippet_reads t ht
  obtain ⟨hslice', -, -, hle⟩ := hpartition.snippet_reads u hu
  obtain ⟨cs, hcs, hne⟩ := Text.slice?_join hslice hslice' (by omega)
  rw [← hstart, ← hstop] at hcs
  refine ⟨hstop ▸ hle, ?_⟩
  rw [Span.snippet, hcs, Option.getD_some, ← String.toList_inj.ne, String.toList_ofList]
  exact hne

end Lexer

/-- Whether an expression stands in a text that falls into tokens: its parts are placed among the
tokens, their spans cover texts that are not empty, and those without children come one after the
other. -/
structure Expr.StandsIn (text : String) (line : Nat) (ts : List Located) (e : Expr) : Prop where
  nested : e.Nested line ts
  stop_le : ∀ part ∈ e.parts, part.span.stop ≤ Text.byteLength text.toList
  snippet_ne : ∀ part ∈ e.parts, part.span.snippet text ≠ ""
  leaves_inOrder : (e.parts.filter (·.children.isEmpty)).Pairwise fun a b => a.span.Before b.span

theorem Expr.Nested.standsIn {text : String} {line : Nat} {ts : List Located} {e : Expr}
    (h : e.Nested line ts) (hts : Lexer.tokens text = .ok ts) : e.StandsIn text line ts := by
  have hcovers : ∀ part ∈ e.parts, part.span.stop ≤ Text.byteLength text.toList ∧
      part.span.snippet text ≠ "" := fun part hpart =>
    Lexer.snippet_ne_empty hts (h part hpart).start_mem (h part hpart).stop_mem
      (h part hpart).start_lt
  exact ⟨h, fun part hpart => (hcovers part hpart).1, fun part hpart => (hcovers part hpart).2,
    h.leaves_inOrder⟩

namespace Parser

/-- An expression stands in the text that it is read from, and so does the call on a line. -/
theorem spans_nested (text : String) :
    (∀ e, Expr.parse text = .ok e →
      ∃ ts, Lexer.tokens text = .ok ts ∧ e.StandsIn text 0 ts) ∧
    ∀ line c, Call.parse text line = .ok (some c) →
      ∃ ts, Lexer.tokens text = .ok ts ∧
        (Expr.call c.verb.spelling c.args c.span).StandsIn text line ts := by
  refine ⟨fun e h => ?_, fun line c h => ?_⟩
  · obtain ⟨ts, hts, he⟩ := Expr.parse_eq_ok.mp h
    exact ⟨ts, hts, (exprOfTokens_nested he (Lexer.inRow_tokens hts)).standsIn hts⟩
  · obtain ⟨ts, hts, hc⟩ := Call.tokens_of_parse h
    exact ⟨ts, hts, (callOfTokens_nested hc (Lexer.inRow_tokens hts)).standsIn hts⟩

/-- A call whose name and an operand stand in parentheses. -/
def parenthesized : Call :=
  ⟨.reveal, [(none, .binary .add (.name "a" ⟨3, 10, 11⟩) (.unary .neg (.name "b" ⟨3, 16, 17⟩)
    ⟨3, 15, 17⟩) ⟨3, 10, 17⟩), (some "k", .list [.name "c" ⟨3, 22, 23⟩] ⟨3, 21, 24⟩)], ⟨3, 0, 25⟩⟩

theorem spans_nested_parenthesized :
    Expr.parse "(a) + b" = .ok (.binary .add (.name "a" ⟨0, 1, 2⟩) (.name "b" ⟨0, 6, 7⟩) ⟨0, 1, 7⟩) ∧
    Call.parse "(reveal)((a) + -b, k=[c])" 3 = .ok (some parenthesized) ∧
    (∃ ts, Lexer.tokens "(a) + b" = .ok ts ∧ (Expr.binary .add (.name "a" ⟨0, 1, 2⟩)
      (.name "b" ⟨0, 6, 7⟩) ⟨0, 1, 7⟩).StandsIn "(a) + b" 0 ts) ∧
    ∃ ts, Lexer.tokens "(reveal)((a) + -b, k=[c])" = .ok ts ∧
      (Expr.call "reveal" parenthesized.args ⟨3, 0, 25⟩).StandsIn "(reveal)((a) + -b, k=[c])" 3 ts := by
  have hexpr : Expr.parse "(a) + b" =
      .ok (.binary .add (.name "a" ⟨0, 1, 2⟩) (.name "b" ⟨0, 6, 7⟩) ⟨0, 1, 7⟩) := by cbv
  have hcall : Call.parse "(reveal)((a) + -b, k=[c])" 3 = .ok (some parenthesized) := by cbv
  exact ⟨hexpr, hcall, (spans_nested _).1 _ hexpr, (spans_nested _).2 3 _ hcall⟩

end Parser

end EntropyGame
