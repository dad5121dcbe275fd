import EntropyGame.Source.Expr

namespace EntropyGame

/-- Whether a span lies in another one. -/
def Span.Within (s t : Span) : Prop :=
  t.start ≤ s.start ∧ s.stop ≤ t.stop

/-- Whether a span ends before another one begins. -/
def Span.Before (s t : Span) : Prop :=
  s.stop ≤ t.start

theorem Span.Before.of_within {s t s' t' : Span} (h : s.Before t) (hs : s'.Within s)
    (ht : t'.Within t) : s'.Before t' :=
  Nat.le_trans hs.2 (Nat.le_trans h ht.1)

namespace Expr

/-- The expressions that an expression is directly made of, in the order of reading. -/
def children : Expr → List Expr
  | list items _ => items
  | unary _ operand _ => [operand]
  | binary _ left right _ => [left, right]
  | call _ args _ => args.map Prod.snd
  | _ => []

theorem partsOfList_eq (items : List Expr) : partsOfList items = items.flatMap parts := by
  induction items with
  | nil => rfl
  | cons item items ih => rw [partsOfList, ih, List.flatMap_cons]

theorem partsOfArgs_eq (args : List Arg) :
    partsOfArgs args = (args.map Prod.snd).flatMap parts := by
  induction args with
  | nil => rfl
  | cons arg args ih => rw [partsOfArgs, ih, List.map_cons, List.flatMap_cons]

theorem parts_eq (e : Expr) : e.parts = e :: e.children.flatMap parts := by
  cases e <;> simp [parts, children, partsOfList_eq, partsOfArgs_eq]

theorem sizeOf_lt_of_mem_children {c e : Expr} (h : c ∈ e.children) : sizeOf c < sizeOf e := by
  cases e with
  | list items s =>
    have : sizeOf c < sizeOf items := List.sizeOf_lt_of_mem h
    rw [list.sizeOf_spec]
    omega
  | unary op operand s =>
    cases List.mem_singleton.mp h
    rw [unary.sizeOf_spec]
    omega
  | binary op left right s =>
    rw [binary.sizeOf_spec]
    simp only [children, List.mem_cons, List.not_mem_nil, or_false] at h
    obtain rfl | rfl := h <;> omega
  | call function args s =>
    obtain ⟨arg, harg, rfl⟩ := List.mem_map.mp h
    have := List.sizeOf_lt_of_mem harg
    rw [call.sizeOf_spec]
    rw [Prod.mk.sizeOf_spec] at this
    omega
  | integer | float | text | bool | name => cases h

/-- What holds of every expression whose children it holds of holds of all expressions. -/
@[elab_as_elim]
theorem children_induction {motive : Expr → Prop}
    (node : ∀ e, (∀ c ∈ e.children, motive c) → motive e) (e : Expr) : motive e :=
  node e fun c _ => children_induction node c
termination_by e
decreasing_by exact sizeOf_lt_of_mem_children ‹_›

/-- Whether a span fits an expression among tokens: it is not empty, it begins where a token begins
and ends where one ends, and it covers those of the children, which come one after the other. -/
structure Placed (line : Nat) (ts : List Located) (e : Expr) : Prop where
  line_eq : e.span.line = line
  start_mem : ∃ t ∈ ts, e.span.start = t.start
  stop_mem : ∃ t ∈ ts, e.span.stop = t.stop
  start_lt : e.span.start < e.span.stop
  within : ∀ c ∈ e.children, c.span.Within e.span
  inOrder : e.children.Pairwise fun a b => a.span.Before b.span

theorem Placed.mono {line : Nat} {ts us : List Located} {e : Expr} (h : e.Placed line ts)
    (hts : ts ⊆ us) : e.Placed line us :=
  { h with
    start_mem := h.start_mem.imp fun _ ht => ⟨hts ht.1, ht.2⟩
    stop_mem := h.stop_mem.imp fun _ ht => ⟨hts ht.1, ht.2⟩ }

/-- Whether all parts of an expression are placed among tokens. -/
def Nested (line : Nat) (ts : List Located) (e : Expr) : Prop :=
  ∀ part ∈ e.parts, part.Placed line ts

namespace Nested

variable {line : Nat} {ts us : List Located} {e : Expr}

theorem iff_children :
    e.Nested line ts ↔ e.Placed line ts ∧ ∀ c ∈ e.children, c.Nested line ts := by
  simp only [Nested, parts_eq e, List.forall_mem_cons, List.mem_flatMap]
  exact and_congr_right fun _ => ⟨fun h c hc part hpart => h part ⟨c, hc, hpart⟩,
    fun h part ⟨c, hc, hpart⟩ => h c hc part hpart⟩

theorem placed (h : e.Nested line ts) : e.Placed line ts :=
  (iff_children.mp h).1

theorem mono (h : e.Nested line ts) (hts : ts ⊆ us) : e.Nested line us :=
  fun part hpart => (h part hpart).mono hts

theorem within (h : e.Nested line ts) : ∀ part ∈ e.parts, part.span.Within e.span := by
  induction e using children_induction with
  | node e ih =>
    obtain ⟨hself, hchildren⟩ := iff_children.mp h
    intro part hpart
    rw [parts_eq, List.mem_cons, List.mem_flatMap] at hpart
    obtain rfl | ⟨c, hc, hpart⟩ := hpart
    · exact ⟨Nat.le_refl _, Nat.le_refl _⟩
    · have hinner := ih c hc (hchildren c hc) part hpart
      have houter := hself.within c hc
      exact ⟨Nat.le_trans houter.1 hinner.1, Nat.le_trans hinner.2 houter.2⟩

/-- The parts without children, in the order in which `parts` comes to them, come one after the
other. -/
theorem leaves_inOrder (h : e.Nested line ts) :
    (e.parts.filter (·.children.isEmpty)).Pairwise fun a b => a.span.Before b.span := by
  induction e using children_induction with
  | node e ih =>
    obtain ⟨hself, hchildren⟩ := iff_children.mp h
    rw [parts_eq]
    by_cases hleaf : e.children = []
    · simp [hleaf]
    · rw [List.filter_cons_of_neg (by simpa using hleaf), List.filter_flatMap,
        List.pairwise_flatMap]
      refine ⟨fun c hc => ih c hc (hchildren c hc), ?_⟩
      refine hself.inOrder.imp_of_mem fun {a b} ha hb hbefore x hx y hy => ?_
      exact hbefore.of_within ((hchildren a ha).within x ((List.mem_filter.mp hx).1))
        ((hchildren b hb).within y ((List.mem_filter.mp hy).1))

end Nested

end Expr

end EntropyGame
