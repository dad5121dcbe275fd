import EntropyGame.Proofs.Source.Display
import Mathlib

namespace EntropyGame

namespace Expr

/-- The signs and `not`s before an expression, outermost first. -/
def signs : Expr → List UnaryOp
  | unary op operand _ => op :: operand.signs
  | _ => []

/-- Whether an operator keeps its left operand when it is displayed. Nothing ends the operand of a
`not` there, which reaches past operators that bind like comparisons or tighter. -/
def keepsLeft : Expr → Bool
  | binary op left _ _ => op.level < BinaryOp.level .eq || !left.signs.contains .not
  | _ => true

theorem keepsLeft_binary (op : BinaryOp) (left right : Expr) (s : Span) :
    (binary op left right s).keepsLeft = true ↔
      op.level < BinaryOp.level .eq ∨ .not ∉ left.signs := by
  simp [keepsLeft]

end Expr

namespace Grammar

section

variable {signs : List UnaryOp} {op : BinaryOp} {x y : Expr}

/-- An expression behind signs that take nothing else. -/
def signed : List UnaryOp → Expr → Expr
  | [], x => x
  | op :: signs, x => .unary op (signed signs x) {}

theorem sign_nil (signs : List UnaryOp) (x : Expr) : sign signs x [] = (signed signs x, []) := by
  induction signs with
  | nil => rfl
  | cons op signs ih =>
    cases op with
    | neg => simp only [sign, ih, signed]
    | not => simp only [sign, ih, signed, List.takeWhile_nil, List.dropWhile_nil, split_nil]

theorem tree_nil (signs : List UnaryOp) (x : Expr) : tree signs x [] = signed signs x := by
  rw [tree, settle, sign_nil]
  exact split_nil _

/-- Signs leave an operator to what comes before them if none is a `not` or if it binds loosely. -/
theorem sign_leaves (h : op.level < BinaryOp.level .eq ∨ .not ∉ signs) :
    sign signs x [(op, y)] = (signed signs x, [(op, y)]) := by
  induction signs with
  | nil => rfl
  | cons o signs ih =>
    rw [List.mem_cons, not_or] at h
    cases o with
    | neg => simp only [sign, ih (h.imp_right And.right), signed]
    | not =>
      have hlevel : op.level < BinaryOp.level .eq := h.resolve_right fun h => h.1 rfl
      have hbinds : ¬ binds (BinaryOp.level .eq) (op, y) = true := by simpa [binds] using hlevel
      simp only [sign, ih (.inl hlevel), signed, List.takeWhile_cons_of_neg hbinds,
        List.dropWhile_cons_of_neg hbinds, split_nil]

/-- Otherwise the last `not` takes the operator along. -/
theorem sign_takes (hlevel : BinaryOp.level .eq ≤ op.level) (hnot : .not ∈ signs) :
    ∃ o z, sign signs x [(op, y)] = (.unary o z {}, []) := by
  have hbinds : binds (BinaryOp.level .eq) (op, y) = true := by simpa [binds] using hlevel
  induction signs with
  | nil => cases hnot
  | cons o signs ih =>
    cases o with
    | neg =>
      obtain ⟨o, z, hz⟩ := ih ((List.mem_cons.mp hnot).resolve_left (by simp))
      exact ⟨.neg, .unary o z {}, by simp only [sign, hz]⟩
    | not =>
      by_cases hmore : .not ∈ signs
      · obtain ⟨o, z, hz⟩ := ih hmore
        refine ⟨.not, .unary o z {}, ?_⟩
        simp only [sign, hz, List.takeWhile_nil, List.dropWhile_nil, split_nil]
      · refine ⟨.not, split (signed signs x) [(op, y)], ?_⟩
        simp only [sign, sign_leaves (.inr hmore), List.takeWhile_cons_of_pos hbinds,
          List.takeWhile_nil, List.dropWhile_cons_of_pos hbinds, List.dropWhile_nil]

theorem split_single (op : BinaryOp) (x y : Expr) : split x [(op, y)] = .binary op x y {} := by
  have hsplit : split x ([] ++ (op, y) :: []) = .binary op (split x []) (split y []) {} :=
    split_append (by simp) (by simp)
  rwa [List.nil_append, split_nil, split_nil] at hsplit

theorem IsOperand.isExpr {ts : List Token} (h : IsOperand ts signs x) :
    IsExpr ts (signed signs x) := by
  have hx := IsExpr.chain h .nil
  rwa [List.append_nil, tree_nil] at hx

theorem isArg_shown (key : Option String) {ts : List Token} (h : IsExpr ts x) :
    IsArg (Expr.shownKey key ++ ts) (key, x) := by
  cases key with
  | none => exact .positional h
  | some key => exact .named key h

theorem reads_single {e : Expr} (hs : e.signs = []) (hp : e.parts = [e])
    (hk : e.keepsLeft = true) (h : IsPrimary e.shown e.bare) : ∃ x, IsOperand e.shown e.signs x ∧
      (signed e.signs x = e.bare ↔ ∀ part ∈ e.parts, part.keepsLeft = true) := by
  refine ⟨e.bare, hs ▸ .primary h, ?_⟩
  simp [hs, hp, hk, signed]

end

mutual

/-- What is shown of an expression reads back as the expression if all its operators keep their left
operands, and as another one if not. -/
theorem reads_shown : ∀ e : Expr, ∃ x, IsOperand e.shown e.signs x ∧
    (signed e.signs x = e.bare ↔ ∀ part ∈ e.parts, part.keepsLeft = true)
  | .integer n _ => reads_single rfl rfl rfl (.integer n)
  | .float x _ => reads_single rfl rfl rfl (.float x)
  | .text t _ => reads_single rfl rfl rfl (.text t)
  | .name n _ => reads_single rfl rfl rfl (.name n)
  | .bool true _ => reads_single rfl rfl rfl .yes
  | .bool false _ => reads_single rfl rfl rfl .no
  | .list items s => by
    obtain ⟨xs, hxs, hback⟩ := reads_shownItems items
    refine ⟨_, .primary (.list hxs), ?_⟩
    simp [Expr.parts, Expr.keepsLeft, Expr.bare, Expr.signs, signed, hback]
  | .unary op e s => by
    obtain ⟨x, hx, hback⟩ := reads_shown e
    refine ⟨x, .sign op hx, ?_⟩
    simp [Expr.parts, Expr.keepsLeft, Expr.bare, Expr.signs, signed, hback]
  | .binary op e f s => by
    obtain ⟨x, hx, hbackx⟩ := reads_shown e
    obtain ⟨y, hy, hbacky⟩ := reads_shown f
    have htail : IsTail (.symbol op.symbol :: (f.shown ++ [])) [(op, f.signs, y)] := .cons hy .nil
    have hexpr := IsExpr.chain hx htail
    refine ⟨tree e.signs x [(op, f.signs, y)], ?_, ?_⟩
    · have hparens := IsPrimary.parens hexpr
      rw [List.append_nil, List.append_assoc] at hparens
      exact .primary hparens
    · have hsettle : settle [(op, f.signs, y)] = [(op, signed f.signs y)] := by
        rw [settle, settle, sign_nil]
      have hsigns : (Expr.binary op e f s).signs = [] := rfl
      rw [Expr.parts, List.forall_mem_cons, List.forall_mem_append, ← hbackx, ← hbacky,
        Expr.keepsLeft_binary, Expr.bare, hsigns, signed, tree, hsettle]
      by_cases hleft : op.level < BinaryOp.level .eq ∨ .not ∉ e.signs
      · rw [sign_leaves hleft]
        simp [split_single, hleft]
      · rw [not_or, Nat.not_lt, not_not] at hleft
        obtain ⟨o, z, hz⟩ := sign_takes (x := x) (y := signed f.signs y) hleft.1 hleft.2
        rw [hz]
        simp [split_nil, Nat.not_lt.mpr hleft.1, hleft.2]
  | .call function args s => by
    obtain ⟨xs, hxs, hback⟩ := reads_shownArgs args
    refine ⟨_, .primary (.call (.name function) hxs), ?_⟩
    simp [Expr.parts, Expr.keepsLeft, Expr.bare, Expr.signs, signed, hback]

theorem reads_shownItems : ∀ items : List Expr, ∃ xs, IsItems (Expr.shownItems items) xs ∧
    (xs = Expr.bareItems items ↔ ∀ part ∈ Expr.partsOfList items, part.keepsLeft = true)
  | [] => ⟨[], .nil, by simp [Expr.bareItems, Expr.partsOfList]⟩
  | [e] => by
    obtain ⟨x, hx, hback⟩ := reads_shown e
    refine ⟨_, .last hx.isExpr, ?_⟩
    simp [Expr.bareItems, Expr.partsOfList, hback]
  | e :: f :: items => by
    obtain ⟨x, hx, hback⟩ := reads_shown e
    obtain ⟨xs, hxs, hmore⟩ := reads_shownItems (f :: items)
    refine ⟨_, .cons hx.isExpr hxs, ?_⟩
    rw [Expr.bareItems, Expr.partsOfList, List.forall_mem_append, ← hback, ← hmore]
    simp

theorem reads_shownArgs : ∀ args : List Arg, ∃ xs, IsArgs (Expr.shownArgs args) xs ∧
    (xs = Expr.bareArgs args ↔ ∀ part ∈ Expr.partsOfArgs args, part.keepsLeft = true)
  | [] => ⟨[], .nil, by simp [Expr.bareArgs, Expr.partsOfArgs]⟩
  | [(key, e)] => by
    obtain ⟨x, hx, hback⟩ := reads_shown e
    refine ⟨_, .last (isArg_shown key hx.isExpr), ?_⟩
    simp [Expr.bareArgs, Expr.partsOfArgs, hback]
  | (key, e) :: arg :: args => by
    obtain ⟨x, hx, hback⟩ := reads_shown e
    obtain ⟨xs, hxs, hmore⟩ := reads_shownArgs (arg :: args)
    refine ⟨_, .cons (isArg_shown key hx.isExpr) hxs, ?_⟩
    rw [Expr.bareArgs, Expr.partsOfArgs, List.forall_mem_append, ← hback, ← hmore]
    simp

end

end Grammar

namespace Expr

open Grammar

/-- The numbers and names of an expression that was read can be read again. -/
theorem isRead_of_parse {source : String} {e : Expr} (h : parse source = .ok e) :
    ∀ t ∈ e.contents, Lexer.IsRead t := by
  obtain ⟨ts, hts, hexpr⟩ := parse_eq_ok.mp h
  intro t ht
  rw [← contents_bare, ← (exprOfTokens_isExpr hexpr).contents_eq] at ht
  obtain ⟨u, hu, rfl⟩ := List.mem_map.mp (List.mem_filter.mp ht).1
  exact Lexer.isRead_of_mem_tokensFrom hts u hu

/-- The text that shows an expression without floats and strings is that of an expression, and of
the same one exactly if no operator that binds at least as tightly as comparisons has a `not` among
the signs of its left operand. -/
theorem parse_display_iff {source : String} {e : Expr} (h : parse source = .ok e)
    (hplain : ∀ part ∈ e.parts, part.isFloatOrText = false) :
    ∃ back, parse e.display = .ok back ∧
      (back.bare = e.bare ↔ ∀ part ∈ e.parts, part.keepsLeft = true) := by
  have hspells : Lexer.Spells (e.display.toList ++ []) (e.shown ++ []) :=
    Lexer.spells_display e (isRead_of_parse h) hplain (by simp [Lexer.Parted]) .nil
  rw [List.append_nil, List.append_nil] at hspells
  obtain ⟨ts, hts, hrow⟩ := hspells 0
  obtain ⟨x, hx, hback⟩ := reads_shown e
  obtain ⟨back, hparse, hbare⟩ := exprOfTokens_complete 0 (hrow ▸ hx.isExpr)
  exact ⟨back, parse_eq_ok.mpr ⟨ts, hts, hparse⟩, hbare ▸ hback⟩

/-- A sign on the left and a `not` on the right of an operator. -/
def negations : Expr :=
  binary .lt (unary .neg (name "a" ⟨0, 1, 2⟩) ⟨0, 0, 2⟩)
    (unary .not (call "f" [(none, name "b" ⟨0, 11, 12⟩),
      (some "k", unary .neg (integer 2 ⟨0, 17, 18⟩) ⟨0, 16, 18⟩)] ⟨0, 9, 19⟩) ⟨0, 5, 19⟩) ⟨0, 0, 19⟩

theorem parse_display_iff_negations : parse "-a < not f(b, k=-2)" = .ok negations ∧
    negations.display = "(-a < not f(b, k=-2))" ∧
    ∃ back, parse "(-a < not f(b, k=-2))" = .ok back ∧ back.bare = negations.bare := by
  have h : parse "-a < not f(b, k=-2)" = .ok negations := by cbv
  have hdisplay : negations.display = "(-a < not f(b, k=-2))" := by decide
  obtain ⟨back, hback, hiff⟩ := parse_display_iff h (by decide)
  rw [hdisplay] at hback
  exact ⟨h, hdisplay, back, hback, hiff.mpr (by decide)⟩

/-- A `not` on the left of an operator, where it needs parentheses. -/
def negatedLeft : Expr :=
  binary .eq (unary .not (name "a" ⟨0, 5, 6⟩) ⟨0, 1, 6⟩) (name "b" ⟨0, 11, 12⟩) ⟨0, 1, 12⟩

/-- It is displayed without them, so that it reaches past the operator. -/
theorem display_negatedLeft : parse "(not a) == b" = .ok negatedLeft ∧
    (∀ part ∈ negatedLeft.parts, part.isFloatOrText = false) ∧
    negatedLeft.display = "(not a == b)" ∧
    ∃ back, parse "(not a == b)" = .ok back ∧ back.bare ≠ negatedLeft.bare := by
  refine ⟨by cbv, by decide, by decide, unary .not
    (binary .eq (name "a" ⟨0, 5, 6⟩) (name "b" ⟨0, 10, 11⟩) ⟨0, 5, 11⟩) ⟨0, 1, 11⟩, by cbv, ?_⟩
  simp [negatedLeft, bare]

end Expr

end EntropyGame
