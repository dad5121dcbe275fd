import EntropyGame.Proofs.Kind
import EntropyGame.Proofs.Source.Parts

namespace EntropyGame

theorem Phrase.plain_comp : plain ∘ plain = plain :=
  rfl

/-- A value without the decorations of its phrases. -/
def Value.plain : Value → Value
  | phrase p => phrase p.plain
  | list ps => list (ps.map Phrase.plain)
  | v => v

/-- Two evaluations end with the same fault, or with results that are the same once something is
erased from both. -/
def Alike {α β : Type} (erase : α → β) (x y : Except Fault α) : Prop :=
  x.map erase = y.map erase

/-- Registers hold the same texts, item by item, however they are decorated. -/
def Registers.SameTexts (rs₁ rs₂ : Registers) : Prop :=
  ∀ r, (rs₁.get? r).map Value.plain = (rs₂.get? r).map Value.plain

/-- Builtins that read the decoration of a phrase. -/
def Builtin.isMeasure : Builtin → Bool
  | xent | nex | xed | dex => true
  | _ => false

namespace Expr

/-- No part of an expression calls for a measure. -/
def Unmeasured (e : Expr) : Prop :=
  ∀ s args span b, .call s args span ∈ e.parts → Builtin.ofName? s = some b → b.isMeasure = false

/-- Wherever an expression asks whether two lists are equal, the answer is the same for both
stores. -/
def ListsAlike (rs₁ rs₂ : Registers) (judge : Judge) (e : Expr) : Prop :=
  ∀ (op : BinaryOp) (l r : Expr) (span : Span), .binary op l r span ∈ e.parts →
    op.isEquality = true → ∀ ps qs ps' qs' : List Phrase,
      l.eval rs₁ judge = .ok (.list ps) → r.eval rs₁ judge = .ok (.list qs) →
      l.eval rs₂ judge = .ok (.list ps') → r.eval rs₂ judge = .ok (.list qs') →
      (ps = qs ↔ ps' = qs')

end Expr

namespace Value

@[simp] theorem kind_plain (v : Value) : v.plain.kind = v.kind := by
  cases v <;> rfl

@[simp] theorem isFinite_plain (v : Value) : v.plain.isFinite = v.isFinite := by
  cases v <;> rfl

@[simp] theorem count?_plain (v : Value) : v.plain.count? = v.count? := by
  cases v <;> rfl

@[simp] theorem plain_plain (v : Value) : v.plain.plain = v.plain := by
  cases v with
  | list ps => simp [plain, Phrase.plain_comp]
  | _ => rfl

/-- Only lists of phrases have lists of phrases for plain values. -/
theorem plain_eq_list {v : Value} {ps : List Phrase} (h : v.plain = .list ps) :
    ∃ qs, v = .list qs ∧ qs.map Phrase.plain = ps := by
  cases v <;> cases h
  exact ⟨_, rfl, rfl⟩

theorem plain_eq_phrase {v : Value} {p : Phrase} (h : v.plain = .phrase p) :
    ∃ q, v = .phrase q ∧ q.plain = p := by
  cases v <;> cases h
  exact ⟨_, rfl, rfl⟩

end Value

namespace Alike

variable {α β γ δ : Type} {erase : α → β} {erase' : γ → δ}

theorem refl (x : Except Fault α) : Alike erase x x :=
  rfl

theorem ok {a b : α} (h : erase a = erase b) : Alike erase (.ok a) (.ok b) :=
  congrArg Except.ok h

/-- What is done next with alike results is alike. -/
theorem bind {x y : Except Fault α} {f g : α → Except Fault γ} (h : Alike erase x y)
    (hfg : ∀ a b, x = .ok a → y = .ok b → erase a = erase b → Alike erase' (f a) (g b)) :
    Alike erase' (x >>= f) (y >>= g) := by
  cases x with
  | error e =>
    cases y with
    | error e' => exact congrArg Except.error (Except.error.inj h)
    | ok b => cases h
  | ok a =>
    cases y with
    | error e => cases h
    | ok b => exact hfg a b rfl rfl (Except.ok.inj h)

end Alike

/-- An operation that treats a value as its plain one treats alike what has the same plain value. -/
theorem alike_of_plain {f : Value → Except Fault Value}
    (hf : ∀ v, Alike Value.plain (f v) (f v.plain)) {v w : Value} (h : v.plain = w.plain) :
    Alike Value.plain (f v) (f w) :=
  (hf v).trans ((congrArg (fun v => (f v).map Value.plain) h).trans (hf w).symm)

theorem Value.finite_plain (v : Value) : Alike plain v.finite v.plain.finite := by
  rw [finite, finite, isFinite_plain, kind_plain]
  split
  · exact .ok (plain_plain v).symm
  · rfl

theorem UnaryOp.apply_plain (op : UnaryOp) (v : Value) :
    Alike Value.plain (op.apply v) (op.apply v.plain) := by
  cases op <;> cases v <;> rfl

namespace Phrase

theorem plain_cutBefore (p : Phrase) (cut : String) :
    (p.cutBefore cut).plain = (p.plain.cutBefore cut).plain := by
  unfold cutBefore
  split
  · rfl
  · cases h : splitAtFirst? cut.toList p.primary.toList <;> simp [plain, h]

theorem plain_cutAfter (p : Phrase) (cut : String) :
    (p.cutAfter cut).plain = (p.plain.cutAfter cut).plain := by
  unfold cutAfter
  split
  · rfl
  · cases h : splitAtFirst? cut.toList p.primary.toList <;> simp [plain, h]

end Phrase

/-- Operators do not look at decorations, but for the equality of lists. -/
theorem BinaryOp.apply_plain (op : BinaryOp) (l r : Value)
    (h : op.isEquality = true → l.kind = .list → r.kind ≠ .list) :
    Alike Value.plain (op.apply l r) (op.apply l.plain r.plain) := by
  cases l <;> cases r <;> cases op <;> first
    | rfl
    | exact absurd rfl (h rfl rfl)
    | exact .ok (congrArg Value.phrase (Phrase.plain_cutBefore _ _))
    | exact .ok (congrArg Value.phrase (Phrase.plain_cutAfter _ _))
    | exact .ok (by simp [Value.plain, Phrase.plain_comp])

namespace Builtin

variable {b : Builtin} {judge : Judge}

theorem size_plain (v : Value) : Alike Value.plain (b.size v) (b.size v.plain) := by
  cases v with
  | list ps => exact .ok (by simp [Value.plain])
  | _ => rfl

theorem phraseAt_plain {position : Nat} {f : Phrase → Except Fault Value}
    (hf : ∀ p, Alike Value.plain (f p) (f p.plain)) (v : Value) :
    Alike Value.plain (b.phraseAt position v >>= f) (b.phraseAt position v.plain >>= f) := by
  cases v with
  | phrase p => exact hf p
  | _ => rfl

theorem plain_firstTokens (p : Phrase) (n : Nat) :
    (Measure.firstTokens judge p n).plain = (Measure.firstTokens judge p.plain n).plain := by
  by_cases h : (judge.tokenize p.primary).length ≤ n <;> simp [Measure.firstTokens, Phrase.plain, h]

theorem arity_plain (b : Builtin) (args : List Value) :
    Alike Value.plain (.error (.builtinArity b args.length))
      (.error (.builtinArity b (args.map Value.plain).length)) := by
  rw [List.length_map]
  exact .refl _

/-- Builtins that do not measure treat their arguments as plain ones. -/
theorem call_plain (hb : b.isMeasure = false) (args : List Value) :
    Alike Value.plain (b.call judge args) (b.call judge (args.map Value.plain)) := by
  cases b with
  | xent | nex | xed | dex => cases hb
  | len =>
    rcases args with _ | ⟨v, _ | ⟨w, vs⟩⟩
    · rfl
    · exact size_plain v
    · exact arity_plain len (v :: w :: vs)
  | isTrue =>
    rcases args with _ | ⟨v, _ | ⟨w, vs⟩⟩
    · rfl
    · exact phraseAt_plain (f := fun p => judged .verdict (Measure.isTrue judge p))
        (fun _ => rfl) v
    · exact arity_plain isTrue (v :: w :: vs)
  | isFalse =>
    rcases args with _ | ⟨v, _ | ⟨w, vs⟩⟩
    · rfl
    · exact phraseAt_plain (f := fun p => judged .verdict (Measure.isFalse judge p))
        (fun _ => rfl) v
    · exact arity_plain isFalse (v :: w :: vs)
  | firstNTokens =>
    rcases args with _ | ⟨v, _ | ⟨count, _ | ⟨w, vs⟩⟩⟩
    · rfl
    · rfl
    · simp only [call, List.map_cons, List.map_nil, Value.count?_plain, Value.kind_plain]
      refine phraseAt_plain (fun p => ?_) v
      split
      · exact .ok (congrArg Value.phrase (plain_firstTokens p _))
      · rfl
    · exact arity_plain firstNTokens (v :: count :: w :: vs)

end Builtin

namespace Expr

variable {rs₁ rs₂ : Registers} {judge : Judge}

mutual

theorem parts_subset {e p : Expr} (h : p ∈ e.parts) : p.parts ⊆ e.parts := by
  cases e with
  | integer | float | text | bool | name =>
    cases List.mem_singleton.mp h
    exact List.Subset.refl _
  | list items _ =>
    obtain rfl | h := List.mem_cons.mp h
    · exact List.Subset.refl _
    · exact List.Subset.trans (partsOfList_subset h) (List.subset_cons_self _ _)
  | unary op operand _ =>
    obtain rfl | h := List.mem_cons.mp h
    · exact List.Subset.refl _
    · exact List.Subset.trans (parts_subset h) (List.subset_cons_self _ _)
  | binary op left right _ =>
    obtain rfl | h := List.mem_cons.mp h
    · exact List.Subset.refl _
    · obtain h | h := List.mem_append.mp h
      · exact List.Subset.trans (parts_subset h) fun _ hq =>
          List.mem_cons_of_mem _ (List.mem_append_left _ hq)
      · exact List.Subset.trans (parts_subset h) fun _ hq =>
          List.mem_cons_of_mem _ (List.mem_append_right _ hq)
  | call function args _ =>
    obtain rfl | h := List.mem_cons.mp h
    · exact List.Subset.refl _
    · exact List.Subset.trans (partsOfArgs_subset h) (List.subset_cons_self _ _)

theorem partsOfList_subset {items : List Expr} {p : Expr} (h : p ∈ partsOfList items) :
    p.parts ⊆ partsOfList items := by
  cases items with
  | nil => cases h
  | cons item items =>
    obtain h | h := List.mem_append.mp h
    · exact List.Subset.trans (parts_subset h) (List.subset_append_left _ _)
    · exact List.Subset.trans (partsOfList_subset h) (List.subset_append_right _ _)

theorem partsOfArgs_subset {args : List Arg} {p : Expr} (h : p ∈ partsOfArgs args) :
    p.parts ⊆ partsOfArgs args := by
  cases args with
  | nil => cases h
  | cons arg args =>
    obtain h | h := List.mem_append.mp h
    · exact List.Subset.trans (parts_subset h) (List.subset_append_left _ _)
    · exact List.Subset.trans (partsOfArgs_subset h) (List.subset_append_right _ _)

end

theorem Unmeasured.part {e p : Expr} (h : e.Unmeasured) (hp : p ∈ e.parts) : p.Unmeasured :=
  fun s args span b hc => h s args span b (parts_subset hp hc)

theorem ListsAlike.part {e p : Expr} (h : e.ListsAlike rs₁ rs₂ judge) (hp : p ∈ e.parts) :
    p.ListsAlike rs₁ rs₂ judge :=
  fun op l r span hb => h op l r span (parts_subset hp hb)

theorem valueOf_alike (h : rs₁.SameTexts rs₂) (s : String) :
    Alike Value.plain (valueOf rs₁ s) (valueOf rs₂ s) := by
  unfold valueOf
  split
  · rename_i r _
    have hr := h r
    cases h₁ : rs₁.get? r <;> cases h₂ : rs₂.get? r <;> rw [h₁, h₂] at hr
    · rfl
    · cases hr
    · cases hr
    · exact .ok (Option.some.inj hr)
  · exact .refl _

/-- An operator between alike operands: only the equality of lists may see their decorations. -/
theorem apply_alike {op : BinaryOp} {l r l' r' : Value} (hl : l.plain = l'.plain)
    (hr : r.plain = r'.plain)
    (heq : op.isEquality = true → ∀ ps qs ps' qs', l = .list ps → r = .list qs → l' = .list ps' →
      r' = .list qs' → (ps = qs ↔ ps' = qs')) :
    Alike Value.plain (op.apply l r) (op.apply l' r') := by
  by_cases h : op.isEquality = true ∧ l.kind = .list ∧ r.kind = .list
  · obtain ⟨hop, hkl, hkr⟩ := h
    cases l <;> cases hkl
    cases r <;> cases hkr
    rename_i ps qs
    obtain ⟨ps', rfl, _⟩ := Value.plain_eq_list hl.symm
    obtain ⟨qs', rfl, _⟩ := Value.plain_eq_list hr.symm
    have hiff : decide (ps = qs) = decide (ps' = qs') :=
      decide_eq_decide.mpr (heq hop ps qs ps' qs' rfl rfl rfl rfl)
    cases op <;> cases hop
    · exact .ok (congrArg (fun b => Value.plain (.bool b)) hiff)
    · exact .ok (congrArg (fun b => Value.plain (.bool !b)) hiff)
  · have hkl : l.kind = l'.kind := by rw [← l.kind_plain, hl, l'.kind_plain]
    have hkr : r.kind = r'.kind := by rw [← r.kind_plain, hr, r'.kind_plain]
    have h₁ := op.apply_plain l r fun hop hl hr => h ⟨hop, hl, hr⟩
    have h₂ := op.apply_plain l' r' fun hop hl hr => h ⟨hop, hkl.trans hl, hkr.trans hr⟩
    rw [← hl, ← hr] at h₂
    exact h₁.trans h₂.symm

/-- What is checked to be finite after it is made alike is still alike. -/
theorem finite_alike {x y : Except Fault Value} (h : Alike Value.plain x y) :
    Alike Value.plain (x >>= Value.finite) (y >>= Value.finite) :=
  h.bind fun _ _ _ _ => alike_of_plain Value.finite_plain

mutual

/-- Without measures, an expression is evaluated alike in stores that hold the same texts, as far
as they decide alike which lists are equal. -/
theorem eval_alike {e : Expr} (h : rs₁.SameTexts rs₂) (hm : e.Unmeasured)
    (hl : e.ListsAlike rs₁ rs₂ judge) :
    Alike Value.plain (e.eval rs₁ judge) (e.eval rs₂ judge) := by
  cases e with
  | integer | text | bool =>
    rw [eval, eval]
    exact .refl _
  | float =>
    rw [eval, eval]
    exact .refl _
  | name s _ =>
    rw [eval, eval]
    exact valueOf_alike h s
  | list items _ =>
    rw [eval, eval]
    have hi := evalItems_alike items h
      (fun p hp => hm.part (List.mem_cons_of_mem _ hp))
      (fun p hp => hl.part (List.mem_cons_of_mem _ hp))
    exact hi.bind fun _ _ _ _ hps => .ok (congrArg Value.list hps)
  | unary op operand _ =>
    rw [eval, eval]
    have hp : operand ∈ (unary op operand ‹_›).parts :=
      List.mem_cons_of_mem _ (self_mem_parts operand)
    refine (eval_alike h (hm.part hp) (hl.part hp)).bind fun _ _ _ _ hv => ?_
    exact finite_alike (alike_of_plain op.apply_plain hv)
  | binary op left right span =>
    rw [eval, eval]
    have hpl : left ∈ (binary op left right span).parts :=
      List.mem_cons_of_mem _ (List.mem_append_left _ (self_mem_parts left))
    have hpr : right ∈ (binary op left right span).parts :=
      List.mem_cons_of_mem _ (List.mem_append_right _ (self_mem_parts right))
    refine (eval_alike h (hm.part hpl) (hl.part hpl)).bind fun l l' hl₁ hl₂ hlv => ?_
    refine (eval_alike h (hm.part hpr) (hl.part hpr)).bind fun r r' hr₁ hr₂ hrv => ?_
    refine finite_alike (apply_alike hlv hrv ?_)
    -- an equality of lists is the one operation that sees decorations
    rintro hop ps qs ps' qs' rfl rfl rfl rfl
    exact hl op left right span (self_mem_parts _) hop ps qs ps' qs' hl₁ hr₁ hl₂ hr₂
  | call function args span =>
    rw [eval, eval]
    cases hb : Builtin.ofName? function with
    | none => exact .refl _
    | some b =>
      cases hk : args.findSome? (·.1) with
      | some key => exact .refl _
      | none =>
        have hmeasure : b.isMeasure = false := hm function args span b (self_mem_parts _) hb
        have ha := evalArgs_alike args h
          (fun p hp => hm.part (List.mem_cons_of_mem _ hp))
          (fun p hp => hl.part (List.mem_cons_of_mem _ hp))
        refine ha.bind fun vs vs' _ _ hvs => finite_alike ?_
        have hplain : ∀ vs, Alike Value.plain (b.call judge vs) (b.call judge (vs.map Value.plain)) :=
          Builtin.call_plain hmeasure
        have hvs' := hplain vs
        rw [hvs] at hvs'
        exact hvs'.trans (hplain vs').symm

theorem evalItems_alike (items : List Expr) (h : rs₁.SameTexts rs₂)
    (hm : ∀ p ∈ partsOfList items, p.Unmeasured)
    (hl : ∀ p ∈ partsOfList items, p.ListsAlike rs₁ rs₂ judge) :
    Alike (List.map Phrase.plain) (evalItems rs₁ judge items) (evalItems rs₂ judge items) := by
  cases items with
  | nil => exact .refl _
  | cons item items =>
    rw [evalItems, evalItems]
    have hself := List.mem_append_left (partsOfList items) (self_mem_parts item)
    refine (eval_alike h (hm _ hself) (hl _ hself)).bind fun v w _ _ hv => ?_
    cases v with
    | phrase p =>
      obtain ⟨q, rfl, hq⟩ := Value.plain_eq_phrase hv.symm
      have hi := evalItems_alike items h
        (fun p hp => hm p (List.mem_append_right _ hp))
        (fun p hp => hl p (List.mem_append_right _ hp))
      exact hi.bind fun _ _ _ _ hps => .ok (by rw [List.map_cons, List.map_cons, hq, hps])
    | list ps =>
      obtain ⟨qs, rfl, _⟩ := Value.plain_eq_list hv.symm
      rfl
    | _ =>
      cases w <;> cases hv
      rfl

theorem evalArgs_alike (args : List Arg) (h : rs₁.SameTexts rs₂)
    (hm : ∀ p ∈ partsOfArgs args, p.Unmeasured)
    (hl : ∀ p ∈ partsOfArgs args, p.ListsAlike rs₁ rs₂ judge) :
    Alike (List.map Value.plain) (evalArgs rs₁ judge args) (evalArgs rs₂ judge args) := by
  cases args with
  | nil => exact .refl _
  | cons arg args =>
    rw [evalArgs, evalArgs]
    have hself := List.mem_append_left (partsOfArgs args) (self_mem_parts arg.2)
    refine (eval_alike h (hm _ hself) (hl _ hself)).bind fun v w _ _ hv => ?_
    have ha := evalArgs_alike args h
      (fun p hp => hm p (List.mem_append_right _ hp))
      (fun p hp => hl p (List.mem_append_right _ hp))
    exact ha.bind fun _ _ _ _ hvs => .ok (by rw [List.map_cons, List.map_cons, hv, hvs])

end

/-- Without an equality whose left side is a list, there is nothing to decide. -/
theorem ListsAlike.of_kinds {e : Expr} (hk : rs₁.Kinded)
    (h : ∀ op l r span, .binary op l r span ∈ e.parts → op.isEquality = true →
      l.kind? ≠ some .list) : e.ListsAlike rs₁ rs₂ judge :=
  fun op l r span hp hop _ _ _ _ hl _ _ _ => absurd (eval_kind hk hl) (h op l r span hp hop)

theorem eval_equality {rs : Registers} {op : BinaryOp} {l r : Expr} {span : Span}
    {ps qs : List Phrase} (hop : op.isEquality = true) (hl : l.eval rs judge = .ok (.list ps))
    (hr : r.eval rs judge = .ok (.list qs)) :
    (binary op l r span).eval rs judge = .ok (.bool (decide (op = .eq) == decide (ps = qs))) := by
  rw [eval, hl, hr]
  cases op <;> cases hop
  · cases h : decide (ps = qs) <;> exact congrArg (fun b => Except.ok (Value.bool b)) h
  · cases h : decide (ps = qs) <;> exact congrArg (fun b => Except.ok (Value.bool !b)) h

/-- Whether the list `l` is the one letter `a`. -/
def isLetterA : Expr :=
  binary .eq (name "l" default) (list [text "a" default] default) default

def isSelfEqual : Expr :=
  binary .eq (name "l" default) (name "l" default) default

/-- Registers where `l` holds the one letter `a` with a decoration. -/
def letterA (decoration : String) : Registers :=
  (Registers.ofPresets .empty).insert (.first .l) (.list [⟨"a", decoration⟩])

/-- All parts of an expression without measures are evaluated alike in stores that hold the same
texts if and only if every equality of lists among them is decided alike. -/
theorem eval_alike_iff (h : rs₁.SameTexts rs₂) (judge : Judge) {e : Expr} (hm : e.Unmeasured) :
    (∀ p ∈ e.parts, Alike Value.plain (p.eval rs₁ judge) (p.eval rs₂ judge)) ↔
      e.ListsAlike rs₁ rs₂ judge := by
  constructor
  · intro ha op l r span hp hop ps qs ps' qs' hl₁ hr₁ hl₂ hr₂
    have hboth := ha _ hp
    rw [eval_equality hop hl₁ hr₁, eval_equality hop hl₂ hr₂] at hboth
    have hbool := Value.bool.inj (Except.ok.inj hboth)
    cases op <;> cases hop <;> simpa using hbool
  · intro hl p hp
    exact eval_alike h (hm.part hp) (hl.part hp)

theorem letterA_sameTexts (d₁ d₂ : String) : (letterA d₁).SameTexts (letterA d₂) := by
  intro r
  rw [letterA, letterA, OrderedMap.get?_insert, OrderedMap.get?_insert]
  split <;> rfl

/-- Compared with itself, `l` is the same however it is decorated. -/
theorem eval_alike_iff_selfEqual :
    (letterA "x").SameTexts (letterA "") ∧ isSelfEqual.Unmeasured ∧
      isSelfEqual.ListsAlike (letterA "x") (letterA "") (Judge.Cache.judge 0) ∧
      ∀ p ∈ isSelfEqual.parts, Alike Value.plain (p.eval (letterA "x") (Judge.Cache.judge 0))
        (p.eval (letterA "") (Judge.Cache.judge 0)) := by
  have hm : isSelfEqual.Unmeasured := by
    intro s args span b hc
    simp [isSelfEqual, parts] at hc
  have hl : isSelfEqual.ListsAlike (letterA "x") (letterA "") (Judge.Cache.judge 0) := by
    intro op l r span hb _ ps qs ps' qs' hl₁ hr₁ hl₂ hr₂
    simp only [isSelfEqual, parts, List.cons_append, List.nil_append, List.mem_cons, binary.injEq,
      reduceCtorEq, List.not_mem_nil, or_self, or_false] at hb
    obtain ⟨_, rfl, rfl, _⟩ := hb
    cases hl₁.symm.trans hr₁
    cases hl₂.symm.trans hr₂
    simp
  exact ⟨letterA_sameTexts _ _, hm, hl,
    (eval_alike_iff (letterA_sameTexts _ _) (Judge.Cache.judge 0) hm).mpr hl⟩

/-- The equality of lists tells decorations apart. -/
theorem isLetterA_decorated :
    (letterA "x").SameTexts (letterA "") ∧ isLetterA.Unmeasured ∧
      isLetterA.eval (letterA "x") (Judge.Cache.judge 0) = .ok (.bool false) ∧
      isLetterA.eval (letterA "") (Judge.Cache.judge 0) = .ok (.bool true) := by
  refine ⟨letterA_sameTexts _ _, ?_, rfl, rfl⟩
  intro s args span b hc
  simp [isLetterA, parts, partsOfList] at hc

end Expr

end EntropyGame
