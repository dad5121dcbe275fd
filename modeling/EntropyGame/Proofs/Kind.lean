import EntropyGame.Judge.Cache
import EntropyGame.Proofs.Eval
import EntropyGame.Proofs.Register.Store

namespace EntropyGame

namespace Kind

/-- Scores make the result of a comparison traced. -/
def isScore : Kind → Bool
  | costs | verdict => true
  | _ => false

/-- Kinds that count as a number beside a score. -/
def isCounted : Kind → Bool
  | number | costs | verdict => true
  | _ => false

def isTruth : Kind → Bool
  | bool | verdict => true
  | _ => false

end Kind

/-- The kind that an operator makes of the kind of its operand. -/
def UnaryOp.kind? : UnaryOp → Kind → Option Kind
  | neg, .number => some .number
  | neg, .costs => some .costs
  | not, .bool => some .bool
  | not, .verdict => some .verdict
  | _, _ => none

namespace BinaryOp

def isEquality : BinaryOp → Bool
  | eq | ne => true
  | _ => false

/-- Only numbers have an order; what is compared with a score gets a trace. -/
def compareKind? (op : BinaryOp) (l r : Kind) : Option Kind :=
  if l.isScore || r.isScore then
    if l.isCounted && r.isCounted then some .verdict else none
  else if l = r ∧ (l = .number ∨ op.isEquality = true) then some .bool
  else none

def logicKind? : Kind → Kind → Option Kind
  | .bool, .bool => some .bool
  | l, r => if l.isTruth && r.isTruth then some .verdict else none

/-- The kind that an operator makes of the kinds of its operands. -/
def kind? (op : BinaryOp) (l r : Kind) : Option Kind :=
  match op, l, r with
  | add, .number, .number | sub, .number, .number | mul, .number, .number => some .number
  | add, .phrase, .phrase | cutBefore, .phrase, .phrase | cutAfter, .phrase, .phrase
  | decorate, .phrase, .phrase => some .phrase
  | add, .list, .list => some .list
  | add, .costs, .costs | sub, .costs, .costs | mul, .costs, .number | mul, .number, .costs =>
    some .costs
  | and, l, r | or, l, r => logicKind? l r
  | eq, l, r | ne, l, r | lt, l, r | le, l, r | gt, l, r | ge, l, r => op.compareKind? l r
  | _, _, _ => none

end BinaryOp

/-- The kind of a builtin for arguments of given kinds. -/
def Builtin.kind? : Builtin → List Kind → Option Kind
  | xent, [.phrase] | nex, [.phrase] | xed, [.phrase] | dex, [.phrase]
  | xent, [.phrase, .phrase] | nex, [.phrase, .phrase] | xed, [.phrase, .phrase]
  | dex, [.phrase, .phrase] => some .costs
  | len, [.phrase] | len, [.list] | len, [.costs] => some .number
  | isTrue, [.phrase] | isFalse, [.phrase] => some .verdict
  | firstNTokens, [.phrase, .number] => some .phrase
  | _, _ => none

namespace Expr

mutual

/-- The kind of the values of an expression, told without evaluating it: from its operators and
builtins and the families of the registers that it names. -/
def kind? : Expr → Option Kind
  | integer .. | float .. => some .number
  | text .. => some .phrase
  | bool .. => some .bool
  | name s _ => (Register.ofName? s).map Register.kind
  | list items _ => if arePhrases items then some .list else none
  | unary op operand _ => operand.kind?.bind op.kind?
  | binary op left right _ => left.kind?.bind fun l => right.kind?.bind fun r => op.kind? l r
  | call function args _ =>
    if args.all (·.1.isNone) then
      (Builtin.ofName? function).bind fun b => (argKinds? args).bind b.kind?
    else none

def arePhrases : List Expr → Bool
  | [] => true
  | item :: items => item.kind? = some .phrase && arePhrases items

def argKinds? : List (Option String × Expr) → Option (List Kind)
  | [] => some []
  | (_, arg) :: args => arg.kind?.bind fun k => (argKinds? args).map (k :: ·)

end

end Expr

/-- Registers hold nothing but values of their kinds. -/
def Registers.Kinded (rs : Registers) : Prop :=
  ∀ r v, rs.get? r = some v → v.kind = r.kind

theorem Registers.Typed.kinded {rs : Registers} (h : rs.Typed) : rs.Kinded :=
  fun _ _ hv => h.kind _ (OrderedMap.mem_of_get? hv)

theorem Value.finite_eq {v w : Value} (h : v.finite = .ok w) : w = v := by
  rw [finite] at h
  split at h
  · cases h
    rfl
  · cases h

theorem UnaryOp.apply_kind {op : UnaryOp} {v w : Value} (h : op.apply v = .ok w) :
    op.kind? v.kind = some w.kind := by
  unfold apply at h
  split at h <;> cases h <;> rfl

namespace BinaryOp

variable {op : BinaryOp} {l r v : Value}

theorem isScore_kind (v : Value) : v.kind.isScore = isScore v := by
  cases v <;> rfl

theorem isCounted_kind (v : Value) : v.kind.isCounted = (scoreOf? v).isSome := by
  cases v <;> rfl

theorem compareEqual_kind {equal : Bool} (h : op.compareEqual l r equal = .ok v) :
    op.isEquality = true ∧ v.kind = .bool := by
  unfold compareEqual at h
  split at h <;> cases h <;> exact ⟨rfl, rfl⟩

theorem compare_kind (h : op.compare l r = .ok v) :
    op.compareKind? l.kind r.kind = some v.kind := by
  unfold compare at h
  rw [compareKind?, isScore_kind, isScore_kind]
  split at h
  · rename_i hscore
    rw [if_pos hscore, isCounted_kind, isCounted_kind]
    split at h
    · rename_i hx hy
      cases h
      rw [hx, hy]
      rfl
    · cases h
  · rename_i hscore
    rw [if_neg hscore]
    split at h
    · cases h
      exact if_pos ⟨rfl, .inl rfl⟩
    all_goals first
      | cases h
      | (obtain ⟨heq, hv⟩ := compareEqual_kind h
         rw [hv]
         exact if_pos ⟨rfl, .inr heq⟩)

theorem verdictOf_kind {w : Verdict} (h : op.verdictOf v = .ok w) : v.kind.isTruth = true := by
  unfold verdictOf at h
  split at h <;> first | rfl | cases h

theorem logic_kind {plain : Bool → Bool → Bool} {traced : Verdict → Verdict → Verdict}
    (h : op.logic plain traced l r = .ok v) : logicKind? l.kind r.kind = some v.kind := by
  unfold logic at h
  split at h
  · cases h
    rfl
  · rename_i hplain
    obtain ⟨_, hl, h⟩ := bind_ok h
    obtain ⟨_, hr, h⟩ := bind_ok h
    cases h
    have hl := verdictOf_kind hl
    have hr := verdictOf_kind hr
    unfold logicKind?
    split
    · rename_i hkl hkr
      cases l <;> cases hkl
      cases r <;> cases hkr
      exact absurd rfl (hplain _ _ rfl)
    · rw [hl, hr]
      rfl

theorem aligned_kind {x : Except Misaligned (CostVector Float)} (h : aligned x = .ok v) :
    v.kind = .costs := by
  unfold aligned at h
  split at h <;> cases h
  rfl

theorem apply_kind (h : op.apply l r = .ok v) : op.kind? l.kind r.kind = some v.kind := by
  unfold apply at h
  split at h
  all_goals first
    | (cases h; done)
    | (cases h; rfl)
    | (rw [aligned_kind h]; rfl)
    | exact logic_kind h
    | exact compare_kind h

end BinaryOp

namespace Builtin

variable {b : Builtin} {judge : Judge} {v : Value}

theorem phraseAt_kind {position : Nat} {p : Phrase} (h : b.phraseAt position v = .ok p) :
    v.kind = .phrase := by
  unfold phraseAt at h
  split at h
  · rfl
  · cases h

theorem judged_kind {α : Type} {wrap : α → Value} {x : Except JudgeFault α} {k : Kind}
    (hwrap : ∀ a, (wrap a).kind = k) (h : judged wrap x = .ok v) : v.kind = k := by
  unfold judged at h
  split at h <;> cases h
  exact hwrap _

theorem applyMeasure_kind
    {measure : Judge → Phrase → String → Except JudgeFault (CostVector Float)} {args : List Value}
    (h : b.applyMeasure judge measure args = .ok v) :
    (args.map Value.kind = [.phrase] ∨ args.map Value.kind = [.phrase, .phrase]) ∧
      v.kind = .costs := by
  unfold applyMeasure at h
  split at h
  · obtain ⟨_, hp, h⟩ := bind_ok h
    exact ⟨.inl (by simp [phraseAt_kind hp]), judged_kind (fun _ => rfl) h⟩
  · obtain ⟨_, hp, h⟩ := bind_ok h
    obtain ⟨_, hc, h⟩ := bind_ok h
    exact ⟨.inr (by simp [phraseAt_kind hp, phraseAt_kind hc]), judged_kind (fun _ => rfl) h⟩
  · cases h

theorem count?_kind {n : Nat} (h : v.count? = some n) : v.kind = .number := by
  cases v <;> first | rfl | cases h

theorem call_kind {args : List Value} (h : b.call judge args = .ok v) :
    b.kind? (args.map Value.kind) = some v.kind := by
  have truth : ∀ {b : Builtin} {measure : Judge → Phrase → Except JudgeFault Verdict} {w : Value},
      (do let p ← b.phraseAt 1 w; judged .verdict (measure judge p)) = .ok v →
      w.kind = .phrase ∧ v.kind = .verdict := by
    intro b measure w h
    obtain ⟨_, hp, h⟩ := bind_ok h
    exact ⟨phraseAt_kind hp, judged_kind (fun _ => rfl) h⟩
  unfold call at h
  split at h
  case h_1 | h_2 | h_3 | h_4 =>
    obtain ⟨hargs | hargs, hv⟩ := applyMeasure_kind h <;> rw [hargs, hv] <;> rfl
  case h_5 w =>
    unfold size at h
    split at h <;> cases h <;> rfl
  case h_6 | h_7 =>
    obtain ⟨hw, hv⟩ := truth h
    simp only [List.map_cons, List.map_nil, hw, hv]
    rfl
  case h_8 w count =>
    obtain ⟨_, hp, h⟩ := bind_ok h
    split at h
    · rename_i hn
      cases h
      simp only [List.map_cons, List.map_nil, phraseAt_kind hp, count?_kind hn]
      rfl
    · cases h
  case h_9 => cases h

end Builtin

namespace Expr

variable {registers : Registers} {judge : Judge}

mutual

/-- What an expression yields is of its kind. -/
theorem eval_kind {e : Expr} {v : Value} (hk : registers.Kinded)
    (h : e.eval registers judge = .ok v) : e.kind? = some v.kind := by
  cases e with
  | integer n _ =>
    rw [eval] at h
    cases h
    rfl
  | float x _ =>
    rw [eval] at h
    rw [Value.finite_eq h]
    rfl
  | text s _ =>
    rw [eval] at h
    cases h
    rfl
  | bool b _ =>
    rw [eval] at h
    cases h
    rfl
  | name s _ =>
    rw [eval, valueOf] at h
    split at h
    · rename_i r hr
      split at h <;> cases h
      rename_i hget
      rw [kind?, hr, hk r v hget]
      rfl
    · split at h <;> cases h
  | list items _ =>
    rw [eval] at h
    obtain ⟨ps, hps, h⟩ := bind_ok h
    cases h
    rw [kind?, evalItems_kind hk hps]
    rfl
  | unary op operand _ =>
    rw [eval] at h
    obtain ⟨x, hx, h⟩ := bind_ok h
    obtain ⟨y, hy, h⟩ := bind_ok h
    rw [kind?, eval_kind hk hx, Value.finite_eq h]
    exact UnaryOp.apply_kind hy
  | binary op left right _ =>
    rw [eval] at h
    obtain ⟨x, hx, h⟩ := bind_ok h
    obtain ⟨y, hy, h⟩ := bind_ok h
    obtain ⟨z, hz, h⟩ := bind_ok h
    rw [kind?, eval_kind hk hx, eval_kind hk hy, Value.finite_eq h]
    exact BinaryOp.apply_kind hz
  | call function args _ =>
    rw [eval] at h
    split at h
    · cases h
    · rename_i b hb
      split at h
      · cases h
      · rename_i hnamed
        obtain ⟨vs, hvs, h⟩ := bind_ok h
        obtain ⟨w, hw, h⟩ := bind_ok h
        have plain : args.all (·.1.isNone) = true := by
          simpa [List.findSome?_eq_none_iff] using hnamed
        rw [kind?, if_pos plain, hb, evalArgs_kind hk hvs, Value.finite_eq h]
        exact Builtin.call_kind hw

theorem evalItems_kind {items : List Expr} {ps : List Phrase} (hk : registers.Kinded)
    (h : evalItems registers judge items = .ok ps) : arePhrases items = true := by
  cases items with
  | nil => rfl
  | cons item items =>
    rw [evalItems] at h
    obtain ⟨v, hv, h⟩ := bind_ok h
    split at h
    · obtain ⟨ps', hps, _⟩ := bind_ok h
      rw [arePhrases, eval_kind hk hv, evalItems_kind hk hps]
      rfl
    · cases h

theorem evalArgs_kind {args : List Arg} {vs : List Value} (hk : registers.Kinded)
    (h : evalArgs registers judge args = .ok vs) : argKinds? args = some (vs.map Value.kind) := by
  cases args with
  | nil =>
    cases h
    rfl
  | cons arg args =>
    rw [evalArgs] at h
    obtain ⟨v, hv, h⟩ := bind_ok h
    obtain ⟨vs', hvs, h⟩ := bind_ok h
    cases h
    rw [argKinds?, eval_kind hk hv, evalArgs_kind hk hvs]
    rfl

end

/-- The kind of an expression is the kind of what it yields, whatever the registers hold and
whoever judges. An expression without a kind yields nothing. -/
theorem kind?_sound (hk : registers.Kinded) (judge : Judge) (e : Expr) :
    (∀ v, e.eval registers judge = .ok v → e.kind? = some v.kind) ∧
      (e.kind? = none → ∃ f, e.eval registers judge = .error f) ∧
      ∀ (registers' : Registers) (judge' : Judge) (v v' : Value), registers'.Kinded →
        e.eval registers judge = .ok v → e.eval registers' judge' = .ok v' → v.kind = v'.kind := by
  refine ⟨fun v hv => eval_kind hk hv, fun hnone => ?_, ?_⟩
  · cases he : e.eval registers judge with
    | error f => exact ⟨f, rfl⟩
    | ok v => cases hnone.symm.trans (eval_kind hk he)
  · intro registers' judge' v v' hk' hv hv'
    exact Option.some.inj ((eval_kind hk hv).symm.trans (eval_kind hk' hv'))

/-- In the registers that a game begins with, `s` is the empty text and is not added to `l`. -/
theorem kind?_sound_ofPresets :
    (Registers.ofPresets .empty).Kinded ∧
      (binary .eq (name "s" default) (text "" default) default).eval (.ofPresets .empty)
        (Judge.Cache.judge 0) = .ok (.bool true) ∧
      (binary .eq (name "s" default) (text "" default) default).kind? = some .bool ∧
      (binary .add (name "s" default) (name "l" default) default).kind? = none ∧
      ∃ f, (binary .add (name "s" default) (name "l" default) default).eval (.ofPresets .empty)
        (Judge.Cache.judge 0) = .error f :=
  have hk := (Registers.ofPresets_typed .empty).kinded
  ⟨hk, rfl, (kind?_sound hk (Judge.Cache.judge 0) _).1 (.bool true) rfl, rfl,
    (kind?_sound hk (Judge.Cache.judge 0) _).2.1 rfl⟩

end Expr

/-- Whether a fault is about what values hold, not about their kinds. -/
def Fault.isContent : Fault → Bool
  | notFinite _ | misaligned _ | judge _ | missingRegister _ => true
  | builtinArgument b position _ found => b = .firstNTokens && position = 2 && found = .number
  | _ => false

theorem Value.finite_isContent {v : Value} {f : Fault} (h : v.finite = .error f) :
    f.isContent = true := by
  rw [finite] at h
  split at h <;> cases h
  rfl

theorem UnaryOp.apply_of_kind? {op : UnaryOp} {v : Value} {k : Kind}
    (hk : op.kind? v.kind = some k) : ∃ w, op.apply v = .ok w := by
  cases op <;> cases v <;> first | exact ⟨_, rfl⟩ | cases hk

namespace BinaryOp

variable {op : BinaryOp} {l r : Value} {k : Kind} {f : Fault}

theorem compare_of_kind? (hk : op.compareKind? l.kind r.kind = some k) :
    ∃ v, op.compare l r = .ok v := by
  have equal : ∀ {b : Bool}, op.isEquality = true → ∃ v, op.compareEqual l r b = .ok v := by
    intro b hop
    cases op <;> first | exact ⟨_, rfl⟩ | cases hop
  cases l <;> cases r <;>
    simp [compareKind?, Value.kind, Kind.isScore, Kind.isCounted] at hk <;>
    first | exact ⟨_, rfl⟩ | exact equal hk.1

theorem logic_of_kind? {plain : Bool → Bool → Bool} {traced : Verdict → Verdict → Verdict}
    (hk : logicKind? l.kind r.kind = some k) : ∃ v, op.logic plain traced l r = .ok v := by
  cases l <;> cases r <;> first | exact ⟨_, rfl⟩ | cases hk

theorem aligned_isContent {x : Except Misaligned (CostVector Float)} (h : aligned x = .error f) :
    f.isContent = true := by
  unfold aligned at h
  split at h <;> cases h
  rfl

theorem apply_isContent (hk : op.kind? l.kind r.kind = some k) (h : op.apply l r = .error f) :
    f.isContent = true := by
  have total : ∀ {x : Except Fault Value}, (∃ v, x = .ok v) → x = .error f → f.isContent = true := by
    rintro x ⟨v, rfl⟩ hx
    cases hx
  cases op
  case and | or => exact total (logic_of_kind? hk) h
  case eq | ne | lt | le | gt | ge => exact total (compare_of_kind? hk) h
  all_goals
    cases l <;> cases r <;> cases hk <;> first
      | exact aligned_isContent h
      | cases h

end BinaryOp

namespace Builtin

variable {b : Builtin} {judge : Judge} {k : Kind} {f : Fault}

theorem accepts_of_kind? {ks : List Kind} (hk : b.kind? ks = some k) :
    b.accepts ks.length = true := by
  unfold kind? at hk
  split at hk <;> first | rfl | cases hk

/-- Arguments that give a builtin a kind are taken, but that only some numbers are counts. -/
theorem takes_of_kind? {ks : List Kind} {position : Nat} {v : Value} (hk : b.kind? ks = some k)
    (hv : ks[position]? = some v.kind) :
    b.takes position v = true ∨ b = .firstNTokens ∧ position = 1 ∧ v.kind = .number := by
  unfold kind? at hk
  split at hk <;> cases hk <;> rcases position with _ | _ | position <;> simp at hv <;>
    simp [takes, ← hv]

theorem call_isContent {args : List Value} (hk : b.kind? (args.map Value.kind) = some k)
    (h : b.call judge args = .error f) : f.isContent = true := by
  cases call_faulty h with
  | @argument position v hv ht =>
    have hget : (args.map Value.kind)[position]? = some v.kind := by
      rw [List.getElem?_map, hv, Option.map_some]
    obtain htakes | ⟨rfl, rfl, hnumber⟩ := takes_of_kind? hk hget
    · cases htakes.symm.trans ht
    · simp [Fault.isContent, hnumber]
  | arity ha =>
    have hlength := accepts_of_kind? hk
    rw [List.length_map] at hlength
    cases hlength.symm.trans ha
  | judge => rfl

end Builtin

namespace Expr

variable {registers : Registers} {judge : Judge} {f : Fault}

mutual

/-- An expression with a kind is at fault only for what its values hold. -/
theorem eval_isContent {e : Expr} {k : Kind} (hr : registers.Kinded) (hk : e.kind? = some k)
    (h : e.eval registers judge = .error f) : f.isContent = true := by
  cases e with
  | integer n _ => simp [eval] at h
  | float x _ =>
    rw [eval] at h
    exact Value.finite_isContent h
  | text s _ => simp [eval] at h
  | bool b _ => simp [eval] at h
  | name s _ =>
    rw [kind?, Option.map_eq_some_iff] at hk
    obtain ⟨r, hs, _⟩ := hk
    simp only [eval, valueOf, hs] at h
    split at h <;> cases h
    rfl
  | list items _ =>
    rw [kind?] at hk
    rw [eval] at h
    split at hk
    · obtain hi | ⟨_, _, h⟩ := bind_error h
      · exact evalItems_isContent hr ‹_› hi
      · cases h
    · cases hk
  | unary op operand _ =>
    rw [kind?, Option.bind_eq_some_iff] at hk
    obtain ⟨ko, hko, hk⟩ := hk
    rw [eval] at h
    obtain ho | ⟨v, hv, h⟩ := bind_error h
    · exact eval_isContent hr hko ho
    · cases hko.symm.trans (eval_kind hr hv)
      obtain ⟨w, hw⟩ := UnaryOp.apply_of_kind? hk
      rw [hw] at h
      exact Value.finite_isContent h
  | binary op left right _ =>
    rw [kind?, Option.bind_eq_some_iff] at hk
    obtain ⟨kl, hkl, hk⟩ := hk
    rw [Option.bind_eq_some_iff] at hk
    obtain ⟨kr, hkr, hk⟩ := hk
    rw [eval] at h
    obtain hl | ⟨v, hv, h⟩ := bind_error h
    · exact eval_isContent hr hkl hl
    · obtain hr' | ⟨w, hw, h⟩ := bind_error h
      · exact eval_isContent hr hkr hr'
      · -- the values are of the kinds that the operator was given its own by
        cases hkl.symm.trans (eval_kind hr hv)
        cases hkr.symm.trans (eval_kind hr hw)
        obtain ha | ⟨_, _, h⟩ := bind_error h
        · exact BinaryOp.apply_isContent hk ha
        · exact Value.finite_isContent h
  | call function args _ =>
    rw [kind?] at hk
    split at hk
    · rename_i hplain
      rw [Option.bind_eq_some_iff] at hk
      obtain ⟨b, hb, hk⟩ := hk
      rw [Option.bind_eq_some_iff] at hk
      obtain ⟨ks, hks, hk⟩ := hk
      have hnamed : args.findSome? (·.1) = none := by
        simpa [List.findSome?_eq_none_iff] using hplain
      rw [eval, hb] at h
      simp only [hnamed] at h
      obtain hv | ⟨vs, hvs, h⟩ := bind_error h
      · exact evalArgs_isContent hr hks hv
      · cases hks.symm.trans (evalArgs_kind hr hvs)
        obtain hc | ⟨_, _, h⟩ := bind_error h
        · exact Builtin.call_isContent hk hc
        · exact Value.finite_isContent h
    · cases hk

theorem evalItems_isContent {items : List Expr} (hr : registers.Kinded)
    (hk : arePhrases items = true) (h : evalItems registers judge items = .error f) :
    f.isContent = true := by
  cases items with
  | nil => simp [evalItems] at h
  | cons item items =>
    rw [arePhrases, Bool.and_eq_true, decide_eq_true_eq] at hk
    rw [evalItems] at h
    obtain hv | ⟨v, hv, h⟩ := bind_error h
    · exact eval_isContent hr hk.1 hv
    · split at h
      · obtain hi | ⟨_, _, h⟩ := bind_error h
        · exact evalItems_isContent hr hk.2 hi
        · cases h
      · rename_i hphrase
        have hkind := Option.some.inj (hk.1.symm.trans (eval_kind hr hv))
        cases v <;> cases hkind
        exact absurd rfl (hphrase _)

theorem evalArgs_isContent {args : List Arg} {ks : List Kind} (hr : registers.Kinded)
    (hk : argKinds? args = some ks) (h : evalArgs registers judge args = .error f) :
    f.isContent = true := by
  cases args with
  | nil => simp [evalArgs] at h
  | cons arg args =>
    rw [argKinds?, Option.bind_eq_some_iff] at hk
    obtain ⟨k, harg, hk⟩ := hk
    rw [Option.map_eq_some_iff] at hk
    obtain ⟨ks', hargs, _⟩ := hk
    rw [evalArgs] at h
    obtain hv | ⟨_, _, h⟩ := bind_error h
    · exact eval_isContent hr harg hv
    · obtain hi | ⟨_, _, h⟩ := bind_error h
      · exact evalArgs_isContent hr hargs hi
      · cases h

end

end Expr

end EntropyGame
