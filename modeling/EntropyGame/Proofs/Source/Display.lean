import EntropyGame.Proofs.Json.Text
import EntropyGame.Proofs.Source.Contents
import EntropyGame.Proofs.Source.Parts
import EntropyGame.Proofs.Source.Spells

namespace EntropyGame

namespace Expr

def isFloatOrText : Expr → Bool
  | float .. | text .. => true
  | _ => false

/-- The name of an argument as it stands before its expression. -/
def displayKey : Option String → String
  | none => ""
  | some key => key ++ "="

theorem displayArgs_cons (key : Option String) (x : Expr) (args : List Arg) :
    displayArgs ((key, x) :: args) = (displayKey key ++ x.display) :: displayArgs args := by
  cases key with
  | none => rw [displayArgs, displayKey, String.empty_append]
  | some key => rw [displayArgs, displayKey]

def shownKey : Option String → List Token
  | none => []
  | some key => [.name key, .symbol .assign]

mutual

/-- The tokens of the text that shows an expression. -/
def shown : Expr → List Token
  | integer n _ => [.integer n]
  | float x _ => [.float x]
  | text s _ => [.text s]
  | bool b _ => [.symbol (if b then .yes else .no)]
  | name s _ => [.name s]
  | list items _ => .symbol .openBracket :: (shownItems items ++ [.symbol .closeBracket])
  | unary op operand _ => .symbol (Grammar.signSymbol op) :: operand.shown
  | binary op left right _ =>
    .symbol .openParen ::
      (left.shown ++ .symbol op.symbol :: (right.shown ++ [.symbol .closeParen]))
  | call function args _ =>
    .name function :: .symbol .openParen :: (shownArgs args ++ [.symbol .closeParen])

def shownItems : List Expr → List Token
  | [] => []
  | [item] => item.shown
  | item :: items => item.shown ++ .symbol .comma :: shownItems items

def shownArgs : List Arg → List Token
  | [] => []
  | [(key, arg)] => shownKey key ++ arg.shown
  | (key, arg) :: args => shownKey key ++ arg.shown ++ .symbol .comma :: shownArgs args

end

section

variable (s : Span)

theorem toList_display_list (items : List Expr) : (list items s).display.toList =
    '[' :: ((", ".intercalate (displayList items)).toList ++ [']']) := by
  simp [display]

theorem toList_display_neg (x : Expr) :
    (unary .neg x s).display.toList = '-' :: x.display.toList := by
  simp [display]

theorem toList_display_not (x : Expr) :
    (unary .not x s).display.toList = 'n' :: ['o', 't'] ++ ' ' :: x.display.toList := by
  simp [display]

theorem toList_display_binary (op : BinaryOp) (x y : Expr) :
    (binary op x y s).display.toList = '(' :: (x.display.toList ++
      ' ' :: (op.spelling.toList ++ ' ' :: (y.display.toList ++ [')']))) := by
  simp [display]

theorem toList_display_call (function : String) (args : List Arg) :
    (call function args s).display.toList =
      function.toList ++ '(' :: ((", ".intercalate (displayArgs args)).toList ++ [')']) := by
  simp [display]

end

end Expr

namespace Lexer

section

variable {us : List Char} {row : List Token}

theorem parted_of_mem {d : Char} (hd : d ∈ [' ', ')', ']', ',']) (us : List Char) :
    Parted (d :: us) := by
  have hall : ∀ d ∈ [' ', ')', ']', ','], isNamePart d = false ∧ d ≠ '.' := by
    simp [isNamePart]
  rintro e he
  cases he
  exact hall d hd

theorem spells_name {s : String} (h : IsName s) (hus : ∀ d ∈ us.head?, isNamePart d = false)
    (hrow : Spells us row) : Spells (s.toList ++ us) (.name s :: row) := by
  obtain ⟨c, cs, hs, hlex⟩ := lexeme_name h hus
  rw [hs]
  exact .lexeme hlex hrow

theorem toList_toString_of_nonneg {n : Int} (h : 0 ≤ n) :
    (toString n).toList = Nat.toDigits 10 n.toNat := by
  obtain ⟨k, rfl⟩ := Int.eq_ofNat_of_zero_le h
  change (Nat.repr k).toList = _
  simp

theorem spells_integer {n : Int} (h : IsShort n) (hus : Parted us) (hrow : Spells us row) :
    Spells ((toString n).toList ++ us) (.integer n :: row) := by
  obtain ⟨k, rfl⟩ := Int.eq_ofNat_of_zero_le h.1
  have hk : k < 2 ^ 63 := by
    have := h.2
    omega
  have hdigits := Json.isDigit_toDigits k
  have hvalue := Json.ofDigits_toDigits k
  obtain ⟨c, cs, hds⟩ := List.exists_cons_of_ne_nil (Nat.toDigits_ne_nil (n := k) (b := 10))
  rw [toList_toString_of_nonneg h.1, Int.toNat_natCast]
  rw [hds] at hdigits hvalue ⊢
  refine .lexeme ?_ hrow
  rw [lexeme_digits hdigits hus, integer, hvalue, if_pos hk]

theorem spells_bool (b : Bool) (hus : Parted us) (hrow : Spells us row) :
    Spells ((if b then "true" else "false").toList ++ us)
      (.symbol (if b then .yes else .no) :: row) := by
  have hend : ∀ d ∈ us.head?, isNamePart d = false := fun d hd => (hus d hd).1
  cases b with
  | true =>
    have hyes : lexeme 't' (['r', 'u', 'e'] ++ us) = (.token (.symbol .yes), 4) := by
      rw [lexeme_word (by decide) (by simp [isNamePart]) hend]
      rfl
    exact .lexeme hyes hrow
  | false =>
    have hno : lexeme 'f' (['a', 'l', 's', 'e'] ++ us) = (.token (.symbol .no), 5) := by
      rw [lexeme_word (by decide) (by simp [isNamePart]) hend]
      rfl
    exact .lexeme hno hrow

/-- An operator stands between blanks. -/
theorem spells_operator (op : BinaryOp) (hus : ∀ d ∈ us.head?, isBlank d = false)
    (hrow : Spells us row) :
    Spells (' ' :: (op.spelling.toList ++ ' ' :: us)) (.symbol op.symbol :: row) := by
  have hblank : Spells (' ' :: us) row := .blank hus hrow
  have hop : Spells (op.spelling.toList ++ ' ' :: us) (.symbol op.symbol :: row) := by
    cases op <;> exact .token rfl rfl hblank
  refine .blank ?_ hop
  cases op <;> simp [BinaryOp.spelling, BinaryOp.symbol, Symbol.spelling, isBlank]

end

/-- Whether a text begins with a character that is neither a blank nor an equals sign. -/
def Begins (cs : List Char) : Prop :=
  ∃ c ds, cs = c :: ds ∧ isBlank c = false ∧ c ≠ '='

namespace Begins

variable {cs : List Char}

theorem append (h : Begins cs) (us : List Char) : Begins (cs ++ us) := by
  obtain ⟨c, ds, rfl, hc⟩ := h
  exact ⟨c, ds ++ us, rfl, hc⟩

theorem not_blank (h : Begins cs) : ∀ d ∈ cs.head?, isBlank d = false := by
  obtain ⟨c, ds, rfl, hc, -⟩ := h
  rintro d hd
  cases hd
  exact hc

end Begins

theorem IsName.begins {s : String} (h : IsName s) : Begins s.toList := by
  obtain ⟨c, cs, hs, hc, -, -⟩ := h
  have hblank : isBlank c = false :=
    Bool.eq_false_iff.mpr fun hblank => not_idle_of_isNameStart hc (.inl hblank)
  refine ⟨c, cs, hs, hblank, ?_⟩
  rintro rfl
  cases hc

/-- The text of an expression begins with neither a blank nor an equals sign. -/
theorem begins_display {e : Expr} (hread : ∀ t ∈ e.contents, IsRead t)
    (hplain : e.isFloatOrText = false) : Begins e.display.toList := by
  cases e with
  | integer n _ =>
    have hn : IsShort n := hread (.integer n) (by simp [Expr.contents])
    rw [Expr.display, toList_toString_of_nonneg hn.1]
    obtain ⟨c, cs, hds⟩ := List.exists_cons_of_ne_nil (Nat.toDigits_ne_nil (n := n.toNat) (b := 10))
    have hc : c.isDigit = true := Json.isDigit_toDigits n.toNat c (by simp [hds])
    have hblank : isBlank c = false :=
      Bool.eq_false_iff.mpr fun hblank => not_idle_of_isDigit hc (.inl hblank)
    refine ⟨c, cs, hds, hblank, ?_⟩
    rintro rfl
    cases hc
  | float | text => cases hplain
  | bool b _ =>
    rw [Expr.display]
    cases b
    · exact ⟨'f', _, rfl, by decide, by decide⟩
    · exact ⟨'t', _, rfl, by decide, by decide⟩
  | name s _ => exact IsName.begins (hread (.name s) (by simp [Expr.contents]))
  | list items s =>
    rw [Expr.toList_display_list]
    exact ⟨'[', _, rfl, by decide, by decide⟩
  | unary op x s =>
    cases op with
    | neg =>
      rw [Expr.toList_display_neg]
      exact ⟨'-', _, rfl, by decide, by decide⟩
    | not =>
      rw [Expr.toList_display_not]
      exact ⟨'n', _, rfl, by decide, by decide⟩
  | binary op x y s =>
    rw [Expr.toList_display_binary]
    exact ⟨'(', _, rfl, by decide, by decide⟩
  | call function args s =>
    have hf : IsName function := hread (.name function) (by simp [Expr.contents])
    rw [Expr.toList_display_call]
    exact hf.begins.append _

/-- A comma and a blank stand between what is in a row. -/
theorem spells_comma {cs : List Char} {row : List Token} (hcs : Begins cs) (hrow : Spells cs row) :
    Spells (", ".toList ++ cs) (.symbol .comma :: row) :=
  .token rfl rfl (.blank hcs.not_blank hrow)

/-- What stands in a row begins like the first of it. -/
theorem begins_intercalate {part : String} (h : Begins part.toList) (parts : List String) :
    Begins (", ".intercalate (part :: parts)).toList := by
  obtain ⟨c, cs, hcs, hc⟩ := h
  obtain ⟨more, hmore⟩ := Json.toList_intercalate_cons hcs ", " parts
  exact ⟨c, more, hmore, hc⟩

theorem begins_arg {key : Option String} {x : Expr}
    (hkey : ∀ t ∈ (key.map Token.name).toList, IsRead t) (hx : Begins x.display.toList) :
    Begins (Expr.displayKey key ++ x.display).toList := by
  cases key with
  | none => rwa [Expr.displayKey, String.empty_append]
  | some key =>
    have hname : IsName key := hkey (.name key) (by simp)
    rw [Expr.displayKey, String.toList_append, String.toList_append]
    exact (hname.begins.append _).append _

theorem lexeme_assign {c : Char} (hc : c ≠ '=') (cs : List Char) :
    lexeme '=' (c :: cs) = (.token (.symbol .assign), 1) := by
  have hprefix : ∀ s ∈ Symbol.signs,
      s.spelling.toList.isPrefixOf ('=' :: c :: cs) = decide (s = .assign) := by
    intro s hs
    cases s <;> simp [Symbol.spelling, List.isPrefixOf, hc.symm]
  have hfind : Symbol.signs.find? (fun s => s.spelling.toList.isPrefixOf ('=' :: c :: cs)) =
      some .assign := by
    rw [List.find?_congr hprefix]
    decide
  have hsign : lexeme '=' (c :: cs) = sign ('=' :: c :: cs) := rfl
  rw [hsign, sign, hfind]
  rfl

/-- An argument's name ends at its equals sign, as no other one follows. -/
theorem spells_arg {key : Option String} {x : Expr} {us : List Char} {row : List Token}
    (hkey : ∀ t ∈ (key.map Token.name).toList, IsRead t) (hx : Begins x.display.toList)
    (hrow : Spells (x.display.toList ++ us) row) :
    Spells ((Expr.displayKey key ++ x.display).toList ++ us) (Expr.shownKey key ++ row) := by
  cases key with
  | none => rwa [Expr.displayKey, String.empty_append]
  | some key =>
    have hname : IsName key := hkey (.name key) (by simp)
    have hassign : Spells ('=' :: (x.display.toList ++ us)) (.symbol .assign :: row) := by
      obtain ⟨c, cs, hcs, -, hne⟩ := hx
      rw [hcs] at hrow ⊢
      exact .token (lexeme_assign hne (cs ++ us)) rfl hrow
    rw [Expr.displayKey, String.toList_append, String.toList_append, List.append_assoc,
      List.append_assoc]
    refine spells_name hname ?_ hassign
    rintro d hd
    cases hd
    rfl

mutual

/-- The text that shows an expression has just its tokens. -/
theorem spells_display {us : List Char} {row : List Token} : ∀ e : Expr,
    (∀ t ∈ e.contents, IsRead t) → (∀ part ∈ e.parts, part.isFloatOrText = false) →
    Parted us → Spells us row → Spells (e.display.toList ++ us) (e.shown ++ row)
  | .integer n _, hread, _, hus, hrow => by
    have hn : IsShort n := hread (.integer n) (by simp [Expr.contents])
    rw [Expr.display, Expr.shown]
    exact spells_integer hn hus hrow
  | .float x s, _, hplain, _, _ => by
    cases hplain _ (Expr.self_mem_parts _)
  | .text x s, _, hplain, _, _ => by
    cases hplain _ (Expr.self_mem_parts _)
  | .bool b _, _, _, hus, hrow => by
    rw [Expr.display, Expr.shown]
    exact spells_bool b hus hrow
  | .name s _, hread, _, hus, hrow => by
    have hs : IsName s := hread (.name s) (by simp [Expr.contents])
    rw [Expr.display, Expr.shown]
    exact spells_name hs (fun d hd => (hus d hd).1) hrow
  | .list items s, hread, hplain, hus, hrow => by
    rw [Expr.contents] at hread
    rw [Expr.parts, List.forall_mem_cons] at hplain
    have hclosed : Spells (']' :: us) (.symbol .closeBracket :: row) := .token rfl rfl hrow
    have hitems := spells_displayList items hread hplain.2 (parted_of_mem (by decide) us) hclosed
    rw [Expr.toList_display_list, Expr.shown, List.cons_append, List.cons_append,
      List.append_assoc, List.append_assoc]
    exact .token rfl rfl hitems
  | .unary op x s, hread, hplain, hus, hrow => by
    rw [Expr.contents] at hread
    rw [Expr.parts, List.forall_mem_cons] at hplain
    have hx := spells_display x hread hplain.2 hus hrow
    have hbegins := begins_display hread (hplain.2 x x.self_mem_parts)
    cases op with
    | neg =>
      rw [Expr.toList_display_neg]
      exact .token rfl rfl hx
    | not =>
      rw [Expr.toList_display_not, List.append_assoc]
      exact .lexeme rfl (.blank (hbegins.append us).not_blank hx)
  | .binary op x y s, hread, hplain, hus, hrow => by
    rw [Expr.contents, List.forall_mem_append] at hread
    rw [Expr.parts, List.forall_mem_cons, List.forall_mem_append] at hplain
    have hclosed : Spells (')' :: us) (.symbol .closeParen :: row) := .token rfl rfl hrow
    have hy := spells_display y hread.2 hplain.2.2 (parted_of_mem (by decide) us) hclosed
    have hbegins := begins_display hread.2 (hplain.2.2 y y.self_mem_parts)
    have hop := spells_operator op (hbegins.append (')' :: us)).not_blank hy
    have hx := spells_display x hread.1 hplain.2.1 (parted_of_mem (by decide) _) hop
    rw [Expr.toList_display_binary, Expr.shown]
    simp only [List.cons_append, List.append_assoc, List.nil_append]
    exact .token rfl rfl hx
  | .call function args s, hread, hplain, hus, hrow => by
    rw [Expr.contents, List.forall_mem_cons] at hread
    rw [Expr.parts, List.forall_mem_cons] at hplain
    have hclosed : Spells (')' :: us) (.symbol .closeParen :: row) := .token rfl rfl hrow
    have hargs := spells_displayArgs args hread.2 hplain.2 (parted_of_mem (by decide) us) hclosed
    rw [Expr.toList_display_call, Expr.shown]
    simp only [List.cons_append, List.append_assoc, List.nil_append]
    refine spells_name hread.1 ?_ (.token rfl rfl hargs)
    rintro d hd
    cases hd
    rfl

theorem spells_displayList {us : List Char} {row : List Token} : ∀ items : List Expr,
    (∀ t ∈ Expr.contentsOfItems items, IsRead t) →
    (∀ part ∈ Expr.partsOfList items, part.isFloatOrText = false) →
    Parted us → Spells us row →
    Spells ((", ".intercalate (Expr.displayList items)).toList ++ us) (Expr.shownItems items ++ row)
  | [], _, _, _, hrow => by simpa [Expr.displayList, Expr.shownItems] using hrow
  | [x], hread, hplain, hus, hrow => by
    rw [Expr.contentsOfItems, List.forall_mem_append] at hread
    rw [Expr.partsOfList, List.forall_mem_append] at hplain
    rw [Expr.displayList, Expr.displayList, String.intercalate_singleton, Expr.shownItems]
    exact spells_display x hread.1 hplain.1 hus hrow
  | x :: y :: items, hread, hplain, hus, hrow => by
    rw [Expr.contentsOfItems, List.forall_mem_append] at hread
    rw [Expr.partsOfList, List.forall_mem_append] at hplain
    have hmore := spells_displayList (y :: items) hread.2 hplain.2 hus hrow
    have hbegins : Begins y.display.toList := by
      refine begins_display (fun t ht => hread.2 t ?_) (hplain.2 y ?_)
      · exact List.mem_append_left _ ht
      · exact List.mem_append_left _ y.self_mem_parts
    have hcomma := spells_comma ((begins_intercalate hbegins _).append us) hmore
    have hx := spells_display x hread.1 hplain.1 (parted_of_mem (by decide) _) hcomma
    rw [Expr.displayList, Expr.displayList, String.intercalate_cons_cons, ← Expr.displayList,
      Expr.shownItems, String.toList_append, String.toList_append, List.append_assoc,
      List.append_assoc, List.append_assoc]
    · exact hx
    · exact List.cons_ne_nil y items

theorem spells_displayArgs {us : List Char} {row : List Token} : ∀ args : List Arg,
    (∀ t ∈ Expr.contentsOfArgs args, IsRead t) →
    (∀ part ∈ Expr.partsOfArgs args, part.isFloatOrText = false) →
    Parted us → Spells us row →
    Spells ((", ".intercalate (Expr.displayArgs args)).toList ++ us) (Expr.shownArgs args ++ row)
  | [], _, _, _, hrow => by simpa [Expr.displayArgs, Expr.shownArgs] using hrow
  | [(key, x)], hread, hplain, hus, hrow => by
    rw [Expr.contentsOfArgs, List.forall_mem_append, List.forall_mem_append] at hread
    rw [Expr.partsOfArgs, List.forall_mem_append] at hplain
    have hbegins := begins_display hread.2.1 (hplain.1 x x.self_mem_parts)
    have hx := spells_display x hread.2.1 hplain.1 hus hrow
    rw [Expr.displayArgs_cons, Expr.displayArgs, String.intercalate_singleton, Expr.shownArgs,
      List.append_assoc]
    exact spells_arg hread.1 hbegins hx
  | (key, x) :: (key', y) :: args, hread, hplain, hus, hrow => by
    rw [Expr.contentsOfArgs, List.forall_mem_append, List.forall_mem_append] at hread
    rw [Expr.partsOfArgs, List.forall_mem_append] at hplain
    have hmore := spells_displayArgs ((key', y) :: args) hread.2.2 hplain.2 hus hrow
    have hbegins : Begins (Expr.displayKey key' ++ y.display).toList := by
      have hread' := hread.2.2
      have hplain' := hplain.2
      rw [Expr.contentsOfArgs, List.forall_mem_append, List.forall_mem_append] at hread'
      rw [Expr.partsOfArgs, List.forall_mem_append] at hplain'
      exact begins_arg hread'.1 (begins_display hread'.2.1 (hplain'.1 y y.self_mem_parts))
    have hcomma := spells_comma ((begins_intercalate hbegins _).append us)
      (Expr.displayArgs_cons .. ▸ hmore)
    have hx := spells_display x hread.2.1 hplain.1 (parted_of_mem (by decide) _) hcomma
    rw [Expr.displayArgs_cons, Expr.displayArgs_cons, String.intercalate_cons_cons, Expr.shownArgs,
      String.toList_append, String.toList_append, List.append_assoc, List.append_assoc,
      List.append_assoc, List.append_assoc]
    · exact spells_arg hread.1 (begins_display hread.2.1 (hplain.1 x x.self_mem_parts)) hx
    · exact List.cons_ne_nil (key', y) args

end

end Lexer

end EntropyGame
