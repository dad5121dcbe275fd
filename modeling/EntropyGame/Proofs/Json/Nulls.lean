import EntropyGame.Json.Map
import EntropyGame.Proofs.Decimal.Finite
import EntropyGame.Proofs.Json.Text

namespace EntropyGame

namespace Decimal

open Float.Model Float.Model.UnpackedFloat

theorem Binary64.ofFloat_of_isFinite {x : Float} (h : x.isFinite = true) :
    ∃ negative mantissa exponent, ofFloat x = .finite negative mantissa exponent := by
  have hfield : x.toBits.toNat / 2 ^ 52 % 2 ^ 11 ≠ 2047 := by
    intro hfield
    have he : @unpackExponent .binary64 x.toModel.toBits.toBitVec = -1#11 := by
      apply BitVec.eq_of_toNat_eq
      rw [toNat_unpackExponent]
      exact hfield
    have hx : (UnpackedFloat.unpack .binary64 x.toModel.toBits.toBitVec).isFinite = true := h
    simp only [UnpackedFloat.unpack] at hx
    rw [if_pos he] at hx
    split at hx <;> cases hx
  simp only [ofFloat, ofBits]
  rw [if_neg hfield]
  split
  · exact ⟨_, _, _, rfl⟩
  · exact ⟨_, _, _, rfl⟩

/-- The characters that numbers are written with. -/
def isNumeric (c : Char) : Bool :=
  c.isDigit || c == '.' || c == 'e' || c == '+' || c == '-'

/-- A text of nothing but such characters. -/
def Numeric (s : String) : Prop :=
  ∀ c ∈ s.toList, isNumeric c = true

namespace Numeric

variable {s t : String}

theorem append (hs : Numeric s) (ht : Numeric t) : Numeric (s ++ t) := by
  intro c hc
  rw [String.toList_append] at hc
  obtain hc | hc := List.mem_append.mp hc
  · exact hs c hc
  · exact ht c hc

theorem part {cs : List Char} (hs : Numeric s) (hcs : ∀ c ∈ cs, c ∈ s.toList) :
    Numeric (String.ofList cs) := by
  intro c hc
  rw [String.toList_ofList] at hc
  exact hs c (hcs c hc)

theorem digits (n : Nat) : Numeric (toString n) := by
  intro c hc
  rw [Nat.toString_eq_repr, Nat.toList_repr] at hc
  simp [isNumeric, Json.isDigit_toDigits n c hc]

theorem zeros (n : Nat) : Numeric (zeros n) := by
  intro c hc
  rw [Decimal.zeros, String.toList_ofList] at hc
  rw [List.eq_of_mem_replicate hc]
  decide

theorem place (hs : Numeric s) (point : Int) : Numeric (Layout.document.place s point) := by
  have hpoint : Numeric "." := by simp [Numeric, isNumeric]
  have hleading : Numeric "0." := by simp [Numeric, isNumeric]
  have hwhole : Numeric Layout.document.whole := by simp [Numeric, isNumeric, Layout.document]
  unfold Layout.place
  dsimp only
  split
  · exact (hleading.append (zeros _)).append hs
  · split
    · exact (hs.append (zeros _)).append hwhole
    · have htake := hs.part fun c hc => List.mem_of_mem_take (i := point.toNat) hc
      have hdrop := hs.part fun c hc => List.mem_of_mem_drop (i := point.toNat) hc
      exact (htake.append hpoint).append hdrop

theorem withExponent (hs : Numeric s) (point : Int) : Numeric (Layout.withExponent s point) := by
  have hpoint : Numeric "." := by simp [Numeric, isNumeric]
  have he : Numeric "e" := by simp [Numeric, isNumeric]
  have hsign : Numeric (if 0 ≤ point - 1 then "+" else "-") := by
    split <;> simp [Numeric, isNumeric]
  unfold Layout.withExponent
  refine ((append ?_ he).append hsign).append (digits _)
  split
  · simp [Numeric]
  · rename_i d hd
    exact hs.part fun c hc => by simpa [hd] using hc
  · rename_i d ds _ hd
    have hhead : Numeric (String.ofList [d]) := hs.part fun c hc => by
      rw [hd]
      simp_all
    have htail : Numeric (String.ofList ds) := hs.part fun c hc => by
      rw [hd]
      exact List.mem_cons_of_mem d hc
    exact (hhead.append hpoint).append htail

theorem write {x : Float} (hx : x.isFinite = true) : Numeric (Layout.document.write x) := by
  obtain ⟨negative, mantissa, exponent, hfinite⟩ := Binary64.ofFloat_of_isFinite hx
  have hsign : Numeric (if negative then "-" else "") := by
    cases negative <;> simp [Numeric, isNumeric]
  have hzero : Numeric ("0" ++ Layout.document.whole) := by simp [Numeric, isNumeric, Layout.document]
  simp only [Layout.write, hfinite]
  refine hsign.append ?_
  unfold Layout.magnitude
  dsimp only
  split
  · exact hzero
  · split
    · exact (digits _).place _
    · exact (digits _).withExponent _

end Numeric

end Decimal

namespace Json

/-- What stands in a text outside of its strings, where a backslash takes along what comes behind
it. -/
def unquoted : Bool → List Char → List Char
  | _, [] => []
  | true, '\\' :: _ :: cs => unquoted true cs
  | true, c :: cs => unquoted (c != '"') cs
  | false, c :: cs => if c = '"' then unquoted true cs else c :: unquoted false cs

mutual

/-- How many parts of a document are written as null. -/
def nulls : Json → Nat
  | .null | .flawed => 1
  | .float x => if x.isFinite then 0 else 1
  | .bool _ | .int _ | .string _ => 0
  | .array items => nullsOfItems items
  | .object fields | .disguised fields => nullsOfFields fields

def nullsOfItems : List Json → Nat
  | [] => 0
  | item :: items => nulls item + nullsOfItems items

def nullsOfFields : List (String × Json) → Nat
  | [] => 0
  | (_, value) :: fields => nulls value + nullsOfFields fields

end

theorem nullsOfItems_eq (items : List Json) : nullsOfItems items = (items.map nulls).sum := by
  induction items with
  | nil => rfl
  | cons item items ih => rw [nullsOfItems, ih, List.map_cons, List.sum_cons]

theorem nullsOfFields_eq (fields : List (String × Json)) :
    nullsOfFields fields = (fields.map fun f => f.2.nulls).sum := by
  induction fields with
  | nil => rfl
  | cons f fields ih => rw [nullsOfFields, ih, List.map_cons, List.sum_cons]

/-- A text leaves no string open, and outside of its strings it shows so many letters as only null
has. -/
def Shows (text : List Char) (count : Nat) : Prop :=
  ∃ out, (∀ rest, unquoted false (text ++ rest) = out ++ unquoted false rest) ∧
    out.count 'n' = count

namespace Shows

variable {text text' : List Char} {count count' : Nat}

theorem nil : Shows [] 0 :=
  ⟨[], fun _ => rfl, rfl⟩

theorem append (h : Shows text count) (h' : Shows text' count') :
    Shows (text ++ text') (count + count') := by
  obtain ⟨out, hout, hcount⟩ := h
  obtain ⟨out', hout', hcount'⟩ := h'
  refine ⟨out ++ out', fun rest => ?_, ?_⟩
  · rw [List.append_assoc, hout, hout', List.append_assoc]
  · rw [List.count_append, hcount, hcount']

/-- A text without quotes is outside of strings. -/
theorem plain (h : ∀ c ∈ text, c ≠ '"') : Shows text (text.count 'n') := by
  refine ⟨text, fun rest => ?_, rfl⟩
  induction text with
  | nil => rfl
  | cons c text ih =>
    obtain ⟨hc, htext⟩ := List.forall_mem_cons.mp h
    rw [List.cons_append, unquoted, if_neg hc, ih htext, List.cons_append]

theorem quiet (h : ∀ c ∈ text, c ≠ '"' ∧ c ≠ 'n') : Shows text 0 := by
  have hcount : text.count 'n' = 0 := List.count_eq_zero.mpr fun hn => (h 'n' hn).2 rfl
  exact hcount ▸ plain fun c hc => (h c hc).1

theorem numeric {s : String} (h : Decimal.Numeric s) : Shows s.toList 0 := by
  refine quiet fun c hc => ?_
  have hnumeric := h c hc
  constructor
  · rintro rfl
    exact absurd hnumeric (by decide)
  · rintro rfl
    exact absurd hnumeric (by decide)

theorem newline (depth : Nat) : Shows (newline depth).toList 0 := by
  refine quiet fun c hc => ?_
  rw [Json.newline, String.toList_ofList] at hc
  obtain rfl | hc := List.mem_cons.mp hc
  · decide
  · rw [List.eq_of_mem_replicate hc]
    decide

end Shows

theorem unquoted_of_ne {c : Char} (hslash : c ≠ '\\') (hquote : c ≠ '"') (cs : List Char) :
    unquoted true (c :: cs) = unquoted true cs := by
  have hclosed : (c != '"') = true := bne_iff_ne.mpr hquote
  simp [unquoted, hslash, hclosed]

theorem hexDigit_ne {n : Nat} (h : n < 16) : hexDigit n ≠ '\\' ∧ hexDigit n ≠ '"' := by
  revert n
  decide

/-- However a character is spelled, the string goes on behind it. -/
theorem unquoted_escapeChar (c : Char) (rest : List Char) :
    unquoted true (escapeChar c ++ rest) = unquoted true rest := by
  fun_cases escapeChar c with
  | case8 c _ _ _ _ _ _ _ hc =>
    have hhigh := hexDigit_ne (n := c.toNat / 16) (by omega)
    have hlow := hexDigit_ne (n := c.toNat % 16) (by omega)
    show unquoted true ('0' :: '0' :: hexDigit _ :: hexDigit _ :: rest) = unquoted true rest
    rw [unquoted_of_ne (by decide) (by decide), unquoted_of_ne (by decide) (by decide),
      unquoted_of_ne hhigh.1 hhigh.2, unquoted_of_ne hlow.1 hlow.2]
  | case9 c hquote hslash => exact unquoted_of_ne hslash hquote rest
  | _ => rfl

theorem shows_string (s : String) : Shows (writeString s).toList 0 := by
  refine ⟨[], fun rest => ?_, rfl⟩
  rw [toList_writeString, List.cons_append, unquoted, if_pos rfl]
  induction s.toList with
  | nil => rfl
  | cons c cs ih =>
    rw [List.flatMap_cons, List.append_assoc, List.append_assoc, unquoted_escapeChar,
      ← List.append_assoc]
    exact ih

theorem shows_int (n : Int) : Shows (writeInt n).toList 0 := by
  have hsign : Decimal.Numeric (if n < 0 then "-" else "") := by
    split <;> simp [Decimal.Numeric, Decimal.isNumeric]
  exact .numeric (hsign.append (.digits _))

theorem shows_null : Shows "null".toList 1 :=
  .plain (by simp)

theorem shows_float (x : Float) : Shows (writeFloat x).toList (if x.isFinite then 0 else 1) := by
  unfold writeFloat
  split
  · exact .numeric (.write ‹_›)
  · exact shows_null

section

variable {α : Type} {text : α → String} {count : α → Nat} {separator : String} {xs : List α}

/-- Parts in a row show what each of them does. -/
theorem shows_intercalate (hs : Shows separator.toList 0)
    (h : ∀ x ∈ xs, Shows (text x).toList (count x)) :
    Shows (separator.intercalate (xs.map text)).toList (xs.map count).sum := by
  induction xs with
  | nil => exact .nil
  | cons x xs ih =>
    obtain ⟨hx, hxs⟩ := List.forall_mem_cons.mp h
    cases xs with
    | nil => simpa using hx
    | cons y ys =>
      have hrow := (hx.append hs).append (ih hxs)
      rw [List.map_cons, List.map_cons, String.intercalate_cons_cons, String.toList_append,
        String.toList_append, List.map_cons, List.sum_cons]
      exact hrow

theorem shows_block {opening closing : String} (ho : Shows opening.toList 0)
    (hc : Shows closing.toList 0) (depth : Nat) (h : ∀ x ∈ xs, Shows (text x).toList (count x)) :
    Shows (block depth opening closing (xs.map text)).toList (xs.map count).sum := by
  have hcomma : Shows ",".toList 0 := .quiet (by simp)
  unfold block
  split
  · rename_i hempty
    have hxs : xs = [] := by simpa using hempty
    subst hxs
    rw [String.toList_append]
    exact ho.append hc
  · have hseparator : Shows ("," ++ newline (depth + 1)).toList 0 := by
      rw [String.toList_append]
      exact hcomma.append (.newline _)
    have hrow := shows_intercalate hseparator h
    have hwhole := (((ho.append (.newline (depth + 1))).append hrow).append
      (.newline depth)).append hc
    simpa only [String.toList_append, Nat.zero_add, Nat.add_zero] using hwhole

end

mutual

theorem shows_pretty : ∀ (j : Json) (depth : Nat), Shows (pretty depth j).toList j.nulls
  | .null, _ | .flawed, _ => shows_null
  | .bool b, _ => by
    rw [pretty, nulls]
    cases b <;> exact .quiet (by simp)
  | .int n, _ => shows_int n
  | .float x, _ => shows_float x
  | .string s, _ => shows_string s
  | .array items, depth => by
    rw [pretty, prettyItems_eq, nulls, nullsOfItems_eq]
    exact shows_block (.quiet (by simp)) (.quiet (by simp)) depth
      fun item hitem => shows_prettyItems items item hitem (depth + 1)
  | .object fields, depth | .disguised fields, depth => by
    rw [pretty, prettyFields_eq, nulls, nullsOfFields_eq]
    exact shows_block (.quiet (by simp)) (.quiet (by simp)) depth
      fun f hf => shows_prettyFields fields f hf (depth + 1)

theorem shows_prettyItems : ∀ (items : List Json), ∀ item ∈ items, ∀ (depth : Nat),
    Shows (pretty depth item).toList item.nulls
  | [] => nofun
  | item :: items =>
    List.forall_mem_cons.mpr ⟨shows_pretty item, shows_prettyItems items⟩

theorem shows_prettyFields : ∀ (fields : List (String × Json)), ∀ f ∈ fields, ∀ (depth : Nat),
    Shows (prettyField depth f).toList f.2.nulls
  | [] => nofun
  | (name, value) :: fields => by
    refine List.forall_mem_cons.mpr ⟨fun depth => ?_, shows_prettyFields fields⟩
    have hcolon : Shows ": ".toList 0 := .quiet (by simp)
    have hfield := ((shows_string name).append hcolon).append (shows_pretty value depth)
    simpa only [prettyField, String.toList_append, Nat.zero_add] using hfield

end

/-- Outside of the strings of its text, a document shows as many nulls as it has. -/
theorem count_unquoted_toPretty (j : Json) :
    (unquoted false j.toPretty.toList).count 'n' = j.nulls := by
  obtain ⟨out, hout, hcount⟩ := shows_pretty j 0
  have htext := hout []
  rw [List.append_nil, unquoted, List.append_nil] at htext
  rw [toPretty, htext, hcount]

@[simp]
theorem nulls_bool (b : Bool) : (Json.bool b).nulls = 0 :=
  rfl

@[simp]
theorem nulls_string (s : String) : (Json.string s).nulls = 0 :=
  rfl

@[simp]
theorem nulls_nat (n : Nat) : (nat n).nulls = 0 :=
  rfl

theorem nulls_number {x : Float} (h : x.isFinite = true) : (number x).nulls = 0 := by
  simp [number, h, nulls]

theorem nulls_array {α : Type} {write : α → Json} {xs : List α}
    (h : ∀ x ∈ xs, (write x).nulls = 0) : (Json.array (xs.map write)).nulls = 0 := by
  rw [nulls, nullsOfItems_eq, List.map_map]
  refine List.sum_eq_zero fun n hn => ?_
  obtain ⟨x, hx, rfl⟩ := List.mem_map.mp hn
  exact h x hx

theorem nulls_object {fields : List (String × Json)} (h : ∀ f ∈ fields, f.2.nulls = 0) :
    (Json.object fields).nulls = 0 := by
  rw [nulls, nullsOfFields_eq]
  refine List.sum_eq_zero fun n hn => ?_
  obtain ⟨f, hf, rfl⟩ := List.mem_map.mp hn
  exact h f hf

theorem nulls_ofMap {α β : Type} {name : α → String} {value : β → Json} {m : OrderedMap α β}
    (h : ∀ e ∈ m.entries, (value e.2).nulls = 0) : (ofMap name value m).nulls = 0 := by
  refine nulls_object fun f hf => ?_
  obtain ⟨e, he, rfl⟩ := List.mem_map.mp hf
  exact h e he

end Json

end EntropyGame
