import EntropyGame.Proofs.Json.Spelling

namespace EntropyGame.Json

variable {depth : Nat} {cs rest after : List Char}

theorem mark?_of_eq {c : Char} (h : skipBlank cs = c :: rest) :
    ∃ r, mark? c cs = some r ∧ r.rest = rest := by
  unfold mark?
  split
  · rename_i hs
    cases h.symm.trans hs
    exact ⟨_, if_pos rfl, rfl⟩
  · cases h.symm.trans ‹_›

theorem mark?_of_ne {c : Char} (h : ∀ rest, skipBlank cs ≠ c :: rest) : mark? c cs = none := by
  unfold mark?
  split
  · rename_i d rest hs
    exact if_neg fun hd => h rest (by rw [hs, hd])
  · rfl

/-- One mark does not stand where another does. -/
theorem skipBlank_ne {c d : Char} (h : skipBlank cs = c :: rest) (hne : c ≠ d)
    (after : List Char) : skipBlank cs ≠ d :: after := by
  rw [h]
  exact fun he => hne (List.cons.inj he).1

theorem value_string (hs : skipBlank cs = '"' :: rest) {s : Read Spelling rest}
    (h : string? rest = some s) :
    ∃ r, value depth cs = some r ∧ r.value = s.value.toJson ∧ r.rest = s.rest := by
  rw [value.eq_def]
  split
  · rename_i hc
    cases hs.symm.trans hc
    rw [h]
    exact ⟨_, rfl, rfl, rfl⟩
  · cases hs.symm.trans ‹_›
  · cases hs.symm.trans ‹_›
  · rename_i hne _ _
    exact absurd hs (hne rest)

theorem value_literal {c : Char} {j : Json} (hs : skipBlank cs = c :: rest) (hquote : c ≠ '"')
    (hbracket : c ≠ '[') (hbrace : c ≠ '\x7b') (h : literal? (c :: rest) = some (j, after))
    (hlt : after.length < (c :: rest).length) :
    ∃ r, value depth cs = some r ∧ r.value = j ∧ r.rest = after := by
  have hle := length_skipBlank_le cs
  rw [hs] at hle
  have hshort : after.length < cs.length := Nat.lt_of_lt_of_le hlt hle
  rw [value.eq_def]
  split
  · exact absurd (List.cons.inj (hs.symm.trans ‹_›)).1 hquote
  · exact absurd (List.cons.inj (hs.symm.trans ‹_›)).1 hbracket
  · exact absurd (List.cons.inj (hs.symm.trans ‹_›)).1 hbrace
  · have hp : (literal? (skipBlank cs)).bind (progress? cs) = some ⟨j, after, hshort⟩ := by
      rw [hs, h, Option.bind_some, progress?, dif_pos hshort]
    exact ⟨_, hp, rfl, rfl⟩

theorem value_array_nil (hs : skipBlank cs = '[' :: rest) (hr : skipBlank rest = ']' :: after) :
    ∃ r, value (depth + 1) cs = some r ∧ r.value = .array [] ∧ r.rest = after := by
  obtain ⟨closing, hclosing, hafter⟩ := mark?_of_eq hr
  rw [value.eq_def]
  split
  · cases hs.symm.trans ‹_›
  · rename_i hc
    cases hs.symm.trans hc
    simp only [hclosing]
    exact ⟨_, rfl, rfl, hafter⟩
  · cases hs.symm.trans ‹_›
  · rename_i hne _
    exact absurd hs (hne rest)

theorem value_array (hs : skipBlank cs = '[' :: rest) (hr : ∀ after, skipBlank rest ≠ ']' :: after)
    {is : Read (List Json) rest} (h : items depth rest = some is) :
    ∃ r, value (depth + 1) cs = some r ∧ r.value = .array is.value ∧ r.rest = is.rest := by
  rw [value.eq_def]
  split
  · cases hs.symm.trans ‹_›
  · rename_i hc
    cases hs.symm.trans hc
    simp only [mark?_of_ne hr, Nat.add_sub_cancel, h]
    exact ⟨_, rfl, rfl, rfl⟩
  · cases hs.symm.trans ‹_›
  · rename_i hne _
    exact absurd hs (hne rest)

theorem value_object_nil (hs : skipBlank cs = '\x7b' :: rest)
    (hr : skipBlank rest = '\x7d' :: after) :
    ∃ r, value (depth + 1) cs = some r ∧ r.value = .object [] ∧ r.rest = after := by
  obtain ⟨closing, hclosing, hafter⟩ := mark?_of_eq hr
  rw [value.eq_def]
  split
  · cases hs.symm.trans ‹_›
  · cases hs.symm.trans ‹_›
  · rename_i hc
    cases hs.symm.trans hc
    simp only [hclosing]
    exact ⟨_, rfl, rfl, hafter⟩
  · rename_i hne
    exact absurd hs (hne rest)

theorem value_object (hs : skipBlank cs = '\x7b' :: rest)
    (hr : ∀ after, skipBlank rest ≠ '\x7d' :: after)
    {fs : Read (List (Spelling × Json)) rest} (h : fields depth rest = some fs) :
    ∃ r, value (depth + 1) cs = some r ∧ r.value = ofSpelledFields fs.value ∧
      r.rest = fs.rest := by
  rw [value.eq_def]
  split
  · cases hs.symm.trans ‹_›
  · cases hs.symm.trans ‹_›
  · rename_i hc
    cases hs.symm.trans hc
    simp only [mark?_of_ne hr, Nat.add_sub_cancel, h]
    exact ⟨_, rfl, rfl, rfl⟩
  · rename_i hne
    exact absurd hs (hne rest)

theorem items_last {v : Read Json cs} (hv : value depth cs = some v)
    (hr : skipBlank v.rest = ']' :: after) :
    ∃ r, items depth cs = some r ∧ r.value = [v.value] ∧ r.rest = after := by
  obtain ⟨closing, hclosing, hafter⟩ := mark?_of_eq hr
  rw [items.eq_def]
  simp only [hv, hclosing]
  exact ⟨_, rfl, rfl, hafter⟩

theorem items_more {v : Read Json cs} (hv : value depth cs = some v)
    (hr : skipBlank v.rest = ',' :: rest) {is : Read (List Json) rest}
    (h : items depth rest = some is) :
    ∃ r, items depth cs = some r ∧ r.value = v.value :: is.value ∧ r.rest = is.rest := by
  have hopen : mark? ']' v.rest = none := mark?_of_ne (skipBlank_ne hr (by decide))
  obtain ⟨comma, hcomma, rfl⟩ := mark?_of_eq hr
  rw [items.eq_def]
  simp only [hv, hopen, hcomma, h]
  exact ⟨_, rfl, rfl, rfl⟩

section

variable {named body : List Char} {name : Read Spelling named} {v : Read Json body}

theorem fields_last (hs : skipBlank cs = '"' :: named) (hname : string? named = some name)
    (hcolon : skipBlank name.rest = ':' :: body) (hv : value depth body = some v)
    (hr : skipBlank v.rest = '\x7d' :: after) :
    ∃ r, fields depth cs = some r ∧ r.value = [(name.value, v.value)] ∧ r.rest = after := by
  obtain ⟨opening, hopening, rfl⟩ := mark?_of_eq hs
  obtain ⟨colon, hmark, rfl⟩ := mark?_of_eq hcolon
  obtain ⟨closing, hclosing, hafter⟩ := mark?_of_eq hr
  rw [fields.eq_def]
  simp only [hopening, hname, hmark, hv, hclosing]
  exact ⟨_, rfl, rfl, hafter⟩

theorem fields_more (hs : skipBlank cs = '"' :: named) (hname : string? named = some name)
    (hcolon : skipBlank name.rest = ':' :: body) (hv : value depth body = some v)
    (hr : skipBlank v.rest = ',' :: rest) {fs : Read (List (Spelling × Json)) rest}
    (h : fields depth rest = some fs) :
    ∃ r, fields depth cs = some r ∧ r.value = (name.value, v.value) :: fs.value ∧
      r.rest = fs.rest := by
  have hopen : mark? '\x7d' v.rest = none := mark?_of_ne (skipBlank_ne hr (by decide))
  obtain ⟨opening, hopening, rfl⟩ := mark?_of_eq hs
  obtain ⟨colon, hmark, rfl⟩ := mark?_of_eq hcolon
  obtain ⟨comma, hcomma, rfl⟩ := mark?_of_eq hr
  rw [fields.eq_def]
  simp only [hopening, hname, hmark, hv, hopen, hcomma, h]
  exact ⟨_, rfl, rfl, rfl⟩

end

/-- The documents that read back from their text: brackets nest at most `depth` deep, whole numbers
are within 64 bits, doubles read back, and no part is flawed or disguised. -/
inductive Readable : Nat → Json → Prop
  | null {depth : Nat} : Readable depth .null
  | bool {depth : Nat} (b : Bool) : Readable depth (.bool b)
  | int {depth : Nat} {n : Int} : 0 ≤ n → n < 2 ^ 64 → Readable depth (.int n)
  | float {depth : Nat} {x : Float} : ReadsBack x → Readable depth (.float x)
  | string {depth : Nat} (s : String) : Readable depth (.string s)
  | array {depth : Nat} {items : List Json} : (∀ item ∈ items, Readable depth item) →
      Readable (depth + 1) (.array items)
  | object {depth : Nat} {fields : List (String × Json)} : (∀ f ∈ fields, Readable depth f.2) →
      Readable (depth + 1) (.object fields)

theorem ReadsBack.isFinite {x : Float} (h : ReadsBack x) : x.isFinite = true := by
  cases hx : x.isFinite with
  | true => rfl
  | false =>
    have hnull : (writeFloat x).toList = ['n', 'u', 'l', 'l'] := by simp [writeFloat, hx]
    rw [ReadsBack, hnull] at h
    cases h

theorem prettyItems_eq (indent : Nat) (items : List Json) :
    prettyItems indent items = items.map (pretty indent) := by
  induction items with
  | nil => rfl
  | cons item items ih => rw [prettyItems, ih, List.map_cons]

/-- The text of a field. -/
def prettyField (indent : Nat) (f : String × Json) : String :=
  writeString f.1 ++ ": " ++ f.2.pretty indent

theorem toList_prettyField (indent : Nat) (f : String × Json) :
    (prettyField indent f).toList = '"' :: (f.1.toList.flatMap escapeChar ++
      '"' :: ':' :: ' ' :: (f.2.pretty indent).toList) := by
  simp [prettyField, toList_writeString]

theorem prettyFields_eq (indent : Nat) (fields : List (String × Json)) :
    prettyFields indent fields =
      fields.map (prettyField indent) := by
  induction fields with
  | nil => rfl
  | cons f fields ih =>
    rw [prettyFields, ih, List.map_cons]
    rfl

theorem skipBlank_newline (indent : Nat) (cs : List Char) :
    skipBlank ((newline indent).toList ++ cs) = skipBlank cs := by
  rw [newline, String.toList_ofList]
  show skipBlank (List.replicate _ ' ' ++ cs) = _
  induction 2 * indent with
  | zero => rfl
  | succ n ih =>
    rw [List.replicate_succ]
    exact ih

theorem stops_newline (indent : Nat) (cs : List Char) :
    Stops ((newline indent).toList ++ cs) := by
  rw [newline, String.toList_ofList]
  simp [Stops]

theorem skipBlank_cons {c : Char} (h : isBlank c = false) (cs : List Char) :
    skipBlank (c :: cs) = c :: cs := by
  simp [skipBlank, h]

/-- The text between the brackets of a block, with the closing one. -/
def inside (indent : Nat) (closing : String) (parts : List String) : List Char :=
  if parts.isEmpty then closing.toList
  else (newline (indent + 1)).toList ++
    ((("," ++ newline (indent + 1)).intercalate parts).toList ++
      ((newline indent).toList ++ closing.toList))

theorem toList_block (indent : Nat) (opening closing : String) (parts : List String) :
    (block indent opening closing parts).toList =
      opening.toList ++ inside indent closing parts := by
  unfold block inside
  split <;> simp

/-- The text of a number stands for it in a document. -/
theorem value_number {depth : Nat} {cs text rest : List Char} {j : Json}
    (hn : number? text = some (j, [])) (hrest : Stops rest) (hs : skipBlank cs = text ++ rest) :
    ∃ r, value depth cs = some r ∧ r.value = j ∧ r.rest = rest := by
  obtain ⟨c, text, rfl, hne⟩ := number?_cons hn
  have happ := number?_append hrest hn
  have hl : literal? (c :: text ++ rest) = some (j, rest) := by
    rw [literal?.eq_def]
    split
    · exact absurd (List.cons.inj ‹_›).1 (hne 'n' (by decide) (by decide))
    · exact absurd (List.cons.inj ‹_›).1 (hne 't' (by decide) (by decide))
    · exact absurd (List.cons.inj ‹_›).1 (hne 'f' (by decide) (by decide))
    · exact happ
  have hlt : rest.length < (c :: (text ++ rest)).length := by
    rw [List.length_cons, List.length_append]
    omega
  exact value_literal hs (hne '"' (by decide) (by decide)) (hne '[' (by decide) (by decide))
    (hne '\x7b' (by decide) (by decide)) hl hlt

theorem Readable.head {depth : Nat} {j : Json} (h : Readable depth j) (indent : Nat) :
    ∃ c cs, (j.pretty indent).toList = c :: cs ∧ isBlank c = false ∧ c ≠ ']' := by
  have number : ∀ {text : List Char} {r : Json × List Char}, number? text = some r →
      ∃ c cs, text = c :: cs ∧ isBlank c = false ∧ c ≠ ']' := by
    intro text r hn
    obtain ⟨c, cs, rfl, hne⟩ := number?_cons hn
    refine ⟨c, cs, rfl, ?_, hne ']' (by decide) (by decide)⟩
    simp [isBlank, hne ' ' (by decide) (by decide), hne '\n' (by decide) (by decide),
      hne '\t' (by decide) (by decide), hne '\r' (by decide) (by decide)]
  cases h with
  | null => exact ⟨'n', ['u', 'l', 'l'], by simp [pretty], by decide, by decide⟩
  | bool b =>
    cases b with
    | true => exact ⟨'t', ['r', 'u', 'e'], by simp [pretty], by decide, by decide⟩
    | false => exact ⟨'f', ['a', 'l', 's', 'e'], by simp [pretty], by decide, by decide⟩
  | int h0 hn => exact number (number?_writeInt h0 hn)
  | float hx => exact number hx
  | string s => exact ⟨'"', _, toList_writeString s, by decide, by decide⟩
  | array => exact ⟨'[', _, by rw [pretty, toList_block]; rfl, by decide, by decide⟩
  | object => exact ⟨'\x7b', _, by rw [pretty, toList_block]; rfl, by decide, by decide⟩

theorem skipBlank_comma (cs : List Char) : skipBlank (",".toList ++ cs) = ',' :: cs :=
  skipBlank_cons (by decide) cs

/-- Parts in a row begin with the first one. -/
theorem toList_intercalate_cons {part : String} {c : Char} {cs : List Char}
    (hp : part.toList = c :: cs) (separator : String) (parts : List String) :
    ∃ more, (separator.intercalate (part :: parts)).toList = c :: more := by
  cases parts with
  | nil => exact ⟨cs, by simp [hp]⟩
  | cons part' parts =>
    rw [String.intercalate_cons_cons]
    simp only [String.toList_append, hp, List.cons_append]
    exact ⟨_, rfl⟩

section

variable {part : String} {c : Char} {cs : List Char} (hp : part.toList = c :: cs)
  (hc : isBlank c = false) (indent : Nat) (separator : String) (parts : List String)
  (after : List Char)

include hp hc

/-- The blanks before parts in a row end where the first part begins. -/
theorem skipBlank_row :
    skipBlank ((newline indent).toList ++
      ((separator.intercalate (part :: parts)).toList ++ after)) =
        (separator.intercalate (part :: parts)).toList ++ after := by
  obtain ⟨more, hm⟩ := toList_intercalate_cons hp separator parts
  rw [skipBlank_newline, hm, List.cons_append, skipBlank_cons hc]

theorem skipBlank_row_ne {d : Char} (hne : c ≠ d) (rest : List Char) :
    skipBlank ((newline indent).toList ++
      ((separator.intercalate (part :: parts)).toList ++ after)) ≠ d :: rest := by
  obtain ⟨more, hm⟩ := toList_intercalate_cons hp separator parts
  rw [skipBlank_row hp hc, hm, List.cons_append]
  exact fun h => hne (List.cons.inj h).1

end

/-- A document reads back from its text, wherever that stands. -/
def Reads (depth : Nat) (j : Json) : Prop :=
  ∀ (indent : Nat) {cs rest : List Char}, Stops rest →
    skipBlank cs = (j.pretty indent).toList ++ rest →
    ∃ r, value depth cs = some r ∧ r.value = j ∧ r.rest = rest

/-- Items with commas between them read back up to the closing bracket. -/
theorem reads_items {depth : Nat} (indent : Nat) {item : Json} {more : List Json}
    (hr : ∀ i ∈ item :: more, Readable depth i) (hi : ∀ i ∈ item :: more, Reads depth i)
    {cs after rest : List Char} (hstops : Stops after) (hafter : skipBlank after = ']' :: rest)
    (hs : skipBlank cs = (("," ++ newline indent).intercalate
      ((item :: more).map (pretty indent))).toList ++ after) :
    ∃ r, items depth cs = some r ∧ r.value = item :: more ∧ r.rest = rest := by
  induction more generalizing item cs with
  | nil =>
    obtain ⟨v, hv, rfl, hrest⟩ := hi item List.mem_cons_self indent hstops (by simpa using hs)
    exact items_last hv (hrest ▸ hafter)
  | cons item' more ih =>
    have hr := fun i h => hr i (List.mem_cons_of_mem _ h)
    obtain ⟨c, text, htext, hblank, -⟩ := (hr item' List.mem_cons_self).head indent
    simp only [List.map_cons, String.intercalate_cons_cons, String.toList_append,
      List.append_assoc] at hs
    obtain ⟨v, hv, hvalue, hrest⟩ := hi item List.mem_cons_self indent (by simp [Stops]) hs
    have hcomma := (congrArg skipBlank hrest).trans (skipBlank_comma _)
    obtain ⟨r, hitems, hvalues, hrest'⟩ :=
      ih hr (fun i h => hi i (List.mem_cons_of_mem _ h)) (skipBlank_row htext hblank _ _ _ _)
    obtain ⟨r', hr', hvalue', hrest''⟩ := items_more hv hcomma hitems
    exact ⟨r', hr', by rw [hvalue', hvalue, hvalues], hrest''.trans hrest'⟩

/-- A field reads back: its name, the colon and its value. -/
theorem reads_field {depth indent : Nat} {f : String × Json} (hr : Readable depth f.2)
    (hi : Reads depth f.2) {cs after : List Char} (hstops : Stops after)
    (hs : skipBlank cs = (prettyField indent f).toList ++ after) :
    ∃ (named body : List Char) (name : Read Spelling named) (v : Read Json body),
      skipBlank cs = '"' :: named ∧ string? named = some name ∧
      skipBlank name.rest = ':' :: body ∧ value depth body = some v ∧
      (name.value, v.value) = (⟨some f.1, f.1.toList.all isPlain⟩, f.2) ∧ v.rest = after := by
  rw [toList_prettyField] at hs
  simp only [List.cons_append, List.append_assoc] at hs
  obtain ⟨name, hname, hspelling, hrest⟩ := string?_escaped (s := f.1) rfl
  obtain ⟨c, text, htext, hblank, -⟩ := hr.head indent
  have hbody : skipBlank (' ' :: ((f.2.pretty indent).toList ++ after)) =
      (f.2.pretty indent).toList ++ after := by
    rw [htext]
    exact skipBlank_cons hblank _
  obtain ⟨v, hv, hvalue, hafter⟩ := hi indent hstops hbody
  refine ⟨_, _, name, v, hs, hname, ?_, hv, by rw [hspelling, hvalue], hafter⟩
  rw [hrest]
  exact skipBlank_cons (by decide) _

/-- Fields with commas between them read back up to the closing brace. -/
theorem reads_fields {depth : Nat} (indent : Nat) {field : String × Json}
    {more : List (String × Json)} (hr : ∀ f ∈ field :: more, Readable depth f.2)
    (hi : ∀ f ∈ field :: more, Reads depth f.2) {cs after rest : List Char}
    (hstops : Stops after) (hafter : skipBlank after = '\x7d' :: rest)
    (hs : skipBlank cs = (("," ++ newline indent).intercalate
      ((field :: more).map (prettyField indent))).toList ++ after) :
    ∃ r, fields depth cs = some r ∧ r.value = spelled (field :: more) ∧ r.rest = rest := by
  have hrf := hr field List.mem_cons_self
  have hif := hi field List.mem_cons_self
  induction more generalizing field cs with
  | nil =>
    obtain ⟨named, body, name, v, hquote, hname, hcolon, hv, hvalue, hrest⟩ :=
      reads_field hrf hif hstops (by simpa using hs)
    obtain ⟨r, hr, hvalue', hrest'⟩ := fields_last hquote hname hcolon hv (hrest ▸ hafter)
    exact ⟨r, hr, by rw [hvalue', hvalue]; rfl, hrest'⟩
  | cons field' more ih =>
    have hr := fun f h => hr f (List.mem_cons_of_mem _ h)
    have hi := fun f h => hi f (List.mem_cons_of_mem _ h)
    simp only [List.map_cons, String.intercalate_cons_cons, String.toList_append,
      List.append_assoc] at hs
    obtain ⟨named, body, name, v, hquote, hname, hcolon, hv, hvalue, hrest⟩ :=
      reads_field hrf hif (by simp [Stops]) hs
    have hcomma := (congrArg skipBlank hrest).trans (skipBlank_comma _)
    obtain ⟨r, hfields, hvalues, hrest'⟩ := ih hr hi
      (skipBlank_row (toList_prettyField indent field') (by decide) _ _ _ _)
      (hr _ List.mem_cons_self) (hi _ List.mem_cons_self)
    obtain ⟨r', hr', hvalue', hrest''⟩ := fields_more hquote hname hcolon hv hcomma hfields
    exact ⟨r', hr', by rw [hvalue', hvalue, hvalues]; rfl, hrest''.trans hrest'⟩

/-- Documents read back from their text. -/
theorem Readable.reads {depth : Nat} {j : Json} (h : Readable depth j) : Reads depth j := by
  induction h with
  | null =>
    intro indent cs rest hstops hs
    exact value_literal (by simpa [pretty] using hs) (by decide) (by decide) (by decide) rfl
      (by simp; omega)
  | bool b =>
    intro indent cs rest hstops hs
    cases b with
    | true =>
      exact value_literal (by simpa [pretty] using hs) (by decide) (by decide) (by decide) rfl
        (by simp; omega)
    | false =>
      exact value_literal (by simpa [pretty] using hs) (by decide) (by decide) (by decide) rfl
        (by simp; omega)
  | int h0 hn =>
    intro indent cs rest hstops hs
    exact value_number (number?_writeInt h0 hn) hstops hs
  | float hx =>
    intro indent cs rest hstops hs
    exact value_number hx hstops hs
  | string s =>
    intro indent cs rest hstops hs
    rw [pretty, toList_writeString] at hs
    obtain ⟨r, hr, hv, hrest⟩ := @string?_escaped _ rest s rfl
    obtain ⟨r', hr', hv', hrest'⟩ := value_string (by simpa using hs) hr
    refine ⟨r', hr', ?_, hrest'.trans hrest⟩
    rw [hv', hv]
    rfl
  | @array _ is hr ih =>
    intro indent cs rest hstops hs
    rw [pretty, toList_block, prettyItems_eq] at hs
    cases is with
    | nil => exact value_array_nil (by simpa [inside] using hs) (skipBlank_cons (by decide) rest)
    | cons item more =>
      obtain ⟨c, text, htext, hblank, hne⟩ := (hr item List.mem_cons_self).head (indent + 1)
      simp only [inside, List.map_cons, List.isEmpty_cons, Bool.false_eq_true, if_false,
        List.append_assoc] at hs
      have hclose : skipBlank ((newline indent).toList ++ ']' :: rest) = ']' :: rest := by
        rw [skipBlank_newline, skipBlank_cons (by decide)]
      obtain ⟨r, hitems, hvalue, hrest⟩ := reads_items (indent + 1) hr ih
        (stops_newline indent (']' :: rest)) hclose (skipBlank_row htext hblank _ _ _ _)
      obtain ⟨r', hr', hvalue', hrest'⟩ := value_array hs
        (skipBlank_row_ne htext hblank _ _ _ _ hne) hitems
      exact ⟨r', hr', by rw [hvalue', hvalue], hrest'.trans hrest⟩
  | @object _ fs hr ih =>
    intro indent cs rest hstops hs
    rw [pretty, toList_block, prettyFields_eq] at hs
    cases fs with
    | nil => exact value_object_nil (by simpa [inside] using hs) (skipBlank_cons (by decide) rest)
    | cons field more =>
      have hquote := toList_prettyField (indent + 1) field
      simp only [inside, List.map_cons, List.isEmpty_cons, Bool.false_eq_true, if_false,
        List.append_assoc] at hs
      have hclose : skipBlank ((newline indent).toList ++ '\x7d' :: rest) = '\x7d' :: rest := by
        rw [skipBlank_newline, skipBlank_cons (by decide)]
      obtain ⟨r, hfields, hvalue, hrest⟩ := reads_fields (indent + 1) hr ih
        (stops_newline indent ('\x7d' :: rest)) hclose (skipBlank_row hquote (by decide) _ _ _ _)
      obtain ⟨r', hr', hvalue', hrest'⟩ := value_object hs
        (skipBlank_row_ne hquote (by decide) _ _ _ _ (by decide)) hfields
      exact ⟨r', hr', by rw [hvalue', hvalue, ofSpelledFields_spelled], hrest'.trans hrest⟩

/-- A document that does not nest too deep reads back from its text. -/
theorem Readable.ofText?_toPretty {j : Json} (h : Readable depthLimit j) :
    ofText? j.toPretty = some j := by
  have hs : skipBlank j.toPretty.toList = (j.pretty 0).toList ++ [] := by
    obtain ⟨c, text, htext, hblank, -⟩ := h.head 0
    rw [List.append_nil, toPretty, htext, skipBlank_cons hblank]
  obtain ⟨r, hr, hv, hrest⟩ := h.reads 0 stops_nil hs
  simp only [ofText?, ofChars?, hr, hrest, hv]
  rfl

end EntropyGame.Json
