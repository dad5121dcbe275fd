import EntropyGame.Json.Record
import EntropyGame.Decimal.Binary64

namespace EntropyGame.Json

/-- Something read from the head of a text, with the shorter text that follows it. -/
structure Read (α : Type) (cs : List Char) where
  value : α
  rest : List Char
  shorter : rest.length < cs.length

namespace Read

def map {α β : Type} {cs : List Char} (f : α → β) (r : Read α cs) : Read β cs :=
  ⟨f r.value, r.rest, r.shorter⟩

end Read

def isBlank (c : Char) : Bool :=
  c == ' ' || c == '\n' || c == '\t' || c == '\r'

def skipBlank (cs : List Char) : List Char :=
  cs.dropWhile isBlank

theorem length_dropWhile_le {α : Type} (p : α → Bool) (cs : List α) :
    (cs.dropWhile p).length ≤ cs.length := by
  induction cs with
  | nil => simp
  | cons c cs ih =>
    rw [List.dropWhile_cons]
    split
    · exact Nat.le_succ_of_le ih
    · exact Nat.le_refl _

theorem length_skipBlank_le (cs : List Char) : (skipBlank cs).length ≤ cs.length :=
  length_dropWhile_le isBlank cs

def hexValue? (c : Char) : Option Nat :=
  if c.isDigit then some (c.toNat - '0'.toNat)
  else if 'a' ≤ c && c ≤ 'f' then some (c.toNat - 'a'.toNat + 10)
  else if 'A' ≤ c && c ≤ 'F' then some (c.toNat - 'A'.toNat + 10)
  else none

/-- A code unit written with four hexadecimal digits. -/
def unit? (a b c d : Char) : Option Nat := do
  return (((← hexValue? a) * 16 + (← hexValue? b)) * 16 + (← hexValue? c)) * 16 + (← hexValue? d)

def isHighSurrogate (u : Nat) : Bool :=
  0xd800 ≤ u && u < 0xdc00

def isLowSurrogate (u : Nat) : Bool :=
  0xdc00 ≤ u && u < 0xe000

def escapedChar? : Char → Option Char
  | '"' => some '"'
  | '\\' => some '\\'
  | '/' => some '/'
  | 'b' => some '\x08'
  | 'f' => some '\x0c'
  | 'n' => some '\n'
  | 'r' => some '\r'
  | 't' => some '\t'
  | _ => none

/-- The second half of a surrogate pair. -/
def lowHalf? : (cs : List Char) → Option (Read Nat cs)
  | '\\' :: 'u' :: a :: b :: c :: d :: cs =>
    match unit? a b c d with
    | none => none
    | some u =>
      if isLowSurrogate u then some ⟨u, cs, by simp only [List.length_cons]; omega⟩ else none
  | _ => none

/-- The character that begins with a code unit; half of a surrogate pair is none. -/
def ofUnit (u : Nat) (cs : List Char) : Option Char × List Char :=
  if isHighSurrogate u then
    match lowHalf? cs with
    | some low =>
      (some (Char.ofNat (0x10000 + (u - 0xd800) * 0x400 + (low.value - 0xdc00))), low.rest)
    | none => (none, cs)
  else if isLowSurrogate u then (none, cs)
  else (some (Char.ofNat u), cs)

theorem length_ofUnit_le (u : Nat) (cs : List Char) : (ofUnit u cs).2.length ≤ cs.length := by
  unfold ofUnit
  split
  · split
    · exact Nat.le_of_lt (Read.shorter _)
    · exact Nat.le_refl _
  · split <;> exact Nat.le_refl _

/-- One character of a string: itself, or an escape, which may stand for none. -/
def stringChar? : (cs : List Char) → Option (Read (Option Char) cs)
  | [] => none
  | '\\' :: 'u' :: a :: b :: c :: d :: cs =>
    match unit? a b c d with
    | none => none
    | some u =>
      have := length_ofUnit_le u cs
      some ⟨(ofUnit u cs).1, (ofUnit u cs).2, by simp only [List.length_cons]; omega⟩
  | '\\' :: c :: cs =>
    match escapedChar? c with
    | none => none
    | some e => some ⟨some e, cs, by simp only [List.length_cons]; omega⟩
  | c :: cs =>
    if c == '\\' || c.toNat < 0x20 then none
    else some ⟨some c, cs, by simp only [List.length_cons]; omega⟩

/-- What a string says, unless some of it stands for no character, and whether it says so without
escapes. -/
structure Spelling where
  text : Option String
  plain : Bool

/-- The quote that a text begins with. -/
def quote? : (cs : List Char) → Option (Read Unit cs)
  | '"' :: rest => some ⟨(), rest, Nat.lt_succ_self _⟩
  | _ => none

/-- The rest of a string after its opening quote. Of the text `cs` only `rest` is still to be read;
the characters before it are in `done`, the last one first. -/
def stringBody (cs : List Char) (done : Option (List Char)) (plain : Bool) (rest : List Char)
    (h : rest.length ≤ cs.length) : Option (Read Spelling cs) :=
  match quote? rest with
  | some closing =>
    some ⟨⟨done.map fun done => String.ofList done.reverse, plain⟩, closing.rest,
      Nat.lt_of_lt_of_le closing.shorter h⟩
  | none =>
    match stringChar? rest with
    | none => none
    | some c =>
      have := c.shorter
      stringBody cs (c.value.bind fun c => done.map (c :: ·)) (plain && rest.head? != some '\\')
        c.rest (by omega)
termination_by rest.length

/-- A string after its opening quote. -/
def string? (cs : List Char) : Option (Read Spelling cs) :=
  stringBody cs (some []) true cs (Nat.le_refl _)

def Spelling.toJson (s : Spelling) : Json :=
  match s.text with
  | none => .flawed
  | some text => .string text

/-- An object whose names are spelled as given. -/
def ofSpelledFields (fields : List (Spelling × Json)) : Json :=
  match fields.mapM fun f => f.1.text.map (·, f.2) with
  | none => .flawed
  | some named =>
    if fields.any fun f => !f.1.plain && (f.1.text.bind nameNat?).isSome then .disguised named
    else .object named

/-- A number: a whole one within 64 bits stays whole, every other becomes a double unless it is too
large. The zero with a minus sign is a double too. -/
def numeric (negative : Bool) (whole fraction : List Char) (power : Option Int) : Json :=
  if fraction.isEmpty && power.isNone
      && (if negative then 0 < Decimal.ofDigits whole && Decimal.ofDigits whole ≤ 2 ^ 63
        else Decimal.ofDigits whole < 2 ^ 64) then
    .int (if negative then -(Decimal.ofDigits whole : Int) else Decimal.ofDigits whole)
  else
    let x := Decimal.toFloat (Decimal.ofDigits (whole ++ fraction))
      (power.getD 0 - fraction.length)
    if x.isFinite then .float (if negative then -x else x) else .flawed

def digits (cs : List Char) : List Char × List Char :=
  (cs.takeWhile Char.isDigit, cs.dropWhile Char.isDigit)

/-- The power of ten after an `e`, if there is one; an `e` without digits is refused. -/
def power? (cs : List Char) : Option (Option Int × List Char) :=
  match cs with
  | e :: rest =>
    if e == 'e' || e == 'E' then
      let (sign, rest) : Int × List Char := match rest with
        | '+' :: rest => (1, rest)
        | '-' :: rest => (-1, rest)
        | rest => (1, rest)
      let (ds, rest) := digits rest
      if ds.isEmpty then none else some (some (sign * Decimal.ofDigits ds), rest)
    else some (none, cs)
  | [] => some (none, [])

/-- The digits after a point, if there is one; a point without digits is refused. -/
def fraction? (cs : List Char) : Option (List Char × List Char) :=
  match cs with
  | '.' :: rest =>
    let (ds, rest) := digits rest
    if ds.isEmpty then none else some (ds, rest)
  | cs => some ([], cs)

/-- A number; its whole part begins with a zero only if it is zero. -/
def number? (cs : List Char) : Option (Json × List Char) :=
  let (negative, body) := match cs with
    | '-' :: rest => (true, rest)
    | cs => (false, cs)
  let (whole, rest) := digits body
  if whole.isEmpty || (whole.head? == some '0' && whole.length != 1) then none
  else do
    let (fraction, rest) ← fraction? rest
    let (power, rest) ← power? rest
    return (numeric negative whole fraction power, rest)

def literal? (cs : List Char) : Option (Json × List Char) :=
  match cs with
  | 'n' :: 'u' :: 'l' :: 'l' :: rest => some (.null, rest)
  | 't' :: 'r' :: 'u' :: 'e' :: rest => some (.bool true, rest)
  | 'f' :: 'a' :: 'l' :: 's' :: 'e' :: rest => some (.bool false, rest)
  | cs => number? cs

/-- Accepts what was read only if something was. -/
def progress? {α : Type} (cs : List Char) (r : α × List Char) : Option (Read α cs) :=
  if h : r.2.length < cs.length then some ⟨r.1, r.2, h⟩ else none

/-- What stands between brackets, unless they nest too deep. -/
def nested (depth : Nat) (j : Json) : Json :=
  if depth = 0 then .flawed else j

/-- The mark that comes next after blanks, if it is `c`. -/
def mark? (c : Char) (cs : List Char) : Option (Read Unit cs) :=
  match h : skipBlank cs with
  | d :: rest =>
    if d = c then some ⟨(), rest, by
      have := length_skipBlank_le cs
      rw [h, List.length_cons] at this
      omega⟩ else none
  | [] => none

mutual

/-- A value in which brackets may nest `depth` deep. -/
def value (depth : Nat) (cs : List Char) : Option (Read Json cs) :=
  have hs := length_skipBlank_le cs
  match hc : skipBlank cs with
  | '"' :: rest =>
    (string? rest).map fun s =>
      ⟨s.value.toJson, s.rest, by
        have := s.shorter
        simp only [hc, List.length_cons] at hs
        omega⟩
  | '[' :: rest =>
    have hr : rest.length < cs.length := by
      simp only [hc, List.length_cons] at hs
      omega
    match mark? ']' rest with
    | some closing =>
      some ⟨nested depth (.array []), closing.rest, Nat.lt_trans closing.shorter hr⟩
    | none =>
      (items (depth - 1) rest).map fun r =>
        ⟨nested depth (.array r.value), r.rest, Nat.lt_trans r.shorter hr⟩
  | '\x7b' :: rest =>
    have hr : rest.length < cs.length := by
      simp only [hc, List.length_cons] at hs
      omega
    match mark? '\x7d' rest with
    | some closing =>
      some ⟨nested depth (.object []), closing.rest, Nat.lt_trans closing.shorter hr⟩
    | none =>
      (fields (depth - 1) rest).map fun r =>
        ⟨nested depth (ofSpelledFields r.value), r.rest, Nat.lt_trans r.shorter hr⟩
  | body => (literal? body).bind (progress? cs)
termination_by (cs.length, 0)

/-- The items of an array up to its closing bracket. -/
def items (depth : Nat) (cs : List Char) : Option (Read (List Json) cs) :=
  match value depth cs with
  | none => none
  | some item =>
    match mark? ']' item.rest with
    | some closing => some ⟨[item.value], closing.rest, Nat.lt_trans closing.shorter item.shorter⟩
    | none =>
      match mark? ',' item.rest with
      | none => none
      | some comma =>
        have hcomma := Nat.lt_trans comma.shorter item.shorter
        (items depth comma.rest).map fun more =>
          ⟨item.value :: more.value, more.rest, Nat.lt_trans more.shorter hcomma⟩
termination_by (cs.length, 1)
decreasing_by
  · exact Prod.Lex.right _ (by omega)
  · exact Prod.Lex.left _ _ hcomma

/-- The fields of an object up to its closing brace. -/
def fields (depth : Nat) (cs : List Char) : Option (Read (List (Spelling × Json)) cs) :=
  match mark? '"' cs with
  | none => none
  | some opening =>
    match string? opening.rest with
    | none => none
    | some name =>
      have hname := Nat.lt_trans name.shorter opening.shorter
      match mark? ':' name.rest with
      | none => none
      | some colon =>
        have hcolon := Nat.lt_trans colon.shorter hname
        match value depth colon.rest with
        | none => none
        | some v =>
          have hv := Nat.lt_trans v.shorter hcolon
          match mark? '\x7d' v.rest with
          | some closing =>
            some ⟨[(name.value, v.value)], closing.rest, Nat.lt_trans closing.shorter hv⟩
          | none =>
            match mark? ',' v.rest with
            | none => none
            | some comma =>
              have hcomma := Nat.lt_trans comma.shorter hv
              (fields depth comma.rest).map fun more =>
                ⟨(name.value, v.value) :: more.value, more.rest,
                  Nat.lt_trans more.shorter hcomma⟩
termination_by (cs.length, 1)
decreasing_by
  · exact Prod.Lex.left _ _ hcolon
  · exact Prod.Lex.left _ _ hcomma

end

/-- How deep the brackets of a document may nest for what they hold to be read. -/
def depthLimit : Nat := 127

/-- The document that a whole text spells, which may have flaws. -/
def ofChars? (cs : List Char) : Option Json :=
  match value depthLimit cs with
  | none => none
  | some r => if (skipBlank r.rest).isEmpty then some r.value else none

def ofText? (s : String) : Option Json :=
  ofChars? s.toList

end EntropyGame.Json
