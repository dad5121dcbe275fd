import EntropyGame.Text.Ranges

namespace EntropyGame.Text

/-- Whether a character separates words. -/
def isSpace (c : Char) : Bool :=
  let n := c.toNat
  (0x9 ≤ n && n ≤ 0xd) || n == 0x20 || n == 0x85 || n == 0xa0 || n == 0x1680
    || (0x2000 ≤ n && n ≤ 0x200a) || n == 0x2028 || n == 0x2029 || n == 0x202f || n == 0x205f
    || n == 0x3000

/-- Words in the rest of a text; `inside` a word the next character may still belong to it. -/
def countWords (inside : Bool) : List Char → Nat
  | [] => 0
  | c :: cs =>
    if isSpace c then countWords false cs
    else (if inside then 0 else 1) + countWords true cs

def wordCount (s : String) : Nat :=
  countWords false s.toList

/-- Whether a character is part of a word: alphabetic or numeric. -/
def isAlphanumeric (c : Char) : Bool :=
  if c.toNat < 0x80 then c.isAlphanum else inRanges alphanumericRanges c.toNat

theorem isAlphanumeric_space : isAlphanumeric ' ' = false := by
  decide

def dropCarriageReturn (cs : List Char) : List Char :=
  if cs.getLast? = some '\r' then cs.dropLast else cs

/-- Splits a text into lines, given the lines before it, last first, and the characters of the line
that it goes on with, last first. -/
def linesFrom (done : List (List Char)) (line : List Char) : List Char → List (List Char)
  | [] => (if line.isEmpty then done else line.reverse :: done).reverse
  | '\n' :: cs => linesFrom (dropCarriageReturn line.reverse :: done) [] cs
  | c :: cs => linesFrom done (c :: line) cs

/-- The lines of a text: each ends at a newline, which takes a carriage return before it along.
A newline at the very end opens no further line. -/
def lines (s : String) : List String :=
  (linesFrom [] [] s.toList).map String.ofList

end EntropyGame.Text
