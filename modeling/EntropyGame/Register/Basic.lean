import EntropyGame.Decimal.Binary64
import EntropyGame.Value.Basic

namespace EntropyGame

inductive Family
  | a
  | b
  | c
  | s
  | t
  | x
  | y
  | p
  | l
  deriving DecidableEq, Repr

namespace Family

def all : List Family :=
  [a, b, c, s, t, x, y, p, l]

def letter : Family → Char
  | a => 'a'
  | b => 'b'
  | c => 'c'
  | s => 's'
  | t => 't'
  | x => 'x'
  | y => 'y'
  | p => 'p'
  | l => 'l'

def ofLetter? (c : Char) : Option Family :=
  all.find? (·.letter = c)

theorem ofLetter?_letter (f : Family) : ofLetter? f.letter = some f := by
  cases f <;> decide

def isList : Family → Bool
  | l => true
  | _ => false

/-- Static registers keep what the game is set up with. -/
def isStatic : Family → Bool
  | p => true
  | _ => false

/-- Private registers are not shown to players. -/
def isPublic : Family → Bool
  | x | y => false
  | _ => true

end Family

/-- Four registers to a family. -/
structure Register where
  family : Family
  index : Fin 4
  deriving DecidableEq, Repr

namespace Register

/-- All registers in catalogue order. -/
def all : List Register :=
  Family.all.flatMap fun f => [⟨f, 0⟩, ⟨f, 1⟩, ⟨f, 2⟩, ⟨f, 3⟩]

def first (f : Family) : Register :=
  ⟨f, 0⟩

/-- The letter alone names the first register of a family. -/
def name (r : Register) : String :=
  if r.index = 0 then String.ofList [r.family.letter]
  else String.ofList [r.family.letter, Char.ofNat ('0'.toNat + r.index)]

/-- Any row of up to three digits with the right value names a register too. -/
def ofChars? : List Char → Option Register
  | [] => none
  | letter :: digits => do
    let family ← Family.ofLetter? letter
    if digits.all Char.isDigit && digits.length ≤ 3 then
      let n := Decimal.ofDigits digits
      if h : n < 4 then some ⟨family, ⟨n, h⟩⟩ else none
    else none

def ofName? (s : String) : Option Register :=
  ofChars? s.toList

theorem ofName?_name (r : Register) : ofName? r.name = some r := by
  obtain ⟨f, i⟩ := r
  cases f <;> (revert i; decide)

/-- Whether a name has the shape of a register name: a small letter and digits. -/
def isShaped (s : String) : Bool :=
  match s.toList with
  | [] => false
  | c :: cs => c.isLower && cs.all Char.isDigit

def isList (r : Register) : Bool :=
  r.family.isList

def isStatic (r : Register) : Bool :=
  r.family.isStatic

def isPublic (r : Register) : Bool :=
  r.family.isPublic

/-- The kind of value that a register holds. -/
def kind (r : Register) : Kind :=
  if r.isList then .list else .phrase

end Register

end EntropyGame
