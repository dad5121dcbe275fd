import EntropyGame.Text.Utf8

namespace EntropyGame

/-- A range of bytes in one line of a program, the end not included. -/
structure Span where
  line : Nat := 0
  start : Nat := 0
  stop : Nat := 0
  deriving DecidableEq, Inhabited, Repr

namespace Span

/-- The smallest range around two ranges of one line. -/
def merge (a b : Span) : Span :=
  ⟨a.line, min a.start b.start, max a.stop b.stop⟩

/-- The text that a span covers; empty where the span does not fit the line. -/
def snippet (s : Span) (line : String) : String :=
  String.ofList ((Text.slice? s.start s.stop line.toList).getD [])

def text (s : Span) : String :=
  s!"line {s.line}:{s.start}..{s.stop}"

end Span

end EntropyGame
