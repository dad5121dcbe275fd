import EntropyGame.Data.Results
import EntropyGame.Source.Parser
import EntropyGame.Text.Words

namespace EntropyGame

/-- The instructions that a line can call. -/
inductive Verb
  | assign
  | reveal
  | elicit
  | ensure
  | reward
  | beacon
  | replay
  deriving DecidableEq, Repr

namespace Verb

def all : List Verb :=
  [assign, reveal, elicit, ensure, reward, beacon, replay]

def spelling : Verb → String
  | assign => "assign"
  | reveal => "reveal"
  | elicit => "elicit"
  | ensure => "ensure"
  | reward => "reward"
  | beacon => "beacon"
  | replay => "replay"

def ofSpelling? (s : String) : Option Verb :=
  all.find? (·.spelling = s)

theorem ofSpelling?_spelling (v : Verb) : ofSpelling? v.spelling = some v := by
  cases v <;> decide

end Verb

/-- The call of an instruction, which fills a line. -/
structure Call where
  verb : Verb
  args : List Arg
  span : Span

namespace Call

/-- The arguments without a name, in order. -/
def positional (c : Call) : List Expr :=
  c.args.filterMap fun
    | (none, e) => some e
    | (some _, _) => none

/-- The arguments with a name, in order. -/
def named (c : Call) : List (String × Expr) :=
  c.args.filterMap fun
    | (none, _) => none
    | (some key, e) => some (key, e)

end Call

namespace Parser

def site (line : Nat) (ts : List Located) : Site :=
  ⟨line, (ts.getLast?.map Located.stop).getD 0⟩

/-- The expression that a row of tokens spells from its first token to its last. -/
def exprOfTokens (line : Nat) (ts : List Located) : Except ParseError Expr :=
  match expr (site line ts) 0 ts with
  | .error e => .error e
  | .ok e => if e.rest.isEmpty then .ok e.value
    else .error ((site line ts).unexpected .afterExpression e.rest)

/-- The call that a row of tokens spells from its first token to its last. -/
def callOfTokens (line : Nat) (ts : List Located) : Except ParseError Call :=
  match expr (site line ts) 0 ts with
  | .error e => .error e
  | .ok e =>
    if !e.rest.isEmpty then .error ((site line ts).unexpected .afterInstruction e.rest)
    else match e.value with
      | .call function args span =>
        match Verb.ofSpelling? function with
        | none => .error ⟨.unknownInstruction function, span⟩
        | some verb =>
          .ok ⟨verb, args, ⟨line, (ts.head?.map Located.start).getD 0, e.stop⟩⟩
      | other => .error ⟨.noCall, other.span⟩

def tokens (line : Nat) (source : String) : Except ParseError (List Located) :=
  match Lexer.tokens source with
  | .error e => .error ⟨.unrecognized e.text, ⟨line, e.start, e.stop⟩⟩
  | .ok ts => .ok ts

theorem tokens_eq_ok (line : Nat) {source : String} {ts : List Located} :
    tokens line source = .ok ts ↔ Lexer.tokens source = .ok ts := by
  rw [tokens]
  cases Lexer.tokens source <;> simp

end Parser

/-- The expression that a text spells. -/
def Expr.parse (source : String) : Except ParseError Expr :=
  match Parser.tokens 0 source with
  | .error e => .error e
  | .ok ts => Parser.exprOfTokens 0 ts

theorem Expr.parse_eq_ok {source : String} {e : Expr} :
    Expr.parse source = .ok e ↔
      ∃ ts, Lexer.tokens source = .ok ts ∧ Parser.exprOfTokens 0 ts = .ok e := by
  simp only [← Parser.tokens_eq_ok 0, parse]
  cases Parser.tokens 0 source <;> simp

/-- The call on a line, or nothing where the line is blank or holds only a comment. -/
def Call.parse (source : String) (line : Nat) : Except ParseError (Option Call) :=
  match Parser.tokens line source with
  | .error e => .error e
  | .ok [] => .ok none
  | .ok ts => (Parser.callOfTokens line ts).map some

theorem Call.tokens_of_parse {source : String} {line : Nat} {c : Call}
    (h : Call.parse source line = .ok (some c)) :
    ∃ ts, Lexer.tokens source = .ok ts ∧ Parser.callOfTokens line ts = .ok c := by
  rw [parse] at h
  split at h
  · cases h
  · cases h
  · rename_i hts
    obtain ⟨c', hc, he⟩ := map_ok h
    cases he
    exact ⟨_, (Parser.tokens_eq_ok line).mp hts, hc⟩

/-- How many lines can be numbered. -/
def lineNumbers : Nat := 2 ^ 16

/-- The calls of a program, line by line up to the first line that does not parse. -/
def parseProgram (source : String) : Except ParseError (List (Option Call)) :=
  (Text.lines source).zipIdx.mapM fun (text, line) =>
    if line < lineNumbers then Call.parse text line
    else .error ⟨.tooManyLines, ⟨lineNumbers - 1, 0, 0⟩⟩

end EntropyGame
