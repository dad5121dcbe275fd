import EntropyGame.Fault
import EntropyGame.Measure

namespace EntropyGame.Builtin

/-- An argument that has to be a phrase; positions are counted from one. -/
def phraseAt (b : Builtin) (position : Nat) : Value → Except Fault Phrase
  | .phrase p => .ok p
  | v => .error (.builtinArgument b position "a string" v.kind)

def judged {α : Type} (wrap : α → Value) : Except JudgeFault α → Except Fault Value
  | .ok a => .ok (wrap a)
  | .error e => .error (.judge e)

/-- A measure of a text, read after a context if there is one. -/
def applyMeasure (b : Builtin) (judge : Judge)
    (measure : Judge → Phrase → String → Except JudgeFault (CostVector Float)) :
    List Value → Except Fault Value
  | [text] => do
    let p ← b.phraseAt 1 text
    judged .costs (measure judge p "")
  | [text, context] => do
    let p ← b.phraseAt 1 text
    let c ← b.phraseAt 2 context
    judged .costs (measure judge p c.primary)
  | args => .error (.builtinArity b args.length)

def size (b : Builtin) : Value → Except Fault Value
  | .phrase p => .ok (.number (Float.ofNat p.size))
  | .list ps => .ok (.number (Float.ofNat ps.length))
  | .costs v => .ok (.number (Float.ofNat v.size))
  | v => .error (.builtinArgument b 1 "a string, list or xent vector" v.kind)

/-- Applies a builtin to evaluated arguments. -/
def call (b : Builtin) (judge : Judge) (args : List Value) : Except Fault Value :=
  match b, args with
  | .xent, args => b.applyMeasure judge Measure.xent args
  | .nex, args => b.applyMeasure judge Measure.nex args
  | .xed, args => b.applyMeasure judge Measure.xed args
  | .dex, args => b.applyMeasure judge Measure.dex args
  | .len, [v] => b.size v
  | .isTrue, [v] => do
    let p ← b.phraseAt 1 v
    judged .verdict (Measure.isTrue judge p)
  | .isFalse, [v] => do
    let p ← b.phraseAt 1 v
    judged .verdict (Measure.isFalse judge p)
  | .firstNTokens, [v, count] => do
    let p ← b.phraseAt 1 v
    match count.count? with
    | some n => .ok (.phrase (Measure.firstTokens judge p n))
    | none => .error (.builtinArgument b 2 "a non-negative integer" count.kind)
  | b, args => .error (.builtinArity b args.length)

end EntropyGame.Builtin
