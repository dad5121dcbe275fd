import EntropyGame.Judge.Basic
import EntropyGame.Value.Basic

namespace EntropyGame.Measure

/-- The cost of a phrase read after a context and its own decoration. -/
def xent (judge : Judge) (p : Phrase) (context : String) :
    Except JudgeFault (CostVector Float) :=
  let given := judge.tokenize (context ++ p.decoration)
  let tokens := judge.tokenize p.primary
  match judge.score (given ++ tokens) given.length with
  | .error e => .error e
  | .ok costs =>
    if costs.length ≠ tokens.length then .error (.costCount tokens.length costs.length)
    else .ok (.ofPairs (tokens.zip costs))

def nex (judge : Judge) (p : Phrase) (context : String) :
    Except JudgeFault (CostVector Float) :=
  (xent judge p context).map CostVector.neg

/-- What the decoration of a phrase saves. -/
def xed (judge : Judge) (p : Phrase) (context : String) :
    Except JudgeFault (CostVector Float) :=
  match xent judge p.plain context with
  | .error e => .error e
  | .ok plain =>
    match xent judge p context with
    | .error e => .error e
    | .ok decorated =>
      match plain.sub decorated with
      | .error e => .error (.failed e.message)
      | .ok v => .ok v

def dex (judge : Judge) (p : Phrase) (context : String) :
    Except JudgeFault (CostVector Float) :=
  (xed judge p context).map CostVector.neg

/-- A statement among examples, ready to be answered. -/
def question (statement : String) : String :=
  "Statement: Water is wet.\nAnswer: true\n" ++
    "Statement: The moon is made of cheese.\nAnswer: false\n" ++
    "Statement: " ++ statement ++ "\nAnswer:"

/-- Whether the judge would rather read that a statement is true than that it is false. -/
def isTrue (judge : Judge) (statement : Phrase) : Except JudgeFault Verdict :=
  let asked := question statement.primary
  match xent judge ⟨" true", asked⟩ "" with
  | .error e => .error e
  | .ok yes =>
    match xent judge ⟨" false", asked⟩ "" with
    | .error e => .error e
    | .ok no =>
      let trace := s!"is_true({Text.quoted statement.primary}): xent(true) = " ++
        s!"{Decimal.fixed 3 yes.total}, xent(false) = {Decimal.fixed 3 no.total}"
      .ok ⟨yes.total < no.total, trace⟩

def isFalse (judge : Judge) (statement : Phrase) : Except JudgeFault Verdict :=
  (isTrue judge statement).map Verdict.not

/-- The first `n` tokens of a phrase, with its decoration. -/
def firstTokens (judge : Judge) (p : Phrase) (n : Nat) : Phrase :=
  let tokens := judge.tokenize p.primary
  if tokens.length ≤ n then p else { p with primary := "".intercalate (tokens.take n) }

end EntropyGame.Measure
