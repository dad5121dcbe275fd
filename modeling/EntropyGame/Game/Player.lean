import EntropyGame.Game.Event
import EntropyGame.Text.Words

namespace EntropyGame

/-- How many tokens a player has read and written. -/
structure Usage where
  inputTokens : Nat := 0
  outputTokens : Nat := 0
  deriving DecidableEq, Inhabited, Repr

instance : Add Usage :=
  ⟨fun u v => ⟨u.inputTokens + v.inputTokens, u.outputTokens + v.outputTokens⟩⟩

/-- The answer to a request. -/
structure Move where
  response : String
  usage : Usage := {}

/-- Why a player does not answer: it may do so later, or it never will. -/
inductive Refusal
  | halt
  | failed (message : String)
  deriving DecidableEq, Repr

def Refusal.message : Refusal → String
  | halt => "player halted"
  | failed message => s!"player failed: {message}"

/-- What a player is asked: to fill a register with so many tokens, given the registers it may
see. -/
structure Request where
  register : String
  maxLength : Nat
  snapshot : List (String × Value)

/-- How one who plays answers requests and takes note of events, with a memory of type `σ`. -/
structure Player (σ : Type) where
  request : σ → Request → Except Refusal Move × σ
  notify : σ → Event → σ := fun s _ => s

/-- A player that gives its answers in order and then halts or repeats the last one. -/
structure Script where
  responses : List String
  halts : Bool := false
  last : Option String := none
  requests : Nat := 0
  events : Array Event := #[]

namespace Script

/-- The next answer, and the answers after it. -/
def next? (s : Script) : Option (String × List String) :=
  match s.responses with
  | r :: rs => some (r, rs)
  | [] => if s.halts then none else s.last.map (·, [])

def request (s : Script) (_ : Request) : Except Refusal Move × Script :=
  match s.next? with
  | none => (.error .halt, s)
  | some (r, rs) =>
    (.ok { response := r, usage := ⟨0, Text.wordCount r⟩ },
      { s with responses := rs, last := some r, requests := s.requests + 1 })

def player : Player Script where
  request := request
  notify s e := { s with events := s.events.push e }

end Script

/-- The player that always answers alike. -/
def Player.constant : Player String where
  request response _ := (.ok { response }, response)

/-- The player that answers what was posted to it and halts while nothing is. -/
def Player.mailbox : Player (List String) where
  request
    | [], _ => (.error .halt, [])
    | r :: rs, _ => (.ok { response := r }, rs)

end EntropyGame
