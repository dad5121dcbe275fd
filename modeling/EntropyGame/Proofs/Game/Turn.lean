import EntropyGame.Proofs.Game.Control

namespace EntropyGame

/-- One move of a game: how it stood before and after, and whether the player halted in it. -/
structure Turn where
  game : Game
  before : State
  after : State
  halted : Bool

namespace Turn

/-- Whether a round is opened. -/
def opens (u : Turn) : Bool :=
  !u.before.roundStarted

/-- Whether the round is closed, as its last line was run. -/
def closes (u : Turn) : Bool :=
  u.before.roundStarted && u.game.program.size ≤ u.before.line

/-- The instruction that is run, if it is not a blank line and no round is opened or closed. -/
def instruction? (u : Turn) : Option Instruction :=
  if u.opens then none else u.game.program.lines[u.before.line]?.join

theorem opens_of_started {u : Turn} (h : u.before.roundStarted = true) : u.opens = false := by
  simp [opens, h]

theorem instruction?_eq_some {u : Turn} {i : Instruction} :
    u.instruction? = some i ↔
      u.before.roundStarted = true ∧ u.game.program.At u.before.line i := by
  simp [instruction?, opens, Program.At, Option.join_eq_some_iff]

theorem instruction?_eq_none {u : Turn} (h : ∀ i, ¬ u.game.program.At u.before.line i) :
    u.instruction? = none :=
  Option.eq_none_iff_forall_ne_some.mpr fun i hi => h i (instruction?_eq_some.mp hi).2

end Turn

/-- The turns of the round that is open, or was open last. -/
def thisRound (ts : List Turn) : List Turn :=
  ts.takeWhile fun u => !u.opens

/-- The turns that a game took to come to a state, the last one first, and whether a halt has left it
there. Saving and resuming is no turn. -/
inductive Played : List Turn → Game → State → Bool → Prop
  | new {source : String} {config : GameConfig} {judge : Judge} {g : Game} :
      Game.load source config judge = .ok g → Played [] g g.initial false
  | advance {σ : Type} {ts : List Turn} {g : Game} {s : State} {halted : Bool} {player : Player σ}
      {memory : σ} {t : Session σ} : Played ts g s halted →
      g.advance player ⟨s, memory⟩ = (t, none) → Played (⟨g, s, t.state, false⟩ :: ts) g t.state false
  | halt {σ : Type} {ts : List Turn} {g : Game} {s : State} {halted : Bool} {player : Player σ}
      {memory : σ} {t : Session σ} : Played ts g s halted →
      g.advance player ⟨s, memory⟩ = (t, some .halted) →
      Played (⟨g, s, t.state, true⟩ :: ts) g t.state true
  | resume {ts : List Turn} {g g' : Game} {s s' : State} {halted : Bool} {make : JudgeMaker} :
      Played ts g s halted → (g.save s).resume make = .ok (g', s') → Played ts g' s' halted

theorem Reached.played {g : Game} {s : State} {halted : Bool} (h : Reached g s halted) :
    ∃ ts, Played ts g s halted := by
  induction h with
  | new hg => exact ⟨[], .new hg⟩
  | advance _ ha ih =>
    obtain ⟨ts, hs⟩ := ih
    exact ⟨_, hs.advance ha⟩
  | halt _ ha ih =>
    obtain ⟨ts, hs⟩ := ih
    exact ⟨_, hs.halt ha⟩
  | resume _ hr ih =>
    obtain ⟨ts, hs⟩ := ih
    exact ⟨ts, hs.resume hr⟩

namespace Played

variable {ts : List Turn} {g : Game} {s : State} {halted : Bool}

theorem reached (h : Played ts g s halted) : Reached g s halted := by
  induction h with
  | new hg => exact .new hg
  | advance _ ha ih => exact ih.advance ha
  | halt _ ha ih => exact ih.halt ha
  | resume _ hr ih => exact ih.resume hr

/-- What holds of new games, is kept by every turn and does not depend on the judge holds of all
games that are played. -/
@[elab_as_elim]
theorem invariant {P : List Turn → Game → State → Bool → Prop} (h : Played ts g s halted)
    (new : ∀ g : Game, P [] g g.initial false)
    (turn : ∀ {ts g s t halted halted'}, Played ts g s halted → P ts g s halted →
      Game.Change g s t halted' → P (⟨g, s, t, halted'⟩ :: ts) g t halted')
    (congr : ∀ {ts} {g g' : Game} {s halted}, g'.program = g.program → g'.config = g.config →
      P ts g s halted → P ts g' s halted) : P ts g s halted := by
  induction h with
  | @new _ _ _ g => exact new g
  | advance hs ha ih => exact turn hs ih ((Game.advance_change ha).1 rfl)
  | halt hs ha ih => exact turn hs ih ((Game.advance_change ha).2 rfl)
  | resume hs hr ih =>
    obtain ⟨hp, hc, rfl⟩ := SavedGame.resume_save hs.reached.isLoaded hr
    exact congr hp hc ih

/-- Between rounds a game is new, or has just closed a round. -/
theorem between (h : Played ts g s halted) (ho : s.roundStarted = false) :
    ts = [] ∧ s = g.initial ∨ ∃ u before, ts = u :: before ∧ u.closes = true ∧
      s = (u.before.record (.roundFinished u.before.round u.before.roundScore)).finishRound := by
  revert ho
  refine invariant h (fun _ _ => .inl ⟨rfl, rfl⟩) ?_ ?_
  · intro ts g s t _ halted' _ _ hc ho
    cases hc with
    | opened => cases ho
    | closed _ hs hl => exact .inr ⟨_, ts, rfl, by simp [Turn.closes, hs, hl], rfl⟩
    | blank _ hs => cases hs.symm.trans ho
    | next _ hs _ _ hr | jump _ hs _ _ hr => cases (hr.clock.2.2.1.trans hs).symm.trans ho
    | halt _ hs _ _ hr => cases (hr.clock.2.2.1.trans hs).symm.trans ho
  · intro ts g g' s _ _ hc hs ho
    obtain ⟨rfl, rfl⟩ | h := hs ho
    · exact .inl ⟨rfl, by rw [Game.initial, Game.initial, hc]⟩
    · exact .inr h

end Played

end EntropyGame
