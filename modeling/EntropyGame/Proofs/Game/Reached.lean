import EntropyGame.Game.Checkpoint
import EntropyGame.Proofs.Program

namespace EntropyGame

/-- The states that games come to, and whether a halt has left them there. Games are new at first;
then rounds open and close, lines run, players halt, and a game may be saved and resumed at any
time, also with another judge. Nothing comes after an error. -/
inductive Reached : Game → State → Bool → Prop
  | new {source : String} {config : GameConfig} {judge : Judge} {g : Game} :
      Game.load source config judge = .ok g → Reached g g.initial false
  | advance {σ : Type} {g : Game} {s : State} {halted : Bool} {player : Player σ} {memory : σ}
      {t : Session σ} : Reached g s halted → g.advance player ⟨s, memory⟩ = (t, none) →
      Reached g t.state false
  | halt {σ : Type} {g : Game} {s : State} {halted : Bool} {player : Player σ} {memory : σ}
      {t : Session σ} : Reached g s halted → g.advance player ⟨s, memory⟩ = (t, some .halted) →
      Reached g t.state true
  | resume {g g' : Game} {s s' : State} {halted : Bool} {make : JudgeMaker} : Reached g s halted →
      (g.save s).resume make = .ok (g', s') → Reached g' s' halted

/-- What resuming a saved game succeeds with. -/
theorem SavedGame.resume_ok {saved : SavedGame} {make : JudgeMaker} {g : Game} {s : State}
    (h : saved.resume make = .ok (g, s)) :
    Program.load saved.program saved.config = .ok g.program ∧ g.config = saved.config ∧
      make saved.judge = .ok g.judge ∧ s = saved.state ∧ s.line ≤ g.program.size := by
  simp only [resume] at h
  cases hp : Program.load saved.program saved.config with
  | error e => simp [hp, bind, Except.bind] at h
  | ok program =>
    simp only [hp, bind, Except.bind] at h
    split at h
    · simp at h
    · rename_i hline
      cases hj : make saved.judge with
      | error e => simp [hj] at h
      | ok judge =>
        simp only [hj, Except.ok.injEq, Prod.mk.injEq] at h
        obtain ⟨rfl, rfl⟩ := h
        exact ⟨rfl, rfl, rfl, rfl, Nat.le_of_not_lt hline⟩

namespace Game

/-- The program of a game is what its text loads as. -/
def IsLoaded (g : Game) : Prop :=
  Program.load g.program.source g.config = .ok g.program

theorem load_ok {source : String} {config : GameConfig} {judge : Judge} {g : Game}
    (h : load source config judge = .ok g) :
    g.IsLoaded ∧ g.program.source = source ∧ g.config = config ∧ g.judge = judge := by
  cases hp : Program.load source config with
  | error e => simp [load, hp, Except.map] at h
  | ok program =>
    simp only [load, hp, Except.map, Except.ok.injEq] at h
    subst h
    have hs := (Program.load_ok hp).1
    exact ⟨by rw [IsLoaded, hs, hp], hs, rfl, rfl⟩

end Game

theorem Reached.isLoaded {g : Game} {s : State} {halted : Bool} (h : Reached g s halted) :
    g.IsLoaded := by
  induction h with
  | new hg => exact (Game.load_ok hg).1
  | advance _ _ ih => exact ih
  | halt _ _ ih => exact ih
  | resume _ hr ih =>
    obtain ⟨hp, hc, -⟩ := SavedGame.resume_ok hr
    have he := Except.ok.inj (hp.symm.trans ih)
    rw [Game.IsLoaded, hc, he]
    exact ih

end EntropyGame
