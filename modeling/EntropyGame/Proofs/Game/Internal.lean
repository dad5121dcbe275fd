import EntropyGame.Judge.Cache
import EntropyGame.Proofs.Eval
import EntropyGame.Proofs.Game.Control
import EntropyGame.Proofs.Game.Failure
import EntropyGame.Proofs.Register.Store
import Mathlib

namespace EntropyGame

namespace Game

variable {σ : Type}

theorem writeAll_typed {s : State} {ws : List (Register × Value)} (h : s.registers.Typed) :
    (s.writeAll ws).1.registers.Typed := by
  induction ws generalizing s with
  | nil => exact h
  | cons w ws ih =>
    rw [State.writeAll]
    split
    · exact h
    · rename_i registers hset
      exact ih (Registers.set_typed h hset)

theorem Asked.typed {g : Game} {line budget : Nat} {rs : List Register} {position : Nat}
    {announced halted : Bool} {s t : State} (h : Asked g line budget rs position announced s t halted)
    (hs : s.registers.Typed) : t.registers.Typed := by
  induction h with
  | done => exact hs
  | @halted _ _ _ announced _ => cases announced <;> exact hs
  | answered _ hset _ ih => exact ih (Registers.set_typed hs hset)

theorem Runs.typed {g : Game} {line : Nat} {s t : State} {i : Instruction} {flow : Flow}
    (h : Runs g line s i t flow) (hs : s.registers.Typed) : t.registers.Typed := by
  cases h with
  | assign _ hw => exact (congrArg (·.1.registers) hw) ▸ writeAll_typed hs
  | elicit _ ha => exact ha.typed hs
  | _ => exact hs

theorem Change.typed {g : Game} {s t : State} {halted : Bool} (h : Change g s t halted)
    (hs : s.registers.Typed) : t.registers.Typed := by
  cases h with
  | opened => exact Registers.resetLists_typed hs
  | closed => exact hs
  | blank => exact hs
  | next _ _ _ _ hr => exact hr.typed hs
  | jump _ _ _ _ hr => exact hr.typed hs
  | halt _ _ _ _ hr => exact hr.typed hs

/-- While all registers are there, an instruction is at fault inside only as a replay to a beacon
that is not set. -/
theorem Fails.internal {g : Game} {line : Nat} {s t : State} {i : Instruction} {f : Fault}
    (h : Fails g line s i t f) (hs : s.registers.Typed) (hf : f.classOf = .internal) :
    ∃ name count, i = .replay name count ∧ f = .undeclaredBeacon name ∧
      t.beacons.get? name = none := by
  cases h with
  | eval _ hv =>
    obtain ⟨r, hr, _⟩ := (Expr.eval_faulty hv).internal hf
    exact absurd hr (hs.get?_ne_none r)
  | assign _ hw =>
    obtain ⟨e, rfl⟩ := writeAll_error hw
    cases hf
  | elicit _ ha =>
    obtain ⟨_, rfl⟩ | ⟨_, rfl⟩ := ha.fault <;> cases hf
  | undeclaredBeacon _ _ hb => exact ⟨_, _, rfl, rfl, hb⟩
  | budget | replayCount | condition | score | scoreOverflow | nothingToRetry | tooManyFailures
  | noBeacon => cases hf

/-- No jump of a line leads outside the program. -/
theorem Breaks.internal {g : Game} {s t : State} {i : Instruction} {f : Fault}
    (h : Breaks g s i t f) (hs : s.registers.Typed) (hm : g.Marked s)
    (ho : s.roundStarted = true) (hl : g.program.At s.line i) (hf : f.classOf = .internal) :
    ∃ name count, g.program.At s.line (.replay name count) ∧ f = .undeclaredBeacon name ∧
      t.beacons.get? name = none := by
  cases h with
  | ceiling => cases hf
  | fails _ hfails =>
    obtain ⟨name, count, rfl, hname, hb⟩ := hfails.internal hs hf
    exact ⟨name, count, hl, hname, hb⟩
  | jumpOutside _ hruns hsize =>
    exact absurd (hruns.target_le hm hl ho) (Nat.not_le.mpr hsize)

end Game

theorem Reached.typed {g : Game} {s : State} {halted : Bool} (h : Reached g s halted) :
    s.registers.Typed := by
  induction h with
  | new => exact Registers.ofPresets_typed _
  | advance _ ha ih => exact ((Game.advance_change ha).1 rfl).typed ih
  | halt _ ha ih => exact ((Game.advance_change ha).2 rfl).typed ih
  | resume _ hres ih =>
    obtain ⟨-, -, -, rfl, -⟩ := SavedGame.resume_ok hres
    exact ih

/-- Runs fail on a line, and inside only where it replays to a beacon that the round has not set. -/
theorem Game.run_failed {σ : Type} {g : Game} {player : Player σ} {s t : Session σ} {e : GameError}
    (h : g.run player s = (t, .failed e)) {halted : Bool} (hs : Reached g s.state halted) :
    ∃ line f, e = .line line f ∧ (f.classOf = .internal → ∃ name count,
      g.program.At line (.replay name count) ∧ f = .undeclaredBeacon name ∧
        t.state.beacons.get? name = none) := by
  obtain ⟨u, _, f, i, hu, he, ho, hl, hbreaks⟩ := run_breaks h hs
  exact ⟨_, f, he, hbreaks.internal hu.typed hu.controlled.marked ho hl⟩

/-- Every state that a game comes to is well formed, and from there a run is at fault inside only
as a replay to a beacon that the round has not set. -/
theorem Reached.controlled_run_failed {g : Game} {s : State} {halted : Bool}
    (h : Reached g s halted) :
    g.Controlled s halted ∧
      ∀ (σ : Type) (player : Player σ) (memory : σ) (t : Session σ) (e : GameError),
        g.run player ⟨s, memory⟩ = (t, .failed e) →
        ∃ line f, e = .line line f ∧ (f.classOf = .internal → ∃ name count,
          g.program.At line (.replay name count) ∧ f = .undeclaredBeacon name ∧
            t.state.beacons.get? name = none) :=
  ⟨h.controlled, fun _ _ _ _ _ hr => Game.run_failed hr h⟩

/-- A program that waits for its player and then goes back to a beacon that it never sets. -/
def strayReplay : Game where
  program := ⟨"elicit(s, 1)\nreplay(flag_1, 1)",
    #[some (.elicit [.first .s] (.integer 1 ⟨0, 10, 11⟩)),
      some (.replay "flag_1" (.integer 1 ⟨1, 15, 16⟩))]⟩
  config := {}
  judge := Judge.Cache.judge 0

theorem strayReplay_load :
    Game.load strayReplay.program.source {} (Judge.Cache.judge 0) = .ok strayReplay := by
  cbv

theorem Reached.controlled_run_failed_strayReplay :
    ∃ s t, Reached strayReplay s true ∧ strayReplay.Controlled s true ∧
      strayReplay.run .mailbox ⟨s, ["a"]⟩ = (t, .failed (.line 1 (.undeclaredBeacon "flag_1"))) ∧
        t.state.beacons.get? "flag_1" = none := by
  let opened := (strayReplay.advance .mailbox ⟨strayReplay.initial, []⟩).1
  let waiting := (strayReplay.advance .mailbox opened).1
  let answered := (strayReplay.advance .mailbox ⟨waiting.state, ["a"]⟩).1
  have ho : strayReplay.advance .mailbox ⟨strayReplay.initial, []⟩ = (opened, none) :=
    Prod.ext rfl rfl
  have hw : strayReplay.advance .mailbox opened = (waiting, some .halted) := Prod.ext rfl rfl
  have ha : strayReplay.advance .mailbox ⟨waiting.state, ["a"]⟩ = (answered, none) :=
    Prod.ext rfl rfl
  have hf : strayReplay.advance .mailbox answered =
      ((strayReplay.advance .mailbox answered).1,
        some (.failed (.line 1 (.undeclaredBeacon "flag_1")))) := by
    rfl
  have hr : Reached strayReplay waiting.state true :=
    .halt (.advance (.new strayReplay_load) ho) hw
  have hrun := (Game.run_of_none ha).trans (Game.run_of_some hf)
  obtain ⟨hc, hrest⟩ := Reached.controlled_run_failed hr
  obtain ⟨line, f, he, hi⟩ := hrest _ _ _ _ _ hrun
  cases he
  obtain ⟨_, _, _, hname, hb⟩ := hi rfl
  cases hname
  exact ⟨_, _, hr, hc, hrun, hb⟩

end EntropyGame
