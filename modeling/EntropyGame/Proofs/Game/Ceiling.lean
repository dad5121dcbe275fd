import EntropyGame.Judge.Cache
import EntropyGame.Proofs.Game.Failure
import EntropyGame.Proofs.Game.Turn
import Mathlib

namespace EntropyGame

namespace Game

variable {σ : Type} {g : Game}

/-- Plays on for so many moves at most. -/
def runFor (g : Game) (player : Player σ) : Nat → Session σ → Session σ × Option Outcome
  | 0, s => (s, none)
  | n + 1, s =>
    match g.advance player s with
    | (t, none) => g.runFor player n t
    | (t, some outcome) => (t, some outcome)

/-- The moves of a round, from its opening to its close, are no more than this. -/
def roundMoves (g : Game) : Nat :=
  (g.config.maxSteps + 1) * (g.program.size + 1) + 1

/-- A bound for the moves that are left of a game. Each instruction of a round may be followed by as
many blank lines as the program has lines. -/
def movesLeft (g : Game) (s : State) : Nat :=
  if s.roundStarted then
    (g.config.rounds - s.round - 1) * g.roundMoves +
      ((g.config.maxSteps - s.steps) * (g.program.size + 1) + (g.program.size - s.line) + 1)
  else (g.config.rounds - s.round) * g.roundMoves

theorem movesLeft_started {s : State} (h : s.roundStarted = true) :
    g.movesLeft s = (g.config.rounds - s.round - 1) * g.roundMoves +
      ((g.config.maxSteps - s.steps) * (g.program.size + 1) + (g.program.size - s.line) + 1) :=
  if_pos h

theorem movesLeft_not_started {s : State} (h : s.roundStarted = false) :
    g.movesLeft s = (g.config.rounds - s.round) * g.roundMoves :=
  if_neg (by simp [h])

/-- A line that counts makes up for wherever it leads. -/
theorem movesLeft_moveTo {s t : State} {line : Nat} (hs : s.roundStarted = true)
    (hsteps : s.steps < g.config.maxSteps) (hround : t.round = s.round)
    (hstarted : t.roundStarted = s.roundStarted) (ht : t.steps = s.steps) :
    g.movesLeft (t.moveTo line) < g.movesLeft s := by
  have hone : g.config.maxSteps - s.steps = g.config.maxSteps - (s.steps + 1) + 1 := by omega
  rw [movesLeft_started hs, movesLeft_started (s := t.moveTo line) (hstarted.trans hs), hone,
    Nat.add_mul]
  simp only [State.moveTo, hround, ht]
  omega

theorem Change.movesLeft_lt {s t : State} (h : Change g s t false) :
    g.movesLeft t < g.movesLeft s := by
  generalize hh : false = halted at h
  cases h with
  | opened hr hs =>
    have hone : g.config.rounds - s.round = g.config.rounds - s.round - 1 + 1 := by omega
    rw [movesLeft_not_started hs, movesLeft_started rfl, hone]
    simp only [State.record, State.beginRound, roundMoves, Nat.add_mul, Nat.one_mul, Nat.sub_zero]
    omega
  | closed hr hs =>
    rw [movesLeft_started hs, movesLeft_not_started rfl]
    simp only [State.record, State.finishRound, Nat.sub_sub]
    omega
  | blank _ hs hl =>
    have hlt : s.line < g.program.size := (Array.getElem?_eq_some_iff.mp hl).1
    rw [movesLeft_started hs, movesLeft_started (s := { s with line := s.line + 1 }) hs]
    dsimp only
    omega
  | next _ hs _ hsteps hruns | jump _ hs _ hsteps hruns =>
    obtain ⟨_, hround, hstarted, ht⟩ := hruns.clock
    exact movesLeft_moveTo hs hsteps hround hstarted ht
  | halt => cases hh

/-- Every run comes to its end, from whatever state, within the moves that are left. -/
theorem runFor_of_movesLeft {player : Player σ} {n : Nat} {s : Session σ}
    (h : g.movesLeft s.state < n) :
    g.runFor player n s = ((g.run player s).1, some (g.run player s).2) := by
  induction n generalizing s with
  | zero => exact absurd h (Nat.not_lt_zero _)
  | succ n ih =>
    rw [runFor]
    split
    · rename_i t ha
      rw [run_of_none ha]
      exact ih (Nat.lt_of_lt_of_le ((advance_change ha).1 rfl).movesLeft_lt (Nat.le_of_lt_succ h))
    · rename_i t outcome ha
      rw [run_of_some ha]

theorem Runs.steps_moveTo {line : Nat} {s t : State} {i : Instruction} {flow : Flow}
    (h : Runs g line s i t flow) (target : Nat) : (t.moveTo target).steps = s.steps + 1 :=
  congrArg (· + 1) h.clock.2.2.2

theorem Fails.ne_tooManySteps {line : Nat} {s t : State} {i : Instruction} {f : Fault}
    (h : Fails g line s i t f) (round limit : Nat) : f ≠ .tooManySteps round limit := by
  rintro rfl
  cases h with
  | eval _ hv => exact eval_ne_game hv rfl
  | assign _ hw =>
    obtain ⟨_, hf⟩ := writeAll_error hw
    cases hf
  | elicit _ ha => obtain ⟨_, hf⟩ | ⟨_, hf⟩ := ha.fault <;> cases hf

end Game

/-- How many instructions a round has begun. One that goes on after a halt was begun before. -/
def executed : List Turn → Nat
  | [] => 0
  | u :: earlier =>
    if u.opens then 0
    else if u.instruction?.isSome && !earlier.head?.any (·.halted) then executed earlier + 1
    else executed earlier

/-- What is counted in the course of a round, a line that waits for its player included. -/
structure Counted (ts : List Turn) (g : Game) (s : State) (halted : Bool) : Prop where
  waits : ts.head?.any (·.halted) = halted
  steps_le : s.steps + halted.toNat ≤ g.config.maxSteps
  executed_le : executed ts ≤ g.config.maxSteps
  executed_eq : s.roundStarted = true → executed ts = s.steps + halted.toNat

namespace Counted

variable {ts : List Turn} {g : Game} {s t : State} {halted : Bool}

/-- An instruction that is run counts, unless it did so before its player halted. -/
theorem executed_cons (h : Counted ts g s halted) (hs : s.roundStarted = true) {i : Instruction}
    (hl : g.program.At s.line i) (t : State) (halted' : Bool) :
    executed (⟨g, s, t, halted'⟩ :: ts) = s.steps + 1 := by
  have hi : (Turn.mk g s t halted').instruction? = some i := Turn.instruction?_eq_some.mpr ⟨hs, hl⟩
  have ho : (Turn.mk g s t halted').opens = false := Turn.opens_of_started hs
  rw [executed, hi, ho, h.waits, h.executed_eq hs]
  cases halted <;> rfl

/-- Blank lines and the close of a round count for nothing. -/
theorem executed_cons_of_blank (h : Counted ts g s halted) (hc : g.Controlled s halted)
    (hs : s.roundStarted = true) (hl : ∀ i, ¬ g.program.At s.line i) (t : State)
    (halted' : Bool) :
    halted = false ∧ executed (⟨g, s, t, halted'⟩ :: ts) = s.steps := by
  have hi : (Turn.mk g s t halted').instruction? = none := Turn.instruction?_eq_none hl
  have ho : (Turn.mk g s t halted').opens = false := Turn.opens_of_started hs
  have hh : halted = false := hc.halted_eq_false fun _ _ => hl _
  refine ⟨hh, ?_⟩
  rw [executed, hi, ho, h.executed_eq hs, hh]
  rfl

theorem cons (h : Counted ts g s halted) (hc : g.Controlled s halted) {halted' : Bool}
    (hch : g.Change s t halted') : Counted (⟨g, s, t, halted'⟩ :: ts) g t halted' := by
  have hsteps := h.steps_le
  cases hch with
  | opened _ hs =>
    have he : executed (Turn.mk g s (s.beginRound.record (.roundStarted s.round)) false :: ts) = 0 := by
      simp [executed, Turn.opens, hs]
    exact ⟨rfl, Nat.zero_le _, he ▸ Nat.zero_le _, fun _ => he⟩
  | closed _ hs hl =>
    obtain ⟨-, he⟩ := h.executed_cons_of_blank hc hs (Program.not_at_of_size_le hl) _ false
    refine ⟨rfl, Nat.zero_le _, ?_, fun ho => by cases ho⟩
    rw [he]
    omega
  | blank _ hs hl =>
    obtain ⟨rfl, he⟩ := h.executed_cons_of_blank hc hs (Program.not_at_of_blank hl) _ false
    refine ⟨rfl, hsteps, ?_, fun _ => he⟩
    rw [he]
    exact hsteps
  | next _ hs hl hlt hruns | jump _ hs hl hlt hruns =>
    refine ⟨rfl, ?_, ?_, fun _ => ?_⟩
    · rw [hruns.steps_moveTo]
      exact hlt
    · rw [h.executed_cons hs hl]
      exact hlt
    · rw [h.executed_cons hs hl, hruns.steps_moveTo]
      rfl
  | halt _ hs hl hlt hruns =>
    have ht := hruns.clock.2.2.2
    refine ⟨rfl, ?_, ?_, fun _ => ?_⟩
    · rw [ht]
      exact hlt
    · rw [h.executed_cons hs hl]
      exact hlt
    · rw [h.executed_cons hs hl, ht]
      rfl

end Counted

namespace Played

variable {ts : List Turn} {g : Game} {s : State} {halted : Bool}

theorem counted (h : Played ts g s halted) : Counted ts g s halted := by
  refine invariant h ?_ ?_ ?_
  · exact fun g => ⟨rfl, Nat.zero_le _, Nat.zero_le _, fun ho => by cases ho⟩
  · exact fun hs ih hc => ih.cons hs.reached.controlled hc
  · exact fun _ hc hs => ⟨hs.waits, hc ▸ hs.steps_le, hc ▸ hs.executed_le, hs.executed_eq⟩

/-- The ceiling is met where a round that has begun as many instructions as it may would begin
another. -/
theorem tooManySteps_iff (h : Played ts g s halted) {σ : Type} {player : Player σ} {memory : σ}
    {t : Session σ} {line round limit : Nat} :
    g.advance player ⟨s, memory⟩ =
        (t, some (.failed (.line line (.tooManySteps round limit)))) ↔
      s.round < g.config.rounds ∧ s.roundStarted = true ∧ (∃ i, g.program.At s.line i) ∧
        halted = false ∧ executed ts = g.config.maxSteps ∧
        t = ⟨s, memory⟩ ∧ line = s.line ∧ round = s.round ∧ limit = g.config.maxSteps := by
  have hc := h.counted
  constructor
  · intro ha
    obtain ⟨f, i, he, hr, hs, hl, hbreaks⟩ := Game.advance_breaks ha
    cases he
    have hmax : g.config.maxSteps ≤ s.steps := by
      cases hbreaks with
      | ceiling hmax => exact hmax
      | fails _ hfails => exact absurd rfl (hfails.ne_tooManySteps round limit)
    -- a line that waits was counted when it was begun, so that its round still has a step left
    have hsteps := hc.steps_le
    have hh : halted = false := by
      cases halted with
      | false => rfl
      | true => exact absurd hmax (Nat.not_le.mpr hsteps)
    rw [Game.advance_at hr hs hl, if_pos hmax] at ha
    cases ha
    refine ⟨hr, hs, ⟨i, hl⟩, hh, ?_, rfl, rfl, rfl, rfl⟩
    rw [hc.executed_eq hs, hh]
    exact Nat.le_antisymm (hh ▸ hsteps) hmax
  · rintro ⟨hr, hs, ⟨i, hl⟩, rfl, he, rfl, rfl, rfl, rfl⟩
    have hmax : g.config.maxSteps ≤ s.steps := by
      rw [← he, hc.executed_eq hs]
      exact Nat.le_refl _
    rw [Game.advance_at hr hs hl, if_pos hmax]

end Played

/-- Every run comes to its end, also from states that no game comes to, and no round begins more
instructions than it may: the ceiling is met just when there would be one more. -/
theorem Game.run_within_ceiling (g : Game) :
    (∀ (σ : Type) (player : Player σ) (s : Session σ),
      g.runFor player (g.movesLeft s.state + 1) s = ((g.run player s).1, some (g.run player s).2)) ∧
    ∀ ts s halted, Played ts g s halted →
      executed ts ≤ g.config.maxSteps ∧ s.steps ≤ g.config.maxSteps ∧
      ∀ (σ : Type) (player : Player σ) (memory : σ) (t : Session σ) (line round limit : Nat),
        g.advance player ⟨s, memory⟩ =
            (t, some (.failed (.line line (.tooManySteps round limit)))) ↔
          s.round < g.config.rounds ∧ s.roundStarted = true ∧ (∃ i, g.program.At s.line i) ∧
            halted = false ∧ executed ts = g.config.maxSteps ∧
            t = ⟨s, memory⟩ ∧ line = s.line ∧ round = s.round ∧ limit = g.config.maxSteps := by
  refine ⟨fun σ player s => runFor_of_movesLeft (Nat.lt_succ_self _), fun ts s halted h => ?_⟩
  exact ⟨h.counted.executed_le, Nat.le_trans (Nat.le_add_right _ _) h.counted.steps_le,
    fun σ player memory t line round limit => h.tooManySteps_iff⟩

/-- A program that asks for a word again and again. -/
def asking : Game where
  program := ⟨"\nelicit(s, 1)\nreplay(start, 9)",
    #[none, some (.elicit [.first .s] (.integer 1 ⟨1, 10, 11⟩)),
      some (.replay "start" (.integer 9 ⟨2, 14, 15⟩))]⟩
  config := { maxSteps := 3 }
  judge := Judge.Cache.judge 0

theorem asking_load :
    Game.load asking.program.source asking.config (Judge.Cache.judge 0) = .ok asking := by
  cbv

/-- What the game has come to after so many moves. The third is a halt, after which there are two
words to be had. -/
def askingAfter : Nat → Session (List String)
  | 0 => ⟨asking.initial, []⟩
  | n + 1 =>
    let t := (asking.advance .mailbox (askingAfter n)).1
    if n = 2 then ⟨t.state, ["a", "b"]⟩ else t

theorem Game.run_within_ceiling_asking :
    ∃ ts, Played ts asking (askingAfter 7).state false ∧ ts.any (·.halted) = true ∧
      executed ts = 3 ∧
      asking.advance .mailbox (askingAfter 7) =
        (askingAfter 7, some (.failed (.line 2 (.tooManySteps 0 3)))) ∧
      asking.runFor .mailbox (asking.movesLeft (askingAfter 7).state + 1) (askingAfter 7) =
        (askingAfter 7, some (.failed (.line 2 (.tooManySteps 0 3)))) := by
  have next : ∀ n, n < 7 → n ≠ 2 →
      asking.advance .mailbox (askingAfter n) = (askingAfter (n + 1), none) := by
    intro n hn hne
    obtain rfl | rfl | rfl | rfl | rfl | rfl : n = 0 ∨ n = 1 ∨ n = 3 ∨ n = 4 ∨ n = 5 ∨ n = 6 := by
      omega
    all_goals exact Prod.ext rfl rfl
  have halt : asking.advance .mailbox (askingAfter 2) =
      (⟨(askingAfter 3).state, []⟩, some .halted) := Prod.ext rfl rfl
  have h : Played _ asking (askingAfter 7).state false :=
    (((((((Played.new asking_load).advance (next 0 (by decide) (by decide))).advance
      (next 1 (by decide) (by decide))).halt halt).advance
      (next 3 (by decide) (by decide))).advance (next 4 (by decide) (by decide))).advance
      (next 5 (by decide) (by decide))).advance (next 6 (by decide) (by decide))
  obtain ⟨hends, hplayed⟩ := Game.run_within_ceiling asking
  obtain ⟨_, _, hceiling⟩ := hplayed _ _ _ h
  have hmet := (hceiling _ .mailbox (askingAfter 7).memory _ 2 0 3).mpr
    ⟨by decide, rfl, ⟨_, rfl⟩, rfl, rfl, rfl, rfl, rfl, rfl⟩
  refine ⟨_, h, rfl, rfl, hmet, ?_⟩
  rw [hends, Game.run_of_some hmet]

end EntropyGame
