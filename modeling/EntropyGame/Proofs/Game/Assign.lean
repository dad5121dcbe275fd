import EntropyGame.Judge.Cache
import EntropyGame.Proofs.Game.Change
import EntropyGame.Proofs.Game.Reached
import EntropyGame.Proofs.Instruction
import EntropyGame.Proofs.Register.Store
import Mathlib

namespace EntropyGame

namespace Registers

/-- Whether the value of a write is of the kind that its register holds. -/
def fits (w : Register × Value) : Bool :=
  w.2.kind = w.1.kind

/-- The value that the last of some writes to a register gives it. -/
def lastWrite? (ws : List (Register × Value)) (r : Register) : Option Value :=
  (ws.reverse.find? (·.1 = r)).map Prod.snd

theorem lastWrite?_cons (w : Register × Value) (ws : List (Register × Value)) (r : Register) :
    lastWrite? (w :: ws) r = (lastWrite? ws r).or (if r = w.1 then some w.2 else none) := by
  rw [lastWrite?, lastWrite?, List.reverse_cons, List.find?_append]
  cases ws.reverse.find? (·.1 = r) with
  | some v => rfl
  | none =>
    by_cases hr : r = w.1
    · simp [hr]
    · simp [hr, Ne.symm hr]

theorem takeWhile_fits {ws : List (Register × Value)} (h : ws.all fits = true) :
    ws.takeWhile fits = ws :=
  List.takeWhile_eq_self_iff.mpr (List.all_eq_true.mp h)

/-- A write of a value that does not fit is refused. -/
theorem set_of_not_fits {rs : Registers} {w : Register × Value} (hs : w.1.isStatic = false)
    (hw : fits w = false) : rs.set w.1 w.2 = .error (.kind w.1 w.2.kind) := by
  have hkind : w.2.kind ≠ w.1.kind := by simpa [fits] using hw
  simp [set, hs, hkind]

end Registers

open Registers

section

variable {ws : List (Register × Value)} (hs : ∀ w ∈ ws, w.1.isStatic = false)

include hs

/-- The writes before the first that does not fit are made, the last to each register for good. -/
theorem State.get?_writeAll (s : State) (r : Register) :
    (s.writeAll ws).1.registers.get? r =
      (lastWrite? (ws.takeWhile fits) r).or (s.registers.get? r) := by
  induction ws generalizing s with
  | nil => rfl
  | cons w ws ih =>
    have hw : w.1.isStatic = false := hs w List.mem_cons_self
    cases hfits : fits w with
    | false =>
      rw [State.writeAll, set_of_not_fits hw hfits, List.takeWhile_cons_of_neg (by simp [hfits])]
      rfl
    | true =>
      have hkind : w.2.kind = w.1.kind := by simpa [fits] using hfits
      have hrest := ih (fun v hv => hs v (List.mem_cons_of_mem _ hv))
        { s with registers := s.registers.insert w.1 w.2 }
      rw [State.writeAll, set_of_kind hw hkind, List.takeWhile_cons_of_pos hfits, lastWrite?_cons,
        Option.or_assoc]
      refine hrest.trans ?_
      rw [OrderedMap.get?_insert]
      split <;> rfl

/-- The first write that does not fit is where they stop. -/
theorem State.writeAll_snd (s : State) :
    (s.writeAll ws).2 =
      match ws.find? fun w => !fits w with
      | none => .ok .next
      | some w => .error (.write (.kind w.1 w.2.kind)) := by
  induction ws generalizing s with
  | nil => rfl
  | cons w ws ih =>
    have hw : w.1.isStatic = false := hs w List.mem_cons_self
    cases hfits : fits w with
    | false =>
      rw [State.writeAll, set_of_not_fits hw hfits, List.find?_cons_of_pos (by simp [hfits])]
    | true =>
      have hkind : w.2.kind = w.1.kind := by simpa [fits] using hfits
      rw [State.writeAll, set_of_kind hw hkind, List.find?_cons_of_neg (by simp [hfits])]
      exact ih (fun v hv => hs v (List.mem_cons_of_mem _ hv)) _

end

namespace Game

variable {σ : Type} {g : Game} {s : Session σ} {targets : List (Register × Expr)}

/-- The writes that an `assign` comes to if all its expressions have values, which are those they
have before the line. -/
def writes (g : Game) (s : State) (targets : List (Register × Expr)) :
    Except Fault (List (Register × Value)) :=
  (targets.mapM fun t => g.eval s t.2).map ((targets.map Prod.fst).zip ·)

/-- The writes of an `assign` that are made: those before the first that does not fit. -/
def landed (g : Game) (s : State) (targets : List (Register × Expr)) : List (Register × Value) :=
  if g.config.maxSteps ≤ s.steps then []
  else match g.writes s targets with
    | .error _ => []
    | .ok ws => ws.takeWhile fits

/-- What an `assign` promises of its step: it gives all targets their values and leaves all other
registers alone, or it fails and leaves all registers alone. -/
def AllOrNothing (g : Game) (s : State) (targets : List (Register × Expr)) (t : State) :
    Except Fault Progress → Prop
  | .ok progress => progress = .running ∧ ∃ ws, g.writes s targets = .ok ws ∧
      ∀ r, t.registers.get? r = (lastWrite? ws r).or (s.registers.get? r)
  | .error _ => ∀ r, t.registers.get? r = s.registers.get? r

/-- If an `assign` comes to a value that does not fit, all that it has written before is what the
registers held already. -/
def Traceless (g : Game) (s : State) (targets : List (Register × Expr)) : Prop :=
  ∀ ws, s.steps < g.config.maxSteps → g.writes s targets = .ok ws → ws.all fits = false →
    ∀ r v, lastWrite? (ws.takeWhile fits) r = some v → s.registers.get? r = some v

theorem static_of_mem_writes {ws : List (Register × Value)} {s : State}
    (h : g.writes s targets = .ok ws) (hs : ∀ t ∈ targets, t.1.isStatic = false) :
    ∀ w ∈ ws, w.1.isStatic = false := by
  obtain ⟨values, -, rfl⟩ := map_ok h
  rintro ⟨r, v⟩ hw
  obtain ⟨t, ht, rfl⟩ := List.mem_map.mp (List.of_mem_zip hw).1
  exact hs t ht

section

variable (player : Player σ) (hl : g.program.At s.state.line (.assign targets))

include hl

theorem step_assign_ceiling (hsteps : g.config.maxSteps ≤ s.state.steps) :
    g.step player s = (s, .error (.tooManySteps s.state.round g.config.maxSteps)) := by
  have hline : g.program.lines[s.state.line]? = some (some (.assign targets)) := hl
  simp only [step, hline, if_pos hsteps]

theorem step_assign_fault (hsteps : s.state.steps < g.config.maxSteps) {f : Fault}
    (hw : g.writes s.state targets = .error f) : g.step player s = (s, .error f) := by
  have hline : g.program.lines[s.state.line]? = some (some (.assign targets)) := hl
  simp only [step, hline, if_neg (Nat.not_le.mpr hsteps), execute, quietly, assign]
  cases hv : targets.mapM fun t => g.eval s.state t.2 with
  | error e =>
    simp only [writes, hv, Except.map, Except.error.injEq] at hw
    rw [hw]
  | ok values => simp [writes, hv, Except.map] at hw

/-- Once all values are there, the writes decide how the step ends. -/
theorem step_assign_writes (hsteps : s.state.steps < g.config.maxSteps)
    {ws : List (Register × Value)} (hw : g.writes s.state targets = .ok ws)
    (hs : ∀ w ∈ ws, w.1.isStatic = false) :
    (g.step player s).1.state.registers = (s.state.writeAll ws).1.registers ∧
      (g.step player s).2 =
        match ws.find? fun w => !fits w with
        | none => .ok .running
        | some w => .error (.write (.kind w.1 w.2.kind)) := by
  have hline : g.program.lines[s.state.line]? = some (some (.assign targets)) := hl
  have hsnd := State.writeAll_snd hs s.state
  obtain ⟨values, hv, rfl⟩ := map_ok hw
  simp only [step, hline, if_neg (Nat.not_le.mpr hsteps), execute, quietly, assign, hv]
  generalize s.state.writeAll ((targets.map Prod.fst).zip values) = written at hsnd ⊢
  obtain ⟨t, flow⟩ := written
  obtain rfl : flow = _ := hsnd
  cases (((targets.map Prod.fst).zip values).find? fun w => !fits w) with
  | none => exact ⟨rfl, rfl⟩
  | some w => exact ⟨rfl, rfl⟩

/-- If all values fit, every target gets the last of its values. -/
theorem step_assign_of_fits (hsteps : s.state.steps < g.config.maxSteps)
    {ws : List (Register × Value)} (hw : g.writes s.state targets = .ok ws)
    (hs : ∀ w ∈ ws, w.1.isStatic = false) (hall : ws.all fits = true) :
    (g.step player s).2 = .ok .running ∧ ∀ r, (g.step player s).1.state.registers.get? r =
      (lastWrite? ws r).or (s.state.registers.get? r) := by
  obtain ⟨hregisters, hflow⟩ := step_assign_writes player hl hsteps hw hs
  have hfind : (ws.find? fun w => !fits w) = none := by
    rw [List.find?_eq_none]
    intro w hmem
    simp [List.all_eq_true.mp hall w hmem]
  rw [hfind] at hflow
  refine ⟨hflow, fun r => ?_⟩
  rw [hregisters, State.get?_writeAll hs, takeWhile_fits hall]

/-- If one does not, the step fails, and what was written before it stays. -/
theorem step_assign_of_not_fits (hsteps : s.state.steps < g.config.maxSteps)
    {ws : List (Register × Value)} (hw : g.writes s.state targets = .ok ws)
    (hs : ∀ w ∈ ws, w.1.isStatic = false) (hall : ws.all fits = false) :
    (∃ w ∈ ws, (g.step player s).2 = .error (.write (.kind w.1 w.2.kind))) ∧
      ∀ r, (g.step player s).1.state.registers.get? r =
        (lastWrite? (ws.takeWhile fits) r).or (s.state.registers.get? r) := by
  obtain ⟨hregisters, hflow⟩ := step_assign_writes player hl hsteps hw hs
  obtain ⟨w, hfind⟩ : ∃ w, (ws.find? fun w => !fits w) = some w := by
    rw [← Option.isSome_iff_exists, List.find?_isSome]
    obtain ⟨w, hmem, hmisfit⟩ := List.all_eq_false.mp hall
    exact ⟨w, hmem, by simpa using hmisfit⟩
  rw [hfind] at hflow
  refine ⟨⟨w, List.mem_of_find?_eq_some hfind, hflow⟩, fun r => ?_⟩
  rw [hregisters, State.get?_writeAll hs]

end

/-- A failure that has made some of its writes is atomic if they leave no trace. -/
theorem allOrNothing_iff_traceless {s t : State} {f : Fault} {ws : List (Register × Value)}
    (hsteps : s.steps < g.config.maxSteps) (hw : g.writes s targets = .ok ws)
    (hall : ws.all fits = false)
    (hget : ∀ r, t.registers.get? r =
      (lastWrite? (ws.takeWhile fits) r).or (s.registers.get? r)) :
    g.AllOrNothing s targets t (.error f) ↔ g.Traceless s targets := by
  constructor
  · intro hkept ws' _ hw' _ r v hv
    cases hw.symm.trans hw'
    have hr := (hget r).symm.trans (hkept r)
    rw [hv] at hr
    exact hr.symm
  · intro htrace r
    rw [hget]
    cases hv : lastWrite? (ws.takeWhile fits) r with
    | none => rfl
    | some v => exact (htrace ws hsteps hw hall r v hv).symm

/-- The registers after an `assign` are those before with the writes that have landed; it succeeds if
all its values are there and fit, and it is simultaneous and atomic if and only if it leaves no trace
of writes before a value that does not fit. -/
theorem step_assign_iff (hg : g.IsLoaded) (hl : g.program.At s.state.line (.assign targets))
    (player : Player σ) :
    (∀ r, (g.step player s).1.state.registers.get? r =
      (lastWrite? (g.landed s.state targets) r).or (s.state.registers.get? r)) ∧
    ((g.step player s).2 = .ok .running ↔ s.state.steps < g.config.maxSteps ∧
      ∃ ws, g.writes s.state targets = .ok ws ∧ ws.all fits = true) ∧
    (g.AllOrNothing s.state targets (g.step player s).1.state (g.step player s).2 ↔
      g.Traceless s.state targets) := by
  have hstatic : ∀ t ∈ targets, t.1.isStatic = false := fun t ht => Program.load_assign hg hl ht
  by_cases hsteps : g.config.maxSteps ≤ s.state.steps
  · have hlt : ¬ s.state.steps < g.config.maxSteps := Nat.not_lt.mpr hsteps
    rw [step_assign_ceiling player hl hsteps, landed, if_pos hsteps]
    exact ⟨fun r => rfl, by simp [hlt], iff_of_true (fun r => rfl) fun ws h => absurd h hlt⟩
  · have hlt : s.state.steps < g.config.maxSteps := Nat.lt_of_not_le hsteps
    cases hw : g.writes s.state targets with
    | error f =>
      rw [step_assign_fault player hl hlt hw, landed, if_neg hsteps, hw]
      refine ⟨fun r => rfl, by simp, iff_of_true (fun r => rfl) fun ws _ h => ?_⟩
      cases hw.symm.trans h
    | ok ws =>
      have hs := static_of_mem_writes hw hstatic
      have hlanded : g.landed s.state targets = ws.takeWhile fits := by
        rw [landed, if_neg hsteps, hw]
      cases hall : ws.all fits with
      | true =>
        obtain ⟨hflow, hget⟩ := step_assign_of_fits player hl hlt hw hs hall
        rw [hlanded, takeWhile_fits hall, hflow]
        refine ⟨hget, iff_of_true rfl ⟨hlt, ws, rfl, hall⟩, iff_of_true ⟨rfl, ws, hw, hget⟩ ?_⟩
        intro ws' _ hw' hmisfit
        cases hw.symm.trans hw'
        cases hall.symm.trans hmisfit
      | false =>
        obtain ⟨⟨w, -, hflow⟩, hget⟩ := step_assign_of_not_fits player hl hlt hw hs hall
        rw [hlanded, hflow]
        refine ⟨hget, iff_of_false (fun h => nomatch h) ?_,
          allOrNothing_iff_traceless hlt hw hall hget⟩
        rintro ⟨-, ws', hw', hfit⟩
        cases hw'
        cases hall.symm.trans hfit

end Game

/-- A program that swaps two texts and then writes to one of them again. -/
def swapping : Game where
  program := ⟨"assign(s='a', t='b')\nassign(s=t, t=s, s=s + t)",
    #[some (.assign [(.first .s, .text "a" ⟨0, 9, 12⟩), (.first .t, .text "b" ⟨0, 16, 19⟩)]),
      some (.assign [(.first .s, .name "t" ⟨1, 9, 10⟩), (.first .t, .name "s" ⟨1, 14, 15⟩),
        (.first .s, .binary .add (.name "s" ⟨1, 19, 20⟩) (.name "t" ⟨1, 23, 24⟩) ⟨1, 19, 24⟩)])]⟩
  config := {}
  judge := Judge.Cache.judge 0

theorem swapping_load :
    Game.load swapping.program.source {} (Judge.Cache.judge 0) = .ok swapping := by
  cbv

/-- What the game has come to before the second line. -/
def swappingBefore : Session (List String) :=
  let opened := (swapping.advance .mailbox ⟨swapping.initial, []⟩).1
  (swapping.advance .mailbox opened).1

theorem Game.step_assign_iff_swapping : ∃ targets t,
    swapping.program.At swappingBefore.state.line (.assign targets) ∧
      swapping.step .mailbox swappingBefore = (t, .ok .running) ∧
      swapping.AllOrNothing swappingBefore.state targets t.state (.ok .running) ∧
      swappingBefore.state.registers.get? (.first .s) = some (.ofText "a") ∧
      swappingBefore.state.registers.get? (.first .t) = some (.ofText "b") ∧
      t.state.registers.get? (.first .s) = some (.ofText "ab") ∧
      t.state.registers.get? (.first .t) = some (.ofText "a") := by
  have hg : swapping.IsLoaded := (Game.load_ok swapping_load).1
  obtain ⟨hget, hflow, hatomic⟩ := Game.step_assign_iff hg (s := swappingBefore) rfl .mailbox
  have hruns := hflow.mpr ⟨by decide, _, rfl, rfl⟩
  have hall := hatomic.mpr fun ws _ hw hmisfit => by
    cases hw
    cases hmisfit
  rw [hruns] at hall
  exact ⟨_, _, rfl, Prod.ext rfl hruns, hall, rfl, rfl, hget _, hget _⟩

/-- A program that writes a text before it comes to a number that does not fit. -/
def halfWritten : Game where
  program := ⟨"assign(s='a', t=1)",
    #[some (.assign [(.first .s, .text "a" ⟨0, 9, 12⟩), (.first .t, .integer 1 ⟨0, 16, 17⟩)])]⟩
  config := {}
  judge := Judge.Cache.judge 0

theorem halfWritten_load :
    Game.load halfWritten.program.source {} (Judge.Cache.judge 0) = .ok halfWritten := by
  cbv

/-- What was written before the number stays. -/
theorem Game.assign_halfWritten : ∃ s t : Session (List String),
    halfWritten.advance .mailbox ⟨halfWritten.initial, []⟩ = (s, none) ∧
      halfWritten.step .mailbox s = (t, .error (.write (.kind (.first .t) .number))) ∧
      s.state.registers.get? (.first .s) = some (.ofText "") ∧
      t.state.registers.get? (.first .s) = some (.ofText "a") :=
  ⟨_, _, rfl, Prod.ext rfl rfl, rfl, rfl⟩

end EntropyGame
