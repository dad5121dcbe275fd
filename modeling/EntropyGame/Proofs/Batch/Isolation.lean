import EntropyGame.Proofs.Batch.Doubles
import EntropyGame.Proofs.Game.Checkpoint

namespace EntropyGame

open Json

variable {σ S : Type}

/-- What was found under the key of a unit with this status before it ran and is found after that.
A unit that was skipped or failed leaves it, also if something broke down, one that was completed
leaves a complete record with the score that is told, and one that was suspended leaves a game to go
on with. -/
def UnitStatus.Leaves (before after : Except BatchError (Option UnitRecord)) : UnitStatus → Prop
  | completed score => ∃ r, after = .ok (some r) ∧ r.isComplete = true ∧ r.totalScore = score
  | suspended => ∃ r saved, after = .ok (some r) ∧ r.checkpoint = .state saved
  | skipped score => after = before ∧
      ∃ r, before = .ok (some r) ∧ r.isComplete = true ∧ r.totalScore = score
  | failed _ | panicked .. => after = before

namespace Batch

/-- Jobs that run some units, in whatever order and in whatever tasks. -/
def Arranges (jobs : List Job) (units : List WorkUnit) : Prop :=
  (jobs.map Job.unit).Perm units

variable {b : Batch σ} {u : WorkUnit} {slot : Slot} {task : Nat} {jobs : List Job}
  {units : List WorkUnit}

theorem Visits.leaves {status : UnitStatus} {slot' : Slot}
    (h : b.Visits task u slot status slot') : status.Leaves slot.found slot'.found := by
  cases h with
  | failed => rfl
  | panicked => rfl
  | skipped hfound hr => exact ⟨rfl, _, hfound, hr, rfl⟩
  | saved hfound houtcome =>
    cases outcome_made houtcome with
    | completed hr => exact ⟨_, rfl, hr, rfl⟩
    | suspended hsaved => exact ⟨_, _, rfl, hsaved⟩

theorem Arranges.keys (h : Arranges jobs units) :
    (jobs.map Job.key).Perm (units.map WorkUnit.key) := by
  rw [Job.map_key]
  exact h.map WorkUnit.key

section

variable {store : Store (StateM S)} {slots : S → String → Slot} {kept : UnitRecord → Prop} {s : S}
  {j : Job}

theorem run_found (hk : store.Keyed slots kept) (hn : (jobs.map Job.key).Nodup) (hj : j ∈ jobs)
    (hmakes : b.Makes kept j.unit (slots s j.key).found) :
    store.found ((b.run store jobs).run s).2 j.key =
      (b.visit j.task j.unit (slots s j.key)).2.found :=
  (hk.found _ j.unit).trans (congrArg Slot.found (run_own hk hn hj hmakes))

theorem run_found_other (hk : store.Keyed slots kept) {v : WorkUnit}
    (hv : v.key ∉ jobs.map Job.key) :
    store.found ((b.run store jobs).run s).2 v.key = store.found s v.key := by
  rw [hk.found, hk.found, run_other hk hv]

end

end Batch

/-- A game of one round that pays three. -/
def payGame : Game where
  program := ⟨"reward(3)", #[some (.reward (.integer 3 ⟨0, 7, 8⟩))]⟩
  config := { rounds := 1 }
  judge := Judge.Cache.judge 0

theorem payGame_load :
    Game.load payGame.program.source payGame.config (Judge.Cache.judge 0) = .ok payGame := by
  cbv

def payUnit : WorkUnit :=
  ⟨⟨"pay", payGame.program.source, payGame.config⟩, ⟨"a", [], false⟩, 0⟩

/-- A unit whose player is waited for. -/
def waitUnit : WorkUnit :=
  ⟨⟨"wait", paidRequest.program.source, {}⟩, ⟨"b", [], true⟩, 0⟩

/-- Scripted players, of which one breaks down. -/
def brittleScripts : Batch Script :=
  { Batch.scripted "cache" Judge.builtin with
    seat := fun p _ =>
      if p.id = "panics" then .error (.panic ⟨some "player construction exploded"⟩)
      else .ok p.script }

/-- What a scripted game comes to step by step. -/
def scriptedAfter (g : Game) (u : WorkUnit) : Nat → Session Script
  | 0 => ⟨g.initial, u.player.script⟩
  | n + 1 => (g.advance Script.player (scriptedAfter g u n)).1

def payAfter : Nat → Session Script :=
  scriptedAfter payGame payUnit

def waitAfter : Nat → Session Script :=
  scriptedAfter paidRequest waitUnit

theorem payUnit_outcome :
    brittleScripts.outcome payUnit none = .ok (Batch.record payUnit (payAfter 4).state
      (.results (payAfter 4).state.completed), .completed 3) := by
  have h0 : payGame.advance Script.player (payAfter 0) = (payAfter 1, none) := by rfl
  have h1 : payGame.advance Script.player (payAfter 1) = (payAfter 2, none) := by rfl
  have h2 : payGame.advance Script.player (payAfter 2) = (payAfter 3, none) := by rfl
  have h3 : payGame.advance Script.player (payAfter 3) = (payAfter 4, some .finished) := by rfl
  have hscore : (payAfter 4).state.totalScore = 3 := by rfl
  have hrun : payGame.run brittleScripts.player (payAfter 0) = (payAfter 4, .finished) :=
    (Game.run_of_none h0).trans ((Game.run_of_none h1).trans
      ((Game.run_of_none h2).trans (Game.run_of_some h3)))
  rw [Batch.outcome_new rfl payGame_load, Batch.play_finished rfl hrun rfl, hscore]

theorem waitUnit_outcome :
    brittleScripts.outcome waitUnit none =
      .ok (Batch.record waitUnit (waitAfter 3).state
        (.state (paidRequest.save (waitAfter 3).state)), .suspended) := by
  have h0 : paidRequest.advance Script.player (waitAfter 0) = (waitAfter 1, none) := by rfl
  have h1 : paidRequest.advance Script.player (waitAfter 1) = (waitAfter 2, none) := by rfl
  have h2 : paidRequest.advance Script.player (waitAfter 2) = (waitAfter 3, some .halted) := by rfl
  have hrun : paidRequest.run brittleScripts.player (waitAfter 0) = (waitAfter 3, .halted) :=
    (Game.run_of_none h0).trans ((Game.run_of_none h1).trans (Game.run_of_some h2))
  rw [Batch.outcome_new rfl paidRequest_load, Batch.play_halted rfl hrun rfl]

theorem payRecord_fits :
    (Batch.record payUnit (payAfter 4).state (.results (payAfter 4).state.completed)).Fits := by
  have husage : (payAfter 4).state.usage = {} := by rfl
  have hcompleted : (payAfter 4).state.completed = #[⟨0, 3, {},
    #[.roundStarted 0, .reward 0 (.number 3) 3, .roundFinished 0 3]⟩] := by rfl
  rw [Batch.record, husage, hcompleted]
  refine ⟨by decide, ⟨by decide, by decide⟩, ?_⟩
  refine List.forall_mem_singleton.mpr ⟨by decide, ⟨by decide, by decide⟩, ?_⟩
  simp [Event.Fits, word]

theorem waitRecord_fits : (Batch.record waitUnit (waitAfter 3).state
    (.state (paidRequest.save (waitAfter 3).state))).Fits := by
  have h0 : paidRequest.advance Script.player (waitAfter 0) = (waitAfter 1, none) := by rfl
  have h1 : paidRequest.advance Script.player (waitAfter 1) = (waitAfter 2, none) := by rfl
  have h2 : paidRequest.advance Script.player (waitAfter 2) = (waitAfter 3, some .halted) := by rfl
  have hreached : Reached paidRequest (waitAfter 3).state true :=
    .halt (.advance (.advance (.new paidRequest_load) h0) h1) h2
  have husage : (waitAfter 3).state.usage = {} := by rfl
  have hconfig : paidRequest.config.Fits := ⟨by decide, by decide, by decide, by decide⟩
  have hu : (waitAfter 3).state.usage.Fits := by
    rw [husage]
    exact ⟨by decide, by decide⟩
  exact ⟨by decide, hu, hconfig, hreached.fits hconfig hu (by decide), by decide⟩

end EntropyGame
