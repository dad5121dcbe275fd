import EntropyGame.Main
import EntropyGame.Proofs.Batch.Isolation
import EntropyGame.Proofs.CommandLine

namespace EntropyGame

/-- The same unit, played by a script of responses that halts after the last one. -/
def WorkUnit.answeredBy (u : WorkUnit) (responses : List String) : WorkUnit :=
  { u with player := ⟨u.player.id, responses, true⟩ }

theorem WorkUnit.key_answeredBy (u : WorkUnit) (responses : List String) :
    (u.answeredBy responses).key = u.key :=
  rfl

/-- Trees with the record of a unit that a batch left off in a folder, whatever other units have run
since then. -/
inductive LeftOff (folder : String) (u : WorkUnit) : Tree → Prop
  | suspended {σ : Type} {b : Batch σ} {task : Nat} {t t' : Tree} :
      b.Makes UnitRecord.Fits u ((Store.files Tree.disk folder).found t u.key) →
      (b.runUnit (.files Tree.disk folder) task u).run t = (.suspended, t') → LeftOff folder u t'
  | other {σ : Type} (b : Batch σ) (task : Nat) (v : WorkUnit) {t : Tree} : LeftOff folder u t →
      v.key ≠ u.key → LeftOff folder u ((b.runUnit (.files Tree.disk folder) task v).run t).2

namespace Batch

variable {σ : Type} {b : Batch σ} {u : WorkUnit} {slot : Slot} {task : Nat}

theorem play_record {g : Game} {s : State} {r : UnitRecord} {status : UnitStatus}
    (h : b.play u g s = .ok (r, status)) :
    r.game = u.game.name ∧ r.player = u.player.id ∧ r.seed = u.seed := by
  obtain ⟨memory, t, ⟨-, rfl, -⟩ | ⟨-, rfl, -⟩⟩ := play_ok h <;> exact ⟨rfl, rfl, rfl⟩

/-- What comes of a unit is a record of it. -/
theorem outcome_record {stored : Option UnitRecord} {r : UnitRecord} {status : UnitStatus}
    (h : b.outcome u stored = .ok (r, status)) :
    r.game = u.game.name ∧ r.player = u.player.id ∧ r.seed = u.seed := by
  obtain ⟨g, s, -, hplay⟩ := outcome_ok h
  exact play_record hplay

/-- A slot with a game of a unit to go on with, where there is room for more. -/
structure Waits (u : WorkUnit) (slot : Slot) (r : UnitRecord) (saved : SavedGame) : Prop where
  found : slot.found = .ok (some r)
  room : slot.room = .ok ()
  checkpoint : r.checkpoint = .state saved
  game : r.game = u.game.name
  player : r.player = u.player.id
  seed : r.seed = u.seed

theorem visit_waits (hstatus : (b.visit task u slot).1 = .suspended) :
    ∃ r saved, Waits u (b.visit task u slot).2 r saved := by
  cases hfound : slot.found with
  | error e =>
    rw [visit, hfound] at hstatus
    cases hstatus
  | ok stored =>
    cases hstored : stored.any UnitRecord.isComplete with
    | true =>
      obtain ⟨r, rfl, hr⟩ := (Option.any_eq_true _ _).mp hstored
      rw [visit_of_isComplete hfound hr] at hstatus
      cases hstatus
    | false =>
      rw [visit_of_notComplete hfound hstored] at hstatus ⊢
      cases houtcome : b.outcome u stored with
      | error e =>
        rw [houtcome] at hstatus
        cases e <;> cases hstatus
      | ok made =>
        obtain ⟨r, status⟩ := made
        obtain ⟨hgame, hplayer, hseed⟩ := outcome_record houtcome
        rw [houtcome] at hstatus
        dsimp only at hstatus ⊢
        cases hroom : slot.room with
        | error e =>
          rw [hroom] at hstatus
          cases hstatus
        | ok _ =>
          rw [hroom] at hstatus
          obtain rfl : status = .suspended := hstatus
          cases outcome_made houtcome with
          | suspended hsaved => exact ⟨r, _, rfl, rfl, hsaved, hgame, hplayer, hseed⟩

end Batch

/-- What is under the key of a unit that was left off. -/
theorem LeftOff.waits {folder : String} {u : WorkUnit} {t : Tree} (h : LeftOff folder u t) :
    ∃ r saved, Batch.Waits u (Store.fileSlot folder (Store.treeContent folder)
      (Store.treeRoom folder) t u.key) r saved := by
  have hd := Store.tree_replaces folder
  induction h with
  | @suspended σ b task t t' hmakes hrun =>
    have hown := Batch.runUnit_own hd.keyed task (hmakes.readsBack hd)
    have hstatus := Batch.runUnit_status hd.keyed b task u t
    rw [hrun] at hown hstatus
    rw [hown]
    exact Batch.visit_waits hstatus.symm
  | other b task v _ hne ih =>
    -- its slot is left alone by units with other keys
    rwa [Batch.runUnit_other hd.keyed hne]

namespace CommandLine

open Batch

variable {u : WorkUnit} {r : UnitRecord} {saved : SavedGame} {model : String}
  {responses : List String}

end CommandLine

section

variable {S : Type} {disk : Disk (StateM S)} {folder : String} {content : S → String → Content}
  {room : S → String → Except BatchError Unit} {s : S} {u : WorkUnit} {r : UnitRecord}
  {saved : SavedGame}

theorem Batch.Waits.recordOf (h : Waits u (Store.fileSlot folder content room s u.key) r saved) :
    Store.recordOf (Store.path folder u.key) (content s u.key) = .ok (some r) :=
  h.found

theorem Batch.Waits.replaceable
    (h : Waits u (Store.fileSlot folder content room s u.key) r saved) : room s u.key = .ok () :=
  h.room

theorem Batch.Waits.answeredBy (h : Waits u (Store.fileSlot folder content room s u.key) r saved)
    (responses : List String) : Waits (u.answeredBy responses)
      (Store.fileSlot folder content room s (u.answeredBy responses).key) r saved := by
  rw [u.key_answeredBy]
  exact { h with }

/-- A unit that was left off plays on, and what comes of it takes the place of its record. -/
theorem Batch.Waits.runUnit (h : Waits u (Store.fileSlot folder content room s u.key) r saved)
    (hd : Store.Replaces disk folder content room) {σ : Type} (b : Batch σ) (task : Nat) :
    (b.runUnit (.files disk folder) task u).run s =
      match b.outcome u (some r) with
      | .error e => (e.status task, s)
      | .ok (r', status) =>
        (status, ((Store.replaceFile disk (Store.path folder u.key) r'.write).run s).2) := by
  have hr : r.isComplete = false := by
    rw [UnitRecord.isComplete, h.checkpoint]
    rfl
  rw [Batch.runUnit_run (hd.keyed.load u s), h.found]
  dsimp only
  rw [Batch.filter_isComplete.mpr (by simpa using hr)]
  dsimp only
  cases b.outcome u (some r) with
  | error e => rfl
  | ok made =>
    obtain ⟨r', status⟩ := made
    have hanswer := hd.replace_answer u r'.write s
    rw [h.replaceable] at hanswer
    dsimp only
    rw [hd.save_run, h.recordOf]
    dsimp only
    rw [if_neg (by simp [hr]), hanswer]
    rfl

end

end EntropyGame
