import EntropyGame.Batch.Run
import EntropyGame.Proofs.Batch.Files

namespace EntropyGame

/-- The same status in another task. -/
def UnitStatus.inTask (task : Nat) : UnitStatus → UnitStatus
  | panicked _ p => .panicked task p
  | status => status

def Job.key (j : Job) : String :=
  j.unit.key

theorem Job.map_key (jobs : List Job) :
    jobs.map Job.key = (jobs.map Job.unit).map WorkUnit.key := by
  rw [List.map_map]
  rfl

namespace Batch

variable {σ S : Type}

/-- What running a unit in a task tells and what it makes of the slot of its key. -/
def visit (b : Batch σ) (task : Nat) (u : WorkUnit) (slot : Slot) : UnitStatus × Slot :=
  match slot.found with
  | .error e => (.failed e, slot)
  | .ok stored =>
    match stored.filter UnitRecord.isComplete with
    | some r => (.skipped r.totalScore, slot)
    | none =>
      match b.outcome u stored with
      | .error e => (e.status task, slot)
      | .ok (r, status) =>
        match slot.answer with
        | .error e => (.failed e, slot)
        | .ok _ => (status, slot.put r)

/-- What comes of a unit is a record of some kind. -/
def Makes (b : Batch σ) (kept : UnitRecord → Prop) (u : WorkUnit)
    (found : Except BatchError (Option UnitRecord)) : Prop :=
  ∀ stored r status, found = .ok stored → stored.any UnitRecord.isComplete = false →
    b.outcome u stored = .ok (r, status) → kept r

/-- The ways that a visit may go. -/
inductive Visits (b : Batch σ) (task : Nat) (u : WorkUnit) (slot : Slot) :
    UnitStatus → Slot → Prop
  | failed {e : BatchError} : Visits b task u slot (.failed e) slot
  | panicked {p : Panic} : Visits b task u slot (.panicked task p) slot
  | skipped {r : UnitRecord} : slot.found = .ok (some r) → r.isComplete = true →
      Visits b task u slot (.skipped r.totalScore) slot
  | saved {stored : Option UnitRecord} {r : UnitRecord} {status : UnitStatus} :
      slot.found = .ok stored → b.outcome u stored = .ok (r, status) →
      Visits b task u slot status { slot with found := .ok (some r) }

/-- What playing comes to fits what is told of it. -/
inductive Made : UnitRecord → UnitStatus → Prop
  | completed {r : UnitRecord} : r.isComplete = true → Made r (.completed r.totalScore)
  | suspended {r : UnitRecord} {saved : SavedGame} : r.checkpoint = .state saved →
      Made r .suspended

variable {b : Batch σ} {u : WorkUnit} {slot : Slot} {task : Nat}

/-- What comes of playing a game: it was seated, nothing was thrown, and the game ended or halts. -/
theorem play_ok {g : Game} {s : State} {r : UnitRecord} {status : UnitStatus}
    (h : b.play u g s = .ok (r, status)) :
    ∃ (memory : σ) (t : Session σ),
      (g.run b.player ⟨s, memory⟩ = (t, .finished) ∧
        r = record u t.state (.results t.state.completed) ∧
        status = .completed t.state.totalScore) ∨
      (g.run b.player ⟨s, memory⟩ = (t, .halted) ∧
        r = record u t.state (.state (g.save t.state)) ∧ status = .suspended) := by
  rw [play] at h
  obtain ⟨memory, -, h⟩ := bind_ok h
  refine ⟨memory, (g.run b.player ⟨s, memory⟩).1, ?_⟩
  cases hrun : g.run b.player ⟨s, memory⟩ with
  | mk t outcome =>
    rw [hrun] at h
    dsimp only at h ⊢
    cases hthrown : b.thrown t.memory with
    | some p =>
      rw [hthrown] at h
      cases h
    | none =>
      rw [hthrown] at h
      cases outcome with
      | finished =>
        cases h
        exact .inl ⟨rfl, rfl, rfl⟩
      | halted =>
        cases h
        exact .inr ⟨rfl, rfl, rfl⟩
      | failed e => cases h

theorem play_made {g : Game} {s : State} {r : UnitRecord} {status : UnitStatus}
    (h : b.play u g s = .ok (r, status)) : Made r status := by
  obtain ⟨memory, t, ⟨-, rfl, rfl⟩ | ⟨-, rfl, rfl⟩⟩ := play_ok h
  · exact .completed rfl
  · exact .suspended rfl

theorem outcome_ok {stored : Option UnitRecord} {r : UnitRecord} {status : UnitStatus}
    (h : b.outcome u stored = .ok (r, status)) :
    ∃ g s, b.start u stored = .ok (g, s) ∧ b.play u g s = .ok (r, status) := by
  rw [outcome] at h
  obtain ⟨⟨g, s⟩, hstart, h⟩ := bind_ok h
  exact ⟨g, s, mapError_ok hstart, h⟩

theorem outcome_made {stored : Option UnitRecord} {r : UnitRecord} {status : UnitStatus}
    (h : b.outcome u stored = .ok (r, status)) : Made r status := by
  obtain ⟨g, s, -, h⟩ := outcome_ok h
  exact play_made h

/-- A unit of which nothing is stored plays a new game. -/
theorem outcome_new {judge : Judge} {g : Game} (hj : b.judges ⟨b.model, u.seed⟩ = .ok judge)
    (hg : Game.load u.game.program u.game.config judge = .ok g) :
    b.outcome u none = b.play u g g.initial := by
  have hnew : b.newGame u = .ok (g, g.initial) := by
    simp only [newGame, hj, Except.mapError, bind, Except.bind, hg, pure, Except.pure]
  simp only [outcome, start, hnew, Except.mapError, bind, Except.bind]

section

variable {g : Game} {s : State} {memory : σ} {t : Session σ}

theorem play_finished (hm : b.seat u.player u.seed = .ok memory)
    (h : g.run b.player ⟨s, memory⟩ = (t, .finished)) (ht : b.thrown t.memory = none) :
    b.play u g s =
      .ok (record u t.state (.results t.state.completed), .completed t.state.totalScore) := by
  simp only [play, hm, bind, Except.bind, h, ht, pure, Except.pure]

theorem play_halted (hm : b.seat u.player u.seed = .ok memory)
    (h : g.run b.player ⟨s, memory⟩ = (t, .halted)) (ht : b.thrown t.memory = none) :
    b.play u g s = .ok (record u t.state (.state (g.save t.state)), .suspended) := by
  simp only [play, hm, bind, Except.bind, h, ht, pure, Except.pure]

end

theorem filter_isComplete {stored : Option UnitRecord} :
    stored.filter UnitRecord.isComplete = none ↔ stored.any UnitRecord.isComplete = false := by
  cases stored with
  | none => simp
  | some r => cases hr : r.isComplete <;> simp [Option.filter, hr]

/-- What a slot answers to a record where there is no complete one. -/
theorem answer_of_notComplete {stored : Option UnitRecord} (h : slot.found = .ok stored)
    (hstored : stored.any UnitRecord.isComplete = false) :
    slot.answer = slot.room.map fun _ => true := by
  rw [Slot.answer, h]
  simp [hstored]

theorem filter_of_isComplete {r : UnitRecord} (hr : r.isComplete = true) :
    (some r).filter UnitRecord.isComplete = some r :=
  Option.filter_eq_some_iff.mpr ⟨rfl, hr⟩

theorem visit_of_isComplete {r : UnitRecord} (h : slot.found = .ok (some r))
    (hr : r.isComplete = true) : b.visit task u slot = (.skipped r.totalScore, slot) := by
  rw [visit, h]
  dsimp only
  rw [filter_of_isComplete hr]

/-- Where there is no complete record, what comes of the unit is put in the slot if there is
room. -/
theorem visit_of_notComplete {stored : Option UnitRecord} (h : slot.found = .ok stored)
    (hstored : stored.any UnitRecord.isComplete = false) :
    b.visit task u slot =
      match b.outcome u stored with
      | .error e => (e.status task, slot)
      | .ok (r, status) =>
        match slot.room with
        | .error e => (.failed e, slot)
        | .ok _ => (status, { slot with found := .ok (some r) }) := by
  have hanswer := answer_of_notComplete h hstored
  rw [visit, h]
  dsimp only
  rw [filter_isComplete.mpr hstored]
  dsimp only
  cases b.outcome u stored with
  | error e => rfl
  | ok made =>
    obtain ⟨r, status⟩ := made
    dsimp only
    cases hroom : slot.room with
    | error e =>
      rw [hroom] at hanswer
      rw [hanswer]
      rfl
    | ok _ =>
      rw [hroom] at hanswer
      rw [hanswer, Slot.put_of_true hanswer, hroom]
      rfl

theorem visit_visits (b : Batch σ) (task : Nat) (u : WorkUnit) (slot : Slot) :
    b.Visits task u slot (b.visit task u slot).1 (b.visit task u slot).2 := by
  cases hfound : slot.found with
  | error e =>
    rw [visit, hfound]
    exact .failed
  | ok stored =>
    cases hstored : stored.any UnitRecord.isComplete with
    | true =>
      obtain ⟨r, rfl, hr⟩ := (Option.any_eq_true _ _).mp hstored
      rw [visit_of_isComplete hfound hr]
      exact .skipped hfound hr
    | false =>
      rw [visit_of_notComplete hfound hstored]
      cases houtcome : b.outcome u stored with
      | error e =>
        cases e with
        | error e => exact .failed
        | panic p => exact .panicked
      | ok made =>
        dsimp only
        split
        · exact .failed
        · exact .saved hfound houtcome

theorem Made.inTask {r : UnitRecord} {status : UnitStatus} (h : Made r status) (task : Nat) :
    status.inTask task = status := by
  cases h <;> rfl

/-- A visit in another task tells its number if something breaks down, and else the same. -/
theorem visit_inTask (b : Batch σ) (i j : Nat) (u : WorkUnit) (slot : Slot) :
    b.visit j u slot = ((b.visit i u slot).1.inTask j, (b.visit i u slot).2) := by
  rw [visit, visit]
  cases slot.found with
  | error e => rfl
  | ok stored =>
    dsimp only
    cases stored.filter UnitRecord.isComplete with
    | some r => rfl
    | none =>
      dsimp only
      cases houtcome : b.outcome u stored with
      | error e => cases e <;> rfl
      | ok made =>
        obtain ⟨r, status⟩ := made
        dsimp only
        cases slot.answer with
        | error e => rfl
        | ok taken => rw [(outcome_made houtcome).inTask]

/-- Running a unit on a store: what is loaded is played if it is not complete, and what comes of it
is saved. -/
theorem runUnit_run {store : Store (StateM S)} {s : S}
    {found : Except BatchError (Option UnitRecord)} :
    (store.load u.key).run s = (found, s) → (b.runUnit store task u).run s =
      match found with
      | .error e => (.failed e, s)
      | .ok stored =>
        match stored.filter UnitRecord.isComplete with
        | some r => (.skipped r.totalScore, s)
        | none =>
          match b.outcome u stored with
          | .error e => (e.status task, s)
          | .ok (r, status) =>
            (match ((store.save u.key r).run s).1 with
              | .error e => .failed e
              | .ok _ => status, ((store.save u.key r).run s).2) := by
  intro hload
  rw [runUnit, StateT.run_bind, hload]
  cases found with
  | error e => rfl
  | ok stored =>
    dsimp only [bind]
    cases stored.filter UnitRecord.isComplete with
    | some r => rfl
    | none =>
      dsimp only
      cases b.outcome u stored with
      | error e => rfl
      | ok made =>
        obtain ⟨r, status⟩ := made
        dsimp only
        show StateT.run (store.save u.key r >>= _) s = _
        rw [StateT.run_bind]
        dsimp only [bind]
        cases (store.save u.key r).run s with
        | mk answer s' => cases answer <;> rfl

section

variable {store : Store (StateM S)} {slots : S → String → Slot} {kept : UnitRecord → Prop} {s : S}

theorem runUnit_status (hk : store.Keyed slots kept) (b : Batch σ) (task : Nat) (u : WorkUnit)
    (s : S) : ((b.runUnit store task u).run s).1 = (b.visit task u (slots s u.key)).1 := by
  rw [runUnit_run (hk.load u s), visit]
  cases (slots s u.key).found with
  | error e => rfl
  | ok stored =>
    dsimp only
    cases stored.filter UnitRecord.isComplete with
    | some r => rfl
    | none =>
      dsimp only
      cases b.outcome u stored with
      | error e => rfl
      | ok made =>
        dsimp only
        rw [hk.save_answer]
        cases (slots s u.key).answer <;> rfl

/-- A unit leaves its slot as its visit tells. -/
theorem runUnit_own (hk : store.Keyed slots kept) (task : Nat)
    (hu : b.Makes kept u (slots s u.key).found) :
    slots ((b.runUnit store task u).run s).2 u.key = (b.visit task u (slots s u.key)).2 := by
  rw [runUnit_run (hk.load u s), visit]
  cases hfound : (slots s u.key).found with
  | error e => rfl
  | ok stored =>
    dsimp only
    cases hfilter : stored.filter UnitRecord.isComplete with
    | some r => rfl
    | none =>
      dsimp only
      cases houtcome : b.outcome u stored with
      | error e => rfl
      | ok made =>
        obtain ⟨r, status⟩ := made
        have hr : kept r := hu stored r status hfound (filter_isComplete.mp hfilter) houtcome
        dsimp only
        rw [hk.save_put u r s hr]
        cases hanswer : (slots s u.key).answer with
        | error e => rw [Slot.put_of_ne (by rw [hanswer]; simp)]
        | ok taken => rfl

/-- A unit leaves every slot of another key as it is, also if it fails. -/
theorem runUnit_other (hk : store.Keyed slots kept) {v : WorkUnit} (hne : u.key ≠ v.key) :
    slots ((b.runUnit store task u).run s).2 v.key = slots s v.key := by
  rw [runUnit_run (hk.load u s)]
  cases (slots s u.key).found with
  | error e => rfl
  | ok stored =>
    dsimp only
    cases stored.filter UnitRecord.isComplete with
    | some r => rfl
    | none =>
      dsimp only
      cases b.outcome u stored with
      | error e => rfl
      | ok made => exact hk.save_other u v made.1 s hne

theorem run_cons (b : Batch σ) (store : Store (StateM S)) (j : Job) (jobs : List Job) (s : S) :
    (b.run store (j :: jobs)).run s =
      (j.unit.report ((b.runUnit store j.task j.unit).run s).1 ::
        ((b.run store jobs).run ((b.runUnit store j.task j.unit).run s).2).1,
        ((b.run store jobs).run ((b.runUnit store j.task j.unit).run s).2).2) := by
  rw [run, List.mapM_cons]
  rfl

/-- A run leaves the slots of other units as they are. -/
theorem run_other (hk : store.Keyed slots kept) {jobs : List Job} {v : WorkUnit}
    (hv : v.key ∉ jobs.map Job.key) :
    slots ((b.run store jobs).run s).2 v.key = slots s v.key := by
  induction jobs generalizing s with
  | nil => rfl
  | cons j jobs ih =>
    rw [List.map_cons, List.mem_cons, not_or] at hv
    rw [run_cons, ih hv.2, runUnit_other hk (Ne.symm hv.1)]

/-- In a run of units with different keys each one is told of as if it ran alone. -/
theorem run_reports (hk : store.Keyed slots kept) {jobs : List Job}
    (hn : (jobs.map Job.key).Nodup) :
    ((b.run store jobs).run s).1 =
      jobs.map fun j => j.unit.report (b.visit j.task j.unit (slots s j.key)).1 := by
  induction jobs generalizing s with
  | nil => rfl
  | cons j jobs ih =>
    rw [List.map_cons, List.nodup_cons] at hn
    have hrest : ∀ i ∈ jobs,
        slots ((b.runUnit store j.task j.unit).run s).2 i.key = slots s i.key := by
      intro i hi
      refine runUnit_other hk fun (he : j.key = i.key) => hn.1 ?_
      exact he ▸ List.mem_map_of_mem hi
    have hmap : (jobs.map fun i => i.unit.report (b.visit i.task i.unit
        (slots ((b.runUnit store j.task j.unit).run s).2 i.key)).1) =
        jobs.map fun i => i.unit.report (b.visit i.task i.unit (slots s i.key)).1 :=
      List.map_congr_left fun i hi => by rw [hrest i hi]
    rw [run_cons, List.map_cons, runUnit_status hk, ih hn.2, hmap]
    rfl

/-- In a run of units with different keys each one leaves its slot as if it ran alone. -/
theorem run_own (hk : store.Keyed slots kept) {jobs : List Job} {j : Job}
    (hn : (jobs.map Job.key).Nodup) (hj : j ∈ jobs)
    (hmakes : b.Makes kept j.unit (slots s j.key).found) :
    slots ((b.run store jobs).run s).2 j.key = (b.visit j.task j.unit (slots s j.key)).2 := by
  induction jobs generalizing s with
  | nil => cases hj
  | cons i jobs ih =>
    rw [List.map_cons, List.nodup_cons] at hn
    rw [run_cons]
    obtain rfl | hj := List.mem_cons.mp hj
    · have hrest : slots ((b.run store jobs).run ((b.runUnit store j.task j.unit).run s).2).2
          j.key = slots ((b.runUnit store j.task j.unit).run s).2 j.key := run_other hk hn.1
      exact hrest.trans (runUnit_own hk j.task hmakes)
    · have hne : i.key ≠ j.key := fun he => hn.1 (he ▸ List.mem_map_of_mem hj)
      have hslot : slots ((b.runUnit store i.task i.unit).run s).2 j.key = slots s j.key :=
        runUnit_other hk hne
      rw [← hslot] at hmakes
      rw [ih hn.2 hj hmakes, hslot]

end

end Batch

end EntropyGame
