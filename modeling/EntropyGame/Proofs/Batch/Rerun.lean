import EntropyGame.Proofs.Batch.Isolation

namespace EntropyGame

variable {σ S : Type}

/-- How a unit ends when it runs again, in a task of its own: it is skipped with the same score once
it was completed, and fails as before if it failed. If something broke down, the same is thrown, and
told of the new task. Nothing is told of a unit that was suspended. -/
def UnitStatus.Again (task : Nat) (next : UnitStatus) : UnitStatus → Prop
  | completed score | skipped score => next = .skipped score
  | failed e => next = .failed e
  | panicked _ p => next = .panicked task p
  | suspended => True

/-- The same unit in another task. -/
def Job.inTask (task : Nat) (j : Job) : Job :=
  { j with task }

namespace Batch

/-- A run of units that was made once may be made again. -/
structure Repeats (b : Batch σ) (store : Store (StateM S)) (s : S) (jobs : List Job) : Prop where
  /-- Whatever the tasks are the second time, one report is given for each unit in its turn both
  times, and the second one tells that it ended as before, but what was completed is skipped. -/
  reports (task : Job → Nat) : ∃ first next : Job → UnitStatus,
    ((b.run store jobs).run s).1 = jobs.map (fun j => j.unit.report (first j)) ∧
    ((b.run store (jobs.map fun j => j.inTask (task j))).run ((b.run store jobs).run s).2).1 =
      jobs.map (fun j => j.unit.report (next j)) ∧
    ∀ j ∈ jobs, (next j).Again (task j) (first j)
  /-- In the same tasks a unit that failed gives the same report again. -/
  fails (r : UnitReport) : r ∈ ((b.run store jobs).run s).1 → r.status.isFailed = true →
    r ∈ ((b.run store jobs).run ((b.run store jobs).run s).2).1
  /-- Where what is found of a unit with a score is as the first run left it, the unit is skipped at
  once, whatever the players, models and judges are: none is made for it. -/
  skips (j : Job) (score : Float) (t : S) : j ∈ jobs →
    j.unit.report (.completed score) ∈ ((b.run store jobs).run s).1 ∨
      j.unit.report (.skipped score) ∈ ((b.run store jobs).run s).1 →
    store.found t j.key = store.found ((b.run store jobs).run s).2 j.key →
    ∀ {τ : Type} (b' : Batch τ) (task : Nat),
      (b'.runUnit store task j.unit).run t = (.skipped score, t)
  /-- If no unit was suspended, what is found of every unit stays. -/
  found (task : Job → Nat) (v : WorkUnit) :
    (∀ r ∈ ((b.run store jobs).run s).1, r.status ≠ .suspended) →
    store.found ((b.run store (jobs.map fun j => j.inTask (task j))).run
        ((b.run store jobs).run s).2).2 v.key =
      store.found ((b.run store jobs).run s).2 v.key

variable {b : Batch σ} {u : WorkUnit} {slot : Slot} {task : Nat}

/-- A unit that is skipped is not seated. -/
theorem runUnit_of_isComplete {store : Store (StateM S)} {slots : S → String → Slot}
    {kept : UnitRecord → Prop} (hk : store.Keyed slots kept) {t : S} {r : UnitRecord}
    (h : (slots t u.key).found = .ok (some r)) (hr : r.isComplete = true) :
    (b.runUnit store task u).run t = (.skipped r.totalScore, t) := by
  rw [runUnit_run (hk.load u t), h]
  dsimp only
  rw [filter_of_isComplete hr]

/-- What is told of a visit with a score is there in the end. -/
theorem Visits.isComplete {status : UnitStatus} {slot' : Slot}
    (h : b.Visits task u slot status slot')
    {score : Float} (hs : status = .completed score ∨ status = .skipped score) :
    ∃ r, slot'.found = .ok (some r) ∧ r.isComplete = true ∧ r.totalScore = score := by
  cases h with
  | failed => simp at hs
  | panicked => simp at hs
  | skipped hfound hr => exact ⟨_, hfound, hr, by simpa using hs⟩
  | saved hfound houtcome =>
    cases outcome_made houtcome with
    | completed hr => exact ⟨_, rfl, hr, by simpa using hs⟩
    | suspended => simp at hs

/-- A visit that fails leaves the slot, also if something breaks down. -/
theorem Visits.of_isFailed {status : UnitStatus} {slot' : Slot}
    (h : b.Visits task u slot status slot') (hs : status.isFailed = true) : slot' = slot := by
  cases h with
  | failed => rfl
  | panicked => rfl
  | skipped => cases hs
  | saved hfound houtcome => cases outcome_made houtcome <;> cases hs

/-- A unit whose visit has a score is skipped with it by the next one. -/
theorem visit_of_score {score : Float} {next : Nat}
    (hs : (b.visit task u slot).1 = .completed score ∨ (b.visit task u slot).1 = .skipped score) :
    b.visit next u (b.visit task u slot).2 = (.skipped score, (b.visit task u slot).2) := by
  obtain ⟨r, hfound, hr, rfl⟩ := (visit_visits b task u slot).isComplete hs
  exact visit_of_isComplete hfound hr

/-- A unit whose visit fails comes to the same in the next one. -/
theorem visit_of_isFailed {next : Nat} (hs : (b.visit task u slot).1.isFailed = true) :
    b.visit next u (b.visit task u slot).2 =
      ((b.visit task u slot).1.inTask next, (b.visit task u slot).2) := by
  rw [(visit_visits b task u slot).of_isFailed hs, visit_inTask b task next,
    (visit_visits b task u slot).of_isFailed hs]

/-- A unit whose visit is over is skipped by the next one, or fails on what it failed on. -/
theorem visit_again (b : Batch σ) (task next : Nat) (u : WorkUnit) (slot : Slot) :
    (b.visit next u (b.visit task u slot).2).1.Again next (b.visit task u slot).1 ∧
      ((b.visit task u slot).1 ≠ .suspended →
        (b.visit next u (b.visit task u slot).2).2 = (b.visit task u slot).2) := by
  cases hs : (b.visit task u slot).1 with
  | completed score =>
    rw [visit_of_score (.inl hs)]
    exact ⟨rfl, fun _ => rfl⟩
  | skipped score =>
    rw [visit_of_score (.inr hs)]
    exact ⟨rfl, fun _ => rfl⟩
  | suspended => exact ⟨trivial, fun hne => absurd rfl hne⟩
  | failed e =>
    rw [visit_of_isFailed (by rw [hs]; rfl), hs]
    exact ⟨rfl, fun _ => rfl⟩
  | panicked i p =>
    rw [visit_of_isFailed (by rw [hs]; rfl), hs]
    exact ⟨rfl, fun _ => rfl⟩

/-- What comes of a unit is of the same kind when it runs again. -/
theorem Makes.again {kept : UnitRecord → Prop} (h : b.Makes kept u slot.found)
    (hs : (b.visit task u slot).1 ≠ .suspended) : b.Makes kept u (b.visit task u slot).2.found := by
  have hv := visit_visits b task u slot
  have complete : ∀ score, (b.visit task u slot).1 = .completed score ∨
      (b.visit task u slot).1 = .skipped score → b.Makes kept u (b.visit task u slot).2.found := by
    intro score hscore stored r status hstored hnot
    obtain ⟨r', hfound, hr', -⟩ := hv.isComplete hscore
    rw [hfound, Except.ok.injEq] at hstored
    subst hstored
    simp [hr'] at hnot
  cases hstatus : (b.visit task u slot).1 with
  | completed score => exact complete score (.inl hstatus)
  | skipped score => exact complete score (.inr hstatus)
  | suspended => exact absurd hstatus hs
  | failed e => rwa [hv.of_isFailed (by rw [hstatus]; rfl)]
  | panicked i p => rwa [hv.of_isFailed (by rw [hstatus]; rfl)]

theorem repeats {store : Store (StateM S)} {slots : S → String → Slot}
    {kept : UnitRecord → Prop} (hk : store.Keyed slots kept) {s : S} {jobs : List Job}
    (hn : (jobs.map Job.key).Nodup)
    (hmakes : ∀ j ∈ jobs, b.Makes kept j.unit (slots s j.key).found) :
    b.Repeats store s jobs := by
  have hown : ∀ j ∈ jobs,
      slots ((b.run store jobs).run s).2 j.key = (b.visit j.task j.unit (slots s j.key)).2 :=
    fun j hj => run_own hk hn hj (hmakes j hj)
  have hfirst := run_reports hk (b := b) (s := s) hn
  -- the second run has the same units, in other tasks
  have hnext : ∀ task : Job → Nat,
      ((jobs.map fun j => j.inTask (task j)).map Job.key).Nodup := by
    intro task
    rw [List.map_map]
    exact hn
  refine ⟨?_, ?_, ?_, ?_⟩
  · intro task
    refine ⟨fun j => (b.visit j.task j.unit (slots s j.key)).1, fun j =>
      (b.visit (task j) j.unit (b.visit j.task j.unit (slots s j.key)).2).1, hfirst, ?_, ?_⟩
    · rw [run_reports hk (hnext task), List.map_map]
      refine List.map_congr_left fun j hj => ?_
      have hslot := hown j hj
      rw [Job.key] at hslot
      simp only [Function.comp_apply, Job.inTask, Job.key, hslot]
    · intro j _
      exact (visit_again b j.task (task j) j.unit (slots s j.key)).1
  · intro r hr hfailed
    rw [hfirst] at hr
    obtain ⟨j, hj, rfl⟩ := List.mem_map.mp hr
    rw [run_reports hk hn, List.mem_map]
    refine ⟨j, hj, ?_⟩
    rw [hown j hj, (visit_visits b j.task j.unit (slots s j.key)).of_isFailed hfailed]
  · intro j score t hj hreport hfound τ b' task
    -- units with different keys have different reports
    have hstatus : ∀ status, j.unit.report status ∈ ((b.run store jobs).run s).1 →
        (b.visit j.task j.unit (slots s j.key)).1 = status := by
      intro status hmem
      rw [hfirst] at hmem
      obtain ⟨i, hi, heq⟩ := List.mem_map.mp hmem
      have hij : i = j := List.inj_on_of_nodup_map hn hi hj (congrArg UnitReport.key heq)
      subst hij
      exact congrArg UnitReport.status heq
    have hscore := hreport.imp (hstatus _) (hstatus _)
    obtain ⟨r, hr, hcomplete, rfl⟩ :=
      (visit_visits b j.task j.unit (slots s j.key)).isComplete hscore
    have hsame := (hk.found t j.unit).symm.trans (hfound.trans (hk.found _ j.unit))
    refine runUnit_of_isComplete hk (hsame.trans ?_) hcomplete
    exact (congrArg Slot.found (hown j hj)).trans hr
  · intro task v hs
    by_cases hv : v.key ∈ jobs.map Job.key
    · obtain ⟨j, hj, hkey⟩ := List.mem_map.mp hv
      have hne : (b.visit j.task j.unit (slots s j.key)).1 ≠ .suspended := by
        refine hs (j.unit.report (b.visit j.task j.unit (slots s j.key)).1) ?_
        rw [hfirst]
        exact List.mem_map_of_mem hj
      have hagain : b.Makes kept j.unit (slots ((b.run store jobs).run s).2 j.key).found := by
        rw [hown j hj]
        exact (hmakes j hj).again hne
      have hlast := run_found hk (hnext task) (List.mem_map_of_mem hj) hagain
      rw [← hkey]
      refine hlast.trans (Eq.trans (congrArg Slot.found ?_) (hk.found _ j.unit).symm)
      have hslot := hown j hj
      rw [Job.key] at hslot
      simp only [Job.inTask, Job.key, hslot]
      exact (visit_again b j.task (task j) j.unit (slots s j.unit.key)).2 hne
    · refine run_found_other hk ?_
      rw [List.map_map]
      exact hv

end Batch

end EntropyGame
