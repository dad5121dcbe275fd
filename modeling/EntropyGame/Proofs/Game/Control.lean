import EntropyGame.Proofs.Game.Change

namespace EntropyGame

namespace Game

/-- The beacons and counters of a state belong to lines of the right kinds. -/
structure Marked (g : Game) (s : State) : Prop where
  start : s.roundStarted = true → s.beacons.get? startBeacon = some 0
  flag : ∀ name ∈ flags, ∀ line, s.beacons.get? name = some line →
    g.program.At line (.beacon name)
  elicit : ∀ line, s.beacons.get? previousElicit = some line →
    ∃ targets budget, g.program.At line (.elicit targets budget)
  beacon : ∀ name line, s.beacons.get? name = some line →
    name = startBeacon ∨ name = previousElicit ∨ name ∈ flags
  replay : ∀ line n, s.replayCounters.get? line = some n →
    1 ≤ n ∧ ∃ name count, g.program.At line (.replay name count)
  ensure : ∀ line n, s.ensureFailures.get? line = some n →
    1 ≤ n ∧ ∃ conditions, g.program.At line (.ensure conditions)

/-- A state stands at an `elicit` that waits for the player: the request for its target at `next`
was the last event, and the line may run again. -/
structure Waiting (g : Game) (s : State) (p : Pending) : Prop where
  line : p.line = s.line
  requested : p.requested = true
  started : s.roundStarted = true
  round : s.round < g.config.rounds
  steps : s.steps < g.config.maxSteps
  elicit : s.beacons.get? previousElicit = some s.line
  asked : ∃ targets budget r n, g.program.At s.line (.elicit targets budget) ∧
    targets[p.next]? = some r ∧ s.history.back? = some (.elicitRequest s.line r.name n)

/-- What is true of every state that a game comes to. -/
structure Controlled (g : Game) (s : State) (halted : Bool) : Prop where
  line_le : s.line ≤ g.program.size
  marked : g.Marked s
  pending : s.pending.isSome = halted
  waiting : ∀ p, s.pending = some p → g.Waiting s p

theorem Marked.congr {g : Game} {s t : State} (h : g.Marked s) (hr : t.roundStarted = s.roundStarted)
    (hb : t.beacons = s.beacons) (hc : t.replayCounters = s.replayCounters)
    (hf : t.ensureFailures = s.ensureFailures) : g.Marked t := by
  constructor
  · rw [hr, hb]
    exact h.start
  · rw [hb]
    exact h.flag
  · rw [hb]
    exact h.elicit
  · rw [hb]
    exact h.beacon
  · rw [hc]
    exact h.replay
  · rw [hf]
    exact h.ensure

theorem Marked.setElicit {g : Game} {s : State} (h : g.Marked s) {line : Nat}
    {targets : List Register} {budget : Expr} (hl : g.program.At line (.elicit targets budget)) :
    g.Marked (s.setBeacon previousElicit line) where
  start hs := by
    rw [State.setBeacon, OrderedMap.get?_insert, if_neg (by decide)]
    exact h.start hs
  flag name hname l hb := by
    have hne : name ≠ previousElicit := by
      rintro rfl
      revert hname
      decide
    rw [State.setBeacon, OrderedMap.get?_insert, if_neg hne] at hb
    exact h.flag name hname l hb
  elicit l hb := by
    rw [State.setBeacon, OrderedMap.get?_insert, if_pos rfl, Option.some.injEq] at hb
    exact ⟨targets, budget, hb ▸ hl⟩
  beacon name l hb := by
    rw [State.setBeacon, OrderedMap.get?_insert] at hb
    split at hb
    · rename_i hname
      exact .inr (.inl hname)
    · exact h.beacon name l hb
  replay := h.replay
  ensure := h.ensure

theorem Marked.setFlag {g : Game} {s : State} (h : g.Marked s) {line : Nat} {flag : String}
    (hflag : flag ∈ flags) (hl : g.program.At line (.beacon flag)) :
    g.Marked (s.setBeacon flag line) where
  start hs := by
    have hne : startBeacon ≠ flag := by
      rintro rfl
      revert hflag
      decide
    rw [State.setBeacon, OrderedMap.get?_insert, if_neg hne]
    exact h.start hs
  flag name hname l hb := by
    rw [State.setBeacon, OrderedMap.get?_insert] at hb
    split at hb
    · rename_i he
      rw [Option.some.injEq] at hb
      rw [he, ← hb]
      exact hl
    · exact h.flag name hname l hb
  elicit l hb := by
    have hne : previousElicit ≠ flag := by
      rintro rfl
      revert hflag
      decide
    rw [State.setBeacon, OrderedMap.get?_insert, if_neg hne] at hb
    exact h.elicit l hb
  beacon name l hb := by
    rw [State.setBeacon, OrderedMap.get?_insert] at hb
    split at hb
    · rename_i hname
      exact .inr (.inr (hname ▸ hflag))
    · exact h.beacon name l hb
  replay := h.replay
  ensure := h.ensure

theorem Runs.marked {g : Game} {line : Nat} {s t : State} {i : Instruction} {flow : Flow}
    (h : Runs g line s i t flow) (hs : g.Marked s) (hl : g.program.At line i) : g.Marked t := by
  cases h with
  | assign _ hw =>
    rw [writeAll_frame hw]
    exact hs.congr rfl rfl rfl rfl
  | reveal => exact hs.congr rfl rfl rfl rfl
  | elicit _ ha =>
    rw [ha.frame]
    exact (hs.setElicit hl).congr rfl rfl rfl rfl
  | passed =>
    exact { hs with ensure := OrderedMap.forall_erase hs.ensure line }
  | retried =>
    exact { hs with ensure := OrderedMap.forall_insert hs.ensure ⟨Nat.succ_pos _, _, hl⟩ }
  | reward => exact hs.congr rfl rfl rfl rfl
  | beacon hname => exact hs.setFlag hname hl
  | fellThrough => exact { hs with replay := OrderedMap.forall_erase hs.replay line }
  | replayed =>
    exact { hs with replay := OrderedMap.forall_insert hs.replay ⟨Nat.succ_pos _, _, _, hl⟩ }

/-- All beacons but `start` stand on instructions. -/
theorem Marked.beacon_at {g : Game} {s : State} (hs : g.Marked s) (ho : s.roundStarted = true)
    {name : String} {line : Nat} (hb : s.beacons.get? name = some line) :
    name = startBeacon ∧ line = 0 ∨ ∃ i, g.program.At line i := by
  obtain rfl | rfl | hname := hs.beacon name line hb
  · rw [hs.start ho, Option.some.injEq] at hb
    exact .inl ⟨rfl, hb.symm⟩
  · obtain ⟨_, _, hl⟩ := hs.elicit line hb
    exact .inr ⟨_, hl⟩
  · exact .inr ⟨_, hs.flag name hname line hb⟩

/-- Jumps lead to lines of the program or to its end, as beacons stand on lines. -/
theorem Marked.target_le {g : Game} {s : State} (hs : g.Marked s) (ho : s.roundStarted = true)
    {name : String} {target : Nat} (hb : s.beacons.get? name = some target) :
    replayTarget name target ≤ g.program.size := by
  rw [replayTarget]
  obtain ⟨rfl, rfl⟩ | ⟨i, hl⟩ := hs.beacon_at ho hb
  · rw [if_pos rfl]
    exact Nat.zero_le _
  · split
    · exact Nat.le_of_lt hl.lt
    · exact hl.lt

/-- An `ensure` jumps to an `elicit`, and a replay to a beacon or the line after it. -/
theorem Runs.target_le {g : Game} {line target : Nat} {s t : State} {i : Instruction}
    (h : Runs g line s i t (.jump target)) (hs : g.Marked s) (hl : g.program.At line i)
    (ho : s.roundStarted = true) : target ≤ g.program.size := by
  generalize hf : Flow.jump target = flow at h
  cases h with
  | retried _ _ hb _ =>
    cases hf
    obtain ⟨_, _, ht⟩ := hs.elicit _ hb
    exact Nat.le_of_lt ht.lt
  | replayed _ _ hb =>
    cases hf
    exact hs.target_le ho hb
  | elicit => split at hf <;> cases hf
  | _ => cases hf

/-- Nothing is pending where no `elicit` stands. -/
theorem Controlled.pending_eq_none {g : Game} {s : State} {halted : Bool}
    (hs : g.Controlled s halted)
    (hl : ∀ targets budget, ¬ g.program.At s.line (.elicit targets budget)) : s.pending = none := by
  cases hp : s.pending with
  | none => rfl
  | some p =>
    obtain ⟨targets, budget, _, _, h, -⟩ := (hs.waiting p hp).asked
    exact absurd h (hl targets budget)

/-- No halt leaves a game where no `elicit` stands. -/
theorem Controlled.halted_eq_false {g : Game} {s : State} {halted : Bool}
    (hs : g.Controlled s halted)
    (hl : ∀ targets budget, ¬ g.program.At s.line (.elicit targets budget)) : halted = false := by
  rw [← hs.pending, hs.pending_eq_none hl]
  rfl

/-- Where an interrupted `elicit` begins again, its last request is still the last event. -/
theorem progress_announced {g : Game} {s : State} {halted : Bool} (hs : g.Controlled s halted)
    {targets : List Register} {budget : Expr} (hl : g.program.At s.line (.elicit targets budget)) :
    (s.progress s.line).requested = true →
      ∃ r n, targets[(s.progress s.line).next]? = some r ∧
        s.history.back? = some (.elicitRequest s.line r.name n) := by
  intro hr
  cases hp : s.pending with
  | none => simp [State.progress, hp] at hr
  | some p =>
    have hw := hs.waiting p hp
    obtain ⟨_, _, r, n, hl', hn, hh⟩ := hw.asked
    have he : s.progress s.line = p := by simp [State.progress, hp, hw.line]
    have hi := hl.eq hl'
    simp only [Instruction.elicit.injEq] at hi
    rw [he, hi.1]
    exact ⟨r, n, hn, hh⟩

/-- A halt keeps the position of the target it is at, whose request is the last event. -/
theorem Asked.pending {g : Game} {line budget : Nat} {rs : List Register} {position : Nat}
    {announced halted : Bool} {s t : State}
    (h : Asked g line budget rs position announced s t halted)
    (ha : announced = true →
      ∃ r n, rs[0]? = some r ∧ s.history.back? = some (.elicitRequest line r.name n)) :
    (halted = false → t.pending = s.pending) ∧
      (halted = true → ∃ k r n, t.pending = some ⟨line, position + k, true⟩ ∧ rs[k]? = some r ∧
        t.history.back? = some (.elicitRequest line r.name n)) := by
  induction h with
  | done => simp
  | @halted r rs position announced s =>
    refine ⟨by simp, fun _ => ⟨0, r, ?_⟩⟩
    cases announced with
    | false => exact ⟨budget, rfl, rfl, by simp [State.announce, State.record]⟩
    | true =>
      obtain ⟨r', n, hr, hn⟩ := ha rfl
      simp only [List.getElem?_cons_zero, Option.some.injEq] at hr
      exact ⟨n, rfl, rfl, hr ▸ hn⟩
  | @answered r rs position announced _ s t _ _ _ _ ih =>
    obtain ⟨hf, ht⟩ := ih (by simp)
    constructor
    · intro hh
      rw [hf hh]
      cases announced <;> rfl
    · intro hh
      obtain ⟨k, r', n, hp, hr, hn⟩ := ht hh
      refine ⟨k + 1, r', n, ?_, by simpa using hr, hn⟩
      rw [hp, Nat.add_assoc, Nat.add_comm 1 k]

/-- An instruction that does not halt leaves nothing pending that was not, and one that halts leaves
the state waiting. -/
theorem Runs.pending {g : Game} {s t : State} {halted : Bool} {i : Instruction} {flow : Flow}
    (h : Runs g s.line s i t flow) (hs : g.Controlled s halted) (hl : g.program.At s.line i)
    (hstarted : s.roundStarted = true) (hround : s.round < g.config.rounds)
    (hsteps : s.steps < g.config.maxSteps) :
    (flow ≠ .halt → t.pending = none) ∧
      (flow = .halt → ∃ p, t.pending = some p ∧ g.Waiting t p) := by
  have quiet : ∀ {t : State}, (∀ targets budget, i ≠ .elicit targets budget) →
      t.pending = s.pending → t.pending = none := by
    intro t hi ht
    rw [ht]
    exact hs.pending_eq_none fun targets budget h => hi targets budget (hl.eq h)
  cases h with
  | assign _ hw =>
    exact ⟨fun _ => quiet (by simp) (by rw [writeAll_frame hw]), by simp⟩
  | @elicit targets budget n _ halted hn ha =>
    have hr := ha.pending fun hr => by
      obtain ⟨r, k, hr, hk⟩ := progress_announced hs hl hr
      exact ⟨r, k, by rw [List.getElem?_drop, Nat.add_zero, hr], hk⟩
    cases halted with
    | false => exact ⟨fun _ => hr.1 rfl, by simp⟩
    | true =>
      refine ⟨by simp, fun _ => ?_⟩
      obtain ⟨k, r, m, hp, hk, hh⟩ := hr.2 rfl
      have hf := ha.frame
      refine ⟨_, hp, ?_⟩
      rw [List.getElem?_drop] at hk
      constructor
      · rw [hf]
        rfl
      · rfl
      · rw [hf]
        exact hstarted
      · rw [hf]
        exact hround
      · rw [hf]
        exact hsteps
      · rw [hf]
        simp [State.setBeacon, OrderedMap.get?_insert]
      · refine ⟨targets, budget, r, m, ?_, hk, ?_⟩
        · rw [hf]
          exact hl
        · rw [hh, hf]
          rfl
  | _ => exact ⟨fun _ => quiet (by simp) rfl, by simp⟩

/-- Instructions leave the line pointer, the round and the number of steps alone. -/
theorem Runs.clock {g : Game} {line : Nat} {s t : State} {i : Instruction} {flow : Flow}
    (h : Runs g line s i t flow) :
    t.line = s.line ∧ t.round = s.round ∧ t.roundStarted = s.roundStarted ∧ t.steps = s.steps := by
  cases h with
  | assign _ hw =>
    rw [writeAll_frame hw]
    exact ⟨rfl, rfl, rfl, rfl⟩
  | elicit _ ha =>
    rw [ha.frame]
    exact ⟨rfl, rfl, rfl, rfl⟩
  | _ => exact ⟨rfl, rfl, rfl, rfl⟩

theorem beginRound_marked (g : Game) (s : State) : g.Marked s.beginRound where
  start _ := by simp [State.beginRound, OrderedMap.get?_insert]
  flag name hname l hb := by
    have hne : name ≠ startBeacon := by
      rintro rfl
      revert hname
      decide
    simp [State.beginRound, OrderedMap.get?_insert, hne, OrderedMap.get?_empty] at hb
  elicit l hb := by
    have hne : previousElicit ≠ startBeacon := by decide
    simp [State.beginRound, OrderedMap.get?_insert, hne, OrderedMap.get?_empty] at hb
  beacon name l hb := by
    by_cases hname : name = startBeacon
    · exact .inl hname
    · simp [State.beginRound, OrderedMap.get?_insert, hname, OrderedMap.get?_empty] at hb
  replay l n hn := by simp [State.beginRound, OrderedMap.get?_empty] at hn
  ensure l n hn := by simp [State.beginRound, OrderedMap.get?_empty] at hn

theorem Change.controlled {g : Game} {s t : State} {halted halted' : Bool}
    (h : Change g s t halted') (hs : g.Controlled s halted) : g.Controlled t halted' := by
  cases h with
  | opened =>
    exact ⟨Nat.zero_le _, (beginRound_marked g s).congr rfl rfl rfl rfl, rfl,
      by simp [State.beginRound, State.record]⟩
  | closed hround hstarted hline =>
    have hp : s.pending = none := hs.pending_eq_none fun _ _ => Program.not_at_of_size_le hline _
    refine ⟨Nat.zero_le _, { hs.marked with start := by simp [State.finishRound] }, ?_, ?_⟩
    · simp [State.finishRound, State.record, hp]
    · simp [State.finishRound, State.record, hp]
  | blank _ _ hline =>
    have hp : s.pending = none := hs.pending_eq_none fun _ _ => Program.not_at_of_blank hline _
    have hlt : s.line < g.program.size := (Array.getElem?_eq_some_iff.mp hline).1
    exact ⟨hlt, hs.marked.congr rfl rfl rfl rfl, by simp [hp], by simp [hp]⟩
  | @next i u hround hstarted hline hsteps hruns =>
    have hp := (hruns.pending hs hline hstarted hround hsteps).1 (by simp)
    have hlt : s.line < g.program.size := Program.At.lt hline
    exact ⟨hlt, (hruns.marked hs.marked hline).congr rfl rfl rfl rfl, by simp [State.moveTo, hp],
      by simp [State.moveTo, hp]⟩
  | @jump i u target hround hstarted hline hsteps hruns htarget =>
    have hp := (hruns.pending hs hline hstarted hround hsteps).1 (by simp)
    exact ⟨htarget, (hruns.marked hs.marked hline).congr rfl rfl rfl rfl,
      by simp [State.moveTo, hp], by simp [State.moveTo, hp]⟩
  | halt hround hstarted hline hsteps hruns =>
    obtain ⟨p, hp, hw⟩ := (hruns.pending hs hline hstarted hround hsteps).2 rfl
    refine ⟨?_, hruns.marked hs.marked hline, by simp [hp], ?_⟩
    · rw [hruns.clock.1]
      exact hs.line_le
    · intro q hq
      rw [hp, Option.some.injEq] at hq
      exact hq ▸ hw

theorem initial_controlled (g : Game) : g.Controlled g.initial false where
  line_le := Nat.zero_le _
  marked :=
    { start := by simp [initial, State.initial]
      flag := by simp [initial, State.initial, OrderedMap.get?_empty]
      elicit := by simp [initial, State.initial, OrderedMap.get?_empty]
      beacon := by simp [initial, State.initial, OrderedMap.get?_empty]
      replay := by simp [initial, State.initial, OrderedMap.get?_empty]
      ensure := by simp [initial, State.initial, OrderedMap.get?_empty] }
  pending := rfl
  waiting := by simp [initial, State.initial]

theorem Controlled.congr {g g' : Game} {s : State} {halted : Bool} (h : g.Controlled s halted)
    (hp : g'.program = g.program) (hc : g'.config = g.config) : g'.Controlled s halted := by
  obtain ⟨hline, hm, hpend, hw⟩ := h
  refine ⟨hp ▸ hline, ⟨hm.start, ?_, ?_, hm.beacon, ?_, ?_⟩, hpend, fun p hpp => ?_⟩
  · rw [hp]
    exact hm.flag
  · rw [hp]
    exact hm.elicit
  · rw [hp]
    exact hm.replay
  · rw [hp]
    exact hm.ensure
  · obtain ⟨h1, h2, h3, h4, h5, h6, h7⟩ := hw p hpp
    exact ⟨h1, h2, h3, hc ▸ h4, hc ▸ h5, h6, hp ▸ h7⟩

end Game

/-- Resuming a game that was loaded gives it its program back. -/
theorem SavedGame.resume_save {g g' : Game} {s s' : State} {make : JudgeMaker} (hg : g.IsLoaded)
    (h : (g.save s).resume make = .ok (g', s')) :
    g'.program = g.program ∧ g'.config = g.config ∧ s' = s := by
  obtain ⟨hp, hc, _, hs, _⟩ := resume_ok h
  exact ⟨Except.ok.inj (hp.symm.trans hg), hc, hs⟩

theorem Reached.controlled {g : Game} {s : State} {halted : Bool} (h : Reached g s halted) :
    g.Controlled s halted := by
  induction h with
  | @new _ _ _ g => exact g.initial_controlled
  | advance _ ha ih => exact ((Game.advance_change ha).1 rfl).controlled ih
  | halt _ ha ih => exact ((Game.advance_change ha).2 rfl).controlled ih
  | resume hr hres ih =>
    obtain ⟨hp, hc, rfl⟩ := SavedGame.resume_save hr.isLoaded hres
    exact ih.congr hp hc

end EntropyGame
