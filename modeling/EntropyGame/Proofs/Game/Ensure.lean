import EntropyGame.Judge.Cache
import EntropyGame.Proofs.Game.Ceiling
import EntropyGame.Proofs.Game.Recorded

namespace EntropyGame

def Instruction.isElicit : Instruction → Bool
  | elicit .. => true
  | _ => false

namespace Turn

/-- What the conditions of the `ensure` on a line came to, if the turn ran it. -/
def results? (u : Turn) (line : Nat) : Option (List Bool) :=
  match u.instruction? with
  | some (.ensure conditions) =>
    if line = u.before.line then
      (conditions.mapM fun e => u.game.evalCondition u.before e).toOption
    else none
  | _ => none

def passes (line : Nat) (u : Turn) : Bool :=
  (u.results? line).any fun results => results.all id

def fails (line : Nat) (u : Turn) : Bool :=
  (u.results? line).any fun results => !results.all id

def elicits (u : Turn) : Bool :=
  u.instruction?.any (·.isElicit)

theorem results?_of_ensure {u : Turn} {conditions : List Expr} {results : List Bool}
    (hi : u.instruction? = some (.ensure conditions))
    (hr : (conditions.mapM fun e => u.game.evalCondition u.before e) = .ok results) (line : Nat) :
    u.results? line = if line = u.before.line then some results else none := by
  simp only [results?, hi, hr, Except.toOption]

theorem results?_of_not_ensure {u : Turn}
    (hi : ∀ conditions, u.instruction? ≠ some (.ensure conditions)) (line : Nat) :
    u.results? line = none := by
  rw [results?]
  split
  · rename_i conditions h
    exact absurd h (hi conditions)
  · rfl

end Turn

/-- How often in a row the `ensure` of a line has failed in a round. -/
def failures (line : Nat) (ts : List Turn) : Nat :=
  ((thisRound ts).takeWhile fun u => !u.passes line).countP (·.fails line)

/-- The line of the `elicit` that a round has run last. -/
def lastElicit? (ts : List Turn) : Option Nat :=
  ((thisRound ts).find? (·.elicits)).map (·.before.line)

theorem failures_opens {u : Turn} (h : u.opens = true) (line : Nat) (ts : List Turn) :
    failures line (u :: ts) = 0 := by
  simp [failures, thisRound, h]

theorem failures_cons {u : Turn} (h : u.opens = false) (line : Nat) (ts : List Turn) :
    failures line (u :: ts) =
      match u.results? line with
      | none => failures line ts
      | some results => if results.all id then 0 else failures line ts + 1 := by
  cases hr : u.results? line with
  | none => simp [failures, thisRound, h, Turn.passes, Turn.fails, hr]
  | some results =>
    cases hall : results.all id <;>
      simp [failures, thisRound, h, Turn.passes, Turn.fails, hr, hall]

theorem lastElicit?_opens {u : Turn} (h : u.opens = true) (ts : List Turn) :
    lastElicit? (u :: ts) = none := by
  simp [lastElicit?, thisRound, h]

theorem lastElicit?_cons {u : Turn} (h : u.opens = false) (ts : List Turn) :
    lastElicit? (u :: ts) = if u.elicits then some u.before.line else lastElicit? ts := by
  cases he : u.elicits <;> simp [lastElicit?, thisRound, h, he]

namespace Game

variable {g : Game}

/-- No instruction but an `ensure` counts failures. -/
theorem Runs.ensureFailures {line : Nat} {s t : State} {i : Instruction} {flow : Flow}
    (h : Runs g line s i t flow) (hi : ∀ conditions, i ≠ .ensure conditions) :
    t.ensureFailures = s.ensureFailures := by
  cases h with
  | assign _ hw => rw [writeAll_frame hw]
  | elicit _ ha =>
    rw [ha.frame]
    rfl
  | passed | retried => exact absurd rfl (hi _)
  | _ => rfl

/-- The failures of other lines stay as they are. -/
theorem Runs.ensureFailures_ne {line : Nat} {s t : State} {i : Instruction} {flow : Flow}
    (h : Runs g line s i t flow) {other : Nat} (hne : other ≠ line) :
    t.ensureFailures.get? other = s.ensureFailures.get? other := by
  cases h with
  | passed => exact (OrderedMap.get?_erase ..).trans (if_neg hne)
  | retried => exact (OrderedMap.get?_insert ..).trans (if_neg hne)
  | assign _ hw => rw [writeAll_frame hw]
  | elicit _ ha =>
    rw [ha.frame]
    rfl
  | _ => rfl

theorem Fails.ensureFailures_ne {line : Nat} {s t : State} {i : Instruction} {f : Fault}
    (h : Fails g line s i t f) {other : Nat} (hne : other ≠ line) :
    t.ensureFailures.get? other = s.ensureFailures.get? other := by
  cases h with
  | eval => cases i <;> rfl
  | assign _ hw => rw [writeAll_frame hw]
  | elicit _ ha =>
    rw [ha.frame]
    rfl
  | tooManyFailures => exact (OrderedMap.get?_insert ..).trans (if_neg hne)
  | _ => rfl

theorem Change.ensureFailures_ne {s t : State} {halted : Bool} (h : Change g s t halted)
    (ho : s.roundStarted = true) {other : Nat} (hne : other ≠ s.line) :
    t.ensureFailures.get? other = s.ensureFailures.get? other := by
  cases h with
  | opened _ hs => cases hs.symm.trans ho
  | closed | blank => rfl
  | next _ _ _ _ hruns | jump _ _ _ _ hruns | halt _ _ _ _ hruns =>
    exact hruns.ensureFailures_ne hne

theorem Breaks.ensureFailures_ne {s t : State} {i : Instruction} {f : Fault}
    (h : Breaks g s i t f) {other : Nat} (hne : other ≠ s.line) :
    t.ensureFailures.get? other = s.ensureFailures.get? other := by
  cases h with
  | ceiling => rfl
  | fails _ hfails => exact hfails.ensureFailures_ne hne
  | jumpOutside _ hruns => exact hruns.ensureFailures_ne hne

/-- However an advance ends, in a round it leaves the failures of all lines but its own alone. -/
theorem advance_ensureFailures_ne {σ : Type} {player : Player σ} {s t : Session σ}
    {o : Option Outcome} (h : g.advance player s = (t, o)) (ho : s.state.roundStarted = true)
    {line : Nat} (hne : line ≠ s.state.line) :
    t.state.ensureFailures.get? line = s.state.ensureFailures.get? line := by
  obtain ⟨_, hc⟩ | rfl | ⟨_, _, -, hbreaks⟩ := advance_effect h
  · exact hc.ensureFailures_ne ho hne
  · rfl
  · exact hbreaks.ensureFailures_ne hne

/-- Nothing but an `elicit` sets its beacon. -/
theorem Runs.get?_previousElicit {line : Nat} {s t : State} {i : Instruction} {flow : Flow}
    (h : Runs g line s i t flow) :
    t.beacons.get? previousElicit =
      if i.isElicit then some line else s.beacons.get? previousElicit := by
  cases h with
  | assign _ hw =>
    rw [writeAll_frame hw]
    rfl
  | elicit _ ha =>
    rw [ha.frame]
    exact (OrderedMap.get?_insert ..).trans (if_pos rfl)
  | @beacon name hname =>
    have hne : previousElicit ≠ name := by
      rintro rfl
      revert hname
      decide
    exact (OrderedMap.get?_insert ..).trans (if_neg hne)
  | _ => rfl

/-- No request and no answer tells of a failed `ensure`. -/
theorem Asked.failedEnsure {line budget : Nat} {rs : List Register} {position : Nat}
    {announced halted : Bool} {s t : State}
    (h : Asked g line budget rs position announced s t halted) {place : Nat} {other : Nat}
    {results : List Bool} {retry attempt : Nat}
    (he : t.history[place]? = some (.failedEnsure other results retry attempt)) :
    s.history[place]? = some (.failedEnsure other results retry attempt) := by
  have announce : ∀ {s : State} {line : Nat} {r : Register} {announced : Bool},
      (s.announce line budget r announced).history[place]? =
        some (.failedEnsure other results retry attempt) →
      s.history[place]? = some (.failedEnsure other results retry attempt) := by
    intro s line r announced he
    cases announced with
    | true => exact he
    | false => exact State.of_getElem?_record_ne (by simp) he
  induction h with
  | done => exact he
  | halted => exact announce he
  | answered _ _ _ ih => exact announce (State.of_getElem?_record_ne (by simp) (ih he))

/-- An `ensure` on a line fails, with the results of its conditions, and counts this as an attempt
that is followed by another if the game goes on. -/
structure Retries (g : Game) (s : State) (line : Nat) (conditions : List Expr)
    (results : List Bool) (retry attempt : Nat) : Prop where
  evaluated : (conditions.mapM fun e => g.evalCondition s e) = .ok results
  failed : results.all id = false
  retry : s.beacons.get? previousElicit = some retry
  attempt : attempt = State.counter s.ensureFailures line + 1

/-- What is told of a failed `ensure` when an instruction has run was told before, unless it is the
`ensure` that was run. -/
theorem Runs.failedEnsure {line : Nat} {s t : State} {i : Instruction} {flow : Flow}
    (h : Runs g line s i t flow) {round place other : Nat} {results : List Bool}
    {retry attempt : Nat}
    (he : t.Recorded round place (.failedEnsure other results retry attempt)) :
    s.Recorded round place (.failedEnsure other results retry attempt) ∨
      ∃ conditions, i = .ensure conditions ∧ other = line ∧
        g.Retries s line conditions results retry attempt ∧ flow = .jump retry := by
  obtain ⟨hround, ho⟩ := h.clock.2
  obtain he | ⟨hsize, hs, he⟩ := he
  · exact .inl (.inl (h.completed ▸ he))
  · have before : s.history[place]? = some (.failedEnsure other results retry attempt) →
        s.Recorded round place (.failedEnsure other results retry attempt) :=
      fun he => .inr ⟨h.completed ▸ hsize, ho.1 ▸ hs, he⟩
    cases h with
    | assign _ hw =>
      rw [writeAll_frame hw] at he
      exact .inl (before he)
    | elicit _ ha => exact .inl (before (ha.failedEnsure he))
    | reveal | reward => exact .inl (before (State.of_getElem?_record_ne (by simp) he))
    | retried hr hall hb =>
      obtain he | he := State.of_getElem?_record he
      · exact .inl (before he)
      · cases he
        exact .inr ⟨_, rfl, rfl, ⟨hr, hall, hb, rfl⟩, rfl⟩
    | passed | beacon | fellThrough | replayed => exact .inl (before he)

theorem Change.failedEnsure {s t : State} {halted : Bool} (h : Change g s t halted)
    {round place line : Nat} {results : List Bool} {retry attempt : Nat}
    (he : t.Recorded round place (.failedEnsure line results retry attempt)) :
    s.Recorded round place (.failedEnsure line results retry attempt) ∨
      ∃ conditions, s.roundStarted = true ∧ g.program.At s.line (.ensure conditions) ∧
        line = s.line ∧ g.Retries s line conditions results retry attempt ∧ t.line = retry := by
  cases h with
  | opened =>
    obtain he | ⟨_, _, he⟩ := he
    · exact .inl (.inl he)
    · obtain he | he := State.of_getElem?_record he
      · cases he
      · cases he
  | closed _ hs =>
    obtain ⟨r, hr, he⟩ | ⟨_, hs, _⟩ := he
    · rw [State.finishRound, Array.getElem?_push] at hr
      split at hr
      · rename_i hround
        cases hr
        exact .inl (.inr ⟨hround, hs, State.of_getElem?_record_ne (by simp) he⟩)
      · exact .inl (.inl ⟨r, hr, he⟩)
    · cases hs
  | blank => exact .inl he
  | next _ hs hl _ hruns | halt _ hs hl _ hruns =>
    obtain he | ⟨_, _, _, _, hf⟩ := hruns.failedEnsure he
    · exact .inl he
    · cases hf
  | jump _ hs hl _ hruns =>
    obtain he | ⟨conditions, rfl, rfl, hretries, hf⟩ := hruns.failedEnsure he
    · exact .inl he
    · cases hf
      exact .inr ⟨conditions, hs, hl, rfl, hretries, rfl⟩

/-- The rules of a game end it at an `ensure` that fails, or before they run it. -/
theorem Breaks.ensure_failed {s t : State} {conditions : List Expr} {f : Fault}
    (h : Breaks g s (.ensure conditions) t f) (hf : f.classOf = .game) :
    g.config.maxSteps ≤ s.steps ∨ s.steps < g.config.maxSteps ∧ ∃ results,
      (conditions.mapM fun e => g.evalCondition s e) = .ok results ∧ results.all id = false := by
  cases h with
  | ceiling hmax => exact .inl hmax
  | jumpOutside => cases hf
  | fails hsteps hfails =>
    refine .inr ⟨hsteps, ?_⟩
    cases hfails with
    | eval _ hv => exact absurd hf (eval_ne_game hv)
    | condition => cases hf
    | nothingToRetry hr hall | tooManyFailures hr hall => exact ⟨_, hr, hall⟩

end Game

/-- The failures and the beacon of a state are what its round has come to. -/
structure Tallied (ts : List Turn) (g : Game) (s : State) : Prop where
  counter : ∀ line, State.counter s.ensureFailures line = failures line ts
  elicit : s.beacons.get? previousElicit = lastElicit? ts
  below : ∀ line, failures line ts = 0 ∨ failures line ts < g.config.maxEnsureFailures

namespace Tallied

variable {ts : List Turn} {g : Game} {s t : State}

theorem congr (h : Tallied ts g s) (hf : t.ensureFailures = s.ensureFailures)
    (hb : t.beacons = s.beacons) : Tallied ts g t :=
  ⟨fun line => hf ▸ h.counter line, hb ▸ h.elicit, h.below⟩

theorem elicit_cons (h : Tallied ts g s) (hs : s.roundStarted = true) {i : Instruction}
    {flow : Flow} (hl : g.program.At s.line i) (hruns : g.Runs s.line s i t flow) (u : State)
    (halted : Bool) :
    t.beacons.get? previousElicit = lastElicit? (⟨g, s, u, halted⟩ :: ts) := by
  have hi : (Turn.mk g s u halted).instruction? = some i := Turn.instruction?_eq_some.mpr ⟨hs, hl⟩
  have ho : (Turn.mk g s u halted).opens = false := Turn.opens_of_started hs
  rw [lastElicit?_cons ho, Turn.elicits, hi, hruns.get?_previousElicit, h.elicit]
  rfl

/-- A turn that runs no `ensure` leaves all failures as they are. -/
theorem failures_cons_of_not_ensure (hs : s.roundStarted = true)
    (hi : ∀ conditions, ¬ g.program.At s.line (.ensure conditions)) (t : State) (halted : Bool)
    (ts : List Turn) (line : Nat) :
    failures line (⟨g, s, t, halted⟩ :: ts) = failures line ts := by
  have ho : (Turn.mk g s t halted).opens = false := Turn.opens_of_started hs
  rw [failures_cons ho, Turn.results?_of_not_ensure]
  exact fun conditions hc => hi conditions (Turn.instruction?_eq_some.mp hc).2

theorem failures_cons_of_ensure (hs : s.roundStarted = true) {conditions : List Expr}
    {results : List Bool} (hl : g.program.At s.line (.ensure conditions))
    (hr : (conditions.mapM fun e => g.evalCondition s e) = .ok results) (t : State)
    (halted : Bool) (ts : List Turn) (line : Nat) :
    failures line (⟨g, s, t, halted⟩ :: ts) =
      if line = s.line then if results.all id then 0 else failures line ts + 1
      else failures line ts := by
  have hi : (Turn.mk g s t halted).instruction? = some (.ensure conditions) :=
    Turn.instruction?_eq_some.mpr ⟨hs, hl⟩
  have ho : (Turn.mk g s t halted).opens = false := Turn.opens_of_started hs
  rw [failures_cons ho, Turn.results?_of_ensure hi hr]
  by_cases he : line = s.line <;> simp [he]

/-- What an instruction does to the failures that a state counts, its turn does to those of the
round. -/
theorem runs (h : Tallied ts g s) (hs : s.roundStarted = true) {i : Instruction} {flow : Flow}
    (hl : g.program.At s.line i) (hruns : g.Runs s.line s i t flow) (u : State) (halted : Bool) :
    Tallied (⟨g, s, u, halted⟩ :: ts) g t := by
  have helicit := h.elicit_cons hs hl hruns u halted
  -- all but an `ensure` leave both the counters and the count as they are
  have quiet : (∀ conditions, i ≠ .ensure conditions) → Tallied (⟨g, s, u, halted⟩ :: ts) g t := by
    intro hi
    have hf := failures_cons_of_not_ensure hs (fun conditions hc => hi conditions (hl.eq hc)) u
      halted ts
    refine ⟨fun line => ?_, helicit, fun line => ?_⟩
    · rw [hf, hruns.ensureFailures hi, h.counter]
    · rw [hf]
      exact h.below line
  cases hruns with
  | passed hr hall =>
    have hf := failures_cons_of_ensure hs hl hr u halted ts
    refine ⟨fun line => ?_, helicit, fun line => ?_⟩
    · rw [hf, hall, if_pos rfl, State.counter_erase, h.counter]
    · rw [hf, hall, if_pos rfl]
      split
      · exact .inl rfl
      · exact h.below line
  | @retried _ _ target hr hall _ hlt =>
    have hf := failures_cons_of_ensure hs hl hr u halted ts
    rw [h.counter] at hlt
    refine ⟨fun line => ?_, helicit, fun line => ?_⟩
    · rw [hf, hall]
      show State.counter (s.ensureFailures.insert s.line _) line = _
      rw [State.counter_insert, h.counter, h.counter]
      split
      · rename_i he
        rw [he]
        rfl
      · rfl
    · rw [hf, hall]
      split
      · rename_i he
        rw [he]
        exact .inr hlt
      · exact h.below line
  | _ => exact quiet nofun

theorem blank (h : Tallied ts g s) (hs : s.roundStarted = true)
    (hl : ∀ i, ¬ g.program.At s.line i) (u : State) (halted : Bool) :
    Tallied (⟨g, s, u, halted⟩ :: ts) g s := by
  have hi : (Turn.mk g s u halted).instruction? = none := Turn.instruction?_eq_none hl
  have ho : (Turn.mk g s u halted).opens = false := Turn.opens_of_started hs
  have hf := failures_cons_of_not_ensure hs (fun _ => hl _) u halted ts
  refine ⟨fun line => ?_, ?_, fun line => ?_⟩
  · rw [hf, h.counter]
  · rw [lastElicit?_cons ho, Turn.elicits, hi, h.elicit]
    rfl
  · rw [hf]
    exact h.below line

theorem cons (h : Tallied ts g s) {halted : Bool} (hc : g.Change s t halted) :
    Tallied (⟨g, s, t, halted⟩ :: ts) g t := by
  cases hc with
  | opened _ hs =>
    have ho : ∀ u, (Turn.mk g s u false).opens = true := fun u => by simp [Turn.opens, hs]
    refine ⟨fun line => ?_, ?_, fun line => .inl (failures_opens (ho _) line ts)⟩
    · rw [failures_opens (ho _)]
      rfl
    · rw [lastElicit?_opens (ho _)]
      rfl
  | closed _ hs hl => exact (h.blank hs (Program.not_at_of_size_le hl) _ _).congr rfl rfl
  | blank _ hs hl => exact (h.blank hs (Program.not_at_of_blank hl) _ _).congr rfl rfl
  | next _ hs hl _ hruns | jump _ hs hl _ hruns => exact (h.runs hs hl hruns _ _).congr rfl rfl
  | halt _ hs hl _ hruns => exact h.runs hs hl hruns _ _

end Tallied

/-- How the rules of a game end it at an `ensure`: before it is run, or when it fails with no `elicit`
to go back to, or for the last time. -/
inductive EnsureEnds {σ : Type} (ts : List Turn) (g : Game) (s : State) (conditions : List Expr)
    (player : Player σ) (memory : σ) : Session σ → Fault → Prop
  | ceiling : executed ts = g.config.maxSteps →
      EnsureEnds ts g s conditions player memory ⟨s, memory⟩
        (.tooManySteps s.round g.config.maxSteps)
  | nothingToRetry {results : List Bool} : executed ts < g.config.maxSteps →
      (conditions.mapM fun e => g.evalCondition s e) = .ok results → false ∈ results →
      lastElicit? ts = none →
      EnsureEnds ts g s conditions player memory ⟨s, memory⟩ .nothingToRetry
  | tooManyFailures {results : List Bool} {retry attempt : Nat} :
      executed ts < g.config.maxSteps →
      (conditions.mapM fun e => g.evalCondition s e) = .ok results → false ∈ results →
      lastElicit? ts = some retry → attempt = failures s.line ts + 1 →
      attempt = max 1 g.config.maxEnsureFailures →
      EnsureEnds ts g s conditions player memory
        (Session.emit player (.failedEnsure s.line results retry attempt)
          ⟨{ s with ensureFailures := s.ensureFailures.insert s.line attempt }, memory⟩)
        (.tooManyFailures attempt)

namespace Played

variable {ts : List Turn} {g : Game} {s : State} {halted : Bool}

theorem tallied (h : Played ts g s halted) : Tallied ts g s := by
  refine invariant h ?_ ?_ ?_
  · exact fun g => ⟨fun _ => rfl, rfl, fun _ => .inl rfl⟩
  · exact fun _ ih hc => ih.cons hc
  · exact fun _ hc hs => ⟨hs.counter, hs.elicit, hc ▸ hs.below⟩

/-- A round that is open is one of those to be played. -/
theorem round_lt (h : Played ts g s halted) (ho : s.roundStarted = true) :
    s.round < g.config.rounds := by
  revert ho
  exact invariant h (fun _ => nofun) (fun _ _ hc => hc.round_lt) (fun _ hc hs => hc ▸ hs)

theorem get?_ensureFailures (h : Played ts g s halted) (line : Nat) :
    s.ensureFailures.get? line =
      if failures line ts = 0 then none else some (failures line ts) := by
  have hcounter := h.tallied.counter line
  cases hn : s.ensureFailures.get? line with
  | none =>
    rw [State.counter, hn, Option.getD_none] at hcounter
    rw [if_pos hcounter.symm]
  | some n =>
    obtain ⟨hpos, _⟩ := h.reached.controlled.marked.ensure line n hn
    rw [State.counter, hn, Option.getD_some] at hcounter
    rw [← hcounter, if_neg (Nat.ne_of_gt hpos)]

/-- Whatever is told of a failed `ensure`, there was a turn in which it failed that way. -/
theorem failedEnsure (h : Played ts g s halted) {round place line : Nat} {results : List Bool}
    {retry attempt : Nat}
    (he : s.Recorded round place (.failedEnsure line results retry attempt)) :
    ∃ later u earlier, ts = later ++ u :: earlier ∧ u.results? line = some results ∧
      false ∈ results ∧ attempt = failures line (u :: earlier) ∧
      lastElicit? earlier = some retry ∧ u.after.line = retry := by
  revert he
  refine invariant h ?_ ?_ (fun _ _ hs => hs)
  · rintro g (⟨_, hr, _⟩ | ⟨_, hs, _⟩)
    · cases hr
    · cases hs
  · intro ts g s t _ halted' hs ih hc he
    obtain he | ⟨conditions, ho, hl, rfl, hretries, hline⟩ := hc.failedEnsure he
    · obtain ⟨later, u, earlier, rfl, hu⟩ := ih he
      exact ⟨_ :: later, u, earlier, rfl, hu⟩
    · have hi : (Turn.mk g s t halted').instruction? = some (.ensure conditions) :=
        Turn.instruction?_eq_some.mpr ⟨ho, hl⟩
      refine ⟨[], _, ts, rfl, ?_, ?_, ?_, ?_, hline⟩
      · rw [Turn.results?_of_ensure hi hretries.evaluated, if_pos rfl]
      · simpa using hretries.failed
      · rw [Tallied.failures_cons_of_ensure ho hl hretries.evaluated, if_pos rfl, hretries.failed,
          hretries.attempt, hs.tallied.counter]
        rfl
      · rw [← hs.tallied.elicit, hretries.retry]

/-- Where an `ensure` stands no instruction waits to go on. -/
theorem executed_ensure (h : Played ts g s halted) (ho : s.roundStarted = true)
    {conditions : List Expr} (hl : g.program.At s.line (.ensure conditions)) :
    executed ts = s.steps := by
  have hh : halted = false := h.reached.controlled.halted_eq_false fun _ _ hi => nomatch hi.eq hl
  rw [h.counted.executed_eq ho, hh]
  rfl

/-- What becomes of a game when an `ensure` fails. -/
theorem advance_failing (h : Played ts g s halted) (ho : s.roundStarted = true)
    {conditions : List Expr} {results : List Bool} (hl : g.program.At s.line (.ensure conditions))
    (hsteps : s.steps < g.config.maxSteps)
    (hr : (conditions.mapM fun e => g.evalCondition s e) = .ok results)
    (hall : results.all id = false) {σ : Type} (player : Player σ) (memory : σ) :
    g.advance player ⟨s, memory⟩ =
      match lastElicit? ts with
      | none => (⟨s, memory⟩, some (.failed (.line s.line .nothingToRetry)))
      | some retry =>
        let attempt := failures s.line ts + 1
        let failed := Session.emit player (.failedEnsure s.line results retry attempt)
          ⟨{ s with ensureFailures := s.ensureFailures.insert s.line attempt }, memory⟩
        if attempt = max 1 g.config.maxEnsureFailures then
          (failed, some (.failed (.line s.line (.tooManyFailures attempt))))
        else (Game.finishLine failed retry, none) := by
  have htallied := h.tallied
  have hbelow := htallied.below s.line
  rw [Game.advance_at (h.round_lt ho) ho hl, if_neg (Nat.not_le.mpr hsteps)]
  simp only [Game.execute, Game.ensure, hr, hall, htallied.elicit, htallied.counter,
    Bool.false_eq_true, if_false]
  cases hlast : lastElicit? ts with
  | none => rfl
  | some retry =>
    obtain ⟨_, _, hretry⟩ := h.reached.controlled.marked.elicit retry (htallied.elicit.trans hlast)
    have hsize : ¬ g.program.size < retry := Nat.not_lt.mpr (Nat.le_of_lt hretry.lt)
    -- the count before is zero or below the limit, so it cannot pass over the limit
    by_cases hmax : g.config.maxEnsureFailures ≤ failures s.line ts + 1
    · have heq : failures s.line ts + 1 = max 1 g.config.maxEnsureFailures := by omega
      simp only [if_pos hmax, if_pos heq]
    · have hne : failures s.line ts + 1 ≠ max 1 g.config.maxEnsureFailures := by omega
      simp only [if_neg hmax, if_neg hne, if_neg hsize]

theorem ensure_game_iff (h : Played ts g s halted) {line : Nat} {conditions : List Expr}
    (hl : g.program.At line (.ensure conditions)) {σ : Type} {player : Player σ} {memory : σ}
    {t : Session σ} {f : Fault} :
    g.advance player ⟨s, memory⟩ = (t, some (.failed (.line line f))) ∧ f.classOf = .game ↔
      s.roundStarted = true ∧ s.line = line ∧ EnsureEnds ts g s conditions player memory t f := by
  constructor
  · rintro ⟨ha, hf⟩
    obtain ⟨_, _, he, hround, ho, hi, hbreaks⟩ := Game.advance_breaks ha
    cases he
    obtain rfl := hi.eq hl
    have hexecuted := h.executed_ensure ho hl
    refine ⟨ho, rfl, ?_⟩
    obtain hmax | ⟨hsteps, results, hr, hall⟩ := hbreaks.ensure_failed hf
    · rw [Game.advance_at hround ho hl, if_pos hmax] at ha
      cases ha
      exact .ceiling (Nat.le_antisymm h.counted.executed_le (hexecuted ▸ hmax))
    · have hlt : executed ts < g.config.maxSteps := hexecuted ▸ hsteps
      have hmem : false ∈ results := by simpa using hall
      rw [h.advance_failing ho hl hsteps hr hall] at ha
      cases hlast : lastElicit? ts with
      | none =>
        simp only [hlast] at ha
        cases ha
        exact .nothingToRetry hlt hr hmem hlast
      | some retry =>
        simp only [hlast] at ha
        split at ha
        · rename_i hmax
          cases ha
          exact .tooManyFailures hlt hr hmem hlast rfl hmax
        · cases ha
  · rintro ⟨ho, rfl, hends⟩
    have hexecuted := h.executed_ensure ho hl
    cases hends with
    | ceiling he =>
      rw [Game.advance_at (h.round_lt ho) ho hl, if_pos (Nat.le_of_eq (he.symm.trans hexecuted))]
      exact ⟨rfl, rfl⟩
    | nothingToRetry hlt hr hmem hlast =>
      rw [h.advance_failing ho hl (hexecuted ▸ hlt) hr (by simpa using hmem)]
      simp only [hlast]
      exact ⟨trivial, rfl⟩
    | tooManyFailures hlt hr hmem hlast hattempt hmax =>
      subst hattempt
      rw [h.advance_failing ho hl (hexecuted ▸ hlt) hr (by simpa using hmem)]
      simp only [hlast, if_pos hmax]
      exact ⟨trivial, rfl⟩

/-- The failures of each `ensure` are counted since it passed last or the round began, and running
other lines leaves them alone. Its events carry that count and the `elicit` that was run last, where
the game goes on. The rules end a game at the failure that reaches the limit, at one before any
`elicit`, and where the round may run no more. -/
theorem ensures_counted (h : Played ts g s halted) :
    (∀ line, s.ensureFailures.get? line =
      if failures line ts = 0 then none else some (failures line ts)) ∧
    (∀ (σ : Type) (player : Player σ) (memory : σ) (t : Session σ) (o : Option Outcome) (line : Nat),
      g.advance player ⟨s, memory⟩ = (t, o) → s.roundStarted = true → line ≠ s.line →
      t.state.ensureFailures.get? line = s.ensureFailures.get? line) ∧
    (∀ round place line results retry attempt,
      s.Recorded round place (.failedEnsure line results retry attempt) →
      ∃ later u earlier, ts = later ++ u :: earlier ∧ u.results? line = some results ∧
        false ∈ results ∧ attempt = failures line (u :: earlier) ∧
        lastElicit? earlier = some retry ∧ u.after.line = retry) ∧
    ∀ line conditions, g.program.At line (.ensure conditions) →
      ∀ (σ : Type) (player : Player σ) (memory : σ) (t : Session σ) (f : Fault),
      g.advance player ⟨s, memory⟩ = (t, some (.failed (.line line f))) ∧ f.classOf = .game ↔
        s.roundStarted = true ∧ s.line = line ∧
          EnsureEnds ts g s conditions player memory t f :=
  ⟨h.get?_ensureFailures, fun _ _ _ _ _ _ ha ho hne => Game.advance_ensureFailures_ne ha ho hne,
    fun _ _ _ _ _ _ he => h.failedEnsure he, fun _ _ hl _ _ _ _ _ => h.ensure_game_iff hl⟩

end Played

/-- A program that asks again when it cannot be pleased. -/
def displeased : Game where
  program := ⟨"elicit(s, 1)\nensure(false)",
    #[some (.elicit [.first .s] (.integer 1 ⟨0, 10, 11⟩)), some (.ensure [.bool false ⟨1, 7, 12⟩])]⟩
  config := { maxEnsureFailures := 2 }
  judge := Judge.Cache.judge 0

theorem displeased_load :
    Game.load displeased.program.source displeased.config (Judge.Cache.judge 0) = .ok displeased := by
  cbv

/-- What the game has come to after so many moves. -/
def displeasedAfter : Nat → Session (List String)
  | 0 => ⟨displeased.initial, ["a", "b"]⟩
  | n + 1 => (displeased.advance .mailbox (displeasedAfter n)).1

theorem Played.ensures_counted_displeased :
    ∃ ts t, Played ts displeased (displeasedAfter 4).state false ∧ failures 1 ts = 1 ∧
      (displeasedAfter 4).state.ensureFailures.get? 1 = some 1 ∧
      (displeasedAfter 4).state.Recorded 0 3 (.failedEnsure 1 [false] 0 1) ∧
      (∃ u ∈ ts, u.results? 1 = some [false] ∧ u.after.line = 0) ∧
      displeased.advance .mailbox (displeasedAfter 4) =
        (t, some (.failed (.line 1 (.tooManyFailures 2)))) := by
  have next : ∀ n, n < 4 → displeased.advance .mailbox (displeasedAfter n) =
      (displeasedAfter (n + 1), none) := by
    intro n hn
    obtain rfl | rfl | rfl | rfl : n = 0 ∨ n = 1 ∨ n = 2 ∨ n = 3 := by omega
    all_goals exact Prod.ext rfl rfl
  have h : Played _ displeased (displeasedAfter 4).state false :=
    ((((Played.new displeased_load).advance (next 0 (by decide))).advance
      (next 1 (by decide))).advance (next 2 (by decide))).advance (next 3 (by decide))
  obtain ⟨hcounter, -, hevents, hends⟩ := Played.ensures_counted h
  have hevent : (displeasedAfter 4).state.Recorded 0 3 (.failedEnsure 1 [false] 0 1) :=
    .inr ⟨rfl, rfl, rfl⟩
  obtain ⟨later, u, earlier, he, hu, -, -, -, hline⟩ := hevents _ _ _ _ _ _ hevent
  have hmem : u ∈ later ++ u :: earlier := List.mem_append_right _ List.mem_cons_self
  obtain ⟨hend, -⟩ := (hends 1 _ rfl _ .mailbox (displeasedAfter 4).memory _ _).mpr
    ⟨rfl, rfl, .tooManyFailures (by decide) rfl List.mem_cons_self rfl rfl rfl⟩
  exact ⟨_, _, h, rfl, hcounter 1, hevent, ⟨u, he ▸ hmem, hu, hline⟩, hend⟩

/-- A program whose last line is one more than a round may run. -/
def breathless : Game where
  program := ⟨"beacon(flag_1)\nensure(true)",
    #[some (.beacon "flag_1"), some (.ensure [.bool true ⟨1, 7, 11⟩])]⟩
  config := { maxSteps := 1 }
  judge := Judge.Cache.judge 0

theorem breathless_load :
    Game.load breathless.program.source breathless.config (Judge.Cache.judge 0) = .ok breathless := by
  cbv

/-- The rules may end a game at an `ensure` that does not fail. -/
theorem Played.ensure_game_breathless :
    ¬ ∀ ts s halted, Played ts breathless s halted → ∀ (t : Session (List String)) (f : Fault),
      breathless.advance .mailbox ⟨s, []⟩ = (t, some (.failed (.line 1 f))) → f.classOf = .game →
      ∃ conditions results, breathless.program.At 1 (.ensure conditions) ∧
        (conditions.mapM fun e => breathless.evalCondition s e) = .ok results ∧
        false ∈ results := by
  intro hall
  let opened := (breathless.advance .mailbox ⟨breathless.initial, []⟩).1
  let set := (breathless.advance .mailbox opened).1
  have ho : breathless.advance .mailbox ⟨breathless.initial, []⟩ = (opened, none) :=
    Prod.ext rfl rfl
  have hs : breathless.advance .mailbox opened = (set, none) := Prod.ext rfl rfl
  have hf : breathless.advance .mailbox set =
      (set, some (.failed (.line 1 (.tooManySteps 0 1)))) := Prod.ext rfl rfl
  have h : Played _ breathless set.state false := ((Played.new breathless_load).advance ho).advance hs
  obtain ⟨conditions, results, hl, hr, hmem⟩ := hall _ _ _ h _ _ hf rfl
  cases hl
  cases hr
  simp at hmem

end EntropyGame
