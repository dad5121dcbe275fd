import EntropyGame.Proofs.Game.Ensure

namespace EntropyGame

namespace Instruction

def isReplay : Instruction → Bool
  | replay .. => true
  | _ => false

/-- Whether an instruction sets the beacon of a name. -/
def sets (name : String) : Instruction → Bool
  | elicit .. => name == previousElicit
  | beacon flag => name == flag
  | _ => false

end Instruction

namespace Turn

/-- Whether the turn ran the replay on a line. -/
def replays (line : Nat) (u : Turn) : Bool :=
  u.before.line == line && u.instruction?.any (·.isReplay)

/-- A replay falls through if the next line comes after it. -/
def fallsThrough (line : Nat) (u : Turn) : Bool :=
  u.replays line && u.after.line == line + 1

/-- A replay jumps if any other line comes after it. -/
def jumps (line : Nat) (u : Turn) : Bool :=
  u.replays line && u.after.line != line + 1

/-- What the count of a replay came to, if the turn ran one. -/
def count? (u : Turn) : Option Nat :=
  match u.instruction? with
  | some (.replay _ count) => (u.game.evalCount u.before .replayCount count).toOption
  | _ => none

/-- Whether the turn ran a line that sets the beacon of a name. -/
def sets (name : String) (u : Turn) : Bool :=
  u.instruction?.any (·.sets name)

end Turn

/-- The turns of a round since the replay on a line last fell through. -/
def sinceFall (line : Nat) (ts : List Turn) : List Turn :=
  (thisRound ts).takeWhile fun u => !u.fallsThrough line

/-- How many jumps of the replay on a line there were in a round since it last fell through. -/
def taken (line : Nat) (ts : List Turn) : Nat :=
  (sinceFall line ts).countP (·.jumps line)

/-- The line that last set a beacon in a round. -/
def lastBeacon? (name : String) (ts : List Turn) : Option Nat :=
  ((thisRound ts).find? (·.sets name)).map (·.before.line)

section

variable {u : Turn} {ts : List Turn}

theorem sinceFall_opens (h : u.opens = true) (line : Nat) : sinceFall line (u :: ts) = [] := by
  simp [sinceFall, thisRound, h]

theorem sinceFall_cons (h : u.opens = false) (line : Nat) :
    sinceFall line (u :: ts) = if u.fallsThrough line then [] else u :: sinceFall line ts := by
  cases hf : u.fallsThrough line <;> simp [sinceFall, thisRound, h, hf]

theorem taken_opens (h : u.opens = true) (line : Nat) : taken line (u :: ts) = 0 := by
  rw [taken, sinceFall_opens h]
  rfl

theorem taken_cons (h : u.opens = false) (line : Nat) :
    taken line (u :: ts) =
      if u.fallsThrough line then 0 else taken line ts + if u.jumps line then 1 else 0 := by
  rw [taken, sinceFall_cons h]
  split
  · rfl
  · rw [List.countP_cons, taken]

theorem lastBeacon?_opens (h : u.opens = true) (name : String) :
    lastBeacon? name (u :: ts) = none := by
  simp [lastBeacon?, thisRound, h]

theorem lastBeacon?_cons (h : u.opens = false) (name : String) :
    lastBeacon? name (u :: ts) =
      if u.sets name then some u.before.line else lastBeacon? name ts := by
  cases hb : u.sets name <;> simp [lastBeacon?, thisRound, h, hb]

end

namespace Game

variable {g : Game}

/-- How a replay goes: it falls through when it has jumped often enough, or jumps to its beacon. -/
inductive Replays (g : Game) (s : State) (name : String) (count : Expr) : State → Prop
  | fell {t : State} {n : Nat} : g.evalCount s .replayCount count = .ok n →
      n ≤ State.counter s.replayCounters s.line →
      t.replayCounters = s.replayCounters.erase s.line → t.line = s.line + 1 →
      Replays g s name count t
  | jumped {t : State} {n target : Nat} : g.evalCount s .replayCount count = .ok n →
      State.counter s.replayCounters s.line < n →
      t.replayCounters =
        s.replayCounters.insert s.line (State.counter s.replayCounters s.line + 1) →
      s.beacons.get? name = some target → t.line = replayTarget name target →
      Replays g s name count t

/-- No instruction but a replay touches the counters of jumps. -/
theorem Runs.replayCounters {line : Nat} {s t : State} {i : Instruction} {flow : Flow}
    (h : Runs g line s i t flow) (hi : ∀ name count, i ≠ .replay name count) :
    t.replayCounters = s.replayCounters := by
  cases h with
  | assign _ hw => rw [writeAll_frame hw]
  | elicit _ ha =>
    rw [ha.frame]
    rfl
  | fellThrough | replayed => exact absurd rfl (hi _ _)
  | _ => rfl

theorem Runs.replayCounters_ne {line : Nat} {s t : State} {i : Instruction} {flow : Flow}
    (h : Runs g line s i t flow) {other : Nat} (hne : other ≠ line) :
    t.replayCounters.get? other = s.replayCounters.get? other := by
  have quiet : (∀ name count, i ≠ .replay name count) →
      t.replayCounters.get? other = s.replayCounters.get? other :=
    fun hi => congrArg (·.get? other) (h.replayCounters hi)
  cases h with
  | fellThrough => exact (OrderedMap.get?_erase ..).trans (if_neg hne)
  | replayed => exact (OrderedMap.get?_insert ..).trans (if_neg hne)
  | _ => exact quiet nofun

/-- An instruction that fails has counted no jump. -/
theorem Fails.replayCounters {line : Nat} {s t : State} {i : Instruction} {f : Fault}
    (h : Fails g line s i t f) : t.replayCounters = s.replayCounters := by
  cases h with
  | eval => cases i <;> rfl
  | assign _ hw => rw [writeAll_frame hw]
  | elicit _ ha =>
    rw [ha.frame]
    rfl
  | _ => rfl

theorem Change.replayCounters_ne {s t : State} {halted : Bool} (h : Change g s t halted)
    (ho : s.roundStarted = true) {other : Nat} (hne : other ≠ s.line) :
    t.replayCounters.get? other = s.replayCounters.get? other := by
  cases h with
  | opened _ hs => cases hs.symm.trans ho
  | closed | blank => rfl
  | next _ _ _ _ hruns | jump _ _ _ _ hruns | halt _ _ _ _ hruns =>
    exact hruns.replayCounters_ne hne

theorem Breaks.replayCounters_ne {s t : State} {i : Instruction} {f : Fault}
    (h : Breaks g s i t f) {other : Nat} (hne : other ≠ s.line) :
    t.replayCounters.get? other = s.replayCounters.get? other := by
  cases h with
  | ceiling => rfl
  | fails _ hfails => rw [hfails.replayCounters]
  | jumpOutside _ hruns => exact hruns.replayCounters_ne hne

/-- However an advance ends, in a round it leaves the jumps of all lines but its own alone. -/
theorem advance_replayCounters_ne {σ : Type} {player : Player σ} {s t : Session σ}
    {o : Option Outcome} (h : g.advance player s = (t, o)) (ho : s.state.roundStarted = true)
    {line : Nat} (hne : line ≠ s.state.line) :
    t.state.replayCounters.get? line = s.state.replayCounters.get? line := by
  obtain ⟨_, hc⟩ | rfl | ⟨_, _, -, hbreaks⟩ := advance_effect h
  · exact hc.replayCounters_ne ho hne
  · rfl
  · exact hbreaks.replayCounters_ne hne

/-- A turn in a round runs a replay or leaves all counters of jumps alone. -/
theorem Change.replay {s t : State} {halted : Bool} (h : Change g s t halted)
    (ho : s.roundStarted = true) :
    (∃ name count, g.program.At s.line (.replay name count) ∧ g.Replays s name count t) ∨
      (∀ name count, ¬ g.program.At s.line (.replay name count)) ∧
        t.replayCounters = s.replayCounters := by
  -- an instruction that is no replay is told apart from the one that stands on the line
  have quiet : ∀ {i : Instruction} {u : State} {flow : Flow}, g.program.At s.line i →
      Runs g s.line s i u flow → (∀ name count, i ≠ .replay name count) →
      (∀ name count, ¬ g.program.At s.line (.replay name count)) ∧
        u.replayCounters = s.replayCounters := by
    intro i u flow hl hruns hi
    have hno : ∀ name count, ¬ g.program.At s.line (.replay name count) :=
      fun name count hr => hi name count (hl.eq hr)
    exact ⟨hno, hruns.replayCounters hi⟩
  cases h with
  | opened _ hs => cases hs.symm.trans ho
  | closed _ _ hl => exact .inr ⟨fun _ _ => Program.not_at_of_size_le hl _, rfl⟩
  | blank _ _ hl => exact .inr ⟨fun _ _ => Program.not_at_of_blank hl _, rfl⟩
  | @next i u _ _ hl _ hruns =>
    cases i with
    | replay name count =>
      refine .inl ⟨name, count, hl, ?_⟩
      cases hruns with
      | fellThrough hn hle => exact .fell hn hle rfl rfl
    | _ => exact .inr (quiet (u := u) hl hruns nofun)
  | @jump i u target _ _ hl _ hruns =>
    cases i with
    | replay name count =>
      refine .inl ⟨name, count, hl, ?_⟩
      cases hruns with
      | replayed hn hlt hb => exact .jumped hn hlt rfl hb rfl
    | _ => exact .inr (quiet (u := u) hl hruns nofun)
  | @halt i _ _ _ hl _ hruns =>
    have hi : ∀ name count, i ≠ .replay name count := by
      rintro name count rfl
      cases hruns
    exact .inr (quiet hl hruns hi)

/-- The line behind a replay is not where its beacon leads: that is a line after another. -/
theorem Marked.replayTarget_ne {s : State} (hm : g.Marked s) (ho : s.roundStarted = true)
    {line target : Nat} {name : String} {count : Expr}
    (hl : g.program.At line (.replay name count)) (hb : s.beacons.get? name = some target) :
    replayTarget name target ≠ line + 1 := by
  have behind : ∀ {i : Instruction}, g.program.At target i →
      (∀ name count, i ≠ .replay name count) → target + 1 ≠ line + 1 := by
    intro i hi hne he
    have hline : target = line := Nat.succ.inj he
    exact hne name count ((hline ▸ hi).eq hl)
  rw [replayTarget]
  split
  · rename_i hname
    have hzero : target = 0 := by
      rw [hname, hm.start ho] at hb
      exact (Option.some.inj hb).symm
    omega
  · rename_i hname
    obtain hstart | rfl | hflag := hm.beacon name target hb
    · exact absurd hstart hname
    · obtain ⟨targets, budget, ht⟩ := hm.elicit target hb
      exact behind ht (by simp)
    · exact behind (hm.flag name hflag target hb) (by simp)

/-- Beacons are set by the lines that name them, and by each `elicit`. -/
theorem Runs.get?_beacons {line : Nat} {s t : State} {i : Instruction} {flow : Flow}
    (h : Runs g line s i t flow) (name : String) :
    t.beacons.get? name = if i.sets name then some line else s.beacons.get? name := by
  have set : ∀ {other : String} {line : Nat}, (s.setBeacon other line).beacons.get? name =
      if name == other then some line else s.beacons.get? name := by
    intro other line
    rw [State.setBeacon, OrderedMap.get?_insert]
    simp
  cases h with
  | assign _ hw =>
    rw [writeAll_frame hw]
    rfl
  | elicit _ ha =>
    rw [ha.frame]
    exact set
  | beacon => exact set
  | _ => rfl

end Game

namespace Turn

variable {g : Game} {s : State} (t : State) (halted : Bool)

/-- A turn that stands at no replay runs none. -/
theorem replays_eq_false (hl : ∀ name count, ¬ g.program.At s.line (.replay name count))
    (line : Nat) : (Turn.mk g s t halted).replays line = false := by
  rw [replays, Bool.and_eq_false_iff]
  right
  cases hi : (Turn.mk g s t halted).instruction? with
  | none => rfl
  | some i =>
    have hat : g.program.At s.line i := (instruction?_eq_some.mp hi).2
    cases i with
    | replay name count => exact absurd hat (hl name count)
    | _ => rfl

theorem replays_eq {name : String} {count : Expr} (hs : s.roundStarted = true)
    (hl : g.program.At s.line (.replay name count)) (line : Nat) :
    (Turn.mk g s t halted).replays line = (s.line == line) := by
  have hi : (Turn.mk g s t halted).instruction? = some (.replay name count) :=
    instruction?_eq_some.mpr ⟨hs, hl⟩
  rw [replays, hi]
  exact Bool.and_true _

theorem count?_eq {name : String} {count : Expr} {n : Nat} (hs : s.roundStarted = true)
    (hl : g.program.At s.line (.replay name count))
    (hn : g.evalCount s .replayCount count = .ok n) :
    (Turn.mk g s t halted).count? = some n := by
  have hi : (Turn.mk g s t halted).instruction? = some (.replay name count) :=
    instruction?_eq_some.mpr ⟨hs, hl⟩
  simp only [count?, hi, hn, Except.toOption]

/-- Where the next line comes after a replay, it has fallen through. -/
theorem falls_of_line {name : String} {count : Expr} (hs : s.roundStarted = true)
    (hl : g.program.At s.line (.replay name count)) (ht : t.line = s.line + 1) (line : Nat) :
    (Turn.mk g s t halted).fallsThrough line = (s.line == line) ∧
      (Turn.mk g s t halted).jumps line = false := by
  rw [fallsThrough, jumps, replays_eq t halted hs hl]
  by_cases hline : s.line = line
  · subst hline
    simp [ht]
  · simp [hline]

theorem jumps_of_line {name : String} {count : Expr} (hs : s.roundStarted = true)
    (hl : g.program.At s.line (.replay name count)) (ht : t.line ≠ s.line + 1) (line : Nat) :
    (Turn.mk g s t halted).fallsThrough line = false ∧
      (Turn.mk g s t halted).jumps line = (s.line == line) := by
  rw [fallsThrough, jumps, replays_eq t halted hs hl]
  by_cases hline : s.line = line
  · subst hline
    simp [ht]
  · simp [hline]

/-- What is known of a turn that ran a replay. -/
theorem replayed {u : Turn} (hc : u.game.Change u.before u.after u.halted) {line : Nat}
    (hr : u.replays line = true) :
    u.before.line = line ∧ u.before.roundStarted = true ∧ ∃ name count,
      u.game.program.At line (.replay name count) ∧
        u.game.Replays u.before name count u.after := by
  obtain ⟨hline, hi⟩ := Bool.and_eq_true_iff.mp hr
  have hline : u.before.line = line := by simpa using hline
  subst hline
  obtain ⟨i, hi, hreplay⟩ := (Option.any_eq_true ..).mp hi
  obtain ⟨hs, hl⟩ := instruction?_eq_some.mp hi
  refine ⟨rfl, hs, ?_⟩
  obtain ⟨name, count, hat, hreplays⟩ | ⟨hno, -⟩ := hc.replay hs
  · exact ⟨name, count, hat, hreplays⟩
  · cases i with
    | replay name count => exact absurd hl (hno name count)
    | _ => cases hreplay

end Turn

/-- The jumps that a state counts and its beacons are what its round has come to; and a replay whose
count stays the same has not jumped more often than it tells. -/
structure Looped (ts : List Turn) (s : State) : Prop where
  counter : ∀ line, State.counter s.replayCounters line = taken line ts
  beacon : ∀ name, name ≠ startBeacon → s.beacons.get? name = lastBeacon? name ts
  within : ∀ line n, (∀ u ∈ sinceFall line ts, u.replays line = true → u.count? = some n) →
    taken line ts ≤ n

namespace Looped

variable {ts : List Turn} {g : Game} {s t : State} {halted halted' : Bool}

theorem beacon_cons (h : Looped ts s) (hs : s.roundStarted = true) (hc : g.Change s t halted')
    {name : String} (hname : name ≠ startBeacon) :
    t.beacons.get? name = lastBeacon? name (⟨g, s, t, halted'⟩ :: ts) := by
  have ho : (Turn.mk g s t halted').opens = false := Turn.opens_of_started hs
  have quiet : (∀ i, ¬ g.program.At s.line i) →
      s.beacons.get? name = lastBeacon? name (⟨g, s, t, halted'⟩ :: ts) := by
    intro hl
    have hi : (Turn.mk g s t halted').instruction? = none := Turn.instruction?_eq_none hl
    rw [lastBeacon?_cons ho, Turn.sets, hi, h.beacon name hname]
    rfl
  have runs : ∀ {i : Instruction} {u : State} {flow : Flow}, g.program.At s.line i →
      g.Runs s.line s i u flow →
      u.beacons.get? name = lastBeacon? name (⟨g, s, t, halted'⟩ :: ts) := by
    intro i u flow hl hruns
    have hi : (Turn.mk g s t halted').instruction? = some i :=
      Turn.instruction?_eq_some.mpr ⟨hs, hl⟩
    rw [lastBeacon?_cons ho, Turn.sets, hi, hruns.get?_beacons, h.beacon name hname]
    rfl
  cases hc with
  | opened _ hs' => cases hs'.symm.trans hs
  | closed _ _ hl => exact quiet (Program.not_at_of_size_le hl)
  | blank _ _ hl => exact quiet (Program.not_at_of_blank hl)
  | @next _ u _ _ hl _ hruns | @jump _ u _ _ _ hl _ hruns => exact runs (u := u) hl hruns
  | halt _ _ hl _ hruns => exact runs hl hruns

/-- What a turn does to the jumps that a state counts, it does to those of the round. -/
theorem jumps_cons (h : Looped ts s) (hm : g.Marked s) (hs : s.roundStarted = true)
    (hc : g.Change s t halted') :
    (∀ line, State.counter t.replayCounters line = taken line (⟨g, s, t, halted'⟩ :: ts)) ∧
      ∀ line n, (∀ u ∈ sinceFall line (⟨g, s, t, halted'⟩ :: ts),
        u.replays line = true → u.count? = some n) →
        taken line (⟨g, s, t, halted'⟩ :: ts) ≤ n := by
  have ho : (Turn.mk g s t halted').opens = false := Turn.opens_of_started hs
  -- what is known of the turns before holds also with this turn, unless it falls through
  have before : ∀ {line n : Nat}, (Turn.mk g s t halted').fallsThrough line = false →
      (∀ u ∈ sinceFall line (⟨g, s, t, halted'⟩ :: ts),
        u.replays line = true → u.count? = some n) → taken line ts ≤ n := by
    intro line n hf hcount
    apply h.within line n
    intro u hu
    apply hcount
    rw [sinceFall_cons ho, hf]
    exact List.mem_cons_of_mem _ hu
  obtain ⟨name, count, hl, hreplays⟩ | ⟨hl, hsame⟩ := hc.replay hs
  · cases hreplays with
    | fell hn hle hcounters hline =>
      have hturn := Turn.falls_of_line t halted' hs hl hline
      have htaken : ∀ line, taken line (⟨g, s, t, halted'⟩ :: ts) =
          if s.line = line then 0 else taken line ts := by
        intro line
        rw [taken_cons ho, (hturn line).1, (hturn line).2]
        simp
      constructor
      · intro line
        rw [hcounters, State.counter_erase, htaken, h.counter]
        simp only [eq_comm]
      · intro line n hcount
        rw [htaken]
        split
        · exact Nat.zero_le n
        · rename_i hne
          exact before (by rw [(hturn line).1]; simpa using hne) hcount
    | @jumped m target hn hlt hcounters hb hline =>
      have hne : t.line ≠ s.line + 1 := by
        rw [hline]
        exact hm.replayTarget_ne hs hl hb
      have hturn := Turn.jumps_of_line t halted' hs hl hne
      have htaken : ∀ line, taken line (⟨g, s, t, halted'⟩ :: ts) =
          if s.line = line then taken line ts + 1 else taken line ts := by
        intro line
        rw [taken_cons ho, (hturn line).1, (hturn line).2]
        by_cases he : s.line = line <;> simp [he]
      rw [h.counter] at hlt
      constructor
      · intro line
        rw [hcounters, State.counter_insert, htaken, h.counter, h.counter]
        by_cases he : s.line = line
        · simp [he]
        · simp [he, Ne.symm he]
      · intro line n hcount
        have hle : taken line ts ≤ n := before (hturn line).1 hcount
        rw [htaken]
        split
        · rename_i he
          subst he
          have hmem : (Turn.mk g s t halted') ∈ sinceFall s.line (⟨g, s, t, halted'⟩ :: ts) := by
            rw [sinceFall_cons ho, (hturn s.line).1]
            exact List.mem_cons_self
          have hreplays : (Turn.mk g s t halted').replays s.line = true := by
            rw [Turn.replays_eq t halted' hs hl]
            exact beq_self_eq_true _
          have hm : some m = some n := by
            rw [← hcount _ hmem hreplays, Turn.count?_eq t halted' hs hl hn]
          cases hm
          exact hlt
        · exact hle
  · have hreplays := Turn.replays_eq_false t halted' hl
    have htaken : ∀ line, taken line (⟨g, s, t, halted'⟩ :: ts) = taken line ts := by
      intro line
      rw [taken_cons ho, Turn.fallsThrough, Turn.jumps, hreplays line]
      rfl
    constructor
    · intro line
      rw [hsame, htaken, h.counter]
    · intro line n hcount
      rw [htaken]
      exact before (by rw [Turn.fallsThrough, hreplays line]; rfl) hcount

theorem cons (h : Looped ts s) (hm : g.Marked s) (hc : g.Change s t halted') :
    Looped (⟨g, s, t, halted'⟩ :: ts) t := by
  cases hs : s.roundStarted with
  | true =>
    obtain ⟨hcounter, hwithin⟩ := h.jumps_cons hm hs hc
    exact ⟨hcounter, fun name hname => h.beacon_cons hs hc hname, hwithin⟩
  | false =>
    have ho : (Turn.mk g s t halted').opens = true := by simp [Turn.opens, hs]
    obtain rfl := hc.opened_of_not_started hs
    refine ⟨fun line => ?_, fun name hname => ?_, fun line n _ => ?_⟩
    · rw [taken_opens ho]
      rfl
    · rw [lastBeacon?_opens ho]
      exact (OrderedMap.get?_insert ..).trans (if_neg hname)
    · rw [taken_opens ho]
      exact Nat.zero_le n

end Looped

namespace Played

variable {ts later earlier : List Turn} {g : Game} {s : State} {halted : Bool} {u : Turn}

theorem looped (h : Played ts g s halted) : Looped ts s := by
  refine invariant h ?_ ?_ ?_
  · exact fun _ => ⟨fun _ => rfl, fun _ _ => rfl, fun _ n _ => Nat.zero_le n⟩
  · exact fun hs ih hc => ih.cons hs.reached.controlled.marked hc
  · exact fun _ _ hs => hs

/-- Each turn of a game changes a state that the turns before it come to. -/
theorem turn (h : Played ts g s halted) : ∀ later, ts = later ++ u :: earlier →
    u.game.program = g.program ∧ ∃ before, Played earlier u.game u.before before ∧
      u.game.Change u.before u.after u.halted := by
  refine invariant h ?_ ?_ ?_
  · intro g later he
    simp at he
  · intro ts g s t halted halted' hs ih hc later he
    cases later with
    | nil =>
      cases he
      exact ⟨rfl, halted, hs, hc⟩
    | cons v later =>
      cases he
      exact ih later rfl
  · intro ts g g' s halted hp _ ih later he
    rw [hp]
    exact ih later he

theorem get?_replayCounters (h : Played ts g s halted) (line : Nat) :
    s.replayCounters.get? line = if taken line ts = 0 then none else some (taken line ts) := by
  have hcounter := h.looped.counter line
  cases hn : s.replayCounters.get? line with
  | none =>
    rw [State.counter, hn, Option.getD_none] at hcounter
    rw [if_pos hcounter.symm]
  | some n =>
    obtain ⟨hpos, _⟩ := h.reached.controlled.marked.replay line n hn
    rw [State.counter, hn, Option.getD_some] at hcounter
    rw [← hcounter, if_neg (Nat.ne_of_gt hpos)]

/-- A replay whose count stays the same falls through after as many jumps. -/
theorem taken_of_falls (h : Played earlier u.game u.before halted)
    (hc : u.game.Change u.before u.after u.halted) {line n : Nat}
    (hf : u.fallsThrough line = true)
    (hn : ∀ v ∈ u :: sinceFall line earlier, v.replays line = true → v.count? = some n) :
    taken line earlier = n := by
  obtain ⟨hr, hnext⟩ := Bool.and_eq_true_iff.mp hf
  obtain ⟨rfl, hs, name, count, hl, hreplays⟩ := Turn.replayed hc hr
  have hnext : u.after.line = u.before.line + 1 := by simpa using hnext
  have hwithin : taken u.before.line earlier ≤ n :=
    h.looped.within _ n fun v hv => hn v (List.mem_cons_of_mem u hv)
  cases hreplays with
  | @fell m hm hle =>
    rw [h.looped.counter] at hle
    have hcount : some m = some n :=
      (Turn.count?_eq u.after u.halted hs hl hm).symm.trans
        (hn u List.mem_cons_self hr)
    have hmn : m = n := Option.some.inj hcount
    omega
  | jumped _ _ _ hb hline =>
    have hne := h.reached.controlled.marked.replayTarget_ne hs hl hb
    exact absurd (hline.symm.trans hnext) hne

/-- A replay jumps to the beginning or behind the line that last set its beacon. -/
theorem line_of_jumps (h : Played earlier u.game u.before halted)
    (hc : u.game.Change u.before u.after u.halted) {line : Nat} (hj : u.jumps line = true)
    {name : String} {count : Expr} (hl : u.game.program.At line (.replay name count)) :
    (name = startBeacon → u.after.line = 0) ∧ (name ≠ startBeacon →
      ∃ place, lastBeacon? name earlier = some place ∧ u.after.line = place + 1) := by
  obtain ⟨hr, hne⟩ := Bool.and_eq_true_iff.mp hj
  obtain ⟨rfl, hs, name', count', hl', hreplays⟩ := Turn.replayed hc hr
  cases hl.eq hl'
  cases hreplays with
  | fell _ _ _ hline => simp [hline] at hne
  | jumped _ _ _ hb hline =>
    constructor
    · rintro rfl
      rw [h.reached.controlled.marked.start hs] at hb
      cases hb
      exact hline
    · intro hname
      refine ⟨_, (h.looped.beacon name hname).symm.trans hb, ?_⟩
      rw [hline, Game.replayTarget, if_neg hname]

/-- The jumps of each replay are counted since it fell through last or the round began, and running
other lines leaves them alone. One whose count stays the same falls through after that many jumps;
and each jump leads to the beginning, or behind the line that last set the beacon in this round. -/
theorem replays_counted (h : Played ts g s halted) :
    (∀ line, s.replayCounters.get? line =
      if taken line ts = 0 then none else some (taken line ts)) ∧
    (∀ (σ : Type) (player : Player σ) (memory : σ) (t : Session σ) (o : Option Outcome)
      (line : Nat),
      g.advance player ⟨s, memory⟩ = (t, o) → s.roundStarted = true → line ≠ s.line →
      t.state.replayCounters.get? line = s.replayCounters.get? line) ∧
    ∀ later u earlier line, ts = later ++ u :: earlier →
      (u.fallsThrough line = true → ∀ n,
        (∀ v ∈ u :: sinceFall line earlier, v.replays line = true → v.count? = some n) →
        taken line earlier = n) ∧
      (u.jumps line = true → ∃ name count, g.program.At line (.replay name count) ∧
        (name = startBeacon → u.after.line = 0) ∧ (name ≠ startBeacon →
          ∃ place, lastBeacon? name earlier = some place ∧ u.after.line = place + 1)) := by
  refine ⟨h.get?_replayCounters,
    fun _ _ _ _ _ _ ha ho hne => Game.advance_replayCounters_ne ha ho hne, ?_⟩
  intro later u earlier line hts
  obtain ⟨hprogram, before, hplayed, hc⟩ := h.turn later hts
  constructor
  · intro hf n hn
    exact hplayed.taken_of_falls hc hf hn
  · intro hj
    obtain ⟨hr, _⟩ := Bool.and_eq_true_iff.mp hj
    obtain ⟨_, _, name, count, hl, _⟩ := Turn.replayed hc hr
    exact ⟨name, count, hprogram ▸ hl, hplayed.line_of_jumps hc hj hl⟩

end Played

/-- A program with one loop inside another. -/
def nestedLoops : Game where
  program := ⟨"beacon(flag_1)\nreplay(flag_1, 2)\nreplay(start, 1)",
    #[some (.beacon "flag_1"), some (.replay "flag_1" (.integer 2 ⟨1, 15, 16⟩)),
      some (.replay "start" (.integer 1 ⟨2, 14, 15⟩))]⟩
  config := {}
  judge := Judge.Cache.judge 0

theorem nestedLoops_load :
    Game.load nestedLoops.program.source {} (Judge.Cache.judge 0) = .ok nestedLoops := by
  cbv

/-- What the game has come to after so many moves. -/
def nestedLoopsAfter : Nat → Session (List String)
  | 0 => ⟨nestedLoops.initial, []⟩
  | n + 1 => (nestedLoops.advance .mailbox (nestedLoopsAfter n)).1

def nestedLoopsTurns : Nat → List Turn
  | 0 => []
  | n + 1 =>
    ⟨nestedLoops, (nestedLoopsAfter n).state, (nestedLoopsAfter (n + 1)).state, false⟩ ::
      nestedLoopsTurns n

theorem Played.replays_counted_nestedLoops :
    Played (nestedLoopsTurns 8) nestedLoops (nestedLoopsAfter 8).state false ∧
      (nestedLoopsAfter 8).state.replayCounters.get? 1 = some 1 ∧
      (nestedLoopsAfter 8).state.replayCounters.get? 2 = some 1 ∧
      (nestedLoopsAfter 9).state.replayCounters.get? 2 = some 1 ∧
      (∃ later u, nestedLoopsTurns 8 = later ++ u :: nestedLoopsTurns 4 ∧
        u.fallsThrough 1 = true ∧ taken 1 (nestedLoopsTurns 4) = 2) ∧
      (∃ later u, nestedLoopsTurns 8 = later ++ u :: nestedLoopsTurns 5 ∧
        u.jumps 2 = true ∧ u.after.line = 0) ∧
      ∃ later u, nestedLoopsTurns 8 = later ++ u :: nestedLoopsTurns 7 ∧ u.jumps 1 = true ∧
        lastBeacon? "flag_1" (nestedLoopsTurns 7) = some 0 ∧ u.after.line = 1 := by
  have next : ∀ n, n < 9 → nestedLoops.advance .mailbox (nestedLoopsAfter n) =
      (nestedLoopsAfter (n + 1), none) := by
    intro n hn
    have hcases : n = 0 ∨ n = 1 ∨ n = 2 ∨ n = 3 ∨ n = 4 ∨ n = 5 ∨ n = 6 ∨ n = 7 ∨ n = 8 := by omega
    obtain rfl | rfl | rfl | rfl | rfl | rfl | rfl | rfl | rfl := hcases
    all_goals exact Prod.ext rfl rfl
  have played : ∀ n, n < 9 →
      Played (nestedLoopsTurns n) nestedLoops (nestedLoopsAfter n).state false := by
    intro n
    induction n with
    | zero => exact fun _ => .new nestedLoops_load
    | succ n ih =>
      intro hn
      exact (ih (Nat.lt_of_succ_lt hn)).advance (next n (Nat.lt_of_succ_lt hn))
  obtain ⟨hcounter, hframe, hturns⟩ := Played.replays_counted (played 8 (by decide))
  have hone := hcounter 1
  have htwo := hcounter 2
  have hkept := hframe _ .mailbox (nestedLoopsAfter 8).memory _ _ 2 (next 8 (by decide)) rfl
    (by decide)
  have hfalls := (hturns ((nestedLoopsTurns 8).take 3) _ (nestedLoopsTurns 4) 1 rfl).1 rfl 2
  have hstart := (hturns ((nestedLoopsTurns 8).take 2) _ (nestedLoopsTurns 5) 2 rfl).2 rfl
  have hflag := (hturns [] _ (nestedLoopsTurns 7) 1 rfl).2 rfl
  have htaken := hfalls (by decide)
  obtain ⟨_, _, hl, hzero, -⟩ := hstart
  cases hl
  obtain ⟨_, _, hl, -, hbehind⟩ := hflag
  cases hl
  obtain ⟨place, hplace, hline⟩ := hbehind (by decide)
  cases hplace
  exact ⟨played 8 (by decide), hone, htwo, hkept.trans htwo,
    ⟨(nestedLoopsTurns 8).take 3, _, rfl, rfl, htaken⟩,
    ⟨(nestedLoopsTurns 8).take 2, _, rfl, rfl, hzero rfl⟩, ⟨[], _, rfl, rfl, rfl, hline⟩⟩

end EntropyGame
