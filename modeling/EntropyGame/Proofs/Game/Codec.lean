import EntropyGame.Game.Checkpoint
import EntropyGame.Proofs.Game.Event

namespace EntropyGame

open Json

/-- The counts of tokens are within machine words. -/
structure Usage.Fits (u : Usage) : Prop where
  input : u.inputTokens < word
  output : u.outputTokens < word

structure Pending.Fits (p : Pending) : Prop where
  line : p.line < word
  next : p.next < word

structure RoundResult.Fits (r : RoundResult) : Prop where
  round : r.round < word
  usage : r.usage.Fits
  history : ∀ e ∈ r.history.toList, e.Fits

structure State.Fits (s : State) : Prop where
  beacons : ∀ e ∈ s.beacons.entries, e.2 < word
  replayLines : ∀ e ∈ s.replayCounters.entries, e.1 < word
  replayCounters : ∀ e ∈ s.replayCounters.entries, e.2 < word
  ensureLines : ∀ e ∈ s.ensureFailures.entries, e.1 < word
  ensureFailures : ∀ e ∈ s.ensureFailures.entries, e.2 < halfWord
  line : s.line < word
  round : s.round < word
  usage : s.usage.Fits
  roundUsage : s.roundUsage.Fits
  steps : s.steps < word
  pending : ∀ p, s.pending = some p → p.Fits
  history : ∀ e ∈ s.history.toList, e.Fits
  completed : ∀ r ∈ s.completed.toList, r.Fits

structure GameConfig.Fits (c : GameConfig) : Prop where
  rounds : c.rounds < word
  maxEnsureFailures : c.maxEnsureFailures < halfWord
  maxSteps : c.maxSteps < word
  maxLines : c.maxLines < word

structure SavedGame.Fits (saved : SavedGame) : Prop where
  config : saved.config.Fits
  state : saved.state.Fits
  seed : saved.judge.seed < word

/-- Every number of a checkpoint is within its machine word. -/
def Checkpoint.Fits : Checkpoint → Prop
  | results rounds => ∀ r ∈ rounds.toList, r.Fits
  | state game => game.Fits

def historyFloats (history : Array Event) : List Float :=
  history.toList.flatMap Event.floats

def RoundResult.floats (r : RoundResult) : List Float :=
  r.score :: historyFloats r.history

def roundsFloats (rounds : Array RoundResult) : List Float :=
  rounds.toList.flatMap RoundResult.floats

def State.floats (s : State) : List Float :=
  s.roundScore :: s.totalScore :: (s.registers.entries.flatMap (·.2.floats) ++
    historyFloats s.history ++ roundsFloats s.completed)

/-- The doubles of a checkpoint. -/
def Checkpoint.floats : Checkpoint → List Float
  | results rounds => roundsFloats rounds
  | state game => game.state.floats

theorem Usage.ofJson?_toJson {u : Usage} (h : u.Fits) : Usage.ofJson? u.toJson = some u := by
  refine bind_record? (by simp) fun field hfield => ?_
  simp only [List.forall_mem_cons] at hfield
  obtain ⟨hin, hout, -⟩ := hfield
  exact bind_of_some hin (bind_of_some (toNat?_nat h.input)
    (bind_of_some hout (bind_of_some (toNat?_nat h.output) rfl)))

theorem Usage.readable_toJson {u : Usage} (h : u.Fits) : Readable 1 u.toJson :=
  .object (by simp [readable_nat h.input, readable_nat h.output])

theorem Pending.ofJson?_toJson {p : Pending} (h : p.Fits) : Pending.ofJson? p.toJson = some p := by
  refine bind_record? (by simp) fun field hfield => ?_
  simp only [List.forall_mem_cons] at hfield
  obtain ⟨hline, hnext, hrequested, -⟩ := hfield
  exact bind_of_some hline (bind_of_some (toNat?_nat h.line)
    (bind_of_some hnext (bind_of_some (toNat?_nat h.next)
      (bind_of_some hrequested (bind_of_some rfl rfl)))))

theorem Pending.readable_toJson {p : Pending} (h : p.Fits) : Readable 1 p.toJson :=
  .object (by simp [readable_nat h.line, readable_nat h.next, Readable.bool])

section

variable {history : Array Event}

theorem historyOfJson?_historyToJson (hf : ∀ e ∈ history.toList, e.Fits)
    (hx : ∀ x ∈ historyFloats history, ReadsBack x) :
    historyOfJson? (historyToJson history) = some history := by
  have h : toList? Event.ofJson? (.array (history.toList.map Event.toJson)) = some history.toList :=
    toList?_map fun e he => Event.ofJson?_toJson (hf e he) fun x hxe =>
      hx x (List.mem_flatMap.mpr ⟨e, he, hxe⟩)
  simp [historyOfJson?, historyToJson, h]

theorem readable_historyToJson (hf : ∀ e ∈ history.toList, e.Fits)
    (hx : ∀ x ∈ historyFloats history, ReadsBack x) : Readable 7 (historyToJson history) :=
  readable_map fun e he => Event.readable_toJson (hf e he) fun x hxe =>
    hx x (List.mem_flatMap.mpr ⟨e, he, hxe⟩)

end

section

variable {r : RoundResult}

theorem RoundResult.ofJson?_toJson (hf : r.Fits) (hx : ∀ x ∈ r.floats, ReadsBack x) :
    RoundResult.ofJson? r.toJson = some r := by
  have hscore : r.score.isFinite = true := (hx _ List.mem_cons_self).isFinite
  have hh : historyOfJson? (historyToJson r.history) = some r.history :=
    historyOfJson?_historyToJson hf.history fun x hxh => hx x (List.mem_cons_of_mem _ hxh)
  refine bind_record? (by simp) fun field hfield => ?_
  simp only [List.forall_mem_cons] at hfield
  obtain ⟨hr, hs, hu, hhistory, -⟩ := hfield
  exact bind_of_some hr (bind_of_some (toNat?_nat hf.round)
    (bind_of_some hs (bind_of_some (toFloat?_number hscore)
      (bind_of_some hu (bind_of_some (Usage.ofJson?_toJson hf.usage)
        (bind_of_some hhistory (bind_of_some hh rfl)))))))

theorem RoundResult.readable_toJson (hf : r.Fits) (hx : ∀ x ∈ r.floats, ReadsBack x) :
    Readable 8 r.toJson := by
  have hscore : ReadsBack r.score := hx _ List.mem_cons_self
  have hu : Readable 7 r.usage.toJson := (Usage.readable_toJson hf.usage).mono (by decide)
  have hh : Readable 7 (historyToJson r.history) :=
    readable_historyToJson hf.history fun x hxh => hx x (List.mem_cons_of_mem _ hxh)
  exact .object (by simp [readable_nat hf.round, readable_number hscore, hu, hh])

end

section

variable {rounds : Array RoundResult}

theorem roundsOfJson?_roundsToJson (hf : ∀ r ∈ rounds.toList, r.Fits)
    (hx : ∀ x ∈ roundsFloats rounds, ReadsBack x) :
    roundsOfJson? (roundsToJson rounds) = some rounds := by
  have h : toList? RoundResult.ofJson? (.array (rounds.toList.map RoundResult.toJson)) =
      some rounds.toList :=
    toList?_map fun r hr => RoundResult.ofJson?_toJson (hf r hr) fun x hxr =>
      hx x (List.mem_flatMap.mpr ⟨r, hr, hxr⟩)
  simp [roundsOfJson?, roundsToJson, h]

theorem readable_roundsToJson (hf : ∀ r ∈ rounds.toList, r.Fits)
    (hx : ∀ x ∈ roundsFloats rounds, ReadsBack x) : Readable 9 (roundsToJson rounds) :=
  readable_map fun r hr => RoundResult.readable_toJson (hf r hr) fun x hxr =>
    hx x (List.mem_flatMap.mpr ⟨r, hr, hxr⟩)

end

theorem Registers.ofJson?_toJson {rs : Registers}
    (hx : ∀ x ∈ rs.entries.flatMap (·.2.floats), x.isFinite = true) :
    Registers.ofJson? rs.toJson = some rs := by
  have hm : (ofMap Register.name Value.toJson rs).toMap? Register.ofName? Value.ofJson? = some rs :=
    toMap?_ofMap (fun e _ => e.1.ofName?_name) fun e he => Value.decode?_toJson
      (fun x hxe => hx x (List.mem_flatMap.mpr ⟨e, he, hxe⟩)) false
  refine bind_record? (by simp) fun field hfield => ?_
  simp only [List.forall_mem_cons] at hfield
  exact bind_of_some hfield.1 hm

theorem Registers.readable_toJson {rs : Registers}
    (hx : ∀ x ∈ rs.entries.flatMap (·.2.floats), ReadsBack x) : Readable 6 rs.toJson := by
  have hm : Readable 5 (ofMap Register.name Value.toJson rs) :=
    readable_ofMap fun e he => Value.readable_toJson fun x hxe =>
      hx x (List.mem_flatMap.mpr ⟨e, he, hxe⟩)
  exact .object (by simp [hm])

theorem orNone_pendingToJson {pending : Option Pending} (h : ∀ p, pending = some p → p.Fits) :
    orNone Pending.ofJson? (some (State.pendingToJson pending)) = some pending := by
  cases pending with
  | none => rfl
  | some p =>
    have hp : Pending.ofJson? p.toJson = some p := Pending.ofJson?_toJson (h p rfl)
    rw [Pending.toJson] at hp
    simp [orNone, State.pendingToJson, Pending.toJson, toNullable?, hp]

theorem readable_pendingToJson {pending : Option Pending} (h : ∀ p, pending = some p → p.Fits) :
    Readable 1 (State.pendingToJson pending) := by
  cases pending with
  | none => exact .null
  | some p => exact Pending.readable_toJson (h p rfl)

namespace State

variable {s : State}

theorem ofJson?_toJson (hf : s.Fits) (hx : ∀ x ∈ s.floats, ReadsBack x) :
    ofJson? s.toJson = some s := by
  simp only [floats, List.mem_cons, List.mem_append] at hx
  have hregisters : Registers.ofJson? s.registers.toJson = some s.registers :=
    Registers.ofJson?_toJson fun x hr => (hx x (.inr (.inr (.inl (.inl hr))))).isFinite
  have hbeacons : (ofMap id nat s.beacons).toMap? some (toNat? word) = some s.beacons :=
    toMap?_ofMap (fun _ _ => rfl) fun e he => toNat?_nat (hf.beacons e he)
  have hreplays : toCounts? (toNat? word) (ofMap toString nat s.replayCounters) =
      some s.replayCounters :=
    toCounts?_ofMap hf.replayLines fun e he => toNat?_nat (hf.replayCounters e he)
  have hfailures : toCounts? (toNat? halfWord) (ofMap toString nat s.ensureFailures) =
      some s.ensureFailures :=
    toCounts?_ofMap hf.ensureLines fun e he => toNat?_nat (hf.ensureFailures e he)
  have hround : s.roundScore.isFinite = true := (hx _ (.inl rfl)).isFinite
  have htotal : s.totalScore.isFinite = true := (hx _ (.inr (.inl rfl))).isFinite
  have hhistory : historyOfJson? (historyToJson s.history) = some s.history :=
    historyOfJson?_historyToJson hf.history fun x hh => hx x (.inr (.inr (.inl (.inr hh))))
  have hcompleted : roundsOfJson? (roundsToJson s.completed) = some s.completed :=
    roundsOfJson?_roundsToJson hf.completed fun x hc => hx x (.inr (.inr (.inr hc)))
  refine bind_record? (by simp) fun field hfield => ?_
  simp only [List.forall_mem_cons] at hfield
  obtain ⟨h1, h2, h3, h4, h5, h6, h7, h8, h9, h10, h11, h12, h13, h14, h15, -⟩ := hfield
  have hpending : orNone Pending.ofJson? (field "pending_elicit") = some s.pending := by
    rw [h13, orNone_pendingToJson hf.pending]
  refine bind_of_some h1 (bind_of_some hregisters ?_)
  refine bind_of_some h2 (bind_of_some hbeacons ?_)
  refine bind_of_some h3 (bind_of_some hreplays ?_)
  refine bind_of_some h4 (bind_of_some hfailures ?_)
  refine bind_of_some h5 (bind_of_some (toNat?_nat hf.line) ?_)
  refine bind_of_some h6 (bind_of_some (toNat?_nat hf.round) ?_)
  refine bind_of_some h7 (bind_of_some rfl ?_)
  refine bind_of_some h8 (bind_of_some (toFloat?_number hround) ?_)
  refine bind_of_some h9 (bind_of_some (toFloat?_number htotal) ?_)
  refine bind_of_some h10 (bind_of_some (Usage.ofJson?_toJson hf.usage) ?_)
  refine bind_of_some h11 (bind_of_some (Usage.ofJson?_toJson hf.roundUsage) ?_)
  refine bind_of_some h12 (bind_of_some (toNat?_nat hf.steps) ?_)
  refine bind_of_some hpending ?_
  refine bind_of_some h14 (bind_of_some hhistory ?_)
  exact bind_of_some h15 (bind_of_some hcompleted rfl)

theorem readable_toJson (hf : s.Fits) (hx : ∀ x ∈ s.floats, ReadsBack x) :
    Readable 10 s.toJson := by
  simp only [floats, List.mem_cons, List.mem_append] at hx
  have counts : ∀ {α : Type} (name : α → String) {m : OrderedMap α Nat},
      (∀ e ∈ m.entries, e.2 < word) → Readable 9 (ofMap name nat m) :=
    fun name m hm => readable_ofMap fun e he => readable_nat (hm e he)
  have hregisters : Readable 9 s.registers.toJson :=
    (Registers.readable_toJson fun x hr => hx x (.inr (.inr (.inl (.inl hr))))).mono (by decide)
  have hfailures : Readable 9 (ofMap toString nat s.ensureFailures) :=
    counts toString fun e he => Nat.lt_trans (hf.ensureFailures e he) (by decide)
  have hround : ReadsBack s.roundScore := hx _ (.inl rfl)
  have htotal : ReadsBack s.totalScore := hx _ (.inr (.inl rfl))
  have husage : Readable 9 s.usage.toJson := (Usage.readable_toJson hf.usage).mono (by decide)
  have hroundUsage : Readable 9 s.roundUsage.toJson :=
    (Usage.readable_toJson hf.roundUsage).mono (by decide)
  have hpending : Readable 9 (pendingToJson s.pending) :=
    (readable_pendingToJson hf.pending).mono (by decide)
  have hhistory : Readable 9 (historyToJson s.history) :=
    (readable_historyToJson hf.history fun x hh =>
      hx x (.inr (.inr (.inl (.inr hh))))).mono (by decide)
  have hcompleted : Readable 9 (roundsToJson s.completed) :=
    readable_roundsToJson hf.completed fun x hc => hx x (.inr (.inr (.inr hc)))
  exact .object (by
    simp [hregisters, counts _ hf.beacons, counts _ hf.replayCounters, hfailures,
      readable_nat hf.line, readable_nat hf.round, Readable.bool, readable_number hround,
      readable_number htotal, husage, hroundUsage, readable_nat hf.steps, hpending, hhistory,
      hcompleted])

end State

theorem GameConfig.ofJson?_toJson {c : GameConfig} (h : c.Fits) :
    GameConfig.ofJson? c.toJson = some c := by
  have hp : toMap? some toText? (ofMap id .string c.presets) = some c.presets :=
    toMap?_ofMap (fun _ _ => rfl) fun _ _ => rfl
  refine bind_record? (by simp) fun field hfield => ?_
  simp only [List.forall_mem_cons] at hfield
  obtain ⟨hrounds, hfailures, hsteps, hlines, hpresets, -⟩ := hfield
  exact bind_of_some (orDefault_some hrounds (toNat?_nat h.rounds))
    (bind_of_some (orDefault_some hfailures (toNat?_nat h.maxEnsureFailures))
      (bind_of_some (orDefault_some hsteps (toNat?_nat h.maxSteps))
        (bind_of_some (orDefault_some hlines (toNat?_nat h.maxLines))
          (bind_of_some (orDefault_some hpresets hp) rfl))))

theorem GameConfig.readable_toJson {c : GameConfig} (h : c.Fits) : Readable 2 c.toJson := by
  have hfailures : c.maxEnsureFailures < word := Nat.lt_trans h.maxEnsureFailures (by decide)
  have hp : Readable 1 (ofMap id .string c.presets) := readable_ofMap fun _ _ => .string _
  exact .object (by
    simp [readable_nat h.rounds, readable_nat hfailures, readable_nat h.maxSteps,
      readable_nat h.maxLines, hp])

theorem JudgeConfig.ofJson?_toJson {c : JudgeConfig} (h : c.seed < word) :
    JudgeConfig.ofJson? c.toJson = some c := by
  refine bind_record? (by simp) fun field hfield => ?_
  simp only [List.forall_mem_cons] at hfield
  obtain ⟨hmodel, hseed, -⟩ := hfield
  exact bind_of_some hmodel (bind_of_some rfl
    (bind_of_some (orDefault_some hseed (toNat?_nat h)) rfl))

theorem JudgeConfig.readable_toJson {c : JudgeConfig} (h : c.seed < word) : Readable 1 c.toJson :=
  .object (by simp [Readable.string, readable_nat h])

section

variable {saved : SavedGame}

theorem SavedGame.ofJson?_toJson (hf : saved.Fits) (hx : ∀ x ∈ saved.state.floats, ReadsBack x) :
    SavedGame.ofJson? saved.toJson = some saved := by
  refine bind_record? (by simp) fun field hfield => ?_
  simp only [List.forall_mem_cons] at hfield
  obtain ⟨hprogram, hconfig, hstate, hjudge, -⟩ := hfield
  exact bind_of_some hprogram (bind_of_some rfl
    (bind_of_some hconfig (bind_of_some (GameConfig.ofJson?_toJson hf.config)
      (bind_of_some hstate (bind_of_some (State.ofJson?_toJson hf.state hx)
        (bind_of_some hjudge (bind_of_some (JudgeConfig.ofJson?_toJson hf.seed) rfl)))))))

theorem SavedGame.readable_toJson (hf : saved.Fits)
    (hx : ∀ x ∈ saved.state.floats, ReadsBack x) : Readable 11 saved.toJson := by
  have hconfig : Readable 10 saved.config.toJson :=
    (GameConfig.readable_toJson hf.config).mono (by decide)
  have hjudge : Readable 10 saved.judge.toJson :=
    (JudgeConfig.readable_toJson hf.seed).mono (by decide)
  exact .object (by
    simp [Readable.string, hconfig, State.readable_toJson hf.state hx, hjudge])

end

namespace Checkpoint

variable {c : Checkpoint}

theorem ofJson?_toJson (hf : c.Fits) (hx : ∀ x ∈ c.floats, ReadsBack x) :
    ofJson? c.toJson = some c := by
  cases c with
  | results rounds =>
    have h : roundsOfJson? (roundsToJson rounds) = some rounds := roundsOfJson?_roundsToJson hf hx
    simp [toJson, ofJson?, h]
  | state game =>
    have h : SavedGame.ofJson? game.toJson = some game := SavedGame.ofJson?_toJson hf hx
    simp [toJson, ofJson?, h]

theorem readable_toJson (hf : c.Fits) (hx : ∀ x ∈ c.floats, ReadsBack x) :
    Readable 12 c.toJson := by
  cases c with
  | results rounds =>
    have h : Readable 11 (roundsToJson rounds) := (readable_roundsToJson hf hx).mono (by decide)
    exact .object (by simp [h])
  | state game => exact .object (by simp [SavedGame.readable_toJson hf hx])

/-- A checkpoint reads back from what is written of it. -/
theorem read_write (hf : c.Fits) (hx : ∀ x ∈ c.floats, ReadsBack x) : read c.write = .ok c := by
  have ht : Json.ofText? c.toJson.toPretty = some c.toJson :=
    ((readable_toJson hf hx).mono (by decide)).ofText?_toPretty
  rw [read, write, ht, Option.bind_some, ofJson?_toJson hf hx]

end Checkpoint

end EntropyGame
