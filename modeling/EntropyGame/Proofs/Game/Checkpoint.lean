import EntropyGame.Proofs.Game.Finite

namespace EntropyGame

open Json

namespace Game

variable {g : Game} {s : State}

theorem RoundBounded.fits {u : Usage} {r : RoundResult} (h : g.RoundBounded u r)
    (hc : g.config.Fits) (hu : u.Fits) : r.Fits where
  round := Nat.lt_trans h.round hc.rounds
  usage := h.usage.fits hu
  history e he := (h.history e (Array.mem_toList_iff.mp he)).fits

/-- Beacons stand on numbered lines. -/
theorem Marked.beacon_lt (hm : g.Marked s) (hg : g.IsLoaded) (ho : s.roundStarted = true)
    {name : String} {line : Nat} (hb : s.beacons.get? name = some line) : line < word := by
  obtain ⟨-, rfl⟩ | ⟨i, hl⟩ := hm.beacon_at ho hb
  · decide
  · exact line_lt hg hl

end Game

namespace Reached

variable {g : Game} {s : State} {halted : Bool}

/-- Where a game halts, its numbers are within their machine words. -/
theorem fits (h : Reached g s true) (hc : g.config.Fits) (hu : s.usage.Fits)
    (hsource : g.program.source.length < word) : s.Fits := by
  have hb := h.bounded hc
  have hg := h.isLoaded
  have hm := h.controlled.marked
  obtain ⟨p, hp⟩ := Option.isSome_iff_exists.mp h.controlled.pending
  have hw := h.controlled.waiting p hp
  obtain ⟨targets, budget, r, n, hl, hr, -⟩ := hw.asked
  have hline : s.line < word := Game.line_lt hg hl
  exact {
    beacons := fun e he => hm.beacon_lt hg hw.started (OrderedMap.get?_of_mem he)
    replayLines := fun e he => by
      obtain ⟨-, _, _, hl⟩ := hm.replay _ _ (OrderedMap.get?_of_mem he)
      exact Game.line_lt hg hl
    replayCounters := fun e he =>
      Nat.lt_of_le_of_lt (hb.replay _ _ (OrderedMap.get?_of_mem he)) (by decide)
    ensureLines := fun e he => by
      obtain ⟨-, _, hl⟩ := hm.ensure _ _ (OrderedMap.get?_of_mem he)
      exact Game.line_lt hg hl
    ensureFailures := fun e he =>
      Nat.lt_trans (hb.ensure _ _ (OrderedMap.get?_of_mem he)) hc.maxEnsureFailures
    line := hline
    round := Nat.lt_trans hw.round hc.rounds
    usage := hu
    roundUsage := hb.roundUsage.fits hu
    steps := Nat.lt_trans hw.steps hc.maxSteps
    pending := fun q hq => by
      rw [hp, Option.some.injEq] at hq
      subst hq
      exact ⟨hw.line ▸ hline, Nat.lt_trans (Program.load_target hg hl hr) hsource⟩
    history := fun e he => (hb.history e (Array.mem_toList_iff.mp he)).fits
    completed := fun r hr => (hb.completed r (Array.mem_toList_iff.mp hr)).fits hc hu }

theorem resumes (h : Reached g s halted) {make : JudgeMaker}
    (hj : make g.judge.config = .ok g.judge) : (g.save s).resume make = .ok (g, s) := by
  have hp : Program.load g.program.source g.config = .ok g.program := h.isLoaded
  have hline : ¬ g.program.size < s.line := Nat.not_lt.mpr h.controlled.line_le
  simp only [SavedGame.resume, Game.save, hp, bind, Except.bind, if_neg hline, hj]

end Reached

theorem Judge.config_builtin {config : JudgeConfig} {judge : Judge}
    (h : Judge.builtin config = .ok judge) : judge.config = config := by
  rw [builtin] at h
  split at h
  · rename_i hm
    cases h
    obtain ⟨model, seed⟩ := config
    exact congrArg (fun m => JudgeConfig.mk m seed) hm.symm
  · cases h

/-- What a halted game saves reads back, and the same game goes on from it. -/
theorem Reached.reads_and_resumes {g : Game} {s : State} (h : Reached g s true)
    {config : JudgeConfig} (hj : Judge.builtin config = .ok g.judge) (hseed : config.seed < word)
    (hc : g.config.Fits) (hu : s.usage.Fits) (hsource : g.program.source.length < word)
    (hx : ∀ x ∈ s.floats, x.isFinite = true → ReadsBack x) :
    ∃ saved, Checkpoint.read (Checkpoint.state (g.save s)).write = .ok (.state saved) ∧
      saved.resume Judge.builtin = .ok (g, s) := by
  have hconfig := Judge.config_builtin hj
  subst hconfig
  have hf : (Checkpoint.state (g.save s)).Fits := ⟨hc, h.fits hc hu hsource, hseed⟩
  exact ⟨g.save s, Checkpoint.read_write hf fun x hmem => hx x hmem (h.isFinite.of_mem_floats hmem),
    h.resumes hj⟩

/-- A checkpoint whose doubles are finite reads back as it was and is written alike again; and a
game that halts goes on from what is read back of it with the same program, config, judge and
state. Counts are those of machine words, and of the doubles that occur it is taken for granted that
each reads back if it is finite. -/
theorem Checkpoint.read_write_resume :
    (∀ c : Checkpoint, c.Fits → (∀ x ∈ c.floats, x.isFinite = true) →
      (∀ x ∈ c.floats, x.isFinite = true → ReadsBack x) →
      read c.write = .ok c ∧ (read c.write).map write = .ok c.write) ∧
    ∀ (g : Game) (s : State) (config : JudgeConfig), Reached g s true →
      Judge.builtin config = .ok g.judge → config.seed < word → g.config.Fits → s.usage.Fits →
      g.program.source.length < word → (∀ x ∈ s.floats, x.isFinite = true → ReadsBack x) →
      ∃ saved, read (state (g.save s)).write = .ok (.state saved) ∧
        saved.resume Judge.builtin = .ok (g, s) := by
  constructor
  · intro c hf hfinite hx
    have hr : read c.write = .ok c := read_write hf fun x hmem => hx x hmem (hfinite x hmem)
    exact ⟨hr, by rw [hr, Except.map]⟩
  · intro g s config h hj hseed hc hu hsource hx
    exact h.reads_and_resumes hj hseed hc hu hsource hx

/-- A program that pays a reward and then waits for its player. -/
def paidRequest : Game where
  program := ⟨"reward(3)\nelicit(s, 1)",
    #[some (.reward (.integer 3 ⟨0, 7, 8⟩)),
      some (.elicit [.first .s] (.integer 1 ⟨1, 10, 11⟩))]⟩
  config := {}
  judge := Judge.Cache.judge 0

/-- What it comes to step by step when nobody answers. -/
def paidRequestAfter : Nat → Session (List String)
  | 0 => ⟨paidRequest.initial, []⟩
  | n + 1 => (paidRequest.advance .mailbox (paidRequestAfter n)).1

theorem paidRequest_load :
    Game.load paidRequest.program.source {} (Judge.Cache.judge 0) = .ok paidRequest := by
  cbv

/-- The result of a round that pays the same. -/
def paidRound : RoundResult :=
  ⟨0, 3, {}, #[.roundFinished 0 3]⟩

theorem paidRound_fits : paidRound.Fits where
  round := by decide
  usage := ⟨by decide, by decide⟩
  history e he := by
    obtain rfl := List.mem_singleton.mp he
    exact (by decide : 0 < word)

theorem Checkpoint.read_write_resume_paidRequest :
    read (results #[paidRound]).write = .ok (results #[paidRound]) ∧
    ∃ saved, read (state (paidRequest.save (paidRequestAfter 3).state)).write = .ok (.state saved) ∧
      saved.resume Judge.builtin = .ok (paidRequest, (paidRequestAfter 3).state) := by
  obtain ⟨hfirst, hsecond⟩ := Checkpoint.read_write_resume
  have hthree : ReadsBack 3 := by rfl
  have ho : paidRequest.advance .mailbox (paidRequestAfter 0) = (paidRequestAfter 1, none) := by rfl
  have hp : paidRequest.advance .mailbox (paidRequestAfter 1) = (paidRequestAfter 2, none) := by rfl
  have hw : paidRequest.advance .mailbox (paidRequestAfter 2) =
      (paidRequestAfter 3, some .halted) := by rfl
  have hr : Reached paidRequest (paidRequestAfter 3).state true :=
    .halt (.advance (.advance (.new paidRequest_load) ho) hp) hw
  have hrounds : (results #[paidRound]).floats = [3, 3] := by rfl
  have hstate : (paidRequestAfter 3).state.floats = [3, 3, 3, 3] := by rfl
  have hu : (paidRequestAfter 3).state.usage = {} := by rfl
  constructor
  · refine (hfirst (results #[paidRound]) ?_ ?_ ?_).1
    · intro r hr
      obtain rfl := List.mem_singleton.mp hr
      exact paidRound_fits
    · rw [hrounds]
      intro x hx
      have hx : x = 3 := by simpa using hx
      exact hx ▸ hthree.isFinite
    · rw [hrounds]
      intro x hx _
      have hx : x = 3 := by simpa using hx
      exact hx ▸ hthree
  · refine hsecond _ _ {} hr rfl (by decide) ⟨by decide, by decide, by decide, by decide⟩ ?_
      (by decide) ?_
    · rw [hu]
      exact ⟨by decide, by decide⟩
    · rw [hstate]
      intro x hx _
      have hx : x = 3 := by simpa using hx
      exact hx ▸ hthree

end EntropyGame
