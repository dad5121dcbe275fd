import EntropyGame.Proofs.Game.Codec
import EntropyGame.Proofs.Game.Internal
import EntropyGame.Proofs.Value.Finite

namespace EntropyGame

open Json

namespace Event

variable {line : Nat} {x : Float}

theorem isFinite_of_mem_reveal {values : List Value} (h : ∀ v ∈ values, v.isFinite = true)
    (hx : x ∈ (reveal line values).floats) : x.isFinite = true := by
  obtain ⟨v, hv, hx⟩ := List.mem_flatMap.mp hx
  exact Value.isFinite_of_mem_floats (h v hv) hx

theorem isFinite_of_mem_reward {v : Value} {score : Float} (hv : v.isFinite = true)
    (hs : score.isFinite = true) (hx : x ∈ (reward line v score).floats) : x.isFinite = true := by
  obtain rfl | hx := List.mem_cons.mp hx
  · exact hs
  · exact Value.isFinite_of_mem_floats hv hx

end Event

/-- An event whose counts are within machine words and whose doubles are finite. -/
structure Event.Writable (e : Event) : Prop where
  fits : e.Fits
  finite : ∀ x ∈ e.floats, x.isFinite = true

/-- No more tokens of either kind. -/
structure Usage.Within (u v : Usage) : Prop where
  input : u.inputTokens ≤ v.inputTokens
  output : u.outputTokens ≤ v.outputTokens

theorem Usage.Within.fits {u v : Usage} (h : u.Within v) (hv : v.Fits) : u.Fits :=
  ⟨Nat.lt_of_le_of_lt h.input hv.input, Nat.lt_of_le_of_lt h.output hv.output⟩

theorem Usage.Within.add {u v : Usage} (h : u.Within v) (w : Usage) : (u + w).Within (v + w) :=
  ⟨Nat.add_le_add_right h.input _, Nat.add_le_add_right h.output _⟩

theorem Usage.Within.add_right {u v : Usage} (h : u.Within v) (w : Usage) : u.Within (v + w) :=
  ⟨Nat.le_trans h.input (Nat.le_add_right _ _), Nat.le_trans h.output (Nat.le_add_right _ _)⟩

theorem Value.count?_le {v : Value} {n : Nat} (h : v.count? = some n) : n ≤ greatestCount := by
  unfold count? at h
  split at h
  · dsimp only at h
    split at h
    · cases h
      exact (‹_ ∧ _ ∧ _›).2.1
    · cases h
  · cases h

namespace Game

variable {g : Game} {s t : State}

/-- The results of one of the rounds of a game, with a part of its usage. -/
structure RoundBounded (g : Game) (u : Usage) (r : RoundResult) : Prop where
  round : r.round < g.config.rounds
  score : r.score.isFinite = true
  usage : r.usage.Within u
  history : ∀ e ∈ r.history, e.Writable

/-- The counts of a state are bounded and its doubles are finite. -/
structure Bounded (g : Game) (s : State) : Prop where
  history : ∀ e ∈ s.history, e.Writable
  completed : ∀ r ∈ s.completed, g.RoundBounded s.usage r
  roundScore : s.roundScore.isFinite = true
  totalScore : s.totalScore.isFinite = true
  roundUsage : s.roundUsage.Within s.usage
  replay : ∀ line n, s.replayCounters.get? line = some n → n ≤ Value.greatestCount
  ensure : ∀ line n, s.ensureFailures.get? line = some n → n < g.config.maxEnsureFailures

theorem Bounded.record (h : g.Bounded s) {e : Event} (he : e.Writable) : g.Bounded (s.record e) where
  history e' he' := by
    obtain he' | rfl := Array.mem_push.mp he'
    · exact h.history e' he'
    · exact he
  completed := h.completed
  roundScore := h.roundScore
  totalScore := h.totalScore
  roundUsage := h.roundUsage
  replay := h.replay
  ensure := h.ensure

theorem Bounded.addUsage (h : g.Bounded s) (u : Usage) : g.Bounded (s.addUsage u) where
  history := h.history
  completed r hr :=
    have hb := h.completed r hr
    ⟨hb.round, hb.score, hb.usage.add_right u, hb.history⟩
  roundScore := h.roundScore
  totalScore := h.totalScore
  roundUsage := h.roundUsage.add u
  replay := h.replay
  ensure := h.ensure

theorem line_lt (hg : g.IsLoaded) {line : Nat} {i : Instruction} (hl : g.program.At line i) :
    line < word :=
  Nat.lt_trans (Program.load_at hg hl).1 (by decide)

theorem evalCount_le {fault : Value → Fault} {e : Expr} {n : Nat}
    (h : g.evalCount s fault e = .ok n) : n ≤ Value.greatestCount := by
  obtain ⟨v, _, h⟩ := bind_ok h
  split at h
  · cases h
    exact Value.count?_le ‹_›
  · cases h

theorem eval_isFinite (hg : g.IsLoaded) {line : Nat} {i : Instruction} (hl : g.program.At line i)
    (hs : s.registers.Typed) {e : Expr} (he : e ∈ i.expressions) {v : Value}
    (h : g.eval s e = .ok v) : v.isFinite = true :=
  Expr.eval_isFinite hs (fun _ _ hn => Program.load_integer hg hl (hn ▸ he)) h

theorem evalAll_isFinite (hg : g.IsLoaded) {line : Nat} {i : Instruction}
    (hl : g.program.At line i) (hs : s.registers.Typed) {values : List Value}
    (h : (i.expressions.mapM fun e => g.eval s e) = .ok values) :
    ∀ v ∈ values, v.isFinite = true := by
  intro v hv
  obtain ⟨k, hk⟩ := List.getElem?_of_mem hv
  obtain ⟨e, he, hev⟩ := mapM_ok h hk
  exact eval_isFinite hg hl hs (List.mem_of_getElem? he) hev

theorem scoreOf_isFinite {v : Value} (hv : v.isFinite = true) {x : Float}
    (h : scoreOf v = .ok x) : x.isFinite = true := by
  unfold scoreOf at h
  split at h
  · cases h
    exact hv
  · cases h
    simp only [Value.isFinite, CostVector.isFinite, Bool.and_eq_true] at hv
    exact hv.2
  · cases h

theorem Asked.bounded {line budget : Nat} {rs : List Register} {position : Nat}
    {announced halted : Bool} (h : Asked g line budget rs position announced s t halted)
    (hline : line < word) (hbudget : budget < word) (hs : g.Bounded s) : g.Bounded t := by
  have announce : ∀ {s : State} (r : Register) (announced : Bool), g.Bounded s →
      g.Bounded (s.announce line budget r announced) := by
    intro s r announced hs
    cases announced with
    | false => exact hs.record ⟨⟨hline, hbudget⟩, by simp [Event.floats]⟩
    | true => exact hs
  induction h with
  | done => exact hs
  | @halted r rs position announced s => exact { announce r announced hs with }
  | @answered r rs position announced _ s t registers move _ _ ih =>
    have ha : g.Bounded { s.announce line budget r announced with registers } :=
      { announce r announced hs with }
    exact ih ((ha.addUsage move.usage).record ⟨hline, by simp [Event.floats]⟩)

theorem Runs.bounded {line : Nat} {i : Instruction} {flow : Flow} (h : Runs g line s i t flow)
    (hg : g.IsLoaded) (hc : g.config.Fits) (hl : g.program.At line i) (hm : g.Marked s)
    (hr : s.registers.Typed) (hs : g.Bounded s) : g.Bounded t := by
  have hline : line < word := line_lt hg hl
  cases h with
  | assign _ hw =>
    rw [writeAll_frame hw]
    exact { hs with }
  | reveal hv =>
    have hfin := evalAll_isFinite hg hl hr hv
    exact hs.record ⟨hline, fun _ => Event.isFinite_of_mem_reveal hfin⟩
  | elicit hn ha =>
    exact ha.bounded hline (Nat.lt_of_le_of_lt (evalCount_le hn) (by decide)) { hs with }
  | passed => exact { hs with ensure := OrderedMap.forall_erase hs.ensure line }
  | @retried conditions results target _ _ hb hlt =>
    obtain ⟨_, _, ht⟩ := hm.elicit target hb
    let attempt := State.counter s.ensureFailures line + 1
    have hattempt : attempt < halfWord := Nat.lt_trans hlt hc.maxEnsureFailures
    have hf : g.Bounded { s with ensureFailures := s.ensureFailures.insert line attempt } :=
      { hs with ensure := OrderedMap.forall_insert hs.ensure hlt }
    exact hf.record ⟨⟨hline, line_lt hg ht, hattempt⟩, by simp [Event.floats]⟩
  | @reward e v x hv hx hround htotal =>
    have hfin := eval_isFinite hg hl hr List.mem_cons_self hv
    have hadd : g.Bounded (s.addScore x) := { hs with roundScore := hround, totalScore := htotal }
    exact hadd.record ⟨hline, fun _ =>
      Event.isFinite_of_mem_reward hfin (scoreOf_isFinite hfin hx)⟩
  | beacon => exact { hs with }
  | fellThrough => exact { hs with replay := OrderedMap.forall_erase hs.replay line }
  | replayed hn hlt =>
    have hle := Nat.le_trans hlt (evalCount_le hn)
    exact { hs with replay := OrderedMap.forall_insert hs.replay hle }

theorem isFinite_zero : (0 : Float).isFinite = true := by
  decide

theorem beginRound_bounded (hs : g.Bounded s) : g.Bounded s.beginRound where
  history e he := absurd he (Array.not_mem_empty e)
  completed := hs.completed
  roundScore := isFinite_zero
  totalScore := hs.totalScore
  roundUsage := ⟨Nat.zero_le _, Nat.zero_le _⟩
  replay _ _ hn := nomatch hn
  ensure _ _ hn := nomatch hn

theorem finishRound_bounded (hs : g.Bounded s) (hr : s.round < g.config.rounds) :
    g.Bounded s.finishRound where
  history e he := absurd he (Array.not_mem_empty e)
  completed r hmem := by
    obtain hmem | rfl := Array.mem_push.mp hmem
    · exact hs.completed r hmem
    · exact ⟨hr, hs.roundScore, hs.roundUsage, hs.history⟩
  roundScore := hs.roundScore
  totalScore := hs.totalScore
  roundUsage := hs.roundUsage
  replay := hs.replay
  ensure := hs.ensure

theorem Change.bounded {halted : Bool} (h : Change g s t halted) (hg : g.IsLoaded)
    (hc : g.config.Fits) (hm : g.Marked s) (hr : s.registers.Typed) (hs : g.Bounded s) :
    g.Bounded t := by
  cases h with
  | opened hround =>
    have hround : s.round < word := Nat.lt_trans hround hc.rounds
    exact (beginRound_bounded hs).record ⟨hround, by simp [Event.floats]⟩
  | closed hround =>
    refine finishRound_bounded (hs.record ⟨Nat.lt_trans hround hc.rounds, fun x hx => ?_⟩) hround
    rw [Event.floats, List.mem_singleton] at hx
    exact hx ▸ hs.roundScore
  | blank => exact { hs with }
  | next _ _ hl _ hruns => exact { hruns.bounded hg hc hl hm hr hs with }
  | jump _ _ hl _ hruns => exact { hruns.bounded hg hc hl hm hr hs with }
  | halt _ _ hl _ hruns => exact hruns.bounded hg hc hl hm hr hs

theorem initial_bounded (g : Game) : g.Bounded g.initial where
  history e he := absurd he (Array.not_mem_empty e)
  completed r hr := absurd hr (Array.not_mem_empty r)
  roundScore := isFinite_zero
  totalScore := isFinite_zero
  roundUsage := ⟨Nat.le_refl _, Nat.le_refl _⟩
  replay _ _ hn := nomatch hn
  ensure _ _ hn := nomatch hn

theorem Bounded.congr {g' : Game} (h : g.Bounded s) (hc : g'.config = g.config) :
    g'.Bounded s where
  history := h.history
  completed r hr :=
    have hb := h.completed r hr
    ⟨hc ▸ hb.round, hb.score, hb.usage, hb.history⟩
  roundScore := h.roundScore
  totalScore := h.totalScore
  roundUsage := h.roundUsage
  replay := h.replay
  ensure := hc ▸ h.ensure

end Game

theorem Reached.bounded {g : Game} {s : State} {halted : Bool} (h : Reached g s halted)
    (hc : g.config.Fits) : g.Bounded s := by
  induction h with
  | @new _ _ _ g => exact g.initial_bounded
  | advance hr ha ih =>
    exact ((Game.advance_change ha).1 rfl).bounded hr.isLoaded hc hr.controlled.marked hr.typed
      (ih hc)
  | halt hr ha ih =>
    exact ((Game.advance_change ha).2 rfl).bounded hr.isLoaded hc hr.controlled.marked hr.typed
      (ih hc)
  | resume hr hres ih =>
    obtain ⟨-, hconfig, rfl⟩ := SavedGame.resume_save hr.isLoaded hres
    exact (ih (hconfig ▸ hc)).congr hconfig

end EntropyGame
