import EntropyGame.Proofs.Game.Bounded
import EntropyGame.Proofs.Game.Codec

namespace EntropyGame

/-- The doubles of an event are finite. -/
def Event.AllFinite (e : Event) : Prop :=
  ∀ x ∈ e.floats, x.isFinite = true

/-- The doubles of a state are finite, also of one that no game comes to. -/
structure State.AllFinite (s : State) : Prop where
  registers : ∀ e ∈ s.registers.entries, ∀ x ∈ e.2.floats, x.isFinite = true
  history : ∀ e ∈ s.history, e.AllFinite
  scores : ∀ r ∈ s.completed, r.score.isFinite = true
  histories : ∀ r ∈ s.completed, ∀ e ∈ r.history, e.AllFinite
  roundScore : s.roundScore.isFinite = true
  totalScore : s.totalScore.isFinite = true

theorem allFinite_history {history : Array Event} :
    (∀ e ∈ history, e.AllFinite) ↔ ∀ x ∈ historyFloats history, x.isFinite = true := by
  simp only [historyFloats, List.mem_flatMap, Array.mem_toList_iff, Event.AllFinite]
  constructor
  · rintro h x ⟨e, he, hx⟩
    exact h e he x hx
  · intro h e he x hx
    exact h x ⟨e, he, hx⟩

theorem allFinite_rounds {rounds : Array RoundResult} :
    ((∀ r ∈ rounds, r.score.isFinite = true) ∧ ∀ r ∈ rounds, ∀ e ∈ r.history, e.AllFinite) ↔
      ∀ x ∈ roundsFloats rounds, x.isFinite = true := by
  simp only [roundsFloats, List.mem_flatMap, Array.mem_toList_iff, RoundResult.floats,
    List.mem_cons]
  constructor
  · rintro ⟨hscores, hhistories⟩ x ⟨r, hr, rfl | hx⟩
    · exact hscores r hr
    · exact allFinite_history.mp (hhistories r hr) x hx
  · intro h
    refine ⟨fun r hr => h _ ⟨r, hr, .inl rfl⟩, fun r hr => ?_⟩
    exact allFinite_history.mpr fun x hx => h x ⟨r, hr, .inr hx⟩

theorem State.allFinite_iff {s : State} : s.AllFinite ↔ ∀ x ∈ s.floats, x.isFinite = true := by
  simp only [State.floats, List.mem_cons, List.mem_append, List.mem_flatMap]
  constructor
  · rintro h x (rfl | rfl | (⟨e, he, hx⟩ | hx) | hx)
    · exact h.roundScore
    · exact h.totalScore
    · exact h.registers e he x hx
    · exact allFinite_history.mp h.history x hx
    · exact allFinite_rounds.mp ⟨h.scores, h.histories⟩ x hx
  · intro h
    obtain ⟨hscores, hhistories⟩ := allFinite_rounds.mpr fun x hx => h x (.inr (.inr (.inr hx)))
    exact {
      registers := fun e he x hx => h x (.inr (.inr (.inl (.inl ⟨e, he, hx⟩))))
      history := allFinite_history.mpr fun x hx => h x (.inr (.inr (.inl (.inr hx))))
      scores := hscores
      histories := hhistories
      roundScore := h _ (.inl rfl)
      totalScore := h _ (.inr (.inl rfl)) }

theorem Event.allFinite_of_floats {e : Event} (h : e.floats = []) : e.AllFinite := by
  simp [AllFinite, h]

namespace State.AllFinite

variable {s : State}

theorem record (h : s.AllFinite) {e : Event} (he : e.AllFinite) : (s.record e).AllFinite :=
  { h with
    history := fun e' he' => by
      obtain he' | rfl := Array.mem_push.mp he'
      · exact h.history e' he'
      · exact he }

theorem announce (h : s.AllFinite) (line budget : Nat) (r : Register) (announced : Bool) :
    (s.announce line budget r announced).AllFinite := by
  cases announced with
  | false => exact h.record (Event.allFinite_of_floats rfl)
  | true => exact h

/-- What is written to a register has no doubles. -/
theorem set (h : s.AllFinite) {registers : Registers} {r : Register} {v : Value}
    (hset : s.registers.set r v = .ok registers) : { s with registers }.AllFinite := by
  obtain ⟨rfl, -, hkind⟩ := Registers.set_ok hset
  refine { h with registers := fun e he x hx => ?_ }
  obtain rfl | he := OrderedMap.mem_insert he
  · rw [Value.floats_of_kind hkind] at hx
    cases hx
  · exact h.registers e he x hx

theorem writeAll (h : s.AllFinite) {ws : List (Register × Value)} {t : State}
    {flow : Except Fault Flow} (hw : s.writeAll ws = (t, flow)) : t.AllFinite := by
  induction ws generalizing s with
  | nil =>
    cases hw
    exact h
  | cons w ws ih =>
    simp only [State.writeAll] at hw
    split at hw
    · cases hw
      exact h
    · rename_i hset
      exact ih (h.set hset) hw

theorem beginRound (h : s.AllFinite) : s.beginRound.AllFinite where
  registers e he x hx := by
    obtain ⟨⟨r, v⟩, hmem, rfl⟩ := List.mem_map.mp he
    dsimp only at hx
    split at hx
    · cases hx
    · exact h.registers _ hmem x hx
  history e he := absurd he (Array.not_mem_empty e)
  scores := h.scores
  histories := h.histories
  roundScore := Game.isFinite_zero
  totalScore := h.totalScore

theorem finishRound (h : s.AllFinite) : s.finishRound.AllFinite where
  registers := h.registers
  history e he := absurd he (Array.not_mem_empty e)
  scores r hr := by
    obtain hr | rfl := Array.mem_push.mp hr
    · exact h.scores r hr
    · exact h.roundScore
  histories r hr := by
    obtain hr | rfl := Array.mem_push.mp hr
    · exact h.histories r hr
    · exact h.history
  roundScore := h.roundScore
  totalScore := h.totalScore

end State.AllFinite

namespace Game

variable {g : Game} {s t : State}

theorem eval_allFinite (hg : g.IsLoaded) {line : Nat} {i : Instruction} (hl : g.program.At line i)
    (hs : s.AllFinite) {e : Expr} (he : e ∈ i.expressions) {v : Value} (h : g.eval s e = .ok v) :
    ∀ x ∈ v.floats, x.isFinite = true := by
  obtain hv | ⟨r, hv⟩ :=
    Expr.eval_isFinite_or_held (fun _ _ hn => Program.load_integer hg hl (hn ▸ he)) h
  · exact fun x hx => Value.isFinite_of_mem_floats hv hx
  · exact hs.registers _ (OrderedMap.mem_of_get? hv)

theorem Asked.allFinite {line budget : Nat} {rs : List Register} {position : Nat}
    {announced halted : Bool} (h : Asked g line budget rs position announced s t halted)
    (hs : s.AllFinite) : t.AllFinite := by
  induction h with
  | done => exact hs
  | halted => exact { hs.announce _ _ _ _ with }
  | @answered r rs position announced halted s t registers move hset _ ih =>
    have hwritten := (hs.announce line budget r announced).set
      ((registers_announce s line budget r announced).symm ▸ hset)
    have haccepted :
        ({ s.announce line budget r announced with registers }.addUsage move.usage).AllFinite :=
      { hwritten with }
    exact ih (haccepted.record (Event.allFinite_of_floats rfl))

/-- What an instruction shows is finite or comes from a register, and a sum is checked. -/
theorem Runs.allFinite {line : Nat} {i : Instruction} {flow : Flow} (h : Runs g line s i t flow)
    (hg : g.IsLoaded) (hl : g.program.At line i) (hs : s.AllFinite) : t.AllFinite := by
  cases h with
  | assign _ hw => exact hs.writeAll hw
  | reveal hv =>
    refine hs.record fun x hx => ?_
    obtain ⟨v, hmem, hx⟩ := List.mem_flatMap.mp hx
    obtain ⟨k, hk⟩ := List.getElem?_of_mem hmem
    obtain ⟨e, he, hev⟩ := mapM_ok hv hk
    exact eval_allFinite hg hl hs (List.mem_of_getElem? he) hev x hx
  | elicit _ ha => exact ha.allFinite { hs with }
  | @retried conditions results target =>
    let attempt := State.counter s.ensureFailures line + 1
    have hcounted : { s with ensureFailures := s.ensureFailures.insert line attempt }.AllFinite :=
      { hs with }
    exact hcounted.record (Event.allFinite_of_floats rfl)
  | @reward e v x hv hx hround htotal =>
    have hadd : (s.addScore x).AllFinite := { hs with roundScore := hround, totalScore := htotal }
    refine hadd.record fun y hy => ?_
    obtain rfl | hy := List.mem_cons.mp hy
    · exact Decimal.isFinite_of_add hround
    · exact eval_allFinite hg hl hs List.mem_cons_self hv y hy
  | passed | beacon | fellThrough | replayed => exact { hs with }

theorem Change.allFinite {halted : Bool} (h : Change g s t halted) (hg : g.IsLoaded)
    (hs : s.AllFinite) : t.AllFinite := by
  cases h with
  | opened => exact hs.beginRound.record (Event.allFinite_of_floats rfl)
  | closed =>
    refine (hs.record fun x hx => ?_).finishRound
    rw [Event.floats, List.mem_singleton] at hx
    exact hx ▸ hs.roundScore
  | blank => exact { hs with }
  | next _ _ hl _ hruns | jump _ _ hl _ hruns => exact { hruns.allFinite hg hl hs with }
  | halt _ _ hl _ hruns => exact hruns.allFinite hg hl hs

theorem initial_allFinite (g : Game) : g.initial.AllFinite where
  registers e he x hx := by
    have hkind := (Registers.ofPresets_typed g.config.presets).kind e he
    rw [Value.floats_of_kind hkind] at hx
    cases hx
  history e he := absurd he (Array.not_mem_empty e)
  scores r hr := absurd hr (Array.not_mem_empty r)
  histories r hr := absurd hr (Array.not_mem_empty r)
  roundScore := isFinite_zero
  totalScore := isFinite_zero

/-- Doubles stay finite in a run that is not cut short by an error. -/
theorem run_allFinite {σ : Type} (hg : g.IsLoaded) {player : Player σ} {s t : Session σ}
    {o : Outcome} (h : g.run player s = (t, o)) (ho : ∀ e, o ≠ .failed e)
    (hs : s.state.AllFinite) : t.state.AllFinite := by
  fun_induction Game.run g player s with
  | case1 s s' ha ih => exact ih h (((advance_change ha).1 rfl).allFinite hg hs)
  | case2 s s' outcome ha =>
    cases h
    cases o with
    | finished => exact (advance_finished ha).1 ▸ hs
    | halted => exact ((advance_change ha).2 rfl).allFinite hg hs
    | failed e => exact absurd rfl (ho e)

end Game

end EntropyGame
