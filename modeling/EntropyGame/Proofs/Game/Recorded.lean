import EntropyGame.Proofs.Game.Control

namespace EntropyGame

namespace State

/-- An event stands at a place in the log of a round, be it one of the finished rounds or the one
that is open. -/
def Recorded (s : State) (round place : Nat) (e : Event) : Prop :=
  (∃ r, s.completed[round]? = some r ∧ r.history[place]? = some e) ∨
    round = s.completed.size ∧ s.roundStarted = true ∧ s.history[place]? = some e

theorem Recorded.unique {s : State} {round place : Nat} {e e' : Event}
    (h : s.Recorded round place e) (h' : s.Recorded round place e') : e = e' := by
  obtain ⟨r, hr, he⟩ | ⟨hr, _, he⟩ := h
  · obtain ⟨r', hr', he'⟩ | ⟨hr', _, _⟩ := h'
    · cases hr.symm.trans hr'
      exact Option.some.inj (he.symm.trans he')
    · rw [hr', Array.getElem?_size] at hr
      cases hr
  · obtain ⟨r', hr', _⟩ | ⟨_, _, he'⟩ := h'
    · rw [hr, Array.getElem?_size] at hr'
      cases hr'
    · exact Option.some.inj (he.symm.trans he')

theorem Recorded.of_history {s t : State} {round place : Nat} {e : Event}
    (h : s.Recorded round place e) (hc : t.completed = s.completed)
    (ho : t.roundStarted = s.roundStarted)
    (hh : s.history[place]? = some e → t.history[place]? = some e) : t.Recorded round place e := by
  rw [Recorded, hc, ho]
  exact h.imp_right fun ⟨hr, hs, he⟩ => ⟨hr, hs, hh he⟩

theorem Recorded.of_completed {s t : State} {round place : Nat} {e : Event}
    (h : s.Recorded round place e) (ho : s.roundStarted = false) (hc : t.completed = s.completed) :
    t.Recorded round place e := by
  obtain hr | ⟨_, hs, _⟩ := h
  · exact .inl (hc ▸ hr)
  · rw [ho] at hs
    cases hs

theorem getElem?_record {s : State} {place : Nat} {e : Event} (e' : Event)
    (h : s.history[place]? = some e) : (s.record e').history[place]? = some e := by
  have hlt : place < s.history.size := (Array.getElem?_eq_some_iff.mp h).1
  rw [record, Array.getElem?_push, if_neg (Nat.ne_of_lt hlt), h]

theorem of_getElem?_record {s : State} {place : Nat} {e e' : Event}
    (h : (s.record e').history[place]? = some e) : s.history[place]? = some e ∨ e = e' := by
  rw [record, Array.getElem?_push] at h
  split at h
  · exact .inr (Option.some.inj h).symm
  · exact .inl h

theorem of_getElem?_record_ne {s : State} {place : Nat} {e e' : Event} (hne : e ≠ e')
    (h : (s.record e').history[place]? = some e) : s.history[place]? = some e :=
  (of_getElem?_record h).resolve_right hne

end State

namespace Game

variable {g : Game}

theorem Asked.history {line budget : Nat} {rs : List Register} {position : Nat}
    {announced halted : Bool} {s t : State}
    (h : Asked g line budget rs position announced s t halted) {place : Nat} {e : Event}
    (he : s.history[place]? = some e) : t.history[place]? = some e := by
  induction h with
  | done => exact he
  | @halted _ _ _ announced _ =>
    cases announced with
    | false => exact State.getElem?_record _ he
    | true => exact he
  | @answered _ _ _ announced _ _ _ _ _ _ _ ih =>
    cases announced with
    | false => exact ih (State.getElem?_record _ (State.getElem?_record _ he))
    | true => exact ih (State.getElem?_record _ he)

/-- Instructions only add to the log of the round. -/
theorem Runs.history {line : Nat} {s t : State} {i : Instruction} {flow : Flow}
    (h : Runs g line s i t flow) {place : Nat} {e : Event} (he : s.history[place]? = some e) :
    t.history[place]? = some e := by
  cases h with
  | assign _ hw =>
    rw [writeAll_frame hw]
    exact he
  | reveal => exact State.getElem?_record _ he
  | elicit _ ha => exact ha.history he
  | passed => exact he
  | retried => exact State.getElem?_record _ he
  | reward => exact State.getElem?_record _ he
  | beacon => exact he
  | fellThrough => exact he
  | replayed => exact he

theorem Runs.completed {line : Nat} {s t : State} {i : Instruction} {flow : Flow}
    (h : Runs g line s i t flow) : t.completed = s.completed := by
  cases h with
  | assign _ hw => rw [writeAll_frame hw]
  | elicit _ ha =>
    rw [ha.frame]
    rfl
  | _ => rfl

theorem Runs.recorded {line : Nat} {s t : State} {i : Instruction} {flow : Flow}
    (h : Runs g line s i t flow) {round place : Nat} {e : Event} (hs : s.Recorded round place e) :
    t.Recorded round place e :=
  hs.of_history h.completed h.clock.2.2.1 h.history

/-- What happened stays in the log. -/
theorem Change.recorded {s t : State} {halted : Bool} (h : Change g s t halted)
    {round place : Nat} {e : Event} (hs : s.Recorded round place e) : t.Recorded round place e := by
  cases h with
  | opened _ ho =>
    obtain hr | ⟨_, hs, _⟩ := hs
    · exact .inl hr
    · rw [ho] at hs
      cases hs
  | closed =>
    obtain ⟨r, hr, he⟩ | ⟨rfl, _, he⟩ := hs
    · have hlt : round < s.completed.size := (Array.getElem?_eq_some_iff.mp hr).1
      refine .inl ⟨r, ?_, he⟩
      rw [State.finishRound, Array.getElem?_push]
      exact (if_neg (Nat.ne_of_lt hlt)).trans hr
    · let closing := s.record (.roundFinished s.round s.roundScore)
      refine .inl ⟨⟨s.round, s.roundScore, s.roundUsage, closing.history⟩, ?_,
        State.getElem?_record _ he⟩
      rw [State.finishRound, Array.getElem?_push]
      exact if_pos rfl
  | blank => exact hs
  | next _ _ _ _ hr => exact hr.recorded hs
  | jump _ _ _ _ hr => exact hr.recorded hs
  | halt _ _ _ _ hr => exact hr.recorded hs

theorem run_recorded {σ : Type} {player : Player σ} {s t : Session σ} {o : Outcome}
    (h : g.run player s = (t, o)) (ho : ∀ e, o ≠ .failed e) {round place : Nat} {e : Event}
    (hs : s.state.Recorded round place e) : t.state.Recorded round place e := by
  fun_induction Game.run g player s with
  | case1 s s' ha ih => exact ih h (((advance_change ha).1 rfl).recorded hs)
  | case2 s s' outcome ha =>
    cases h
    cases o with
    | finished => exact (advance_finished ha).1 ▸ hs
    | halted => exact ((advance_change ha).2 rfl).recorded hs
    | failed e => exact absurd rfl (ho e)

/-- A round that is open is one of those to be played. -/
theorem Change.round_lt {s t : State} {halted : Bool} (h : Change g s t halted)
    (ho : t.roundStarted = true) : t.round < g.config.rounds := by
  cases h with
  | opened hr _ => exact hr
  | closed => cases ho
  | blank hr => exact hr
  | next hr _ _ _ hruns =>
    rw [State.moveTo, hruns.clock.2.1]
    exact hr
  | jump hr _ _ _ hruns =>
    rw [State.moveTo, hruns.clock.2.1]
    exact hr
  | halt hr _ _ _ hruns =>
    rw [hruns.clock.2.1]
    exact hr

/-- When all rounds are played, what was recorded is in the results. -/
theorem run_finished {σ : Type} {player : Player σ} {s t : Session σ}
    (h : g.run player s = (t, .finished))
    (hs : s.state.roundStarted = true → s.state.round < g.config.rounds) :
    t.state.roundStarted = false := by
  fun_induction Game.run g player s with
  | case1 s s' ha ih => exact ih h ((advance_change ha).1 rfl).round_lt
  | case2 s s' outcome ha =>
    cases h
    obtain ⟨rfl, hr⟩ := advance_finished ha
    cases ho : t.state.roundStarted with
    | false => rfl
    | true => exact absurd (hs ho) (Nat.not_lt.mpr hr)

end Game

end EntropyGame
