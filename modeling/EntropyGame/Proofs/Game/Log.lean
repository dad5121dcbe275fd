import EntropyGame.Proofs.Game.Registers

namespace EntropyGame

namespace Event

/-- Whether an event opens or closes a round. -/
def isBoundary : Event → Bool
  | roundStarted _ | roundFinished .. => true
  | _ => false

/-- Whether an event is a request or the answer to one. -/
def isExchange : Event → Bool
  | elicitRequest .. | elicitResponse .. => true
  | _ => false

/-- What an event adds to the scores. -/
def score? : Event → Option Float
  | reward _ _ score => some score
  | _ => none

end Event

/-- The scores of events added to a number from left to right. -/
def addScores (x : Float) (es : List Event) : Float :=
  (es.filterMap Event.score?).foldl (· + ·) x

theorem addScores_append (x : Float) (es fs : List Event) :
    addScores x (es ++ fs) = addScores (addScores x es) fs := by
  rw [addScores, List.filterMap_append, List.foldl_append]
  rfl

/-- Each answer comes right after a request for its register, and after each request comes its
answer; only the last may still wait for it. -/
structure Alternates (es : List Event) (waits : Prop) : Prop where
  response : ∀ {before after : List Event} {line : Nat} {register : String} {response : Phrase},
    es = before ++ .elicitResponse line register response :: after →
    ∃ earlier budget, before = earlier ++ [.elicitRequest line register budget]
  request : ∀ {before after : List Event} {line : Nat} {register : String} {budget : Nat},
    es = before ++ .elicitRequest line register budget :: after →
    (∃ response later, after = .elicitResponse line register response :: later) ∨
      waits ∧ after = []

/-- An event of a longer log is the new one or was there before. -/
theorem concat_eq_append_cons {es before after : List Event} {e x : Event}
    (h : es ++ [e] = before ++ x :: after) :
    after = [] ∧ es = before ∧ e = x ∨
      ∃ between, after = between ++ [e] ∧ es = before ++ x :: between := by
  obtain rfl | ⟨between, y, rfl⟩ := List.eq_nil_or_concat after
  · obtain ⟨rfl, he⟩ := List.append_inj' h rfl
    exact .inl ⟨rfl, rfl, List.head_eq_of_cons_eq he⟩
  · have h' : es ++ [e] = (before ++ x :: between) ++ [y] := by simpa using h
    obtain ⟨hes, he⟩ := List.append_inj' h' rfl
    exact .inr ⟨between, by rw [List.concat_eq_append, he], hes⟩

namespace Alternates

variable {es : List Event} {waits waits' : Prop} {e : Event}

theorem nil : Alternates [] waits where
  response h := by simp at h
  request h := by simp at h

theorem imp (h : Alternates es waits) (hw : waits → waits') : Alternates es waits' where
  response := h.response
  request he := (h.request he).imp_right (.imp_left hw)

theorem other (h : Alternates es False) (he : e.isExchange = false) :
    Alternates (es ++ [e]) waits where
  response := by
    intro before after line register response hall
    obtain ⟨-, -, rfl⟩ | ⟨between, -, hes⟩ := concat_eq_append_cons hall
    · cases he
    · exact h.response hes
  request := by
    intro before after line register budget hall
    obtain ⟨-, -, rfl⟩ | ⟨between, rfl, hes⟩ := concat_eq_append_cons hall
    · cases he
    · obtain ⟨response, later, rfl⟩ | ⟨hfalse, -⟩ := h.request hes
      · exact .inl ⟨response, later ++ [e], rfl⟩
      · exact hfalse.elim

theorem record (s : State) (h : Alternates s.history.toList False) (he : e.isExchange = false) :
    Alternates (s.record e).history.toList waits := by
  rw [State.record, Array.toList_push]
  exact h.other he

theorem asked (h : Alternates es False) (line : Nat) (register : String) (budget : Nat) :
    Alternates (es ++ [.elicitRequest line register budget]) True where
  response := by
    intro before after line' register' response hall
    obtain ⟨-, -, he⟩ | ⟨between, -, hes⟩ := concat_eq_append_cons hall
    · cases he
    · exact h.response hes
  request := by
    intro before after line' register' budget' hall
    obtain ⟨rfl, -, -⟩ | ⟨between, rfl, hes⟩ := concat_eq_append_cons hall
    · exact .inr ⟨trivial, rfl⟩
    · obtain ⟨response, later, rfl⟩ | ⟨hfalse, -⟩ := h.request hes
      · exact .inl ⟨response, _, rfl⟩
      · exact hfalse.elim

theorem answered {line budget : Nat} {register : String}
    (h : Alternates (es ++ [.elicitRequest line register budget]) waits) (response : Phrase) :
    Alternates (es ++ [.elicitRequest line register budget] ++
      [.elicitResponse line register response]) False where
  response := by
    intro before after line' register' response' hall
    obtain ⟨-, rfl, he⟩ | ⟨between, -, hes⟩ := concat_eq_append_cons hall
    · cases he
      exact ⟨es, budget, rfl⟩
    · exact h.response hes
  request := by
    intro before after line' register' budget' hall
    obtain ⟨-, -, he⟩ | ⟨between, rfl, hes⟩ := concat_eq_append_cons hall
    · cases he
    · obtain ⟨response', later, rfl⟩ | ⟨-, rfl⟩ := h.request hes
      · exact .inl ⟨response', _, rfl⟩
      · obtain ⟨-, he⟩ := List.append_inj' hes rfl
        cases he
        exact .inl ⟨response, [], rfl⟩

end Alternates

theorem Usage.add_assoc (u v w : Usage) : u + v + w = u + (v + w) := by
  have hin := Nat.add_assoc u.inputTokens v.inputTokens w.inputTokens
  have hout := Nat.add_assoc u.outputTokens v.outputTokens w.outputTokens
  exact congrArg₂ Usage.mk hin hout

namespace State

/-- The events of a game, those of the finished rounds first. -/
def log (s : State) : List Event :=
  s.completed.toList.flatMap (·.history.toList) ++ s.history.toList

/-- What a part of a round adds to a state: events of its own to the history, their scores to the
scores, and to the usage as much as to that of the round. -/
structure Adds (es : List Event) (s t : State) : Prop where
  history : t.history.toList = s.history.toList ++ es
  inner : ∀ e ∈ es, e.isBoundary = false
  roundScore : t.roundScore = addScores s.roundScore es
  totalScore : t.totalScore = addScores s.totalScore es
  completed : t.completed = s.completed
  round : t.round = s.round
  started : t.roundStarted = s.roundStarted
  usage : ∃ u, t.usage = s.usage + u ∧ t.roundUsage = s.roundUsage + u

namespace Adds

variable {s t u : State} {es fs : List Event}

theorem refl (s : State) : Adds [] s s where
  history := (List.append_nil _).symm
  inner := by simp
  roundScore := rfl
  totalScore := rfl
  completed := rfl
  round := rfl
  started := rfl
  usage := ⟨{}, rfl, rfl⟩

theorem trans (h : Adds es s t) (h' : Adds fs t u) : Adds (es ++ fs) s u where
  history := by rw [h'.history, h.history, List.append_assoc]
  inner e he := by
    obtain he | he := List.mem_append.mp he
    · exact h.inner e he
    · exact h'.inner e he
  roundScore := by rw [h'.roundScore, h.roundScore, addScores_append]
  totalScore := by rw [h'.totalScore, h.totalScore, addScores_append]
  completed := h'.completed.trans h.completed
  round := h'.round.trans h.round
  started := h'.started.trans h.started
  usage := by
    obtain ⟨v, hv, hv'⟩ := h.usage
    obtain ⟨w, hw, hw'⟩ := h'.usage
    refine ⟨v + w, ?_, ?_⟩
    · rw [hw, hv, Usage.add_assoc]
    · rw [hw', hv', Usage.add_assoc]

theorem record (h : Adds es s t) {e : Event} (hb : e.isBoundary = false) (hs : e.score? = none) :
    Adds (es ++ [e]) s (t.record e) := by
  have hone : Adds [e] t (t.record e) :=
    { refl t with
      history := by simp [State.record]
      inner := by simpa using hb
      roundScore := by simp [addScores, hs, State.record]
      totalScore := by simp [addScores, hs, State.record] }
  exact h.trans hone

theorem reward (s : State) (line : Nat) (v : Value) (x : Float) :
    Adds [.reward line v x] s ((s.addScore x).record (.reward line v x)) :=
  { refl s with
    history := by simp [State.record, State.addScore]
    inner := by simp [Event.isBoundary]
    roundScore := rfl
    totalScore := rfl }

theorem addUsage (h : Adds es s t) (v : Usage) : Adds es s (t.addUsage v) := by
  obtain ⟨w, hw, hw'⟩ := h.usage
  refine { h with usage := ⟨w + v, ?_, ?_⟩ }
  · rw [State.addUsage, hw, Usage.add_assoc]
  · rw [State.addUsage, hw', Usage.add_assoc]

theorem announce (h : Adds es s t) (line budget : Nat) (r : Register) (announced : Bool) :
    ∃ fs, Adds fs s (t.announce line budget r announced) := by
  cases announced with
  | true => exact ⟨es, h⟩
  | false => exact ⟨_, h.record rfl rfl⟩

theorem accept (h : Adds es s t) (line : Nat) (r : Register) (registers : Registers)
    (usage : Usage) (response : Phrase) :
    ∃ fs, Adds fs s (t.accept line r registers usage response) :=
  have hwritten : Adds es s { t with registers } := { h with }
  ⟨_, (hwritten.addUsage usage).record rfl rfl⟩

theorem log (h : Adds es s t) : t.log = s.log ++ es := by
  rw [State.log, State.log, h.completed, h.history, List.append_assoc]

end Adds

end State

namespace Game

open State

variable {g : Game}

theorem Asked.adds {line budget : Nat} {rs : List Register} {position : Nat}
    {announced halted : Bool} {s t : State}
    (h : Asked g line budget rs position announced s t halted) : ∃ es, Adds es s t := by
  induction h with
  | @done _ _ s => exact ⟨[], .refl s⟩
  | @halted r _ _ announced s =>
    obtain ⟨es, hes⟩ := (Adds.refl s).announce line budget r announced
    exact ⟨es, { hes with }⟩
  | @answered r _ _ announced _ s t registers move _ _ ih =>
    obtain ⟨_, hasked⟩ := (Adds.refl s).announce line budget r announced
    obtain ⟨_, hanswered⟩ := hasked.accept line r registers move.usage (g.response budget move)
    obtain ⟨_, hrest⟩ := ih
    exact ⟨_, hanswered.trans hrest⟩

theorem AskFails.adds {line budget : Nat} {rs : List Register} {position : Nat}
    {announced : Bool} {s t : State} {f : Fault}
    (h : AskFails g line budget rs position announced s t f) : ∃ es, Adds es s t := by
  induction h with
  | @refused r _ _ announced s | @unwritable r _ _ announced s =>
    exact (Adds.refl s).announce line budget r announced
  | @answered r _ _ announced s t _ registers move _ _ ih =>
    obtain ⟨_, hasked⟩ := (Adds.refl s).announce line budget r announced
    obtain ⟨_, hanswered⟩ := hasked.accept line r registers move.usage (g.response budget move)
    obtain ⟨_, hrest⟩ := ih
    exact ⟨_, hanswered.trans hrest⟩

theorem noteFailure_adds (s : State) (line : Nat) (results : List Bool) (target : Nat) :
    ∃ es, Adds es s (s.noteFailure line results target) := by
  let failures := s.ensureFailures.insert line (State.counter s.ensureFailures line + 1)
  have hcounted : Adds [] s { s with ensureFailures := failures } := { Adds.refl s with }
  exact ⟨_, hcounted.record rfl rfl⟩

/-- Every instruction adds to the log, and to the scores and the usage accordingly. -/
theorem Runs.adds {line : Nat} {s t : State} {i : Instruction} {flow : Flow}
    (h : Runs g line s i t flow) : ∃ es, Adds es s t := by
  cases h with
  | assign _ hw =>
    rw [writeAll_frame hw]
    exact ⟨[], { Adds.refl s with }⟩
  | reveal => exact ⟨_, (Adds.refl s).record rfl rfl⟩
  | elicit _ ha =>
    obtain ⟨es, hes⟩ := ha.adds
    exact ⟨es, { hes with }⟩
  | retried => exact noteFailure_adds s line _ _
  | reward => exact ⟨_, .reward s line _ _⟩
  | passed | beacon | fellThrough | replayed => exact ⟨[], { Adds.refl s with }⟩

/-- So does an instruction that fails. -/
theorem Fails.adds {line : Nat} {s t : State} {i : Instruction} {f : Fault}
    (h : Fails g line s i t f) : ∃ es, Adds es s t := by
  cases h with
  | eval =>
    refine ⟨[], ?_⟩
    cases i <;> exact { Adds.refl s with }
  | assign _ hw =>
    rw [writeAll_frame hw]
    exact ⟨[], { Adds.refl s with }⟩
  | elicit _ ha =>
    obtain ⟨es, hes⟩ := ha.adds
    exact ⟨es, { hes with }⟩
  | tooManyFailures => exact noteFailure_adds s line _ _
  | budget => exact ⟨[], { Adds.refl s with }⟩
  | replayCount | condition | score | scoreOverflow | nothingToRetry | noBeacon
  | undeclaredBeacon => exact ⟨[], .refl s⟩

theorem Breaks.adds {s t : State} {i : Instruction} {f : Fault} (h : Breaks g s i t f) :
    ∃ es, Adds es s t := by
  cases h with
  | ceiling => exact ⟨[], .refl s⟩
  | fails _ hfails => exact hfails.adds
  | jumpOutside _ hruns => exact hruns.adds

/-- The request that the next target of an `elicit` waits for, if it was announced before. -/
def Announced (line : Nat) (rs : List Register) (announced : Bool) (s : State) : Prop :=
  announced = true →
    ∃ r n, rs[0]? = some r ∧ s.history.back? = some (.elicitRequest line r.name n)

namespace Announced

variable {line : Nat} {r : Register} {rs : List Register} {announced : Bool} {s : State}

theorem request (ha : Announced line (r :: rs) announced s)
    (hs : Alternates s.history.toList (announced = true)) (budget : Nat) :
    ∃ es n, (s.announce line budget r announced).history.toList =
        es ++ [.elicitRequest line r.name n] ∧
      Alternates (es ++ [.elicitRequest line r.name n]) True := by
  cases announced with
  | false =>
    have hs : Alternates s.history.toList False := hs.imp nofun
    refine ⟨s.history.toList, budget, ?_, hs.asked line r.name budget⟩
    simp [State.announce, State.record]
  | true =>
    obtain ⟨_, n, hr, hback⟩ := ha rfl
    cases hr
    rw [← Array.getLast?_toList] at hback
    obtain ⟨es, hes⟩ := List.getLast?_eq_some_iff.mp hback
    exact ⟨es, n, hes, hes ▸ hs.imp fun _ => trivial⟩

theorem waits (ha : Announced line (r :: rs) announced s)
    (hs : Alternates s.history.toList (announced = true)) (budget : Nat) :
    Alternates (s.announce line budget r announced).history.toList True := by
  obtain ⟨es, n, he, hes⟩ := ha.request hs budget
  exact he ▸ hes

theorem answered (ha : Announced line (r :: rs) announced s)
    (hs : Alternates s.history.toList (announced = true)) (budget : Nat) (registers : Registers)
    (usage : Usage) (response : Phrase) :
    Alternates ((s.announce line budget r announced).accept line r registers usage
      response).history.toList False := by
  obtain ⟨es, n, he, hes⟩ := ha.request hs budget
  have haccept : ((s.announce line budget r announced).accept line r registers usage
      response).history.toList = es ++ [.elicitRequest line r.name n] ++
        [.elicitResponse line r.name response] := by
    rw [← he]
    simp [State.accept, State.record, State.addUsage]
  rw [haccept]
  exact hes.answered response

end Announced

theorem Asked.alternates {line budget : Nat} {rs : List Register} {position : Nat}
    {announced halted : Bool} {s t : State}
    (h : Asked g line budget rs position announced s t halted)
    (ha : Announced line rs announced s) (hs : Alternates s.history.toList (announced = true)) :
    Alternates t.history.toList (halted = true) := by
  induction h with
  | done =>
    refine hs.imp fun hannounced => ?_
    obtain ⟨r, _, hr, _⟩ := ha hannounced
    cases hr
  | halted => exact (ha.waits hs budget).imp fun _ => rfl
  | answered _ _ _ ih => exact ih nofun ((ha.answered hs budget ..).imp False.elim)

theorem AskFails.alternates {line budget : Nat} {rs : List Register} {position : Nat}
    {announced : Bool} {s t : State} {f : Fault}
    (h : AskFails g line budget rs position announced s t f)
    (ha : Announced line rs announced s) (hs : Alternates s.history.toList (announced = true)) :
    Alternates t.history.toList True := by
  induction h with
  | refused | unwritable => exact ha.waits hs budget
  | answered _ _ _ ih => exact ih nofun ((ha.answered hs budget ..).imp False.elim)

/-- What an `elicit` is to go on with in a state that a game comes to. -/
theorem Controlled.announced {s : State} {halted : Bool} (hc : g.Controlled s halted)
    {targets : List Register} {budget : Expr} (hl : g.program.At s.line (.elicit targets budget)) :
    Announced s.line (targets.drop (s.progress s.line).next) (s.progress s.line).requested s ∧
      (s.progress s.line).requested = halted := by
  constructor
  · intro hrequested
    obtain ⟨r, n, hr, hback⟩ := progress_announced hc hl hrequested
    exact ⟨r, n, by rw [List.getElem?_drop, Nat.add_zero, hr], hback⟩
  · rw [← hc.pending]
    cases hp : s.pending with
    | none => simp [State.progress, hp]
    | some p =>
      have hw := hc.waiting p hp
      simp [State.progress, hp, hw.line, hw.requested]

/-- No request waits where no `elicit` stands. -/
theorem Controlled.none_waits {s : State} {halted : Bool} (hc : g.Controlled s halted)
    (hl : ∀ targets budget, ¬ g.program.At s.line (.elicit targets budget))
    (hs : Alternates s.history.toList (halted = true)) : Alternates s.history.toList False :=
  hs.imp fun htrue => Bool.false_ne_true ((hc.halted_eq_false hl).symm.trans htrue)

/-- After an instruction a request waits for its answer just where the player has halted. -/
theorem Runs.alternates {s t : State} {i : Instruction} {flow : Flow} {halted : Bool}
    (h : Runs g s.line s i t flow) (hc : g.Controlled s halted) (hl : g.program.At s.line i)
    (hs : Alternates s.history.toList (halted = true)) :
    Alternates t.history.toList (flow = .halt) := by
  -- only an `elicit` is left with a request to go on with
  have quiet : (∀ targets budget, i ≠ .elicit targets budget) →
      Alternates s.history.toList False :=
    fun hi => hc.none_waits (fun _ _ h => hi _ _ (hl.eq h)) hs
  cases h with
  | assign _ hw =>
    rw [writeAll_frame hw]
    exact (quiet nofun).imp False.elim
  | elicit _ ha =>
    obtain ⟨hannounced, hrequested⟩ := hc.announced hl
    have hasked := ha.alternates hannounced (hrequested ▸ hs)
    exact hasked.imp fun hhalted => if_pos hhalted
  | reveal => exact Alternates.record s (quiet nofun) rfl
  | @retried _ _ target =>
    let failures := s.ensureFailures.insert s.line (State.counter s.ensureFailures s.line + 1)
    exact Alternates.record { s with ensureFailures := failures } (quiet nofun) rfl
  | @reward _ _ x => exact Alternates.record (s.addScore x) (quiet nofun) rfl
  | passed | beacon | fellThrough | replayed => exact (quiet nofun).imp False.elim

/-- After a failure no request waits for its answer but one that the player has refused, or that a
halt has left there before. -/
theorem Breaks.alternates {s t : State} {i : Instruction} {f : Fault} {halted : Bool}
    (h : Breaks g s i t f) (hg : g.IsLoaded) (hc : g.Controlled s halted)
    (hl : g.program.At s.line i) (hs : Alternates s.history.toList (halted = true)) :
    Alternates t.history.toList
      ((∃ message, f = .player message) ∨ halted = true ∧ t.history = s.history) := by
  have kept : t.history = s.history → Alternates t.history.toList
      ((∃ message, f = .player message) ∨ halted = true ∧ t.history = s.history) := by
    intro ht
    rw [ht]
    exact hs.imp fun hhalted => .inr ⟨hhalted, rfl⟩
  cases h with
  | ceiling => exact kept rfl
  | jumpOutside _ hruns => exact (hruns.alternates hc hl hs).imp nofun
  | fails _ hfails =>
    cases hfails with
    | eval => cases i <;> exact kept rfl
    | assign _ hw => exact kept (by rw [writeAll_frame hw])
    | tooManyFailures =>
      have hquiet := hc.none_waits (fun _ _ h => nomatch hl.eq h) hs
      let failures := s.ensureFailures.insert s.line (State.counter s.ensureFailures s.line + 1)
      exact Alternates.record { s with ensureFailures := failures } hquiet rfl
    | elicit _ ha =>
      obtain ⟨hannounced, hrequested⟩ := hc.announced hl
      have hasked := ha.alternates hannounced (hrequested ▸ hs)
      obtain ⟨message, rfl⟩ | ⟨w, rfl⟩ := ha.fault
      · exact hasked.imp fun _ => .inl ⟨message, rfl⟩
      · -- a move that cannot be written would leave its request behind, but targets take texts
        have hne := ha.ne_write fun r hr => Program.load_elicit hg hl (List.mem_of_mem_drop hr)
        exact absurd rfl (hne w)
    | budget | replayCount | condition | score | scoreOverflow | nothingToRetry | noBeacon
    | undeclaredBeacon => exact kept rfl

end Game

/-- A round that is over has its number, and it logs its start, what happened in it, and its end
with its score. -/
structure RoundResult.WellLogged (r : RoundResult) (number : Nat) : Prop where
  round : r.round = number
  history : ∃ inner, (∀ e ∈ inner, e.isBoundary = false) ∧
    r.history.toList = .roundStarted number :: (inner ++ [.roundFinished number r.score])
  alternates : Alternates r.history.toList False

/-- The log of a state is that of its rounds in order, and then that of the open round if there is
one. -/
structure State.WellLogged (s : State) (waits : Prop) : Prop where
  number : s.completed.size = s.round
  completed : ∀ (k : Nat) (r : RoundResult), s.completed[k]? = some r → r.WellLogged k
  opened : s.roundStarted = true → ∃ inner, (∀ e ∈ inner, e.isBoundary = false) ∧
    s.history.toList = .roundStarted s.round :: inner
  closed : s.roundStarted = false → s.history = #[]
  alternates : Alternates s.history.toList waits

namespace State.WellLogged

variable {s t : State} {waits waits' : Prop}

theorem imp (h : s.WellLogged waits) (hw : waits → waits') : s.WellLogged waits' :=
  { h with alternates := h.alternates.imp hw }

/-- What an open round adds to its log leaves it well formed, if requests and answers alternate. -/
theorem adds {es : List Event} (h : s.WellLogged waits) (ha : Adds es s t)
    (ho : s.roundStarted = true) (halternates : Alternates t.history.toList waits') :
    t.WellLogged waits' where
  number := by rw [ha.completed, ha.round, h.number]
  completed := ha.completed ▸ h.completed
  opened _ := by
    obtain ⟨inner, hinner, hs⟩ := h.opened ho
    refine ⟨inner ++ es, fun e he => ?_, ?_⟩
    · obtain he | he := List.mem_append.mp he
      · exact hinner e he
      · exact ha.inner e he
    · rw [ha.history, hs, ha.round, List.cons_append]
  closed hclosed := nomatch hclosed.symm.trans (ha.started.trans ho)
  alternates := halternates

theorem beginRound (h : s.WellLogged waits) :
    (s.beginRound.record (.roundStarted s.round)).WellLogged False where
  number := h.number
  completed := h.completed
  opened _ := ⟨[], nofun, rfl⟩
  closed hclosed := nomatch hclosed
  alternates := Alternates.record s.beginRound .nil rfl

theorem finishRound (h : s.WellLogged False) (ho : s.roundStarted = true) :
    (s.record (.roundFinished s.round s.roundScore)).finishRound.WellLogged False where
  number := by simp [State.finishRound, State.record, h.number]
  completed k r hr := by
    rw [State.finishRound, Array.getElem?_push] at hr
    split at hr
    · rename_i hk
      cases hr
      obtain ⟨inner, hinner, hs⟩ := h.opened ho
      have hnumber : s.round = k := by rw [hk, State.record, h.number]
      refine ⟨hnumber, ⟨inner, hinner, ?_⟩, Alternates.record s h.alternates rfl⟩
      simp [State.record, hs, hnumber]
    · exact h.completed k r hr
  opened hopened := nomatch hopened
  closed _ := rfl
  alternates := .nil

end State.WellLogged

namespace Game

variable {g : Game}

/-- What comes after a well formed log is well formed: a request waits just where a halt has left
it. -/
theorem Change.wellLogged {s t : State} {halted halted' : Bool} (h : Change g s t halted')
    (hc : g.Controlled s halted) (hs : s.WellLogged (halted = true)) :
    t.WellLogged (halted' = true) := by
  have quiet : (∀ targets budget, ¬ g.program.At s.line (.elicit targets budget)) →
      s.WellLogged False :=
    fun hl => { hs with alternates := hc.none_waits hl hs.alternates }
  have runs : ∀ {i : Instruction} {t : State} {flow : Flow}, s.roundStarted = true →
      g.program.At s.line i → Runs g s.line s i t flow → t.WellLogged (flow = .halt) := by
    intro i t flow ho hl hruns
    obtain ⟨es, hes⟩ := hruns.adds
    exact hs.adds hes ho (hruns.alternates hc hl hs.alternates)
  cases h with
  | opened => exact hs.beginRound.imp False.elim
  | closed _ ho hl =>
    have hquiet := quiet fun _ _ => Program.not_at_of_size_le hl _
    exact (hquiet.finishRound ho).imp False.elim
  | blank _ ho hl =>
    have hquiet := quiet fun _ _ => Program.not_at_of_blank hl _
    exact { hquiet.imp False.elim with }
  | next _ ho hl _ hruns | jump _ ho hl _ hruns =>
    exact { (runs ho hl hruns).imp nofun with }
  | halt _ ho hl _ hruns => exact (runs ho hl hruns).imp fun _ => rfl

/-- A game that fails leaves a well formed log. -/
theorem Breaks.wellLogged {s t : State} {i : Instruction} {f : Fault} {halted : Bool}
    (h : Breaks g s i t f) (hg : g.IsLoaded) (hc : g.Controlled s halted)
    (ho : s.roundStarted = true) (hl : g.program.At s.line i)
    (hs : s.WellLogged (halted = true)) :
    t.WellLogged ((∃ message, f = .player message) ∨ halted = true ∧ t.history = s.history) := by
  obtain ⟨es, hes⟩ := h.adds
  exact hs.adds hes ho (h.alternates hg hc hl hs.alternates)

theorem initial_wellLogged (g : Game) : g.initial.WellLogged False where
  number := rfl
  completed k r hr := by simp [initial, State.initial] at hr
  opened hopened := nomatch hopened
  closed _ := rfl
  alternates := .nil

end Game

theorem Reached.wellLogged {g : Game} {s : State} {halted : Bool} (h : Reached g s halted) :
    s.WellLogged (halted = true) := by
  induction h with
  | new => exact (Game.initial_wellLogged _).imp False.elim
  | advance hr ha ih => exact ((Game.advance_change ha).1 rfl).wellLogged hr.controlled ih
  | halt hr ha ih => exact ((Game.advance_change ha).2 rfl).wellLogged hr.controlled ih
  | resume _ hres ih =>
    obtain ⟨-, -, -, rfl, -⟩ := SavedGame.resume_ok hres
    exact ih

end EntropyGame
