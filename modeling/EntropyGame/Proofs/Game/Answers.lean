import EntropyGame.Judge.Cache
import EntropyGame.Proofs.Game.Halts
import EntropyGame.Proofs.Game.Log
import EntropyGame.Proofs.Game.Script

namespace EntropyGame

/-- Whether an event shows an answer. -/
def Event.isResponse : Event → Bool
  | elicitResponse .. => true
  | _ => false

/-- A request that a game made on a line for a register, what came of it, and the state right after
that. -/
structure Exchange where
  game : Game
  line : Nat
  register : Register
  request : Request
  answer : Except Refusal Move
  after : State

namespace Exchange

def response? (e : Exchange) : Option String :=
  match e.answer with
  | .ok move => some move.response
  | .error _ => none

/-- What is kept of a response: its first tokens, as many as were asked for. -/
def text (e : Exchange) (response : String) : Phrase :=
  Measure.firstTokens e.game.judge { primary := response } e.request.maxLength

/-- The event that shows the answer, if there is one. -/
def event? (e : Exchange) : Option Event :=
  e.response?.map fun response => .elicitResponse e.line e.request.register (e.text response)

/-- Whether the request was answered with a response, and right after that its register held just
what is kept of it. -/
structure Accepted (e : Exchange) (response : String) : Prop where
  answer : e.answer = .ok { response, usage := ⟨0, Text.wordCount response⟩ }
  named : e.request.register = e.register.name
  held : e.after.registers.get? e.register = some (.phrase (e.text response))
  last : e.after.history.back? = e.event?

/-- Whether a request got the response that a script had for it, or none if it had none. -/
def Answered (e : Exchange) : Option String → Prop
  | some response => e.Accepted response
  | none => e.answer = .error .halt

end Exchange

variable {σ : Type}

namespace Game

/-- The exchanges of `ask`, which are all that it comes to until a request is refused. -/
def askExchanges (g : Game) (player : Player σ) (line budget : Nat) :
    List Register → Nat → Bool → Session σ → List Exchange
  | [], _, _, _ => []
  | r :: rs, position, announced, s =>
    let s := if announced then s else s.emit player (.elicitRequest line r.name budget)
    let q : Request := ⟨r.name, budget, s.state.registers.snapshot⟩
    let (answer, memory) := player.request s.memory q
    match answer with
    | .error .halt =>
      [⟨g, line, r, q, answer, { s.state with pending := some ⟨line, position, true⟩ }⟩]
    | .error (.failed _) => [⟨g, line, r, q, answer, s.state⟩]
    | .ok move =>
      match s.state.registers.set r (.phrase (g.response budget move)) with
      | .error _ => [⟨g, line, r, q, answer, s.state⟩]
      | .ok registers =>
        let s : Session σ := ⟨{ s.state with registers }.addUsage move.usage, memory⟩
        let t := s.emit player (.elicitResponse line r.name (g.response budget move))
        ⟨g, line, r, q, answer, t.state⟩ ::
          askExchanges g player line budget rs (position + 1) false t

/-- The exchanges of an instruction. -/
def executeExchanges (g : Game) (player : Player σ) (line : Nat) (i : Instruction)
    (s : Session σ) : List Exchange :=
  match i with
  | .elicit targets budget =>
    let s := { s with state := s.state.setBeacon previousElicit line }
    match g.evalCount s.state .budget budget with
    | .error _ => []
    | .ok n =>
      let p := s.state.progress line
      g.askExchanges player line n (targets.drop p.next) p.next p.requested
        { s with state := { s.state with pending := none } }
  | _ => []

/-- The exchanges of what comes next. -/
def exchangesNext (g : Game) (player : Player σ) (s : Session σ) : List Exchange :=
  if s.state.round < g.config.rounds ∧ s.state.roundStarted = true ∧
      s.state.steps < g.config.maxSteps then
    match g.program.lines[s.state.line]? with
    | some (some i) => g.executeExchanges player s.state.line i s
    | _ => []
  else []

/-- The exchanges of a run in order. -/
def exchanges (g : Game) (player : Player σ) (s : Session σ) : List Exchange :=
  g.exchangesNext player s ++
    match _h : g.advance player s with
    | (t, none) => exchanges g player t
    | (_, some _) => []
termination_by g.left (clock s)
decreasing_by exact advance_left g player s t _h

variable {g : Game} {player : Player σ} {s t : Session σ}

theorem exchanges_of_none (h : g.advance player s = (t, none)) :
    g.exchanges player s = g.exchangesNext player s ++ g.exchanges player t := by
  rw [exchanges]
  split
  · rename_i he
    cases h.symm.trans he
    rfl
  · rename_i he
    cases h.symm.trans he

theorem exchanges_of_some {o : Outcome} (h : g.advance player s = (t, some o)) :
    g.exchanges player s = g.exchangesNext player s := by
  rw [exchanges]
  split
  · rename_i he
    cases h.symm.trans he
  · exact List.append_nil _

theorem exchangesNext_at (hr : s.state.round < g.config.rounds)
    (ho : s.state.roundStarted = true) (hsteps : s.state.steps < g.config.maxSteps)
    {i : Instruction} (hl : g.program.At s.state.line i) :
    g.exchangesNext player s = g.executeExchanges player s.state.line i s := by
  have hl' : g.program.lines[s.state.line]? = some (some i) := hl
  rw [exchangesNext, if_pos ⟨hr, ho, hsteps⟩, hl']

theorem exchangesNext_not_at (hl : ∀ i, ¬ g.program.At s.state.line i) :
    g.exchangesNext player s = [] := by
  rw [exchangesNext]
  split
  · split
    · exact absurd ‹_› (hl _)
    · rfl
  · rfl

end Game

/-- What is known of the exchanges of a game with a script since a state: they are all there is in
the log and the script in the way of answers, and the script has given its answers in order. -/
structure Matched (script : Script) (s : State) (es : List Exchange) (t : Session Script)
    (halted : Bool) : Prop where
  log : t.state.log.filter Event.isResponse =
    s.log.filter Event.isResponse ++ es.filterMap Exchange.event?
  told : t.memory.events.toList.filter Event.isResponse =
    script.events.toList.filter Event.isResponse ++ es.filterMap Exchange.event?
  given : script.Given (es.filterMap Exchange.response?) t.memory
  answered : ∀ (k : Nat) (e : Exchange), es[k]? = some e → e.Answered (script.answer? k)
  goesOn : halted = false → (es.filterMap Exchange.response?).length = es.length
  stops : halted = true → ∃ before e, es = before ++ [e] ∧
    (before.filterMap Exchange.response?).length = before.length ∧
    e.answer = .error .halt ∧ e.after = t.state

namespace Exchange.Accepted

variable {e : Exchange} {response : String}

theorem response?_eq (h : e.Accepted response) : e.response? = some response := by
  rw [response?, h.answer]

theorem event?_eq (h : e.Accepted response) :
    e.event? = some (.elicitResponse e.line e.request.register (e.text response)) := by
  rw [event?, h.response?_eq]
  rfl

end Exchange.Accepted

namespace Matched

variable {script : Script} {s : State} {es : List Exchange} {t : Session Script}

theorem refl (script : Script) (s : State) : Matched script s [] ⟨s, script⟩ false where
  log := (List.append_nil _).symm
  told := (List.append_nil _).symm
  given := .refl script
  answered _ _ he := nomatch he
  goesOn _ := rfl
  stops := nofun

/-- Nothing but the log of a state is of interest. -/
theorem of_log (h : Matched script s es t false) {u : State} (hu : u.log = t.state.log) :
    Matched script s es ⟨u, t.memory⟩ false :=
  { h with
    log := by rw [hu, h.log]
    stops := nofun }

theorem congr (h : Matched script s es t false) {u : State} (hh : u.history = t.state.history)
    (hc : u.completed = t.state.completed) : Matched script s es ⟨u, t.memory⟩ false :=
  h.of_log (by rw [State.log, State.log, hh, hc])

theorem emit (h : Matched script s es t false) {e : Event} (he : e.isResponse = false) :
    Matched script s es (t.emit Script.player e) false where
  log := by
    rw [← h.log]
    simp [State.log, Session.emit, he]
  told := by
    rw [← h.told]
    simp [Session.emit, Script.player, he]
  given := h.given.notify _
  answered := h.answered
  goesOn := h.goesOn
  stops := nofun

theorem answered_concat (h : Matched script s es t false) {e : Exchange}
    (he : e.Answered (script.answer? es.length)) :
    ∀ (k : Nat) (e' : Exchange), (es ++ [e])[k]? = some e' → e'.Answered (script.answer? k) := by
  intro k e' hk
  rcases Nat.lt_trichotomy k es.length with hlt | rfl | hgt
  · rw [List.getElem?_append_left hlt] at hk
    exact h.answered k e' hk
  · rw [List.getElem?_concat_length, Option.some.injEq] at hk
    exact hk ▸ he
  · rw [List.getElem?_eq_none (by rw [List.length_append, List.length_singleton]; omega)] at hk
    cases hk

/-- An answer is taken from the script and shown by an event. -/
theorem accept (h : Matched script s es t false) {e : Exchange} {response : String}
    (hresponse : script.answer? es.length = some response) (he : e.Accepted response)
    {u : Script} (hu : script.Given (es.filterMap Exchange.response? ++ [response]) u)
    (hevents : u.events = t.memory.events) {v : State} (hh : v.history = t.state.history)
    (hc : v.completed = t.state.completed) :
    Matched script s (es ++ [e])
      (Session.emit Script.player (.elicitResponse e.line e.request.register (e.text response))
        ⟨v, u⟩) false where
  log := by
    rw [List.filterMap_append, ← List.append_assoc, ← h.log]
    simp [State.log, Session.emit, hh, hc, Event.isResponse, he.event?_eq]
  told := by
    rw [List.filterMap_append, ← List.append_assoc, ← h.told, ← hevents]
    simp [Session.emit, Script.player, Event.isResponse, he.event?_eq]
  given := by
    have hgave : (es ++ [e]).filterMap Exchange.response? =
        es.filterMap Exchange.response? ++ [response] := by
      simp [he.response?_eq]
    rw [hgave]
    exact hu.notify _
  answered := h.answered_concat (hresponse ▸ he)
  goesOn _ := by
    simp [he.response?_eq, h.goesOn rfl]
  stops := nofun

/-- Where the script has no answer the game halts. -/
theorem refuse (h : Matched script s es t false) {e : Exchange}
    (hresponse : script.answer? es.length = none) (he : e.answer = .error .halt)
    (hh : e.after.history = t.state.history) (hc : e.after.completed = t.state.completed) :
    Matched script s (es ++ [e]) ⟨e.after, t.memory⟩ true := by
  have hnone : e.response? = none := by rw [Exchange.response?, he]
  have hevent : e.event? = none := by rw [Exchange.event?, hnone]; rfl
  have hresponses : (es ++ [e]).filterMap Exchange.response? = es.filterMap Exchange.response? := by
    simp [hnone]
  have hevents : (es ++ [e]).filterMap Exchange.event? = es.filterMap Exchange.event? := by
    simp [hevent]
  have hkept := h.congr hh hc
  refine ⟨?_, ?_, ?_, h.answered_concat (hresponse ▸ he), nofun, fun _ => ?_⟩
  · rw [hevents, hkept.log]
  · rw [hevents, hkept.told]
  · rw [hresponses]
    exact h.given
  · exact ⟨es, e, rfl, h.goesOn rfl, he, rfl⟩

end Matched

namespace Game

variable {g : Game} {script : Script} {s₀ : State} {es : List Exchange} {s : Session Script}

theorem askExchanges_emit (line budget : Nat) (r : Register) (rs : List Register) (position : Nat)
    (announced : Bool) (s : Session σ) (player : Player σ) :
    g.askExchanges player line budget (r :: rs) position announced s =
      g.askExchanges player line budget (r :: rs) position true
        (if announced then s else s.emit player (.elicitRequest line r.name budget)) := by
  simp only [askExchanges, if_true]

section

variable (g) (player : Player σ) (line : Nat) {budget : Nat} {r : Register} {rs : List Register}
  {position : Nat} {u : Session σ} {memory : σ}

/-- A request that the player halts at is the last one. -/
theorem ask_halts
    (hrequest : player.request u.memory ⟨r.name, budget, u.state.registers.snapshot⟩ =
      (.error .halt, memory)) :
    g.ask player line budget (r :: rs) position true u =
        (⟨{ u.state with pending := some ⟨line, position, true⟩ }, memory⟩, .ok .halt) ∧
      g.askExchanges player line budget (r :: rs) position true u =
        [⟨g, line, r, ⟨r.name, budget, u.state.registers.snapshot⟩, .error .halt,
          { u.state with pending := some ⟨line, position, true⟩ }⟩] := by
  simp only [ask, askExchanges, if_true, hrequest, and_self]

/-- After an answer the next request is made in the state right after it. -/
theorem ask_accepts {move : Move} {registers : Registers}
    (hrequest : player.request u.memory ⟨r.name, budget, u.state.registers.snapshot⟩ =
      (.ok move, memory))
    (hset : u.state.registers.set r (.phrase (g.response budget move)) = .ok registers)
    {answered : Session σ} (hanswered : answered =
      Session.emit player (.elicitResponse line r.name (g.response budget move))
        ⟨{ u.state with registers }.addUsage move.usage, memory⟩) :
    g.ask player line budget (r :: rs) position true u =
        g.ask player line budget rs (position + 1) false answered ∧
      g.askExchanges player line budget (r :: rs) position true u =
        ⟨g, line, r, ⟨r.name, budget, u.state.registers.snapshot⟩, .ok move, answered.state⟩ ::
          g.askExchanges player line budget rs (position + 1) false answered := by
  rw [response] at hset hanswered
  subst hanswered
  simp only [ask, askExchanges, if_true, hrequest, hset, response, and_self]

end

/-- Each request of an `elicit` is answered from the script, up to the first that the script has no
answer for. -/
theorem ask_matched {line budget : Nat} {rs : List Register}
    (hrs : ∀ r ∈ rs, r.isStatic = false ∧ r.isList = false) {position : Nat} {announced : Bool}
    (h : Matched script s₀ es s false) :
    ∃ halted : Bool,
      (g.ask Script.player line budget rs position announced s).2 =
        .ok (if halted then .halt else .next) ∧
      Matched script s₀ (es ++ g.askExchanges Script.player line budget rs position announced s)
        (g.ask Script.player line budget rs position announced s).1 halted := by
  induction rs generalizing position announced es s with
  | nil =>
    rw [askExchanges, List.append_nil]
    exact ⟨false, rfl, h⟩
  | cons r rs ih =>
    obtain ⟨hs, hl⟩ := hrs r List.mem_cons_self
    have hrs := fun q hq => hrs q (List.mem_cons_of_mem r hq)
    have hu : Matched script s₀ es (if announced then s
        else s.emit Script.player (.elicitRequest line r.name budget)) false := by
      cases announced with
      | true => exact h
      | false => exact h.emit rfl
    rw [ask_emit, askExchanges_emit]
    generalize (if announced then s else _) = u at hu
    let q : Request := ⟨r.name, budget, u.state.registers.snapshot⟩
    have hlength := hu.goesOn rfl
    cases hresponse : script.answer? es.length with
    | none =>
      obtain ⟨hask, hexchanges⟩ := ask_halts g Script.player line
        (hu.given.request_none (hlength ▸ hresponse) q)
      rw [hask, hexchanges]
      exact ⟨true, rfl, hu.refuse hresponse rfl rfl rfl⟩
    | some response =>
      obtain ⟨next, hmove, hevents, hnext⟩ := hu.given.request_some (hlength ▸ hresponse) q
      let move : Move := { response, usage := ⟨0, Text.wordCount response⟩ }
      let text := g.response budget move
      let registers := u.state.registers.insert r (.phrase text)
      let answered : Session Script := Session.emit Script.player (.elicitResponse line r.name text)
        ⟨{ u.state with registers }.addUsage move.usage, next⟩
      have hset : u.state.registers.set r (.phrase text) = .ok registers :=
        Registers.set_of_kind hs (by simp [Register.kind, hl, Value.kind])
      have haccepted : Exchange.Accepted ⟨g, line, r, q, .ok move, answered.state⟩ response :=
        ⟨rfl, rfl, (OrderedMap.get?_insert ..).trans (if_pos rfl), Array.back?_push ..⟩
      have hmatched : Matched script s₀ (es ++ [_]) answered false :=
        hu.accept hresponse haccepted hnext hevents rfl rfl
      obtain ⟨hask, hexchanges⟩ :=
        ask_accepts g Script.player line hmove hset (rfl : answered = _)
      obtain ⟨halted, hflow, hrest⟩ := ih hrs hmatched
      rw [List.append_assoc] at hrest
      rw [hask, hexchanges]
      exact ⟨halted, hflow, hrest⟩

/-- Only an `elicit` has exchanges, and nothing else shows an answer. -/
theorem execute_quiet (line : Nat) {i : Instruction}
    (hi : ∀ targets budget, i ≠ .elicit targets budget) (h : Matched script s₀ es s false) :
    Matched script s₀ es (g.execute Script.player line i s).1 false := by
  cases i with
  | elicit targets budget => exact absurd rfl (hi targets budget)
  | assign targets =>
    simp only [execute, quietly, assign]
    split
    · exact h
    · rename_i values _
      have hframe := writeAll_frame
        (Prod.ext rfl rfl : s.state.writeAll ((targets.map Prod.fst).zip values) = _)
      exact h.congr ((congrArg State.history hframe).trans rfl)
        ((congrArg State.completed hframe).trans rfl)
  | reveal values =>
    simp only [execute, reveal]
    split
    · exact h
    · exact h.emit rfl
  | ensure conditions =>
    simp only [execute, ensure]
    split
    · exact h
    · split
      · exact h.congr rfl rfl
      · split
        · exact h
        · rename_i target _
          let attempt := State.counter s.state.ensureFailures line + 1
          let failures := s.state.ensureFailures.insert line attempt
          have hcounted : Matched script s₀ es
              ⟨{ s.state with ensureFailures := failures }, s.memory⟩ false :=
            h.congr rfl rfl
          split <;> exact hcounted.emit rfl
  | reward score =>
    simp only [execute, reward]
    split
    · exact h
    · split
      · exact h
      · rename_i x _
        have hadded : Matched script s₀ es ⟨s.state.addScore x, s.memory⟩ false := h.congr rfl rfl
        split
        · exact hadded.emit rfl
        · exact h
  | beacon name =>
    simp only [execute, quietly, beacon]
    split <;> exact h.congr rfl rfl
  | replay name count =>
    simp only [execute, quietly, replay]
    split
    · exact h
    · split
      · exact h.congr rfl rfl
      · split
        · exact h
        · exact h.congr rfl rfl

theorem executeExchanges_of_ne (player : Player σ) (line : Nat) {i : Instruction}
    (hi : ∀ targets budget, i ≠ .elicit targets budget) (s : Session σ) :
    g.executeExchanges player line i s = [] := by
  cases i with
  | elicit targets budget => exact absurd rfl (hi targets budget)
  | _ => rfl

theorem execute_matched (line : Nat) {i : Instruction}
    (hi : ∀ targets budget, i = .elicit targets budget →
      ∀ r ∈ targets, r.isStatic = false ∧ r.isList = false)
    (h : Matched script s₀ es s false) :
    ∃ halted : Bool, ((g.execute Script.player line i s).2 = .ok .halt ↔ halted = true) ∧
      Matched script s₀ (es ++ g.executeExchanges Script.player line i s)
        (g.execute Script.player line i s).1 halted := by
  by_cases helicit : ∃ targets budget, i = .elicit targets budget
  · obtain ⟨targets, budget, rfl⟩ := helicit
    simp only [execute, elicit, executeExchanges]
    cases g.evalCount (s.state.setBeacon previousElicit line) .budget budget with
    | error f =>
      simp only [List.append_nil]
      exact ⟨false, by simp, h.congr rfl rfl⟩
    | ok n =>
      let begun : State := { s.state.setBeacon previousElicit line with pending := none }
      have hbegun : Matched script s₀ es ⟨begun, s.memory⟩ false := h.congr rfl rfl
      obtain ⟨halted, hflow, hasked⟩ := ask_matched (g := g)
        (fun r hr => hi targets budget rfl r (List.mem_of_mem_drop hr)) hbegun
      refine ⟨halted, ?_, hasked⟩
      rw [hflow]
      cases halted <;> simp
  · have hne : ∀ targets budget, i ≠ .elicit targets budget :=
      fun targets budget hi => helicit ⟨targets, budget, hi⟩
    have hgoes : (g.execute Script.player line i s).2 ≠ .ok .halt :=
      fun hflow => helicit (execute_runs (Prod.ext rfl hflow)).halt_elicit
    rw [executeExchanges_of_ne Script.player line hne, List.append_nil]
    exact ⟨false, by simp [hgoes], execute_quiet line hne h⟩

/-- A line that is run keeps the exchanges matched. -/
theorem instruction_matched (hg : g.IsLoaded) (hr : s.state.round < g.config.rounds)
    (ho : s.state.roundStarted = true) {i : Instruction} (hl : g.program.At s.state.line i)
    (h : Matched script s₀ es s false) :
    ∃ halted : Bool, ((g.advance Script.player s).2 = some .halted ↔ halted = true) ∧
      Matched script s₀ (es ++ g.exchangesNext Script.player s)
        (g.advance Script.player s).1 halted := by
  rw [advance_at hr ho hl]
  by_cases hsteps : g.config.maxSteps ≤ s.state.steps
  · have hnone : g.exchangesNext Script.player s = [] := by
      rw [exchangesNext, if_neg fun hopen => absurd hopen.2.2 (Nat.not_lt.mpr hsteps)]
    rw [if_pos hsteps, hnone, List.append_nil]
    exact ⟨false, by simp, h⟩
  · have htargets : ∀ targets budget, i = .elicit targets budget →
        ∀ r ∈ targets, r.isStatic = false ∧ r.isList = false := by
      rintro targets budget rfl r hr
      exact Program.load_elicit hg hl hr
    obtain ⟨halted, hflow, hmatched⟩ := execute_matched s.state.line htargets h
    rw [if_neg hsteps, exchangesNext_at hr ho (Nat.lt_of_not_le hsteps) hl]
    generalize g.execute Script.player s.state.line i s = x at hflow hmatched
    obtain ⟨t, result⟩ := x
    cases halted with
    | true =>
      obtain rfl : result = .ok .halt := hflow.mpr rfl
      exact ⟨true, by simp, hmatched⟩
    | false =>
      cases result with
      | error f => exact ⟨false, by simp, hmatched⟩
      | ok flow =>
        cases flow with
        | next => exact ⟨false, by simp, hmatched.congr rfl rfl⟩
        | jump target =>
          simp only
          split
          · exact ⟨false, by simp, hmatched⟩
          · exact ⟨false, by simp, hmatched.congr rfl rfl⟩
        | halt => cases hflow.mp rfl

theorem endRound_matched (h : Matched script s₀ es s false) :
    Matched script s₀ es (endRound Script.player s) false := by
  have hclosed := h.emit (e := .roundFinished s.state.round s.state.roundScore) rfl
  have hlog : (endRound Script.player s).state.log =
      (s.emit Script.player (.roundFinished s.state.round s.state.roundScore)).state.log := by
    simp [endRound, State.log, State.finishRound]
  exact hclosed.of_log hlog

/-- What comes next keeps the exchanges matched. -/
theorem advance_matched (hg : g.IsLoaded)
    (hempty : s.state.roundStarted = false → s.state.history = #[])
    (h : Matched script s₀ es s false) :
    ∃ halted : Bool, ((g.advance Script.player s).2 = some .halted ↔ halted = true) ∧
      Matched script s₀ (es ++ g.exchangesNext Script.player s)
        (g.advance Script.player s).1 halted := by
  by_cases hr : g.config.rounds ≤ s.state.round
  · have hnone : g.exchangesNext Script.player s = [] := by
      rw [exchangesNext, if_neg fun hopen => absurd hopen.1 (Nat.not_lt.mpr hr)]
    rw [hnone, advance_done hr, List.append_nil]
    exact ⟨false, by simp, h⟩
  · have hr : s.state.round < g.config.rounds := Nat.lt_of_not_le hr
    cases ho : s.state.roundStarted with
    | false =>
      have hnone : g.exchangesNext Script.player s = [] := by
        rw [exchangesNext, if_neg fun hopen => absurd (ho.symm.trans hopen.2.1) (by simp)]
      have hopened : Matched script s₀ es ⟨s.state.beginRound, s.memory⟩ false :=
        h.congr (hempty ho).symm rfl
      rw [hnone, advance_opened hr ho, List.append_nil]
      exact ⟨false, by simp, hopened.emit rfl⟩
    | true =>
      cases hl : g.program.lines[s.state.line]? with
      | none =>
        have hsize : g.program.size ≤ s.state.line := Array.getElem?_eq_none_iff.mp hl
        rw [exchangesNext_not_at (Program.not_at_of_size_le hsize), advance_closed hr ho hsize,
          List.append_nil]
        exact ⟨false, by simp, endRound_matched h⟩
      | some line =>
        cases line with
        | none =>
          rw [exchangesNext_not_at (Program.not_at_of_blank hl), advance_blank hr ho hl,
            List.append_nil]
          exact ⟨false, by simp, h.congr rfl rfl⟩
        | some i => exact instruction_matched hg hr ho hl h

/-- Over a whole run the exchanges with a script match its answers. -/
theorem run_matched {halted : Bool} (hs : Reached g s.state halted)
    (h : Matched script s₀ es s false) :
    ∃ halted : Bool, ((g.run Script.player s).2 = .halted ↔ halted = true) ∧
      Matched script s₀ (es ++ g.exchanges Script.player s) (g.run Script.player s).1 halted := by
  fun_induction Game.run g Script.player s generalizing es halted with
  | case1 s t ha ih =>
    obtain ⟨halted', hhalted, hnext⟩ := advance_matched hs.isLoaded hs.wellLogged.closed h
    rw [ha] at hhalted hnext
    obtain rfl : halted' = false := Bool.eq_false_iff.mpr fun ht =>
      Option.some_ne_none _ (hhalted.mpr ht).symm
    rw [exchanges_of_none ha, ← List.append_assoc]
    exact ih (.advance hs ha) hnext
  | case2 s t o ha =>
    obtain ⟨halted', hhalted, hlast⟩ := advance_matched hs.isLoaded hs.wellLogged.closed h
    rw [ha] at hhalted hlast
    rw [exchanges_of_some ha]
    exact ⟨halted', by simpa using hhalted, hlast⟩

end Game

/-- A session of a game with a script: how both stood, and what they came to. -/
structure Sitting where
  game : Game
  before : State
  script : Script
  after : Session Script
  outcome : Outcome

namespace Sitting

/-- What was asked and answered in it, in order. -/
def exchanges (p : Sitting) : List Exchange :=
  p.game.exchanges Script.player ⟨p.before, p.script⟩

/-- The events that show its answers. -/
def responses (p : Sitting) : List Event :=
  p.exchanges.filterMap Exchange.event?

/-- The exchanges of a session are accounted for: the script has answered the requests in order as
long as it had an answer, and then the game has halted in the state where it was. -/
structure Accounted (p : Sitting) : Prop where
  answered : ∀ (k : Nat) (e : Exchange), p.exchanges[k]? = some e →
    e.Answered (p.script.answer? k)
  suspended : ∀ (k : Nat) (e : Exchange), p.exchanges[k]? = some e → e.answer = .error .halt →
    p.outcome = .halted ∧ k + 1 = p.exchanges.length
  halted : p.outcome = .halted → ∃ e, p.exchanges.getLast? = some e ∧
    e.answer = .error .halt ∧ e.after = p.after.state
  requests : p.after.memory.requests = p.responses.length
  left : p.after.memory.responses = p.script.responses.drop p.responses.length
  told : p.after.memory.events.toList.filter Event.isResponse = p.responses

theorem length_responses (p : Sitting) :
    p.responses.length = (p.exchanges.filterMap Exchange.response?).length := by
  rw [responses]
  induction p.exchanges with
  | nil => rfl
  | cons e es ih => cases h : e.response? <;> simp [Exchange.event?, h, ih]

/-- A session with a script that is new is accounted for if its exchanges match. -/
theorem accounted_of_matched {p : Sitting} (hnew : p.script.requests = 0 ∧ p.script.events = #[])
    {halted : Bool} (ho : p.outcome = .halted ↔ halted = true)
    (h : Matched p.script p.before p.exchanges p.after halted) : p.Accounted where
  answered := h.answered
  suspended k e hk he := by
    have hnone : e.response? = none := by rw [Exchange.response?, he]
    have answers : ∀ {es : List Exchange}, (es.filterMap Exchange.response?).length = es.length →
        es[k]? = some e → False := by
      intro es hall hk
      have hsome := List.filterMap_length_eq_length.mp hall e (List.mem_of_getElem? hk)
      rw [hnone] at hsome
      cases hsome
    cases halted with
    | false => exact (answers (h.goesOn rfl) hk).elim
    | true =>
      obtain ⟨before, last, hes, hbefore, -, -⟩ := h.stops rfl
      rw [hes] at hk ⊢
      have hlt := (List.getElem?_eq_some_iff.mp hk).1
      have hge : ¬ k < before.length := by
        intro hlt
        rw [List.getElem?_append_left hlt] at hk
        exact answers hbefore hk
      rw [List.length_append, List.length_singleton] at hlt ⊢
      exact ⟨ho.mpr rfl, by omega⟩
  halted hout := by
    obtain ⟨before, last, hes, -, hlast, hafter⟩ := h.stops (ho.mp hout)
    exact ⟨last, by rw [hes, List.getLast?_concat], hlast, hafter⟩
  requests := by rw [h.given.requests, hnew.1, Nat.zero_add, length_responses]
  left := by rw [h.given.responses, length_responses]
  told := by
    rw [h.told, hnew.2]
    exact List.nil_append _

end Sitting

/-- A session with a script that is new. -/
def Game.sitting (g : Game) (s : State) (responses : List String) (halts : Bool) : Sitting :=
  let script : Script := { responses, halts }
  let (after, outcome) := g.run Script.player ⟨s, script⟩
  ⟨g, s, script, after, outcome⟩

/-- The games that are new or wait for a player, with the sessions until then: each was played with
a script of its own and ended with a halt, and the next one goes on from there. -/
inductive Seated : List Sitting → Game → State → Prop
  | new {source : String} {config : GameConfig} {judge : Judge} {g : Game} :
      Game.load source config judge = .ok g → Seated [] g g.initial
  | halt {ps : List Sitting} {g : Game} {s : State} (responses : List String) (halts : Bool) :
      Seated ps g s → (g.sitting s responses halts).outcome = .halted →
      Seated (ps ++ [g.sitting s responses halts]) g (g.sitting s responses halts).after.state
  | resume {ps : List Sitting} {g g' : Game} {s s' : State} {make : JudgeMaker} : Seated ps g s →
      (g.save s).resume make = .ok (g', s') → Seated ps g' s'

namespace Seated

variable {ps : List Sitting} {g : Game} {s : State}

theorem reached (h : Seated ps g s) : ∃ halted, Reached g s halted := by
  induction h with
  | new hg => exact ⟨false, .new hg⟩
  | @halt _ g s responses halts _ ho ih =>
    obtain ⟨_, hs⟩ := ih
    have hrun : g.run Script.player ⟨s, { responses, halts }⟩ =
        ((g.sitting s responses halts).after, .halted) :=
      Prod.ext rfl ho
    exact ⟨true, Game.run_reached (s := ⟨s, { responses, halts }⟩) hs hrun⟩
  | resume _ hres ih =>
    obtain ⟨halted, hs⟩ := ih
    exact ⟨halted, hs.resume hres⟩

/-- One more session adds its answers to the log, and accounts for them. -/
theorem sitting (h : Seated ps g s) (responses : List String) (halts : Bool) :
    (g.sitting s responses halts).after.state.log.filter Event.isResponse =
        s.log.filter Event.isResponse ++ (g.sitting s responses halts).responses ∧
      (g.sitting s responses halts).Accounted := by
  obtain ⟨_, hs⟩ := h.reached
  obtain ⟨halted, ho, hmatched⟩ :=
    Game.run_matched (s := ⟨s, { responses, halts }⟩) hs (.refl _ s)
  rw [List.nil_append] at hmatched
  exact ⟨hmatched.log, Sitting.accounted_of_matched ⟨rfl, rfl⟩ ho hmatched⟩

theorem accounted (h : Seated ps g s) :
    s.log.filter Event.isResponse = ps.flatMap Sitting.responses ∧ ∀ p ∈ ps, p.Accounted := by
  induction h with
  | new =>
    refine ⟨?_, fun p hp => absurd hp List.not_mem_nil⟩
    simp [Game.initial, State.initial, State.log]
  | halt responses halts hs ho ih =>
    obtain ⟨hlog, hsitting⟩ := hs.sitting responses halts
    refine ⟨?_, fun p hp => ?_⟩
    · rw [hlog, ih.1, List.flatMap_append, List.flatMap_singleton]
    · obtain hp | hp := List.mem_append.mp hp
      · exact ih.2 p hp
      · exact List.mem_singleton.mp hp ▸ hsitting
  | resume _ hres ih =>
    obtain ⟨-, -, -, rfl, -⟩ := SavedGame.resume_ok hres
    exact ih

/-- No answer is lost, comes twice or out of order: the responses in the log of a game are those
that its players gave over all sessions, one for each. Each is what is kept of the answer at the
length that was asked for, and right after it the register holds just that. A player gives what its
script has, and where there is no more the game halts. -/
theorem answers_kept (h : Seated ps g s) (responses : List String) (halts : Bool) :
    (g.sitting s responses halts).after.state.log.filter Event.isResponse =
        (ps ++ [g.sitting s responses halts]).flatMap Sitting.responses ∧
      ∀ p ∈ ps ++ [g.sitting s responses halts], p.Accounted := by
  obtain ⟨hlog, hall⟩ := h.accounted
  obtain ⟨hadded, hsitting⟩ := h.sitting responses halts
  refine ⟨?_, fun p hp => ?_⟩
  · rw [hadded, hlog, List.flatMap_append, List.flatMap_singleton]
  · obtain hp | hp := List.mem_append.mp hp
    · exact hall p hp
    · exact List.mem_singleton.mp hp ▸ hsitting

end Seated

/-- A program with three requests in one line. -/
def takingTurns : Game where
  program := ⟨"elicit(s, t, x, 2)",
    #[some (.elicit [.first .s, .first .t, .first .x] (.integer 2 ⟨0, 16, 17⟩))]⟩
  config := {}
  judge := Judge.Cache.judge 0

theorem takingTurns_load :
    Game.load takingTurns.program.source {} (Judge.Cache.judge 0) = .ok takingTurns := by
  cbv

/-- The first player has one answer and halts; the second has one too, and repeats it. -/
theorem Seated.answers_kept_takingTurns : ∃ p q : Sitting,
    p.outcome = .halted ∧ p.after.memory.requests = 1 ∧
    q.outcome = .finished ∧ q.after.memory.requests = 2 ∧ Seated [p] takingTurns q.before ∧
    q.after.state.log.filter Event.isResponse = p.responses ++ q.responses ∧
    p.Accounted ∧ q.Accounted := by
  let first : Script := { responses := ["a"], halts := true }
  let second : Script := { responses := ["b"], halts := false }
  let opened := takingTurns.advance Script.player ⟨takingTurns.initial, first⟩
  let waiting := takingTurns.advance Script.player opened.1
  let s := waiting.1.state
  let answered := takingTurns.advance Script.player ⟨s, second⟩
  let closed := takingTurns.advance Script.player answered.1
  have ho : opened = (opened.1, none) := Prod.ext rfl rfl
  have hw : waiting = (waiting.1, some .halted) := Prod.ext rfl rfl
  have ha : answered = (answered.1, none) := Prod.ext rfl rfl
  have hc : closed = (closed.1, none) := Prod.ext rfl rfl
  have hf : takingTurns.advance Script.player closed.1 = (closed.1, some .finished) :=
    Prod.ext rfl rfl
  let p : Sitting := ⟨takingTurns, takingTurns.initial, first, waiting.1, .halted⟩
  let q : Sitting := ⟨takingTurns, s, second, closed.1, .finished⟩
  have hp : takingTurns.sitting takingTurns.initial ["a"] true = p := by
    rw [Game.sitting, Game.run_of_none ho, Game.run_of_some hw]
  have hq : takingTurns.sitting s ["b"] false = q := by
    rw [Game.sitting, Game.run_of_none ha, Game.run_of_none hc, Game.run_of_some hf]
  have hwaits : Seated [p] takingTurns s := by
    have hhalt := (Seated.new takingTurns_load).halt ["a"] true (by rw [hp])
    rwa [hp] at hhalt
  have hresume : (takingTurns.save s).resume Judge.builtin = .ok (takingTurns, s) :=
    SavedGame.resume_saved (Game.load_ok takingTurns_load).1 rfl (Nat.zero_le _)
  have hseated : Seated [p] takingTurns s := hwaits.resume hresume
  obtain ⟨hlog, hall⟩ := Seated.answers_kept hseated ["b"] false
  rw [hq] at hlog hall
  have hlog' : q.after.state.log.filter Event.isResponse = p.responses ++ q.responses := by
    rw [hlog, List.flatMap_append, List.flatMap_singleton, List.flatMap_singleton]
  have hrequests : waiting.1.memory.requests = 1 := rfl
  have hrequests' : closed.1.memory.requests = 2 := rfl
  exact ⟨p, q, rfl, hrequests, rfl, hrequests', hseated, hlog',
    hall p List.mem_cons_self, hall q (List.mem_cons_of_mem p List.mem_cons_self)⟩

end EntropyGame
