import EntropyGame.Proofs.Game.Halts
import EntropyGame.Proofs.Game.Log

namespace EntropyGame

/-- What passes between a game and its player. -/
inductive Message
  | told (e : Event)
  | made (move : Move)

namespace Message

def event? : Message → Option Event
  | told e => some e
  | made _ => none

def move? : Message → Option Move
  | told _ => none
  | made move => some move

/-- Whether a player is told that a round has started. -/
def opens : Message → Bool
  | told (.roundStarted _) => true
  | _ => false

end Message

/-- The events that a player was told, where the last message stands first. -/
def told (ms : List Message) : List Event :=
  (ms.filterMap Message.event?).reverse

/-- The moves that were made in a round. -/
def movesMade (ms : List Message) : List Move :=
  ((ms.takeWhile fun m => !m.opens).filterMap Message.move?).reverse

/-- The sum of usages from left to right. -/
def usageSum (us : List Usage) : Usage :=
  us.foldl (· + ·) {}

section

variable {ms : List Message} {e : Event} {move : Move}

theorem told_told : told (.told e :: ms) = told ms ++ [e] := by
  simp [told, Message.event?]

theorem told_made : told (.made move :: ms) = told ms := by
  simp [told, List.filterMap_cons, Message.event?]

theorem movesMade_made : movesMade (.made move :: ms) = movesMade ms ++ [move] := by
  simp [movesMade, Message.opens, Message.move?]

theorem movesMade_told (he : (Message.told e).opens = false) :
    movesMade (.told e :: ms) = movesMade ms := by
  simp [movesMade, he, List.filterMap_cons, Message.move?]

theorem movesMade_opens (he : (Message.told e).opens = true) :
    movesMade (.told e :: ms) = [] := by
  simp [movesMade, he]

theorem usageSum_concat (us : List Usage) (u : Usage) : usageSum (us ++ [u]) = usageSum us + u := by
  rw [usageSum, List.foldl_append]
  rfl

end

variable {σ : Type}

/-- A player that remembers besides all that passes between it and the game. -/
def Player.transcribed (player : Player σ) : Player (σ × List Message) where
  request memory request :=
    match player.request memory.1 request with
    | (.ok move, next) => (.ok move, next, .made move :: memory.2)
    | (.error refusal, next) => (.error refusal, next, memory.2)
  notify memory e := (player.notify memory.1 e, .told e :: memory.2)

/-- A session without what is remembered besides. -/
def Session.plain (u : Session (σ × List Message)) : Session σ :=
  ⟨u.state, u.memory.1⟩

/-- The log of a state is what was told, and the usage of its round that of the moves made. -/
structure Faithful (s : State) (ms : List Message) : Prop where
  log : s.log = told ms
  usage : s.roundUsage = usageSum ((movesMade ms).map Move.usage)

namespace Faithful

variable {s t : State} {ms : List Message}

/-- What touches neither log nor usage needs no record. -/
theorem congr (h : Faithful s ms) (hh : t.history = s.history) (hc : t.completed = s.completed)
    (hu : t.roundUsage = s.roundUsage) : Faithful t ms where
  log := by rw [State.log, hh, hc, ← State.log, h.log]
  usage := hu.trans h.usage

theorem tell (h : Faithful s ms) {e : Event} (he : (Message.told e).opens = false) :
    Faithful (s.record e) (.told e :: ms) where
  log := by
    rw [told_told, ← h.log]
    simp [State.log, State.record]
  usage := by
    rw [movesMade_told he]
    exact h.usage

theorem make (h : Faithful s ms) (move : Move) :
    Faithful (s.addUsage move.usage) (.made move :: ms) where
  log := by
    rw [told_made]
    exact h.log
  usage := by
    rw [movesMade_made, List.map_append, List.map_singleton, usageSum_concat, ← h.usage]
    rfl

/-- A round opens on an empty history. -/
theorem beginRound (h : Faithful s ms) (hempty : s.history = #[]) (round : Nat) :
    Faithful (s.beginRound.record (.roundStarted round)) (.told (.roundStarted round) :: ms) where
  log := by
    rw [told_told, ← h.log]
    simp [State.log, State.record, State.beginRound, hempty]
  usage := by
    rw [movesMade_opens rfl]
    rfl

/-- A round that closes hands its history over. -/
theorem finishRound (h : Faithful s ms) : Faithful s.finishRound ms where
  log := by
    rw [← h.log]
    simp [State.log, State.finishRound]
  usage := h.usage

end Faithful

/-- A session comes to the same whether or not its messages are recorded, and the record is right. -/
structure Matches {α : Type} (x : Session σ × α) (y : Session (σ × List Message) × α) : Prop where
  plain : x = (y.1.plain, y.2)
  faithful : Faithful y.1.state y.1.memory.2

theorem Matches.ite {α : Type} {p : Prop} [Decidable p] {x x' : Session σ × α}
    {y y' : Session (σ × List Message) × α} (ht : p → Matches x y) (hf : ¬ p → Matches x' y') :
    Matches (if p then x else x') (if p then y else y') := by
  by_cases hp : p
  · rw [if_pos hp, if_pos hp]
    exact ht hp
  · rw [if_neg hp, if_neg hp]
    exact hf hp

namespace Game

variable {g : Game} {player : Player σ} {u : Session (σ × List Message)}

theorem ask_transcribed {line budget : Nat} {rs : List Register}
    (hrs : ∀ r ∈ rs, r.isStatic = false ∧ r.isList = false) {position : Nat} {announced : Bool}
    (h : Faithful u.state u.memory.2) :
    Matches (g.ask player line budget rs position announced u.plain)
      (g.ask player.transcribed line budget rs position announced u) := by
  induction rs generalizing position announced u with
  | nil => exact ⟨rfl, h⟩
  | cons r rs ih =>
    obtain ⟨hs, hl⟩ := hrs r List.mem_cons_self
    have hrs := fun q hq => hrs q (List.mem_cons_of_mem r hq)
    have asked : ∀ {v : Session (σ × List Message)}, Faithful v.state v.memory.2 →
        Matches (g.ask player line budget (r :: rs) position true v.plain)
          (g.ask player.transcribed line budget (r :: rs) position true v) := by
      intro v hv
      have hset : ∀ response : Phrase, v.state.registers.set r (.phrase response) =
          .ok (v.state.registers.insert r (.phrase response)) :=
        fun response => Registers.set_of_kind hs (by simp [Register.kind, hl, Value.kind])
      cases hmove : player.request v.memory.1 ⟨r.name, budget, v.state.registers.snapshot⟩ with
      | mk answer memory =>
        cases answer with
        | error refusal =>
          simp only [ask, Player.transcribed, Session.plain, reduceIte, hmove]
          cases refusal with
          | halt => exact ⟨rfl, hv.congr rfl rfl rfl⟩
          | failed message => exact ⟨rfl, hv⟩
        | ok move =>
          simp only [ask, Player.transcribed, Session.plain, reduceIte, hmove, hset]
          let written := { v.state with
            registers := v.state.registers.insert r (.phrase (g.response budget move)) }
          have hwritten : Faithful written v.memory.2 := hv.congr rfl rfl rfl
          let noted : Session (σ × List Message) :=
            ⟨written.addUsage move.usage, memory, .made move :: v.memory.2⟩
          let answered := noted.emit player.transcribed
            (.elicitResponse line r.name (g.response budget move))
          exact ih (u := answered) hrs ((hwritten.make move).tell rfl)
    rw [ask_emit, ask_emit player.transcribed]
    cases announced with
    | false => exact asked (v := u.emit player.transcribed _) (h.tell rfl)
    | true => exact asked h

theorem quietly_transcribed (run : State → State × Except Fault Flow)
    (hrun : ∀ s t flow, run s = (t, flow) →
      t.history = s.history ∧ t.completed = s.completed ∧ t.roundUsage = s.roundUsage)
    (h : Faithful u.state u.memory.2) : Matches (quietly run u.plain) (quietly run u) := by
  obtain ⟨hh, hc, hu⟩ := hrun u.state _ _ rfl
  exact ⟨rfl, h.congr hh hc hu⟩

theorem execute_transcribed (player : Player σ) (line : Nat) {i : Instruction}
    (hi : ∀ targets budget, i = .elicit targets budget →
      ∀ r ∈ targets, r.isStatic = false ∧ r.isList = false)
    (h : Faithful u.state u.memory.2) :
    Matches (g.execute player line i u.plain) (g.execute player.transcribed line i u) := by
  cases i with
  | assign targets =>
    refine quietly_transcribed (g.assign targets) (fun s t flow ht => ?_) h
    simp only [assign] at ht
    split at ht
    · cases ht
      exact ⟨rfl, rfl, rfl⟩
    · rw [writeAll_frame ht]
      exact ⟨rfl, rfl, rfl⟩
  | reveal values =>
    simp only [execute, reveal, Session.plain]
    split
    · exact ⟨rfl, h⟩
    · exact ⟨rfl, h.tell rfl⟩
  | elicit targets budget =>
    simp only [execute, elicit, Session.plain]
    split
    · exact ⟨rfl, h.congr rfl rfl rfl⟩
    · let begun : State := { u.state.setBeacon previousElicit line with pending := none }
      have hbegun : Faithful begun u.memory.2 := h.congr rfl rfl rfl
      refine ask_transcribed (u := ⟨begun, u.memory⟩) (fun r hr => ?_) hbegun
      exact hi targets budget rfl r (List.mem_of_mem_drop hr)
  | ensure conditions =>
    simp only [execute, ensure, Session.plain]
    split
    · exact ⟨rfl, h⟩
    · refine .ite (fun _ => ⟨rfl, h.congr rfl rfl rfl⟩) fun _ => ?_
      · split
        · exact ⟨rfl, h⟩
        · rename_i target _
          let attempt := State.counter u.state.ensureFailures line + 1
          let failures := u.state.ensureFailures.insert line attempt
          have hcounted : Faithful { u.state with ensureFailures := failures } u.memory.2 :=
            h.congr rfl rfl rfl
          exact .ite (fun _ => ⟨rfl, hcounted.tell rfl⟩) fun _ => ⟨rfl, hcounted.tell rfl⟩
  | reward score =>
    simp only [execute, reward, Session.plain]
    split
    · exact ⟨rfl, h⟩
    · split
      · exact ⟨rfl, h⟩
      · rename_i x _
        have hadded : Faithful (u.state.addScore x) u.memory.2 := h.congr rfl rfl rfl
        exact .ite (fun _ => ⟨rfl, hadded.tell rfl⟩) fun _ => ⟨rfl, h⟩
  | beacon name =>
    refine quietly_transcribed (beacon line name) (fun s t flow ht => ?_) h
    simp only [beacon] at ht
    split at ht <;> cases ht <;> exact ⟨rfl, rfl, rfl⟩
  | replay name count =>
    refine quietly_transcribed (g.replay line name count) (fun s t flow ht => ?_) h
    simp only [replay] at ht
    split at ht
    · cases ht
      exact ⟨rfl, rfl, rfl⟩
    · split at ht
      · cases ht
        exact ⟨rfl, rfl, rfl⟩
      · split at ht <;> cases ht <;> exact ⟨rfl, rfl, rfl⟩

theorem step_transcribed (player : Player σ) (hg : g.IsLoaded) (h : Faithful u.state u.memory.2) :
    Matches (g.step player u.plain) (g.step player.transcribed u) := by
  simp only [step, Session.plain]
  split
  · exact ⟨rfl, h⟩
  · exact ⟨rfl, h.congr rfl rfl rfl⟩
  · rename_i i hl
    refine .ite (fun _ => ⟨rfl, h⟩) fun _ => ?_
    have hi : ∀ targets budget, i = .elicit targets budget →
        ∀ r ∈ targets, r.isStatic = false ∧ r.isList = false := by
      rintro targets budget rfl r hr
      exact Program.load_elicit hg hl hr
    obtain ⟨hplain, hf⟩ := execute_transcribed player u.state.line hi h
    rw [Session.plain] at hplain
    rw [hplain]
    generalize g.execute player.transcribed u.state.line i u = x at hf
    obtain ⟨v, flow⟩ := x
    cases flow with
    | error f => exact ⟨rfl, hf⟩
    | ok flow =>
      cases flow with
      | next => exact ⟨rfl, hf.congr rfl rfl rfl⟩
      | jump target => exact .ite (fun _ => ⟨rfl, hf⟩) fun _ => ⟨rfl, hf.congr rfl rfl rfl⟩
      | halt => exact ⟨rfl, hf⟩

/-- To record its messages changes nothing about what an advance does, and the record stays right:
a round opens on an empty history. -/
theorem advance_transcribed (player : Player σ) (hg : g.IsLoaded)
    (hempty : u.state.roundStarted = false → u.state.history = #[])
    (h : Faithful u.state u.memory.2) :
    Matches (g.advance player u.plain) (g.advance player.transcribed u) := by
  simp only [advance, Session.plain]
  refine .ite (fun _ => ⟨rfl, h⟩) fun _ => ?_
  refine .ite (fun ho => ?_) fun _ => .ite (fun _ => ?_) fun _ => ?_
  · have ho : u.state.roundStarted = false := by simpa using ho
    exact ⟨rfl, h.beginRound (hempty ho) _⟩
  · obtain ⟨hplain, hf⟩ := step_transcribed player hg h
    rw [Session.plain] at hplain
    rw [hplain]
    generalize g.step player.transcribed u = x at hf
    obtain ⟨v, progress⟩ := x
    cases progress with
    | error f => exact ⟨rfl, hf⟩
    | ok progress => cases progress <;> exact ⟨rfl, hf⟩
  · exact ⟨rfl, (h.tell rfl).finishRound⟩

end Game

/-- The states that games come to, with all messages that have passed until then: players come and
go with the sessions, but the messages of all of them stay. -/
inductive Followed : List Message → Game → State → Bool → Prop
  | new {source : String} {config : GameConfig} {judge : Judge} {g : Game} :
      Game.load source config judge = .ok g → Followed [] g g.initial false
  | advance {σ : Type} {ms : List Message} {g : Game} {s : State} {halted : Bool}
      {player : Player σ} {memory : σ} {t : Session (σ × List Message)} : Followed ms g s halted →
      g.advance player.transcribed ⟨s, memory, ms⟩ = (t, none) →
      Followed t.memory.2 g t.state false
  | halt {σ : Type} {ms : List Message} {g : Game} {s : State} {halted : Bool}
      {player : Player σ} {memory : σ} {t : Session (σ × List Message)} : Followed ms g s halted →
      g.advance player.transcribed ⟨s, memory, ms⟩ = (t, some .halted) →
      Followed t.memory.2 g t.state true
  | resume {ms : List Message} {g g' : Game} {s s' : State} {halted : Bool} {make : JudgeMaker} :
      Followed ms g s halted → (g.save s).resume make = .ok (g', s') → Followed ms g' s' halted

namespace Followed

variable {ms : List Message} {g : Game} {s : State} {halted : Bool}

theorem reached (h : Followed ms g s halted) : Reached g s halted := by
  induction h with
  | new hg => exact .new hg
  | advance _ ha ih => exact .advance ih ha
  | halt _ ha ih => exact .halt ih ha
  | resume _ hres ih => exact .resume ih hres

theorem matches_advance (h : Followed ms g s halted) (hf : Faithful s ms) (player : Player σ)
    (memory : σ) :
    Matches (g.advance player ⟨s, memory⟩) (g.advance player.transcribed ⟨s, memory, ms⟩) :=
  Game.advance_transcribed (u := ⟨s, memory, ms⟩) player h.reached.isLoaded
    h.reached.wellLogged.closed hf

theorem faithful (h : Followed ms g s halted) : Faithful s ms := by
  induction h with
  | new => exact ⟨rfl, rfl⟩
  | @advance _ _ _ _ _ player memory _ hs ha ih | @halt _ _ _ _ _ player memory _ hs ha ih =>
    have hm := (hs.matches_advance ih player memory).faithful
    rw [ha] at hm
    exact hm
  | resume _ hres ih =>
    obtain ⟨-, -, -, rfl, -⟩ := SavedGame.resume_ok hres
    exact ih

/-- An advance has messages of its own to go with those before. -/
theorem transcribe (h : Followed ms g s halted) {player : Player σ} {memory : σ} {t : Session σ}
    {o : Option Outcome} (ha : g.advance player ⟨s, memory⟩ = (t, o)) :
    ∃ u : Session (σ × List Message),
      g.advance player.transcribed ⟨s, memory, ms⟩ = (u, o) ∧ u.plain = t := by
  have hm := (h.matches_advance h.faithful player memory).plain
  rw [ha] at hm
  obtain ⟨ht, ho⟩ := Prod.mk.inj hm
  exact ⟨_, Prod.ext rfl ho.symm, ht.symm⟩

end Followed

/-- Whatever a game comes to, it does so with some messages. -/
theorem Reached.followed {g : Game} {s : State} {halted : Bool} (h : Reached g s halted) :
    ∃ ms, Followed ms g s halted := by
  induction h with
  | new hg => exact ⟨[], .new hg⟩
  | advance _ ha ih =>
    obtain ⟨ms, hms⟩ := ih
    obtain ⟨u, hu, rfl⟩ := hms.transcribe ha
    exact ⟨_, hms.advance hu⟩
  | halt _ ha ih =>
    obtain ⟨ms, hms⟩ := ih
    obtain ⟨u, hu, rfl⟩ := hms.transcribe ha
    exact ⟨_, hms.halt hu⟩
  | resume _ hres ih =>
    obtain ⟨ms, hms⟩ := ih
    exact ⟨ms, hms.resume hres⟩

namespace Game

variable {g : Game} {player : Player σ}

theorem run_transcribed (player : Player σ) {u : Session (σ × List Message)} {halted : Bool}
    (hs : Reached g u.state halted) (h : Faithful u.state u.memory.2) :
    Matches (g.run player u.plain) (g.run player.transcribed u) := by
  fun_induction Game.run g player.transcribed u generalizing halted with
  | case1 u u' ha ih =>
    obtain ⟨hplain, hf⟩ := advance_transcribed player hs.isLoaded hs.wellLogged.closed h
    rw [ha] at hplain hf
    rw [run_of_none hplain]
    exact ih (.advance hs ha) hf
  | case2 u u' o ha =>
    obtain ⟨hplain, hf⟩ := advance_transcribed player hs.isLoaded hs.wellLogged.closed h
    rw [ha] at hplain hf
    rw [run_of_some hplain]
    exact ⟨rfl, hf⟩

/-- A run leaves a well formed log, where only what a player has not answered waits. -/
theorem run_wellLogged {s t : Session σ} {o : Outcome} (h : g.run player s = (t, o)) {halted : Bool}
    (hs : Reached g s.state halted) :
    t.state.WellLogged (o = .halted ∨ (∃ line message, o = .failed (.line line (.player message))) ∨
      halted = true ∧ t.state.history = s.state.history) := by
  fun_induction Game.run g player s generalizing halted with
  | case1 s s' ha ih =>
    refine (ih h (.advance hs ha)).imp (.imp_right (.imp_right ?_))
    rintro ⟨hhalted, -⟩
    cases hhalted
  | case2 s s' o ha =>
    cases h
    cases o with
    | finished =>
      obtain ⟨rfl, -⟩ := advance_finished ha
      exact hs.wellLogged.imp fun hhalted => .inr (.inr ⟨hhalted, rfl⟩)
    | halted =>
      exact (((advance_change ha).2 rfl).wellLogged hs.controlled hs.wellLogged).imp
        fun _ => .inl rfl
    | failed e =>
      obtain ⟨f, i, rfl, -, ho, hl, hbreaks⟩ := advance_breaks ha
      refine (hbreaks.wellLogged hs.isLoaded hs.controlled ho hl hs.wellLogged).imp ?_
      rintro (⟨message, rfl⟩ | hkept)
      · exact .inr (.inl ⟨_, message, rfl⟩)
      · exact .inr (.inr hkept)

/-- The log of a game is all that its players were told, over all sessions, and it is well formed.
Where a run ends, no request waits for its answer but the last, after a halt or where the player has
failed. -/
theorem log_kept (g : Game) :
    (∀ s halted, Reached g s halted ↔ ∃ ms, Followed ms g s halted) ∧
    ∀ ms s halted, Followed ms g s halted →
      s.log = told ms ∧ s.WellLogged (halted = true) ∧
      ∀ (σ : Type) (player : Player σ) (memory : σ) (t : Session (σ × List Message)) (o : Outcome),
        g.run player.transcribed ⟨s, memory, ms⟩ = (t, o) →
        g.run player ⟨s, memory⟩ = (t.plain, o) ∧ t.state.log = told t.memory.2 ∧
          t.state.WellLogged
            (o = .halted ∨ (∃ line message, o = .failed (.line line (.player message))) ∨
              halted = true ∧ t.state.history = s.history) := by
  constructor
  · intro s halted
    exact ⟨Reached.followed, fun ⟨_, h⟩ => h.reached⟩
  · intro ms s halted h
    refine ⟨h.faithful.log, h.reached.wellLogged, ?_⟩
    intro σ player memory t o hrun
    obtain ⟨hplain, hf⟩ := run_transcribed player (u := ⟨s, memory, ms⟩) h.reached h.faithful
    rw [hrun] at hplain hf
    exact ⟨hplain, hf.log, run_wellLogged hrun h.reached⟩

end Game

/-- A program with two requests in one line. -/
def handedOver : Game where
  program := ⟨"elicit(s, t, 2)",
    #[some (.elicit [.first .s, .first .t] (.integer 2 ⟨0, 13, 14⟩))]⟩
  config := {}
  judge := Judge.Cache.judge 0

theorem handedOver_load :
    Game.load handedOver.program.source {} (Judge.Cache.judge 0) = .ok handedOver := by
  cbv

/-- One player answers the first request and halts at the second, which another answers. -/
theorem Game.log_kept_handedOver : ∃ ms s t, Followed ms handedOver s true ∧
    s.log = told ms ∧ (told ms).length = 4 ∧
    (∃ n, s.history.toList.getLast? = some (.elicitRequest 0 "t" n)) ∧
    Alternates s.history.toList True ∧
    handedOver.run Player.constant.transcribed ⟨s, "b", ms⟩ = (t, .finished) ∧
    t.state.log = told t.memory.2 ∧ (told t.memory.2).length = 6 ∧
    ∃ r, t.state.completed[0]? = some r ∧ r.WellLogged 0 := by
  let opened := handedOver.advance Player.mailbox.transcribed ⟨handedOver.initial, ["a"], []⟩
  let waiting := handedOver.advance Player.mailbox.transcribed opened.1
  let s := waiting.1.state
  let ms := waiting.1.memory.2
  let answered := handedOver.advance Player.constant.transcribed ⟨s, "b", ms⟩
  let closed := handedOver.advance Player.constant.transcribed answered.1
  have ho : opened = (opened.1, none) := Prod.ext rfl rfl
  have hw : waiting = (waiting.1, some .halted) := Prod.ext rfl rfl
  have ha : answered = (answered.1, none) := Prod.ext rfl rfl
  have hc : closed = (closed.1, none) := Prod.ext rfl rfl
  have hf : handedOver.advance Player.constant.transcribed closed.1 = (closed.1, some .finished) :=
    Prod.ext rfl rfl
  have hresume : (handedOver.save s).resume Judge.builtin = .ok (handedOver, s) :=
    SavedGame.resume_saved (load_ok handedOver_load).1 rfl (Nat.zero_le _)
  have hs : Followed ms handedOver s true :=
    (((Followed.new handedOver_load).advance ho).halt hw).resume hresume
  have hrun : handedOver.run Player.constant.transcribed ⟨s, "b", ms⟩ = (closed.1, .finished) := by
    rw [run_of_none ha, run_of_none hc, run_of_some hf]
  obtain ⟨-, hkept⟩ := Game.log_kept handedOver
  obtain ⟨hlog, hwell, hruns⟩ := hkept ms s true hs
  obtain ⟨-, hlog', hwell'⟩ := hruns _ _ _ _ _ hrun
  have hround : closed.1.state.round = 1 := rfl
  have hsize : 0 < closed.1.state.completed.size := by
    rw [hwell'.number, hround]
    exact Nat.one_pos
  have hr := Array.getElem?_eq_getElem hsize
  have hfour : (told ms).length = 4 := by decide +kernel
  have hsix : (told closed.1.memory.2).length = 6 := by decide +kernel
  have hlast : s.history.toList.getLast? = some (.elicitRequest 0 "t" 2) := rfl
  exact ⟨ms, s, closed.1, hs, hlog, hfour, ⟨2, hlast⟩, hwell.alternates.imp fun _ => trivial, hrun,
    hlog', hsix, _, hr, hwell'.completed 0 _ hr⟩

end EntropyGame
