import EntropyGame.Judge.Cache
import EntropyGame.Proofs.Game.Recorded
import EntropyGame.Proofs.Game.Sessions
import EntropyGame.Proofs.Register.Store
import Mathlib

namespace EntropyGame

/-- A loaded game is resumed as it was saved if its judge is built again. -/
theorem SavedGame.resume_saved {g : Game} {s : State} {make : JudgeMaker} (hg : g.IsLoaded)
    (hm : make g.judge.config = .ok g.judge) (hl : s.line ≤ g.program.size) :
    (g.save s).resume make = .ok (g, s) := by
  have hg' : Program.load g.program.source g.config = .ok g.program := hg
  simp [resume, Game.save, hg', hm, Nat.not_lt.mpr hl, bind, Except.bind]

namespace Game

variable {g : Game}

/-- Evaluating the budget of an interrupted `elicit` again makes no difference that shows: it comes
to what was announced, or only the last target is left to ask for and each answer is cut alike or
makes the game fail alike. -/
def BudgetKept (g : Game) (s : State) : Prop :=
  ∀ targets budget next n, g.Asking s targets budget next n →
    ∃ n', g.evalCount s .budget budget = .ok n' ∧
      (n' = n ∨ targets.length = next + 1 ∧
        ∀ move, g.response n' move = g.response n move ∨
          ∃ e, (g.goOn s.line n' (targets.drop next) next true ⟨s.forget, [move]⟩).2 = .failed e ∧
            (g.goOn s.line n (targets.drop next) next true ⟨s.forget, [move]⟩).2 = .failed e)

/-- Two runs come to the same, or fail alike. -/
def Alike (a b : Session (List Move) × Outcome) : Prop :=
  a = b ∨ ∃ e, a.2 = .failed e ∧ b.2 = .failed e

theorem Alike.ending {a b : Session (List Move) × Outcome} (h : Alike a b) :
    a.2.ending a.1.state = b.2.ending b.1.state := by
  obtain rfl | ⟨e, ha, hb⟩ := h
  · rfl
  · rw [ha, hb]
    rfl

theorem goOn_append {line n : Nat} {rs : List Register} {next : Nat} {announced : Bool}
    {s : State} {moves : List Move} {t : Session (List Move)} {o : Outcome}
    (h : g.goOn line n rs next announced ⟨s, moves⟩ = (t, o)) (ho : o ≠ .halted)
    (later : List Move) :
    g.goOn line n rs next announced ⟨s, moves ++ later⟩ = (⟨t.state, t.memory ++ later⟩, o) := by
  rw [goOn] at h
  split at h
  · rename_i ha
    cases h
    rw [goOn, ask_append ha (by simp)]
  · cases h
    exact absurd rfl ho
  · rename_i hne ha
    obtain rfl | rfl := ask_flow ha
    · rw [goOn, ask_append ha (by simp)]
      exact run_append h ho later
    · exact absurd rfl hne

theorem goOn_nil_moves {line n : Nat} {r : Register} {rs : List Register} {next : Nat}
    {announced : Bool} {s : State} :
    g.goOn line n (r :: rs) next announced ⟨s, []⟩ =
      (⟨{ s.announce line n r announced with pending := some ⟨line, next, true⟩ }, []⟩, .halted) := by
  rw [goOn, ask_moves_nil]

/-- An answer to a target that may be written is written. -/
theorem goOn_cons {line n : Nat} {r : Register} {rs : List Register} {next : Nat} {s : State}
    {move : Move} {moves : List Move} (hs : r.isStatic = false) (hl : r.isList = false) :
    g.goOn line n (r :: rs) next true ⟨s, move :: moves⟩ =
      g.goOn line n rs (next + 1) false
        ⟨s.accept line r (s.registers.insert r (.phrase (g.response n move))) move.usage
          (g.response n move), moves⟩ := by
  have hk : (Value.phrase (g.response n move)).kind = r.kind := by
    simp [Register.kind, hl, Value.kind]
  rw [goOn, goOn, ask_moves_cons, Registers.set_of_kind hs hk]
  rfl

/-- Where the budget is kept, a game that is resumed goes on as if there had been no halt. -/
theorem goOn_alike {s : State} {targets : List Register} {budget : Expr} {next n n' : Nat}
    (h : g.Asking s targets budget next n)
    (hkept : n' = n ∨ targets.length = next + 1 ∧
      ∀ move, g.response n' move = g.response n move ∨
        ∃ e, (g.goOn s.line n' (targets.drop next) next true ⟨s.forget, [move]⟩).2 = .failed e ∧
          (g.goOn s.line n (targets.drop next) next true ⟨s.forget, [move]⟩).2 = .failed e)
    (moves : List Move) :
    Alike (g.goOn s.line n' (targets.drop next) next true ⟨s.forget, moves⟩)
      (g.goOn s.line n (targets.drop next) next true ⟨s.forget, moves⟩) := by
  obtain rfl | ⟨hlen, hmove⟩ := hkept
  · exact .inl rfl
  · obtain ⟨r, hr, _⟩ := h.announced
    obtain ⟨hlt, hr⟩ := List.getElem?_eq_some_iff.mp hr
    have hdrop : targets.drop next = [r] := by
      rw [List.drop_eq_getElem_cons hlt, hr, ← hlen, List.drop_length]
    rw [hdrop] at hmove ⊢
    cases moves with
    | nil =>
      rw [goOn_nil_moves, goOn_nil_moves]
      exact .inl rfl
    | cons move later =>
      obtain he | ⟨e, hn', hn⟩ := hmove move
      · left
        rw [goOn, goOn, ask_moves_cons, ask_moves_cons, he]
        rfl
      · right
        refine ⟨e, ?_, ?_⟩
        · have := goOn_append (Prod.ext rfl hn' :
            g.goOn s.line n' [r] next true ⟨s.forget, [move]⟩ = (_, .failed e)) (by simp) later
          exact congrArg Prod.snd this
        · have := goOn_append (Prod.ext rfl hn :
            g.goOn s.line n [r] next true ⟨s.forget, [move]⟩ = (_, .failed e)) (by simp) later
          exact congrArg Prod.snd this

theorem run_reached {σ : Type} {player : Player σ} {s t : Session σ} {halted : Bool}
    (hs : Reached g s.state halted) (h : g.run player s = (t, .halted)) :
    Reached g t.state true := by
  fun_induction Game.run g player s generalizing halted with
  | case1 s s' ha ih => exact ih (.advance hs ha) h
  | case2 s s' outcome ha =>
    cases h
    exact .halt hs ha

section

variable {source : String} {config : GameConfig} {judge : Judge} {make : JudgeMaker}

/-- Sessions that start as the whole run stands go on like it. -/
theorem playSessions_eq (hg : load source config judge = .ok g) (hm : make judge.config = .ok judge)
    (hkept : ∀ moves t, g.run .moves ⟨g.initial, moves⟩ = (t, .halted) → g.BudgetKept t.state)
    {s : State} (past : List Move) {moves : List Move} {later : List (List Move)}
    (h : Alike (g.run .moves ⟨s, moves⟩) (g.run .moves ⟨g.initial, past ++ moves⟩)) :
    playSessions make g s moves later = g.play g.initial (past ++ (moves ++ later.flatten)) := by
  obtain ⟨hload, -, -, hj⟩ := load_ok hg
  induction later generalizing s past moves with
  | nil =>
    rw [List.flatten_nil, List.append_nil]
    exact h.ending
  | cons next later ih =>
    rw [List.flatten_cons, ← List.append_assoc past]
    cases hrun : g.run .moves ⟨s, moves⟩ with
    | mk t o =>
      rw [hrun] at h
      cases o with
      | finished =>
        obtain h | ⟨e, he, _⟩ := h
        · have hall := run_append h.symm (by simp) (next ++ later.flatten)
          simp only [playSessions, hrun, play, hall]
        · cases he
      | failed e =>
        obtain ⟨u, hu⟩ : ∃ u, g.run .moves ⟨g.initial, past ++ moves⟩ = (u, .failed e) := by
          obtain h | ⟨e', he, h⟩ := h
          · exact ⟨t, h.symm⟩
          · cases he
            exact ⟨_, Prod.ext rfl h⟩
        have hall := run_append hu (by simp) (next ++ later.flatten)
        simp only [playSessions, hrun, play, hall]
        rfl
      | halted =>
        obtain h | ⟨e, he, _⟩ := h
        · have hr := Reached.new hg
          have ht := run_reached (s := ⟨g.initial, past ++ moves⟩) hr h.symm
          obtain ⟨_, targets, budget, position, n, hask, hlater⟩ :=
            run_halted (s := ⟨g.initial, past ++ moves⟩) hr h.symm
          obtain ⟨n', hn, hkept⟩ := hkept _ _ h.symm targets budget position n hask
          have hres := SavedGame.resume_saved hload (hj ▸ hm) ht.controlled.line_le
          have halike : Alike (g.run .moves ⟨t.state, next⟩)
              (g.run .moves ⟨g.initial, (past ++ moves) ++ next⟩) := by
            rw [run_waiting ht.controlled hask, hn, hlater next]
            exact goOn_alike hask hkept next
          simp only [playSessions, hrun, hres]
          exact ih _ halike
        · cases he

end

/-- The ending of what goes on after a halt. -/
def endOn (g : Game) (n : Nat) (rs : List Register) (next : Nat) (s : State) (moves : List Move) :
    Ending :=
  let (t, outcome) := g.goOn s.line n rs next true ⟨s.forget, moves⟩
  outcome.ending t.state

/-- An ending that is no failure tells everything that was recorded. -/
theorem ending_recorded {s s' : State} {t t' : Session (List Move)} {o o' : Outcome}
    (h : g.run .moves ⟨s, []⟩ = (t, o)) (h' : g.run .moves ⟨s', []⟩ = (t', o'))
    (he : o.ending t.state = o'.ending t'.state) (ho : ∀ e, o ≠ .failed e)
    (hs' : s'.round < g.config.rounds) {round place : Nat} {e e' : Event}
    (hr : s.Recorded round place e) (hr' : s'.Recorded round place e') : e = e' := by
  have ht : t.state.Recorded round place e := run_recorded h ho hr
  cases o with
  | finished =>
    cases o' with
    | finished =>
      have ht' : t'.state.Recorded round place e' := run_recorded h' (by simp) hr'
      simp only [Outcome.ending, Ending.finished.injEq, State.summary, Summary.mk.injEq] at he
      exact ht.unique (ht'.of_completed (run_finished h' fun _ => hs') he.1)
    | halted => cases he
    | failed e => cases he
  | halted =>
    cases o' with
    | finished => cases he
    | halted =>
      have ht' : t'.state.Recorded round place e' := run_recorded h' (by simp) hr'
      simp only [Outcome.ending, Ending.suspended.injEq] at he
      exact ht.unique (he ▸ ht')
    | failed e => cases he
  | failed e => exact absurd rfl (ho e)

/-- A different budget shows in the request for the target after the next one. -/
theorem budget_eq_of_endOn {n n' : Nat} {r q : Register} {rs : List Register} {next : Nat}
    {s : State} (hs : r.isStatic = false) (hl : r.isList = false) (move : Move)
    (h : g.endOn n' (r :: q :: rs) next s [move] = g.endOn n (r :: q :: rs) next s [move]) :
    n' = n := by
  rw [endOn, endOn, goOn_cons hs hl, goOn_cons hs hl, goOn_nil_moves, goOn_nil_moves] at h
  simp only [Outcome.ending, Ending.suspended.injEq] at h
  have hback := congrArg (fun u => u.history.back?) h
  simpa [State.announce, State.record] using hback

/-- A different cut of the last answer shows in the log unless the game fails alike. -/
theorem response_eq_of_endOn {n n' : Nat} {r : Register} {next : Nat} {s : State}
    (hs : r.isStatic = false) (hl : r.isList = false) (ho : s.roundStarted = true)
    (hr : s.round < g.config.rounds) {move : Move}
    (h : g.endOn n' [r] next s [move] = g.endOn n [r] next s [move]) :
    g.response n' move = g.response n move ∨
      ∃ e, (g.goOn s.line n' [r] next true ⟨s.forget, [move]⟩).2 = .failed e ∧
        (g.goOn s.line n [r] next true ⟨s.forget, [move]⟩).2 = .failed e := by
  let answered (k : Nat) : State :=
    (s.forget.accept s.line r (s.registers.insert r (.phrase (g.response k move))) move.usage
      (g.response k move)).moveTo (s.line + 1)
  have hgo : ∀ k, g.goOn s.line k [r] next true ⟨s.forget, [move]⟩ =
      g.run .moves ⟨answered k, []⟩ := fun k => goOn_cons hs hl
  have hrec : ∀ k, (answered k).Recorded s.completed.size s.history.size
      (.elicitResponse s.line r.name (g.response k move)) := fun k =>
    .inr ⟨rfl, ho, Array.getElem?_push_size⟩
  simp only [endOn, hgo] at h ⊢
  cases h' : g.run .moves ⟨answered n', []⟩ with
  | mk t' o' =>
    cases hn : g.run .moves ⟨answered n, []⟩ with
    | mk t o =>
      rw [h', hn] at h
      by_cases hf : ∃ e, o' = .failed e
      · obtain ⟨e, rfl⟩ := hf
        right
        cases o with
        | finished => cases h
        | halted => cases h
        | failed e' =>
          simp only [Outcome.ending, Ending.failed.injEq] at h
          exact ⟨e, rfl, by rw [h]⟩
      · left
        have he := ending_recorded h' hn h (fun e he => hf ⟨e, he⟩) hr (hrec n') (hrec n)
        simpa using he

section

variable {source : String} {config : GameConfig} {judge : Judge} {make : JudgeMaker}

/-- A budget that comes out different shows in the next request, in the answer or in a failure. -/
theorem budgetKept_of_playSessions (hg : load source config judge = .ok g)
    (hm : make judge.config = .ok judge)
    (h : ∀ moves later, playSessions make g g.initial moves later =
      g.play g.initial (moves ++ later.flatten))
    {moves : List Move} {t : Session (List Move)}
    (hrun : g.run .moves ⟨g.initial, moves⟩ = (t, .halted)) : g.BudgetKept t.state := by
  obtain ⟨hload, -, -, hj⟩ := load_ok hg
  have hr := Reached.new hg
  have hc := (run_reached (s := ⟨g.initial, moves⟩) hr hrun).controlled
  intro targets budget next n hask
  obtain ⟨_, _, _, _, _, hask', hlater⟩ := run_halted (s := ⟨g.initial, moves⟩) hr hrun
  obtain ⟨rfl, rfl, rfl, rfl⟩ := hask.unique hask'
  have hw := hc.waiting _ hask.pending
  obtain ⟨r, hget, _⟩ := hask.announced
  obtain ⟨hlt, hget⟩ := List.getElem?_eq_some_iff.mp hget
  have hdrop : targets.drop next = r :: targets.drop (next + 1) := by
    rw [List.drop_eq_getElem_cons hlt, hget]
  obtain ⟨hs, hl⟩ := Program.load_elicit hload hask.elicit (hget ▸ List.getElem_mem hlt)
  have hplay : ∀ more, g.play t.state more = g.endOn n (targets.drop next) next t.state more := by
    intro more
    have hsess := h moves [more]
    simp only [playSessions, hrun, SavedGame.resume_saved hload (hj ▸ hm) hc.line_le,
      List.flatten_cons, List.flatten_nil, List.append_nil] at hsess
    rw [hsess, play, hlater more]
    rfl
  simp only [play, run_waiting hc hask, hdrop] at hplay
  rw [hdrop]
  cases hev : g.evalCount t.state .budget budget with
  | error f =>
    have hnone := hplay []
    rw [hev, endOn, goOn_nil_moves] at hnone
    cases hnone
  | ok n' =>
    simp only [hev] at hplay
    refine ⟨n', rfl, ?_⟩
    cases hrest : targets.drop (next + 1) with
    | cons q qs =>
      rw [hrest] at hplay
      exact .inl (budget_eq_of_endOn hs hl ⟨"", {}⟩ (hplay _))
    | nil =>
      rw [hrest] at hplay
      rw [List.drop_eq_nil_iff] at hrest
      exact .inr ⟨by omega, fun move =>
        response_eq_of_endOn hs hl hw.started hw.round (hplay [move])⟩

/-- Halts do not show in how a game ends exactly if none of them changes a budget. -/
theorem playSessions_eq_play_iff (hg : load source config judge = .ok g)
    (hm : make judge.config = .ok judge) :
    (∀ moves later,
        playSessions make g g.initial moves later = g.play g.initial (moves ++ later.flatten)) ↔
      ∀ moves t, g.run .moves ⟨g.initial, moves⟩ = (t, .halted) → g.BudgetKept t.state :=
  ⟨fun h _ _ hrun => budgetKept_of_playSessions hg hm h hrun,
    fun h _ _ => playSessions_eq hg hm h [] (.inl rfl)⟩

end

/-- A game whose second budget depends on the first answer. -/
def shrinkingBudget : Game where
  program := ⟨"elicit(s, t, 2 - len(s))",
    #[some (.elicit [.first .s, .first .t]
      (.binary .sub (.integer 2 ⟨0, 13, 14⟩)
        (.call "len" [(none, .name "s" ⟨0, 21, 22⟩)] ⟨0, 17, 23⟩) ⟨0, 13, 23⟩))]⟩
  config := {}
  judge := Judge.Cache.judge 0

theorem shrinkingBudget_load :
    load shrinkingBudget.program.source {} (Judge.Cache.judge 0) = .ok shrinkingBudget := by
  cbv

/-- What was stored as the second answer of a game of one round. -/
def Ending.secondAnswer? : Ending → Option Phrase
  | .finished results =>
    match (results.rounds[0]?.bind fun r => r.history[4]? : Option Event) with
    | some (.elicitResponse _ _ response) => some response
    | _ => none
  | _ => none

theorem shrinkingBudget_play :
    Ending.secondAnswer?
      (shrinkingBudget.play shrinkingBudget.initial [⟨"a", {}⟩, ⟨"b c", {}⟩]) =
      some (Measure.firstTokens shrinkingBudget.judge { primary := "b c" } 2) := by
  let opened := shrinkingBudget.advance .moves
    ⟨shrinkingBudget.initial, [⟨"a", {}⟩, ⟨"b c", {}⟩]⟩
  let answered := shrinkingBudget.advance .moves opened.1
  let closed := shrinkingBudget.advance .moves answered.1
  have ho : opened = (opened.1, none) := Prod.ext rfl rfl
  have ha : answered = (answered.1, none) := Prod.ext rfl rfl
  have hc : closed = (closed.1, none) := Prod.ext rfl rfl
  have hf : shrinkingBudget.advance .moves closed.1 = (closed.1, some .finished) :=
    Prod.ext rfl rfl
  rw [play, run_of_none ho, run_of_none ha, run_of_none hc, run_of_some hf]
  rfl

/-- Where the game waits for its second answer. -/
def shrinkingWaiting (first : Phrase) : State :=
  let s := (shrinkingBudget.initial.beginRound.record (.roundStarted 0)).setBeacon previousElicit 0
  let answered := (s.announce 0 2 (.first .s) false).accept 0 (.first .s)
    (s.registers.insert (.first .s) (.phrase first)) {} first
  { answered.announce 0 2 (.first .t) false with pending := some ⟨0, 1, true⟩ }

theorem shrinkingBudget_playSessions :
    Ending.secondAnswer?
      (playSessions Judge.builtin shrinkingBudget shrinkingBudget.initial [⟨"a", {}⟩]
        [[⟨"b c", {}⟩]]) =
      some (Measure.firstTokens shrinkingBudget.judge { primary := "b c" } 1) := by
  let opened := shrinkingBudget.advance .moves ⟨shrinkingBudget.initial, [⟨"a", {}⟩]⟩
  let waiting := shrinkingWaiting { primary := "a" }
  let answered := shrinkingBudget.advance .moves ⟨waiting, [⟨"b c", {}⟩]⟩
  let closed := shrinkingBudget.advance .moves answered.1
  have ho : opened = (opened.1, none) := Prod.ext rfl rfl
  have hw : shrinkingBudget.advance .moves opened.1 = (⟨waiting, []⟩, some .halted) := by
    have ht : Judge.Cache.tokenize "a" = ["a"] := by cbv
    have hresp : shrinkingBudget.response 2 ⟨"a", {}⟩ = { primary := "a" } := by
      simp [response, Measure.firstTokens, shrinkingBudget, Judge.Cache.judge, ht]
    show shrinkingBudget.advance .moves opened.1 =
      (⟨shrinkingWaiting { primary := "a" }, []⟩, some .halted)
    rw [← hresp]
    rfl
  have ha : answered = (answered.1, none) := Prod.ext rfl rfl
  have hc : closed = (closed.1, none) := Prod.ext rfl rfl
  have hf : shrinkingBudget.advance .moves closed.1 = (closed.1, some .finished) :=
    Prod.ext rfl rfl
  have hr : (shrinkingBudget.save waiting).resume Judge.builtin = .ok (shrinkingBudget, waiting) :=
    SavedGame.resume_saved (load_ok shrinkingBudget_load).1 rfl (Nat.zero_le _)
  simp only [playSessions, run_of_none ho, run_of_some hw]
  rw [hr]
  simp only [play, run_of_none ha, run_of_none hc, run_of_some hf]
  rfl

theorem shrinkingBudget_differs :
    playSessions Judge.builtin shrinkingBudget shrinkingBudget.initial [⟨"a", {}⟩]
        [[⟨"b c", {}⟩]] ≠
      shrinkingBudget.play shrinkingBudget.initial [⟨"a", {}⟩, ⟨"b c", {}⟩] := by
  intro h
  have hp := congrArg Ending.secondAnswer? h
  rw [shrinkingBudget_play, shrinkingBudget_playSessions] at hp
  have ht : Judge.Cache.tokenize "b c" = ["b", " c"] := by cbv
  simp [Measure.firstTokens, shrinkingBudget, Judge.Cache.judge, ht] at hp

/-- Halts may show: the budget of an `elicit` is evaluated again when a game is resumed, and then it
may depend on answers that came before the halt. -/
theorem halts_show :
    ¬ ∀ (source : String) (config : GameConfig) (judge : Judge) (make : JudgeMaker) (g : Game),
      load source config judge = .ok g → make judge.config = .ok judge →
      ∀ moves later,
        playSessions make g g.initial moves later = g.play g.initial (moves ++ later.flatten) :=
  fun h => shrinkingBudget_differs (h _ _ _ Judge.builtin _ shrinkingBudget_load rfl _ _)

theorem playSessions_eq_play_iff_shrinkingBudget :
    ¬ ∀ moves t, shrinkingBudget.run .moves ⟨shrinkingBudget.initial, moves⟩ = (t, .halted) →
      shrinkingBudget.BudgetKept t.state := fun h =>
  shrinkingBudget_differs
    ((@playSessions_eq_play_iff _ _ _ _ Judge.builtin shrinkingBudget_load rfl).mpr h _ _)

end Game

end EntropyGame
