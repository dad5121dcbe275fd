import EntropyGame.Proofs.Game.Answers
import EntropyGame.Proofs.Judge.Split

namespace EntropyGame

/-- Whether what is kept of an answer stands in its register right after it and is shown by the last
event, if there is an answer. -/
def Exchange.Kept (e : Exchange) : Prop :=
  ∀ move, e.answer = .ok move →
    e.after.registers.get? e.register = some (.phrase (e.text move.response)) ∧
    e.after.history.back? =
      some (.elicitResponse e.line e.register.name (e.text move.response))

theorem Exchange.kept_of_refused {e : Exchange} {refusal : Refusal}
    (h : e.answer = .error refusal) : e.Kept := by
  intro move hmove
  cases h.symm.trans hmove

/-- What is stored and shown between two states is at most so many tokens long. -/
structure StoredWithin (judge : Judge) (n : Nat) (s t : State) : Prop where
  registers : ∀ r, t.registers.get? r = s.registers.get? r ∨
    ∃ p, t.registers.get? r = some (.phrase p) ∧ (judge.tokenize p.primary).length ≤ n
  history : ∀ e ∈ t.history, e ∈ s.history ∨
    ∀ line r p, e = .elicitResponse line r p → (judge.tokenize p.primary).length ≤ n

namespace StoredWithin

variable {judge : Judge} {n : Nat} {s t u : State}

theorem of_same (hr : t.registers = s.registers) (hh : t.history = s.history) :
    StoredWithin judge n s t where
  registers r := .inl (by rw [hr])
  history e he := .inl (hh ▸ he)

theorem trans (h : StoredWithin judge n s t) (h' : StoredWithin judge n t u) :
    StoredWithin judge n s u where
  registers r := by
    obtain hr | hr := h'.registers r
    · rw [hr]
      exact h.registers r
    · exact .inr hr
  history e he := by
    obtain he | he := h'.history e he
    · exact h.history e he
    · exact .inr he

theorem record {e : Event}
    (he : ∀ line r p, e = .elicitResponse line r p → (judge.tokenize p.primary).length ≤ n) :
    StoredWithin judge n s (s.record e) where
  registers r := .inl rfl
  history e' he' := by
    obtain he' | rfl := Array.mem_push.mp he'
    · exact .inl he'
    · exact .inr he

theorem announce (line budget : Nat) (r : Register) (announced : Bool) :
    StoredWithin judge n s (s.announce line budget r announced) := by
  cases announced with
  | true => exact of_same rfl rfl
  | false => exact record nofun

theorem accept {line : Nat} {r : Register} {registers : Registers} {usage : Usage} {p : Phrase}
    (hset : s.registers.set r (.phrase p) = .ok registers)
    (hp : (judge.tokenize p.primary).length ≤ n) :
    StoredWithin judge n s (s.accept line r registers usage p) := by
  have hwritten : StoredWithin judge n s ({ s with registers }.addUsage usage) := by
    refine ⟨fun q => ?_, fun e he => .inl he⟩
    obtain ⟨rfl, -, -⟩ := Registers.set_ok hset
    by_cases hq : q = r
    · subst hq
      exact .inr ⟨p, (OrderedMap.get?_insert ..).trans (if_pos rfl), hp⟩
    · exact .inl ((OrderedMap.get?_insert ..).trans (if_neg hq))
  refine hwritten.trans (record ?_)
  rintro line' r' p' h
  cases h
  exact hp

end StoredWithin

namespace Game

variable {σ : Type} {g : Game} {player : Player σ}

/-- Whatever the player answers, and however the asking ends, what it stores keeps to the budget. -/
theorem ask_storedWithin {budget : Nat}
    (hcut : ∀ move, (g.judge.tokenize (g.response budget move).primary).length ≤ budget)
    {line : Nat} {rs : List Register} {position : Nat} {announced : Bool} {s : Session σ} :
    StoredWithin g.judge budget s.state
      (g.ask player line budget rs position announced s).1.state := by
  induction rs generalizing position announced s with
  | nil => exact .of_same rfl rfl
  | cons r rs ih =>
    have hu : StoredWithin g.judge budget s.state (s.state.announce line budget r announced) :=
      .announce line budget r announced
    rw [ask_emit]
    rw [← state_announce player line budget r announced s] at hu
    generalize (if announced then s else _) = u at hu
    refine hu.trans ?_
    simp only [ask, if_true]
    split
    · exact .of_same rfl rfl
    · exact .of_same rfl rfl
    · rename_i move _
      split
      · exact .of_same rfl rfl
      · rename_i registers hset
        let q : Request := ⟨r.name, budget, u.state.registers.snapshot⟩
        let answered : Session σ :=
          Session.emit player (.elicitResponse line r.name (g.response budget move))
            ⟨{ u.state with registers }.addUsage move.usage, (player.request u.memory q).2⟩
        have hanswered : StoredWithin g.judge budget u.state answered.state :=
          .accept hset (hcut move)
        exact hanswered.trans ih

theorem elicit_storedWithin {line n : Nat} {targets : List Register} {budget : Expr}
    {s : Session σ}
    (hcut : ∀ move, (g.judge.tokenize (g.response n move).primary).length ≤ n)
    (hn : g.evalCount s.state .budget budget = .ok n) :
    StoredWithin g.judge n s.state (g.elicit player line targets budget s).1.state := by
  have hn' : g.evalCount (s.state.setBeacon previousElicit line) .budget budget = .ok n := hn
  let opened : Session σ :=
    { s with state := { s.state.setBeacon previousElicit line with pending := none } }
  have hopened : StoredWithin g.judge n s.state opened.state := .of_same rfl rfl
  simp only [elicit, hn']
  exact hopened.trans (ask_storedWithin hcut)

theorem askExchanges_kept {line budget : Nat} {rs : List Register}
    (hrs : ∀ r ∈ rs, r.isStatic = false ∧ r.isList = false) {position : Nat} {announced : Bool}
    {s : Session σ} : ∀ e ∈ g.askExchanges player line budget rs position announced s,
      e.game = g ∧ e.Kept := by
  induction rs generalizing position announced s with
  | nil => exact List.forall_mem_nil _
  | cons r rs ih =>
    obtain ⟨hs, hl⟩ := hrs r List.mem_cons_self
    have hrs := fun q hq => hrs q (List.mem_cons_of_mem r hq)
    rw [askExchanges_emit]
    generalize (if announced then s else _) = u
    intro e he
    simp only [askExchanges, if_true] at he
    split at he
    · rename_i hrequest
      obtain rfl := List.mem_singleton.mp he
      exact ⟨rfl, Exchange.kept_of_refused hrequest⟩
    · rename_i hrequest
      obtain rfl := List.mem_singleton.mp he
      exact ⟨rfl, Exchange.kept_of_refused hrequest⟩
    · rename_i move hrequest
      have hset : u.state.registers.set r (.phrase (g.response budget move)) =
          .ok (u.state.registers.insert r (.phrase (g.response budget move))) :=
        Registers.set_of_kind hs (by simp [Register.kind, hl, Value.kind])
      rw [hset] at he
      obtain rfl | he := List.mem_cons.mp he
      · refine ⟨rfl, fun move' hmove => ?_⟩
        cases hrequest.symm.trans hmove
        exact ⟨(OrderedMap.get?_insert ..).trans (if_pos rfl), Array.back?_push ..⟩
      · exact ih hrs e he

theorem executeExchanges_kept {line : Nat} {i : Instruction}
    (hi : ∀ targets budget, i = .elicit targets budget →
      ∀ r ∈ targets, r.isStatic = false ∧ r.isList = false) {s : Session σ} :
    ∀ e ∈ g.executeExchanges player line i s, e.game = g ∧ e.Kept := by
  by_cases helicit : ∃ targets budget, i = .elicit targets budget
  · obtain ⟨targets, budget, rfl⟩ := helicit
    simp only [executeExchanges]
    split
    · exact List.forall_mem_nil _
    · exact askExchanges_kept fun r hr => hi targets budget rfl r (List.mem_of_mem_drop hr)
  · rw [executeExchanges_of_ne player line fun targets budget hi => helicit ⟨targets, budget, hi⟩]
    exact List.forall_mem_nil _

theorem exchangesNext_kept (hg : g.IsLoaded) (player : Player σ) (s : Session σ) :
    ∀ e ∈ g.exchangesNext player s, e.game = g ∧ e.Kept := by
  rw [exchangesNext]
  split
  · split
    · rename_i i hl
      refine executeExchanges_kept ?_
      rintro targets budget rfl r hr
      exact Program.load_elicit hg hl hr
    · exact List.forall_mem_nil _
  · exact List.forall_mem_nil _

/-- Over a whole run every answer is kept at the length that was asked for. -/
theorem exchanges_kept (hg : g.IsLoaded) (player : Player σ) (s : Session σ) :
    ∀ e ∈ g.exchanges player s, e.game = g ∧ e.Kept := by
  fun_induction Game.run g player s with
  | case1 s t ha ih =>
    rw [exchanges_of_none ha]
    exact List.forall_mem_append.mpr ⟨exchangesNext_kept hg player s, ih⟩
  | case2 s t o ha =>
    rw [exchanges_of_some ha]
    exact exchangesNext_kept hg player s

end Game

/-- Cutting a text down to its first tokens is exact. The tokens of a text are words with the space
before them and single characters, and give the text again. The first of them make a text of just
these tokens, so that cutting twice is cutting once. Whatever the state, an `elicit` stores nothing
that has more tokens than its budget, and over a whole run each answer is stored cut down to the
length that was asked for. -/
theorem Judge.Splits.cut_exactly {judge : Judge} {isWord : Char → Bool}
    (h : judge.Splits isWord) (hspace : isWord ' ' = false) :
    (∀ text : String, "".intercalate (judge.tokenize text) = text ∧
      (∀ t ∈ judge.tokenize text, t ≠ "") ∧
      ∀ before t after, judge.tokenize text = before ++ t :: after →
        Cache.IsToken isWord ("".intercalate before).toList t.toList
          ("".intercalate after).toList) ∧
    (∀ (p : Phrase) (n : Nat),
      (Measure.firstTokens judge p n).decoration = p.decoration ∧
      (Measure.firstTokens judge p n).primary =
        "".intercalate ((judge.tokenize p.primary).take n) ∧
      judge.tokenize (Measure.firstTokens judge p n).primary = (judge.tokenize p.primary).take n ∧
      (judge.tokenize (Measure.firstTokens judge p n).primary).length =
        min n (judge.tokenize p.primary).length) ∧
    (∀ (p : Phrase) (n m : Nat), Measure.firstTokens judge (Measure.firstTokens judge p n) m =
      Measure.firstTokens judge p (min n m)) ∧
    ∀ (g : Game), g.judge = judge → ∀ (σ : Type) (player : Player σ) (s : Session σ),
      (∀ line targets budget n, g.evalCount s.state .budget budget = .ok n →
        StoredWithin judge n s.state (g.elicit player line targets budget s).1.state) ∧
      (g.IsLoaded → ∀ e ∈ g.exchanges player s, ∀ move, e.answer = .ok move → ∃ p : Phrase,
        e.after.registers.get? e.register = some (.phrase p) ∧
        e.after.history.back? = some (.elicitResponse e.line e.register.name p) ∧
        p = Measure.firstTokens judge { primary := move.response } e.request.maxLength ∧
        (judge.tokenize p.primary).length ≤ e.request.maxLength) := by
  have hlength : ∀ p n, (judge.tokenize (Measure.firstTokens judge p n).primary).length ≤ n := by
    intro p n
    rw [h.length_tokenize_firstTokens]
    exact Nat.min_le_left _ _
  refine ⟨fun text => ⟨h.intercalate_tokenize text, h.tokenize_ne_empty text,
    fun before t after => h.isToken hspace⟩, fun p n => ⟨?_, ?_, h.tokenize_firstTokens p n,
    h.length_tokenize_firstTokens p n⟩, h.firstTokens_firstTokens, ?_⟩
  · rw [h.firstTokens_eq]
  · rw [h.firstTokens_eq]
  · rintro g rfl σ player s
    refine ⟨fun line targets budget n => Game.elicit_storedWithin fun move => hlength _ n,
      fun hg e he move hmove => ?_⟩
    obtain ⟨rfl, hkept⟩ := Game.exchanges_kept hg player s e he
    obtain ⟨hheld, hshown⟩ := hkept move hmove
    exact ⟨_, hheld, hshown, rfl, hlength _ _⟩

/-- The judge of the library cuts a text with two spaces in a row and a letter past ASCII, and a
game that asks for two tokens stores it cut down to these. -/
theorem Judge.Splits.cut_exactly_cache :
    let judge := Judge.Cache.judge 0
    let s := (takingTurns.advance Script.player
      ⟨takingTurns.initial, { responses := ["a  é,"] }⟩).1
    judge.tokenize "a  é," = ["a", " "] ++ " é" :: [","] ∧
    Cache.IsToken Text.isAlphanumeric ("".intercalate ["a", " "]).toList " é".toList
      ("".intercalate [","]).toList ∧
    judge.tokenize (Measure.firstTokens judge { primary := "a  é," } 3).primary =
      ["a", " ", " é"] ∧
    StoredWithin judge 2 s.state
      (takingTurns.elicit Script.player 0 [.first .s] (.integer 2 ⟨0, 16, 17⟩) s).1.state ∧
    ∃ e ∈ takingTurns.exchanges Script.player s, ∃ p : Phrase,
      e.after.registers.get? (.first .s) = some (.phrase p) ∧
      p = Measure.firstTokens judge { primary := "a  é," } 2 ∧
      (judge.tokenize p.primary).length ≤ 2 := by
  intro judge s
  have htokens : judge.tokenize "a  é," = ["a", " "] ++ " é" :: [","] := by decide +kernel
  obtain ⟨htext, hfirst, -, hgame⟩ :=
    Judge.Splits.cut_exactly (Cache.splits 0) Text.isAlphanumeric_space
  obtain ⟨helicit, hrun⟩ := hgame takingTurns rfl Script Script.player s
  have hbudget : takingTurns.evalCount s.state .budget (.integer 2 ⟨0, 16, 17⟩) = .ok 2 := rfl
  refine ⟨htokens, (htext _).2.2 _ _ _ htokens, ?_, helicit 0 _ _ 2 hbudget, ?_⟩
  · rw [(hfirst _ 3).2.2.1, htokens]
    rfl
  · obtain ⟨e, rest, hnext, hanswer, hregister, hrequest⟩ : ∃ e rest,
        takingTurns.exchangesNext Script.player s = e :: rest ∧
        e.answer = .ok { response := "a  é,", usage := ⟨0, Text.wordCount "a  é,"⟩ } ∧
        e.register = .first .s ∧ e.request.maxLength = 2 := ⟨_, _, rfl, rfl, rfl, rfl⟩
    have he : e ∈ takingTurns.exchanges Script.player s := by
      rw [Game.exchanges, hnext]
      exact List.mem_append_left _ List.mem_cons_self
    obtain ⟨p, hheld, -, hp, hlength⟩ := hrun (Game.load_ok takingTurns_load).1 e he _ hanswer
    rw [hregister] at hheld
    rw [hrequest] at hp hlength
    exact ⟨e, he, p, hheld, hp, hlength⟩

end EntropyGame
