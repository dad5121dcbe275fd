import EntropyGame.Proofs.Game.Internal
import EntropyGame.Proofs.Game.Recorded
import EntropyGame.Proofs.Game.Turn

namespace EntropyGame

/-- The registers that an instruction may write to. -/
def Instruction.targets : Instruction → List Register
  | assign targets => targets.map Prod.fst
  | elicit targets _ => targets
  | _ => []

namespace Game

variable {g : Game} {r : Register}

/-- A register that differs after a write and what follows it is the one written to, or differs for
what follows. -/
theorem changed_cons {registers written later : Registers} {w : Register} {v : Value}
    {rs : List Register} (hset : registers.set w v = .ok written)
    (ih : later.get? r ≠ written.get? r → r ∈ rs ∧ r.isStatic = false)
    (hr : later.get? r ≠ registers.get? r) : r ∈ w :: rs ∧ r.isStatic = false := by
  by_cases hw : written.get? r = registers.get? r
  · obtain ⟨hmem, hs⟩ := ih fun he => hr (he.trans hw)
    exact ⟨List.mem_cons_of_mem _ hmem, hs⟩
  · obtain ⟨he, hs⟩ := Registers.set_changed hset hw
    exact ⟨he ▸ List.mem_cons_self, hs⟩

theorem writeAll_changed {s t : State} {ws : List (Register × Value)} {flow : Except Fault Flow}
    (h : s.writeAll ws = (t, flow)) (hr : t.registers.get? r ≠ s.registers.get? r) :
    r ∈ ws.map Prod.fst ∧ r.isStatic = false := by
  induction ws generalizing s with
  | nil =>
    cases h
    exact absurd rfl hr
  | cons w ws ih =>
    simp only [State.writeAll] at h
    split at h
    · cases h
      exact absurd rfl hr
    · rename_i hset
      exact changed_cons hset (ih h) hr

theorem Asked.changed {line budget : Nat} {rs : List Register} {position : Nat}
    {announced halted : Bool} {s t : State} (h : Asked g line budget rs position announced s t halted)
    (hr : t.registers.get? r ≠ s.registers.get? r) : r ∈ rs ∧ r.isStatic = false := by
  induction h with
  | done => exact absurd rfl hr
  | halted =>
    exact absurd (congrArg (fun rs => rs.get? r) (registers_announce _ _ _ _ _)) hr
  | answered _ hset _ ih => exact changed_cons hset ih hr

theorem AskFails.changed {line budget : Nat} {rs : List Register} {position : Nat}
    {announced : Bool} {s t : State} {f : Fault}
    (h : AskFails g line budget rs position announced s t f)
    (hr : t.registers.get? r ≠ s.registers.get? r) : r ∈ rs ∧ r.isStatic = false := by
  induction h with
  | refused | unwritable =>
    exact absurd (congrArg (fun rs => rs.get? r) (registers_announce _ _ _ _ _)) hr
  | answered _ hset _ ih => exact changed_cons hset ih hr

theorem mem_of_mem_zip {targets : List (Register × Expr)} {values : List Value}
    (h : r ∈ ((targets.map Prod.fst).zip values).map Prod.fst) : r ∈ targets.map Prod.fst := by
  obtain ⟨⟨_, v⟩, hmem, rfl⟩ := List.mem_map.mp h
  exact (List.of_mem_zip hmem).1

/-- An instruction changes none but its targets, and no static registers. -/
theorem Runs.changed {line : Nat} {s t : State} {i : Instruction} {flow : Flow}
    (h : Runs g line s i t flow) (hr : t.registers.get? r ≠ s.registers.get? r) :
    r ∈ i.targets ∧ r.isStatic = false := by
  cases h with
  | assign _ hw =>
    obtain ⟨hmem, hs⟩ := writeAll_changed hw hr
    exact ⟨mem_of_mem_zip hmem, hs⟩
  | elicit _ ha =>
    obtain ⟨hmem, hs⟩ := ha.changed hr
    exact ⟨List.mem_of_mem_drop hmem, hs⟩
  | _ => exact absurd rfl hr

theorem Fails.changed {line : Nat} {s t : State} {i : Instruction} {f : Fault}
    (h : Fails g line s i t f) (hr : t.registers.get? r ≠ s.registers.get? r) :
    r ∈ i.targets ∧ r.isStatic = false := by
  cases h with
  | eval =>
    rw [State.registers_enter] at hr
    exact absurd rfl hr
  | assign _ hw =>
    obtain ⟨hmem, hs⟩ := writeAll_changed hw hr
    exact ⟨mem_of_mem_zip hmem, hs⟩
  | elicit _ ha =>
    obtain ⟨hmem, hs⟩ := ha.changed hr
    exact ⟨List.mem_of_mem_drop hmem, hs⟩
  | _ => exact absurd rfl hr

theorem Change.changed {s t : State} {halted : Bool} (h : Change g s t halted)
    (ho : s.roundStarted = true) (hr : t.registers.get? r ≠ s.registers.get? r) :
    ∃ i, g.program.At s.line i ∧ r ∈ i.targets ∧ r.isStatic = false := by
  cases h with
  | opened _ hs => cases hs.symm.trans ho
  | closed | blank => exact absurd rfl hr
  | next _ _ hl _ hruns | jump _ _ hl _ hruns | halt _ _ hl _ hruns =>
    exact ⟨_, hl, hruns.changed hr⟩

/-- Static registers stay as they are, when rounds are opened too. -/
theorem Change.get?_static {s t : State} {halted : Bool} (h : Change g s t halted)
    (hr : r.isStatic = true) : t.registers.get? r = s.registers.get? r := by
  cases ho : s.roundStarted with
  | true =>
    refine Classical.byContradiction fun hne => ?_
    obtain ⟨i, _, _, hs⟩ := h.changed ho hne
    cases hs.symm.trans hr
  | false =>
    obtain rfl := h.opened_of_not_started ho
    exact Registers.get?_resetLists_of_not_isList _ (Register.isList_of_isStatic hr)

theorem Breaks.changed {s t : State} {i : Instruction} {f : Fault} (h : Breaks g s i t f)
    (hr : t.registers.get? r ≠ s.registers.get? r) : r ∈ i.targets ∧ r.isStatic = false := by
  cases h with
  | ceiling => exact absurd rfl hr
  | fails _ hfails => exact hfails.changed hr
  | jumpOutside _ hruns => exact hruns.changed hr

/-- However an advance ends, in a round it changes none but the targets of the instruction that is
run. -/
theorem advance_changed {σ : Type} {player : Player σ} {s t : Session σ} {o : Option Outcome}
    (h : g.advance player s = (t, o)) (ho : s.state.roundStarted = true)
    (hr : t.state.registers.get? r ≠ s.state.registers.get? r) :
    ∃ i, g.program.At s.state.line i ∧ r ∈ i.targets ∧ r.isStatic = false := by
  obtain ⟨_, hc⟩ | rfl | ⟨i, _, hl, hbreaks⟩ := advance_effect h
  · exact hc.changed ho hr
  · exact absurd rfl hr
  · exact ⟨i, hl, hbreaks.changed hr⟩

theorem advance_static {σ : Type} {player : Player σ} {s t : Session σ} {o : Option Outcome}
    (h : g.advance player s = (t, o)) (hr : r.isStatic = true) :
    t.state.registers.get? r = s.state.registers.get? r := by
  obtain ⟨_, hc⟩ | rfl | ⟨i, _, _, hbreaks⟩ := advance_effect h
  · exact hc.get?_static hr
  · rfl
  · refine Classical.byContradiction fun hne => ?_
    cases (hbreaks.changed hne).2.symm.trans hr

/-- However a run ends, static registers stay as they are. -/
theorem run_static {σ : Type} {player : Player σ} {s t : Session σ} {o : Outcome}
    (h : g.run player s = (t, o)) (hr : r.isStatic = true) :
    t.state.registers.get? r = s.state.registers.get? r := by
  fun_induction Game.run g player s with
  | case1 s u ha ih => rw [ih h, advance_static ha hr]
  | case2 s u o' ha =>
    cases h
    exact advance_static ha hr

theorem AskFails.ne_write {line budget : Nat} {rs : List Register} {position : Nat}
    {announced : Bool} {s t : State} {f : Fault}
    (h : AskFails g line budget rs position announced s t f)
    (hrs : ∀ r ∈ rs, r.isStatic = false ∧ r.isList = false) : ∀ e, f ≠ .write e := by
  induction h with
  | refused => simp
  | @unwritable r _ _ _ _ _ _ hset =>
    obtain ⟨hs, hl⟩ := hrs r List.mem_cons_self
    rw [Registers.set_of_kind hs (by simp [Register.kind, hl, Value.kind])] at hset
    cases hset
  | answered _ _ _ ih => exact ih fun r hr => hrs r (List.mem_cons_of_mem _ hr)

theorem eval_ne_write {s : State} {e : Expr} {f : Fault} (h : g.eval s e = .error f) :
    ∀ w, f ≠ .write w := by
  rintro w rfl
  cases Expr.eval_faulty h with
  | operand ho => cases ho
  | misuse hm => cases hm

/-- The answers of a player can always be written. -/
theorem Breaks.elicit_ne_write {s t : State} {targets : List Register} {budget : Expr} {f : Fault}
    (h : Breaks g s (.elicit targets budget) t f)
    (htargets : ∀ r ∈ targets, r.isStatic = false ∧ r.isList = false) : ∀ w, f ≠ .write w := by
  rintro w rfl
  cases h with
  | fails _ hfails =>
    cases hfails with
    | eval _ hv => exact eval_ne_write hv w rfl
    | elicit _ ha => exact ha.ne_write (fun r hr => htargets r (List.mem_of_mem_drop hr)) w rfl

end Game

namespace Played

variable {ts : List Turn} {g : Game} {s : State} {halted : Bool}

/-- Static registers keep their presets. -/
theorem get?_static (h : Played ts g s halted) {r : Register} (hr : r.isStatic = true) :
    s.registers.get? r = some (Registers.initial g.config.presets r) := by
  refine invariant h ?_ ?_ ?_
  · exact fun g => Registers.get?_ofPresets g.config.presets r
  · intro ts g s t _ halted' _ ih hc
    rw [hc.get?_static hr, ih]
  · exact fun _ hc hs => hc ▸ hs

/-- A round starts with empty lists and with all else as the round before has left it. -/
theorem opened_registers {u : Turn} (h : Played (u :: ts) g s halted) (hu : u.opens = true) :
    (∀ r : Register, r.isList = true → s.registers.get? r = some (.list [])) ∧
      (ts = [] ∧ (∀ r : Register, r.isList = false →
          s.registers.get? r = g.initial.registers.get? r) ∨
        ∃ v earlier, ts = v :: earlier ∧ v.closes = true ∧
          ∀ r : Register, r.isList = false → s.registers.get? r = v.before.registers.get? r) := by
  -- the turns are an index of the induction
  generalize hts : u :: ts = all at h
  revert hts
  refine invariant h (fun _ h => nomatch h) ?_ ?_
  · rintro ts g s t _ halted' hs - hc he
    cases he
    have ho : s.roundStarted = false := by simpa [Turn.opens] using hu
    obtain rfl := hc.opened_of_not_started ho
    refine ⟨fun r => Registers.get?_resetLists_of_isList hs.reached.typed, ?_⟩
    obtain ⟨rfl, rfl⟩ | ⟨v, earlier, rfl, hv, rfl⟩ := hs.between ho
    · exact .inl ⟨rfl, fun r => Registers.get?_resetLists_of_not_isList _⟩
    · exact .inr ⟨v, earlier, rfl, hv, fun r => Registers.get?_resetLists_of_not_isList _⟩
  · intro all g g' s _ _ hc hs he
    rw [Game.initial, hc]
    exact hs he

/-- Registers hold values of their kind, static ones the text they were given at first, lists last
for a round and all else for the game, and nothing is changed but what is assigned or asked for. -/
theorem registers_kept (h : Played ts g s halted) :
    s.registers.Typed ∧
    (∀ r : Register, r.isStatic = true →
      s.registers.get? r = some (.ofText ((g.config.presets.get? r.name).getD ""))) ∧
    (∀ u before, ts = u :: before → u.opens = true →
      (∀ r : Register, r.isList = true → s.registers.get? r = some (.list [])) ∧
        (before = [] ∧ (∀ r : Register, r.isList = false →
            s.registers.get? r = g.initial.registers.get? r) ∨
          ∃ v earlier, before = v :: earlier ∧ v.closes = true ∧
            ∀ r : Register, r.isList = false → s.registers.get? r = v.before.registers.get? r)) ∧
    ∀ (σ : Type) (player : Player σ) (memory : σ) (t : Session σ) (o : Option Outcome),
      g.advance player ⟨s, memory⟩ = (t, o) → s.roundStarted = true →
      (∀ r, t.state.registers.get? r ≠ s.registers.get? r →
        ∃ i, g.program.At s.line i ∧ r ∈ i.targets) ∧
      ∀ targets budget, g.program.At s.line (.elicit targets budget) →
        ∀ line w, o ≠ some (.failed (.line line (.write w))) := by
  refine ⟨h.reached.typed, fun r hr => ?_, ?_, fun σ player memory t o ha ho => ⟨fun r hr => ?_, ?_⟩⟩
  · rw [h.get?_static hr, Registers.initial_of_isStatic _ hr]
  · rintro u before rfl hu
    exact h.opened_registers hu
  · obtain ⟨i, hl, hmem, _⟩ := Game.advance_changed ha ho hr
    exact ⟨i, hl, hmem⟩
  · rintro targets budget hl line w rfl
    obtain ⟨f, i, he, -, -, hi, hbreaks⟩ := Game.advance_breaks ha
    cases he
    obtain rfl := hi.eq hl
    exact hbreaks.elicit_ne_write
      (fun r hr => Program.load_elicit h.reached.isLoaded hl hr) w rfl

end Played

/-- A program of two rounds that fills a list and a text. -/
def gathering : Game where
  program := ⟨"assign(l=l + ['a'], s=s + 'b')",
    #[some (.assign
      [(.first .l, .binary .add (.name "l" ⟨0, 9, 10⟩) (.list [.text "a" ⟨0, 14, 17⟩] ⟨0, 13, 18⟩)
        ⟨0, 9, 18⟩),
      (.first .s, .binary .add (.name "s" ⟨0, 22, 23⟩) (.text "b" ⟨0, 26, 29⟩) ⟨0, 22, 29⟩)])]⟩
  config := { rounds := 2, presets := OrderedMap.empty.insert "p" "seed" }
  judge := Judge.Cache.judge 0

theorem gathering_load :
    Game.load gathering.program.source gathering.config (Judge.Cache.judge 0) = .ok gathering := by
  cbv

/-- What the game has come to after so many moves. -/
def gatheringAfter : Nat → Session (List String)
  | 0 => ⟨gathering.initial, []⟩
  | n + 1 => (gathering.advance .mailbox (gatheringAfter n)).1

theorem Played.registers_kept_gathering :
    ∃ ts t, Played ts gathering (gatheringAfter 4).state false ∧
      (gatheringAfter 4).state.registers.get? (.first .l) = some (.list []) ∧
      (gatheringAfter 2).state.registers.get? (.first .s) = some (.ofText "b") ∧
      (gatheringAfter 4).state.registers.get? (.first .s) =
        (gatheringAfter 2).state.registers.get? (.first .s) ∧
      (gatheringAfter 4).state.registers.get? (.first .p) = some (.ofText "seed") ∧
      gathering.advance .mailbox (gatheringAfter 4) = (t, none) ∧
      t.state.registers.get? (.first .l) ≠ (gatheringAfter 4).state.registers.get? (.first .l) ∧
      ∃ i, gathering.program.At 0 i ∧ Register.first .l ∈ i.targets := by
  have next : ∀ n, n < 5 → gathering.advance .mailbox (gatheringAfter n) =
      (gatheringAfter (n + 1), none) := by
    intro n hn
    obtain rfl | rfl | rfl | rfl | rfl : n = 0 ∨ n = 1 ∨ n = 2 ∨ n = 3 ∨ n = 4 := by omega
    all_goals exact Prod.ext rfl rfl
  have h : Played _ gathering (gatheringAfter 4).state false :=
    ((((Played.new gathering_load).advance (next 0 (by decide))).advance
      (next 1 (by decide))).advance (next 2 (by decide))).advance (next 3 (by decide))
  obtain ⟨-, hstatic, hopen, hstep⟩ := Played.registers_kept h
  obtain ⟨hlists, hscalars⟩ := hopen _ _ rfl rfl
  obtain ⟨hnil, _⟩ | ⟨v, _, hv, _, hkept⟩ := hscalars
  · cases hnil
  · cases hv
    have hchanged : (gatheringAfter 5).state.registers.get? (.first .l) ≠
        (gatheringAfter 4).state.registers.get? (.first .l) := by
      rw [hlists (.first .l) rfl]
      intro he
      cases he
    obtain ⟨hframe, _⟩ := hstep _ .mailbox (gatheringAfter 4).memory _ _ (next 4 (by decide)) rfl
    exact ⟨_, _, h, hlists _ rfl, rfl, hkept _ rfl, hstatic _ rfl, next 4 (by decide), hchanged,
      hframe _ hchanged⟩

end EntropyGame
