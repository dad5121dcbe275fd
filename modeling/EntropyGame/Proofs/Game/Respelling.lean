import EntropyGame.Judge.Cache
import EntropyGame.Proofs.Game.Parallel
import EntropyGame.Proofs.Game.Registers
import EntropyGame.Proofs.Source.Roles
import Mathlib

namespace EntropyGame

/-- Whether a line of text is another one with registers spelled in other ways. -/
def Program.LineRespelt (line : Nat) (text text' : String) : Prop :=
  text' = text ∨ ∃ c, Call.parse text line = .ok (some c) ∧
    Lexer.Respelt c.roles text.toList text'.toList

/-- Whether a text of a program is another one with registers spelled in other ways. -/
structure Program.Respelt (source source' : String) : Prop where
  line : ∀ {line : Nat} {text text' : String}, (Text.lines source)[line]? = some text →
    (Text.lines source')[line]? = some text' → LineRespelt line text text'
  size : (Text.lines source').length = (Text.lines source).length

/-- Whether two lines hold the same instruction up to places and spellings, if any. -/
def Instruction.SpelledAlike (i i' : Option Instruction) : Prop :=
  i'.map (respell Register.ownName) = i.map (respell Register.ownName)

/-- Whether two programs have the same lines up to places and spellings. -/
structure Program.SpelledAlike (p p' : Program) : Prop where
  line : ∀ {line : Nat} {i : Option Instruction}, p.lines[line]? = some i →
    ∃ i', p'.lines[line]? = some i' ∧ Instruction.SpelledAlike i i'
  size : p'.size = p.size

namespace Program

theorem loadLine_respelt {text text' : String} {line : Nat} {i : Option Instruction}
    (h : loadLine text line = .ok i) (hr : LineRespelt line text text') :
    ∃ i', loadLine text' line = .ok i' ∧ Instruction.SpelledAlike i i' := by
  obtain rfl | ⟨c, hc, hr⟩ := hr
  · exact ⟨i, h, rfl⟩
  · obtain ⟨ts, hts⟩ := loadLine_tokens h
    obtain ⟨row', hspells, hrow⟩ := hr.spells hts
    obtain ⟨ts', hts', rfl⟩ := hspells 0
    rw [Call.parse_eq hts] at hc
    split at hc
    · cases hc
    · rename_i hne
      obtain ⟨c', hc, he⟩ := map_ok hc
      cases he
      have hempty : ts'.isEmpty = ts.isEmpty := by
        cases ts with
        | nil => exact absurd rfl hne
        | cons t ts =>
          cases ts' with
          | nil => cases hrow
          | cons => rfl
      refine loadLine_alike .ownName hts hts' hempty (fun c' hc' => ?_) h
      cases hc.symm.trans hc'
      exact Parser.callOfTokens_respelt hc line hrow

/-- A program loads with its registers spelled in other ways if it does without, and is the same. -/
theorem load_respelt {source source' : String} {config config' : GameConfig} {p : Program}
    (h : load source config = .ok p) (hr : Respelt source source')
    (hlines : config'.maxLines = config.maxLines) :
    ∃ p', load source' config' = .ok p' ∧ p.SpelledAlike p' := by
  have hload : ∀ {line : Nat} {text' : String},
      (Text.lines source')[line]? = some text' → line < lineNumbers ∧
      ∃ i i', p.lines[line]? = some i ∧ loadLine text' line = .ok i' ∧
        Instruction.SpelledAlike i i' := by
    intro line text' ht'
    have hlt' := (List.getElem?_eq_some_iff.mp ht').1
    rw [hr.size] at hlt'
    have ht := List.getElem?_eq_getElem hlt'
    obtain ⟨hlt, i, hi, hat⟩ := load_line h ht
    obtain ⟨i', hi', halike⟩ := loadLine_respelt hi (hr.line ht ht')
    exact ⟨hlt, i, i', hat, hi', halike⟩
  have hlength : (Text.lines source').length ≤ config'.maxLines := by
    rw [hr.size, hlines]
    exact (load_ok h).2.1
  obtain ⟨p', hp'⟩ := load_of_lines hlength fun line text' ht' => by
    obtain ⟨hlt, i, i', -, hi', -⟩ := hload ht'
    exact ⟨hlt, i', hi'⟩
  have hsize : p'.size = p.size := by rw [load_size hp', load_size h, hr.size]
  refine ⟨p', hp', ?_, hsize⟩
  intro line i hi
  have hlt : line < (Text.lines source').length := by
    rw [← load_size hp', hsize]
    exact (Array.getElem?_eq_some_iff.mp hi).1
  have ht' := List.getElem?_eq_getElem hlt
  obtain ⟨-, j, j', hj, hj', halike⟩ := hload ht'
  obtain ⟨-, i', hi', hat⟩ := load_line hp' ht'
  cases hj.symm.trans hi
  cases hj'.symm.trans hi'
  exact ⟨j', hat, halike⟩

end Program

namespace Game

variable {σ : Type} {g g' : Game}

/-- Games with the same lines up to spellings, the same limits and the same judge take the same
steps. -/
theorem step_respelt (hp : g.program.SpelledAlike g'.program)
    (hc : g'.config = { g.config with presets := g'.config.presets }) (hj : g'.judge = g.judge)
    (player : Player σ) (s : Session σ) : g'.step player s = g.step player s := by
  have hsteps : g'.config.maxSteps = g.config.maxSteps := by rw [hc]
  have hfailures : g'.config.maxEnsureFailures = g.config.maxEnsureFailures := by rw [hc]
  have hfollow : ∀ line (t : Session σ) flow, g'.follow line t flow = g.follow line t flow := by
    intro line t flow
    cases flow with
    | jump target => rw [follow, follow, hp.size]
    | next | halt => rfl
  rw [step, step]
  cases hl : g.program.lines[s.state.line]? with
  | none =>
    have hl' : g'.program.lines[s.state.line]? = none := by
      rw [Array.getElem?_eq_none_iff] at hl ⊢
      exact Nat.le_trans (Nat.le_of_eq hp.size) hl
    rw [hl']
  | some i =>
    obtain ⟨i', hl', halike⟩ := hp.line hl
    rw [hl']
    cases i with
    | none =>
      cases i' with
      | none => rfl
      | some => cases halike
    | some i =>
      cases i' with
      | none => cases halike
      | some i' =>
        have hexecute := execute_congr hfailures hj player s.state.line i' s
        rw [g.execute_spelling .ownName player _ (Option.some.inj halike)] at hexecute
        simp only [hsteps, hexecute, hfollow]

theorem advance_respelt (hp : g.program.SpelledAlike g'.program)
    (hc : g'.config = { g.config with presets := g'.config.presets }) (hj : g'.judge = g.judge)
    (player : Player σ) (s : Session σ) : g'.advance player s = g.advance player s := by
  have hrounds : g'.config.rounds = g.config.rounds := by rw [hc]
  rw [advance, advance, isFinished, isFinished, hrounds, hp.size, step_respelt hp hc hj]

/-- They play alike from any state on. -/
theorem run_respelt (hp : g.program.SpelledAlike g'.program)
    (hc : g'.config = { g.config with presets := g'.config.presets }) (hj : g'.judge = g.judge)
    (player : Player σ) (s : Session σ) : g'.run player s = g.run player s := by
  have hadvance := advance_respelt hp hc hj player
  fun_induction Game.run g player s with
  | case1 s t ha ih => rw [run_of_none ((hadvance s).trans ha), ih]
  | case2 s t o ha => exact run_of_some ((hadvance s).trans ha)

end Game

/-- Whether a preset is another one with its key spelled in another way. -/
def PresetRespelt (e e' : String × String) : Prop :=
  (e'.1 = e.1 ∨ Register.SameName e.1 e'.1) ∧ e'.2 = e.2

/-- Whether a game is set up like another one but for the spelling of registers in the keys of its
presets. Different keys stand for different registers. -/
structure GameConfig.Respelt (c c' : GameConfig) : Prop where
  rules : c' = { c with presets := c'.presets }
  presets : List.Forall₂ PresetRespelt c.presets.entries c'.presets.entries
  distinct : (c.presets.entries.map fun e => Register.ownName e.1).Nodup

/-- Whether each preset that is not empty has the own name of a static register for its key in both
tables or in none. -/
def GameConfig.HeardAlike (c c' : GameConfig) : Prop :=
  ∀ p ∈ c.presets.entries.zip c'.presets.entries, p.1.2 ≠ "" →
    ∀ r : Register, r.isStatic = true → (p.2.1 = r.name ↔ p.1.1 = r.name)

theorem Register.ownName_name (r : Register) : ownName r.name = r.name := by
  rw [ownName, ofName?_name]

theorem PresetRespelt.ownName_eq {e e' : String × String} (h : PresetRespelt e e') :
    Register.ownName e'.1 = Register.ownName e.1 := by
  obtain ⟨hkey | hkey, -⟩ := h
  · rw [hkey]
  · exact hkey.ownName_eq

namespace Registers

theorem find_eq_none {es : List (String × String)} {r : Register}
    (h : r.name ∉ es.map fun e => Register.ownName e.1) : OrderedMap.find r.name es = none := by
  rw [← Option.not_isSome_iff_eq_none, OrderedMap.isSome_find]
  intro hmem
  obtain ⟨e, he, hkey⟩ := List.mem_map.mp hmem
  exact h (List.mem_map.mpr ⟨e, he, by rw [hkey, r.ownName_name]⟩)

theorem map_ownName_eq {es es' : List (String × String)} (h : List.Forall₂ PresetRespelt es es') :
    (es'.map fun e => Register.ownName e.1) = es.map fun e => Register.ownName e.1 := by
  induction h with
  | nil => rfl
  | cons he _ ih => rw [List.map_cons, List.map_cons, he.ownName_eq, ih]

/-- A register finds its preset under its own name in both tables or in none. -/
theorem find_respelt {es es' : List (String × String)} (h : List.Forall₂ PresetRespelt es es')
    (hd : (es.map fun e => Register.ownName e.1).Nodup) (r : Register) :
    (OrderedMap.find r.name es').getD "" = (OrderedMap.find r.name es).getD "" ↔
      ∀ p ∈ es.zip es', p.1.2 ≠ "" → (p.2.1 = r.name ↔ p.1.1 = r.name) := by
  induction h with
  | nil => simp
  | @cons e e' es es' he hes ih =>
    obtain ⟨k, v⟩ := e
    obtain ⟨k', v'⟩ := e'
    have hkey := he.ownName_eq
    obtain rfl : v' = v := he.2
    dsimp only at hkey
    rw [List.map_cons, List.nodup_cons] at hd
    rw [List.zip_cons_cons, List.forall_mem_cons, ← ih hd.2]
    by_cases hr : Register.ownName k = r.name
    · -- no other entry is of this register
      rw [hr] at hd
      have hnone := find_eq_none hd.1
      have hnone' := find_eq_none (map_ownName_eq hes ▸ hd.1)
      by_cases hk : k = r.name <;> by_cases hk' : k' = r.name <;>
        simp [OrderedMap.find, hk, hk', hnone, hnone', eq_comm]
    · have hne : k ≠ r.name := fun h => hr (by rw [h, r.ownName_name])
      have hne' : k' ≠ r.name := fun h => hr (by rw [← hkey, h, r.ownName_name])
      simp [OrderedMap.find, hne, hne']

theorem get?_ofPresets_eq_iff {m m' : OrderedMap String String} {r : Register}
    (hr : r.isStatic = true) : (ofPresets m').get? r = (ofPresets m).get? r ↔
      (m'.get? r.name).getD "" = (m.get? r.name).getD "" := by
  rw [get?_ofPresets, get?_ofPresets, initial_of_isStatic _ hr, initial_of_isStatic _ hr]
  simp [Value.ofText]

/-- Stores begin alike if their static registers do. -/
theorem ofPresets_eq {m m' : OrderedMap String String}
    (h : ∀ r : Register, r.isStatic = true → (ofPresets m').get? r = (ofPresets m).get? r) :
    ofPresets m' = ofPresets m := by
  have hinitial : initial m' = initial m := by
    funext r
    cases hr : r.isStatic with
    | true => simpa only [get?_ofPresets, Option.some.injEq] using h r hr
    | false => rw [initial, initial, hr]; rfl
  rw [ofPresets, ofPresets, hinitial]

end Registers

namespace GameConfig.Respelt

variable {c c' : GameConfig}

theorem heardAlike_iff (h : c.Respelt c') : c.HeardAlike c' ↔ ∀ r : Register, r.isStatic = true →
    (Registers.ofPresets c'.presets).get? r = (Registers.ofPresets c.presets).get? r := by
  have hfind := Registers.find_respelt h.presets h.distinct
  constructor
  · intro hheard r hr
    rw [Registers.get?_ofPresets_eq_iff hr]
    exact (hfind r).mpr fun p hp hv => hheard p hp hv r hr
  · intro hsame p hp hv r hr
    exact (hfind r).mp ((Registers.get?_ofPresets_eq_iff hr).mp (hsame r hr)) p hp hv

end GameConfig.Respelt

namespace Game

/-- A program loads with its registers spelled in other ways if it does without, and plays alike from
every state. Games that are new play alike, whoever plays, exactly if no preset is lost or found in
the keys of their tables. -/
theorem run_respelt_iff {g : Game} {source source' : String} {config config' : GameConfig}
    {judge : Judge} (hload : load source config judge = .ok g)
    (hs : Program.Respelt source source') (hc : config.Respelt config') :
    ∃ g', load source' config' judge = .ok g' ∧
      (∀ (σ : Type) (player : Player σ) (s : Session σ), g'.run player s = g.run player s) ∧
      ((∀ (σ : Type) (player : Player σ) (memory : σ),
          g'.run player ⟨g'.initial, memory⟩ = g.run player ⟨g.initial, memory⟩) ↔
        config.HeardAlike config') := by
  obtain ⟨hg, hsource, hconfig, hjudge⟩ := load_ok hload
  rw [IsLoaded, hsource, hconfig] at hg
  have hlines : config'.maxLines = config.maxLines := by rw [hc.rules]
  obtain ⟨p', hp', halike⟩ := Program.load_respelt hg hs hlines
  have hrules : config' = { g.config with presets := config'.presets } := by
    rw [hconfig]
    exact hc.rules
  have hrun : ∀ (σ : Type) (player : Player σ) (s : Session σ),
      (⟨p', config', judge⟩ : Game).run player s = g.run player s :=
    fun σ player s => run_respelt halike hrules hjudge.symm player s
  refine ⟨⟨p', config', judge⟩, by rw [load, hp']; rfl, hrun, ?_⟩
  rw [hc.heardAlike_iff]
  constructor
  · -- runs leave static registers alone, so that they show what games begin with
    intro hsame r hr
    cases hend : g.run .mailbox ⟨g.initial, []⟩ with
    | mk t o =>
      have hkept := run_static hend hr
      rw [run_static ((hsame _ .mailbox []).trans hend) hr] at hkept
      rw [← hconfig]
      exact hkept
  · intro hheard σ player memory
    have hinitial : initial ⟨p', config', judge⟩ = g.initial := by
      rw [initial, initial, State.initial, State.initial, Registers.ofPresets_eq hheard, hconfig]
    rw [hinitial, hrun]

end Game

/-- Limits and presets of a game: one that is read, and one whose key is given. -/
def presetConfig (key : String) : GameConfig :=
  { presets := (OrderedMap.empty.insert "p" "seed").insert key "more" }

/-- A program that asks for a text and shows it. -/
def askFirst : Game where
  program := ⟨"elicit(s, 4)\nreveal(s)",
    #[some (.elicit [.first .s] (.integer 4 ⟨0, 10, 11⟩)), some (.reveal [.name "s" ⟨1, 7, 8⟩])]⟩
  config := presetConfig "p01"
  judge := Judge.Cache.judge 0

theorem askFirst_load :
    Game.load "elicit(s, 4)\nreveal(s)" (presetConfig "p01") (Judge.Cache.judge 0) =
      .ok askFirst := by
  cbv

theorem parse_elicit : Call.parse "elicit(s, 4)" 0 = .ok (some ⟨.elicit,
    [(none, .name "s" ⟨0, 7, 8⟩), (none, .integer 4 ⟨0, 10, 11⟩)], ⟨0, 0, 12⟩⟩) := by
  cbv

theorem parse_reveal : Call.parse "reveal(s)" 1 = .ok (some ⟨.reveal,
    [(none, .name "s" ⟨1, 7, 8⟩)], ⟨1, 0, 9⟩⟩) := by
  cbv

theorem elicit_respelt : Program.LineRespelt 0 "elicit(s, 4)" "elicit(s0, 4)" := by
  refine .inr ⟨_, parse_elicit, ?_⟩
  show Lexer.Respelt [false, true]
    ('e' :: ("licit".toList ++ '(' :: ([] ++ ("s".toList ++ ", 4)".toList))))
    ('e' :: ("licit".toList ++ '(' :: ([] ++ ("s0".toList ++ ", 4)".toList))))
  exact .keep rfl (.keep rfl (.respelt ⟨.first .s, rfl, rfl⟩ (by rintro d ⟨⟩; rfl) (.refl [] _)))

theorem reveal_respelt : Program.LineRespelt 1 "reveal(s)" "reveal(s00)" := by
  refine .inr ⟨_, parse_reveal, ?_⟩
  show Lexer.Respelt [false, true]
    ('r' :: ("eveal".toList ++ '(' :: ([] ++ ("s".toList ++ ")".toList))))
    ('r' :: ("eveal".toList ++ '(' :: ([] ++ ("s00".toList ++ ")".toList))))
  exact .keep rfl (.keep rfl (.respelt ⟨.first .s, rfl, rfl⟩ (by rintro d ⟨⟩; rfl) (.refl [] _)))

theorem askFirst_respelt :
    Program.Respelt "elicit(s, 4)\nreveal(s)" "elicit(s0, 4)\nreveal(s00)" where
  line := by
    intro line text text' h h'
    rcases line with _ | _ | line
    · cases h
      cases h'
      exact elicit_respelt
    · cases h
      cases h'
      exact reveal_respelt
    · cases h
  size := rfl

theorem presetConfig_respelt : (presetConfig "p01").Respelt (presetConfig "p001") where
  rules := rfl
  presets := .cons ⟨.inl rfl, rfl⟩ (.cons ⟨.inr ⟨⟨.p, 1⟩, rfl, rfl⟩, rfl⟩ .nil)
  distinct := by decide

theorem presetConfig_heardAlike : (presetConfig "p01").HeardAlike (presetConfig "p001") := by
  have hnames : ∀ r ∈ Register.all, "p01" ≠ r.name ∧ "p001" ≠ r.name := by decide
  rintro p hp - r -
  obtain rfl | rfl :
      p = (("p", "seed"), ("p", "seed")) ∨ p = (("p01", "more"), ("p001", "more")) := by
    simpa [presetConfig, OrderedMap.insert, OrderedMap.put, OrderedMap.empty] using hp
  · exact Iff.rfl
  · exact iff_of_false (hnames r r.mem_all).2 (hnames r r.mem_all).1

theorem Game.run_respelt_iff_askFirst :
    ∃ g', Game.load "elicit(s0, 4)\nreveal(s00)" (presetConfig "p001") (Judge.Cache.judge 0) =
        .ok g' ∧
      g'.run .mailbox ⟨g'.initial, ["a"]⟩ = askFirst.run .mailbox ⟨askFirst.initial, ["a"]⟩ := by
  obtain ⟨g', hload, -, hsame⟩ :=
    Game.run_respelt_iff askFirst_load askFirst_respelt presetConfig_respelt
  exact ⟨g', hload, hsame.mpr presetConfig_heardAlike _ .mailbox ["a"]⟩

/-- A program that shows a static register, set up with a text under a key. -/
def showPreset (key : String) : Game where
  program := ⟨"reveal(p)", #[some (.reveal [.name "p" ⟨0, 7, 8⟩])]⟩
  config := { presets := OrderedMap.empty.insert key "x" }
  judge := Judge.Cache.judge 0

theorem showPreset_load (key : String) :
    Game.load "reveal(p)" (showPreset key).config (Judge.Cache.judge 0) = .ok (showPreset key) := by
  cbv

/-- What is told of the rounds of a game. -/
def Game.histories (g : Game) : List (Array Event) :=
  (g.run .mailbox ⟨g.initial, []⟩).1.state.completed.toList.map RoundResult.history

theorem showPreset_histories {key : String} (hkey : key = "p" ∨ key = "p0") :
    (showPreset key).histories = [#[.roundStarted 0,
      .reveal 0 [Registers.initial (showPreset key).config.presets (.first .p)],
      .roundFinished 0 0]] := by
  let opened := ((showPreset key).advance .mailbox ⟨(showPreset key).initial, []⟩).1
  let shown := ((showPreset key).advance .mailbox opened).1
  let closed := ((showPreset key).advance .mailbox shown).1
  have hmoves : (showPreset key).advance .mailbox ⟨(showPreset key).initial, []⟩ = (opened, none) ∧
      (showPreset key).advance .mailbox opened = (shown, none) ∧
      (showPreset key).advance .mailbox shown = (closed, none) ∧
      (showPreset key).advance .mailbox closed = (closed, some .finished) := by
    obtain rfl | rfl := hkey <;>
      exact ⟨Prod.ext rfl rfl, Prod.ext rfl rfl, Prod.ext rfl rfl, Prod.ext rfl rfl⟩
  obtain ⟨hopened, hshown, hclosed, hfinished⟩ := hmoves
  rw [Game.histories, Game.run_of_none hopened, Game.run_of_none hshown, Game.run_of_none hclosed,
    Game.run_of_some hfinished]
  obtain rfl | rfl := hkey <;> rfl

/-- The keys stand for the same register, but only one of them is its own name. -/
theorem showPreset_respelt : (showPreset "p").config.Respelt (showPreset "p0").config ∧
    Game.load "reveal(p)" (showPreset "p").config (Judge.Cache.judge 0) = .ok (showPreset "p") ∧
    Game.load "reveal(p)" (showPreset "p0").config (Judge.Cache.judge 0) = .ok (showPreset "p0") ∧
    (showPreset "p").histories =
      [#[.roundStarted 0, .reveal 0 [.ofText "x"], .roundFinished 0 0]] ∧
    (showPreset "p0").histories =
      [#[.roundStarted 0, .reveal 0 [.ofText ""], .roundFinished 0 0]] := by
  refine ⟨⟨rfl, ?_, by decide⟩, showPreset_load _, showPreset_load _,
    showPreset_histories (.inl rfl), showPreset_histories (.inr rfl)⟩
  exact .cons ⟨.inr ⟨.first .p, rfl, rfl⟩, rfl⟩ .nil

end EntropyGame
