import EntropyGame.Judge.Cache
import EntropyGame.Proofs.Game.Abreast
import EntropyGame.Proofs.Game.Reached
import EntropyGame.Proofs.Source.Comment
import Mathlib

namespace EntropyGame

/-- Whether lines of text come from others by adding blanks and comments: each line is found at its
new place, perhaps with a comment after it, and all other lines are blank but for comments. -/
structure Annotates (place : Nat → Nat) (texts texts' : List String) : Prop where
  mono : StrictMono place
  line : ∀ {k text}, texts[k]? = some text →
    ∃ u : String, Lexer.Idle u.toList ∧ texts'[place k]? = some (text ++ u)
  idle : ∀ {l text}, texts'[l]? = some text → (∀ k < texts.length, place k ≠ l) →
    Lexer.Idle text.toList
  size : texts'.length = place texts.length

namespace Program

/-- An idle line loads as a blank one. -/
theorem loadLine_idle {text : String} (h : Lexer.Idle text.toList) (line : Nat) :
    loadLine text line = .ok none := by
  rw [loadLine, Call.parse_eq (Lexer.tokens_idle h)]
  rfl

/-- A line with a comment after it loads as the same instruction, wherever it stands. -/
theorem loadLine_append {text u : String} (hu : Lexer.Idle u.toList) {line : Nat}
    {i : Option Instruction} (h : loadLine text line = .ok i) (line' : Nat) :
    ∃ i', loadLine (text ++ u) line' = .ok i' ∧
      i'.map Instruction.bare = i.map Instruction.bare := by
  obtain ⟨ts, hts⟩ := loadLine_tokens h
  exact loadLine_place hts (Lexer.tokens_append hts hu) rfl h line'

variable {source source' : String} {config : GameConfig} {p : Program} {place : Nat → Nat}

/-- A program loads with blank lines and comments if it does without, and stands in between them. -/
theorem load_annotated (h : load source config = .ok p)
    (ha : Annotates place (Text.lines source) (Text.lines source'))
    (hlength : (Text.lines source').length ≤ config.maxLines)
    (hnumbers : (Text.lines source').length ≤ lineNumbers) (round : Nat → Nat) :
    ∃ p', load source' config = .ok p' ∧ p.Found ⟨place, round⟩ p' := by
  have hsize := load_size h
  have hline : ∀ {k text}, (Text.lines source)[k]? = some text → ∃ i u, p.lines[k]? = some i ∧
      (Text.lines source')[place k]? = some (text ++ u) ∧
      ∀ line', ∃ i', loadLine (text ++ u) line' = .ok i' ∧
        i'.map Instruction.bare = i.map Instruction.bare := by
    intro k text htext
    obtain ⟨-, i, hload, hi⟩ := load_line h htext
    obtain ⟨u, hu, hplace⟩ := ha.line htext
    exact ⟨i, u, hi, hplace, loadLine_append hu hload⟩
  have hloads : ∀ l text, (Text.lines source')[l]? = some text →
      l < lineNumbers ∧ ∃ i, loadLine text l = .ok i := by
    intro l text htext
    have hlt : l < (Text.lines source').length := (List.getElem?_eq_some_iff.mp htext).1
    refine ⟨Nat.lt_of_lt_of_le hlt hnumbers, ?_⟩
    by_cases hplace : ∃ k < (Text.lines source).length, place k = l
    · obtain ⟨k, hk, rfl⟩ := hplace
      obtain ⟨i, u, -, htext', hload⟩ := hline (List.getElem?_eq_getElem hk)
      obtain ⟨i', hi', -⟩ := hload (place k)
      cases htext'.symm.trans htext
      exact ⟨i', hi'⟩
    · refine ⟨none, loadLine_idle (ha.idle htext fun k hk he => hplace ⟨k, hk, he⟩) l⟩
  obtain ⟨p', hp'⟩ := load_of_lines hlength hloads
  refine ⟨p', hp', ha.mono, ?_, ?_, ?_⟩
  · intro k i hi
    have hk : k < (Text.lines source).length := by
      rw [← hsize]
      exact (Array.getElem?_eq_some_iff.mp hi).1
    obtain ⟨j, u, hj, htext', hload⟩ := hline (List.getElem?_eq_getElem hk)
    cases hj.symm.trans hi
    obtain ⟨-, i', hi', hat⟩ := load_line hp' htext'
    obtain ⟨j', hj', hbare⟩ := hload (place k)
    cases hj'.symm.trans hi'
    exact ⟨i', hat, hbare⟩
  · intro l hl hne
    have hl' : l < (Text.lines source').length := load_size hp' ▸ hl
    obtain ⟨-, i', hi', hat⟩ := load_line hp' (List.getElem?_eq_getElem hl')
    have hidle := ha.idle (List.getElem?_eq_getElem hl') fun k hk => hne k (hsize ▸ hk)
    cases (loadLine_idle hidle l).symm.trans hi'
    exact hat
  · rw [load_size hp', ha.size, hsize]

end Program

namespace Game

variable {g : Game}

/-- Blank lines and comments do nothing: with them a program loads whenever it does without and
stays within the limits, and its runs are the same but for the numbers of its lines. The player may
be told the new numbers, as long as it does not go by them. -/
theorem run_annotated {source source' : String} {config : GameConfig} {judge : Judge}
    {place : Nat → Nat} (hload : load source config judge = .ok g)
    (ha : Annotates place (Text.lines source) (Text.lines source'))
    (hlength : (Text.lines source').length ≤ config.maxLines)
    (hnumbers : (Text.lines source').length ≤ lineNumbers) :
    ∃ g', load source' config judge = .ok g' ∧
      ∀ (σ σ' : Type) (R : σ → σ' → Prop) (player : Player σ) (player' : Player σ') (memory : σ)
        (memory' : σ'), player.Alike ⟨place, id⟩ R player' → R memory memory' →
        SameRun ⟨place, id⟩ R (g.run player ⟨g.initial, memory⟩)
          (g'.run player' ⟨g'.initial, memory'⟩) := by
  obtain ⟨hg, hsource, hconfig, hjudge⟩ := load_ok hload
  rw [IsLoaded, hsource, hconfig] at hg
  obtain ⟨p', hp', hf⟩ := Program.load_annotated hg ha hlength hnumbers id
  refine ⟨⟨p', config, judge⟩, by rw [load, hp']; rfl, ?_⟩
  intro σ σ' R player player' memory memory' hp hmemory
  exact run_abreast hp rfl hconfig.symm hjudge.symm hf (initial_abreast hconfig.symm rfl hmemory)

end Game

/-- A program that asks for a text and shows it. -/
def askAndShow : Game where
  program := ⟨"elicit(s, 4)\nreveal(s)",
    #[some (.elicit [.first .s] (.integer 4 ⟨0, 10, 11⟩)), some (.reveal [.name "s" ⟨1, 7, 8⟩])]⟩
  config := {}
  judge := Judge.Cache.judge 0

theorem askAndShow_load :
    Game.load askAndShow.program.source {} (Judge.Cache.judge 0) = .ok askAndShow := by
  cbv

/-- Where its lines are after a comment has been put before the first and a blank line before the
second. -/
def askAndShowPlace (line : Nat) : Nat :=
  if line = 0 then 1 else line + 2

theorem askAndShow_annotates : Annotates askAndShowPlace
    (Text.lines "elicit(s, 4)\nreveal(s)")
    (Text.lines "# warm up\nelicit(s, 4) # one word\n\nreveal(s)") where
  mono := by
    intro k l hkl
    simp only [askAndShowPlace]
    split <;> split <;> omega
  line := by
    intro k text htext
    match k with
    | 0 =>
      cases htext
      exact ⟨" # one word", by decide, rfl⟩
    | 1 =>
      cases htext
      exact ⟨"", by decide, rfl⟩
    | k + 2 => cases htext
  idle := by
    intro l text htext hne
    match l with
    | 0 =>
      cases htext
      exact by decide
    | 1 => exact absurd rfl (hne 0 (by decide))
    | 2 =>
      cases htext
      exact by decide
    | 3 => exact absurd rfl (hne 1 (by decide))
    | l + 4 => cases htext
  size := rfl

theorem Game.run_annotated_askAndShow :
    ∃ g' t t', Game.load "# warm up\nelicit(s, 4) # one word\n\nreveal(s)" {}
        (Judge.Cache.judge 0) = .ok g' ∧
      askAndShow.run .mailbox ⟨askAndShow.initial, ["a"]⟩ = (t, .finished) ∧
      g'.run .mailbox ⟨g'.initial, ["a"]⟩ = (t', .finished) ∧
      t'.state.registers = t.state.registers ∧
      t'.state.completed = t.state.completed.map (RoundResult.rename ⟨askAndShowPlace, id⟩) := by
  obtain ⟨g', hload, hsame⟩ :=
    Game.run_annotated askAndShow_load askAndShow_annotates (by decide) (by decide)
  let opened := (askAndShow.advance .mailbox ⟨askAndShow.initial, ["a"]⟩).1
  let answered := (askAndShow.advance .mailbox opened).1
  let shown := (askAndShow.advance .mailbox answered).1
  let closed := (askAndShow.advance .mailbox shown).1
  have hopened : askAndShow.advance .mailbox ⟨askAndShow.initial, ["a"]⟩ = (opened, none) :=
    Prod.ext rfl rfl
  have hanswered : askAndShow.advance .mailbox opened = (answered, none) := Prod.ext rfl rfl
  have hshown : askAndShow.advance .mailbox answered = (shown, none) := Prod.ext rfl rfl
  have hclosed : askAndShow.advance .mailbox shown = (closed, none) := Prod.ext rfl rfl
  have hfinished : askAndShow.advance .mailbox closed = (closed, some .finished) :=
    Prod.ext rfl rfl
  have hrun := (Game.run_of_none hopened).trans <| (Game.run_of_none hanswered).trans <|
    (Game.run_of_none hshown).trans <| (Game.run_of_none hclosed).trans <|
      Game.run_of_some hfinished
  have hmailbox : Player.mailbox.Alike ⟨askAndShowPlace, id⟩ Eq Player.mailbox :=
    Player.alike_through ⟨askAndShowPlace, id⟩ .mailbox
  have h := hsame _ _ Eq _ _ ["a"] ["a"] hmailbox rfl
  rw [hrun] at h
  exact ⟨g', closed, _, hload, hrun, Prod.ext rfl h.outcome, h.parallel.state.registers,
    h.parallel.state.completed trivial⟩

end EntropyGame
