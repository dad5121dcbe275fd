import EntropyGame.Proofs.Json.Number
import EntropyGame.Proofs.Place
import EntropyGame.Proofs.Source.Spells
import Mathlib

namespace EntropyGame

namespace Lexer

theorem spells_replay {n : Nat} (hn : n < 2 ^ 63) :
    Spells s!"replay(flag_1, {n})".toList [.name "replay", .symbol .openParen, .name "flag_1",
      .symbol .comma, .integer n, .symbol .closeParen] := by
  have hcs : s!"replay(flag_1, {n})".toList =
      "replay(flag_1, ".toList ++ (Nat.toDigits 10 n ++ [')']) := by
    simp [toString]
  have hdigits := Json.isDigit_toDigits n
  have hvalue := Json.ofDigits_toDigits n
  obtain ⟨c, cs, hds⟩ := List.exists_cons_of_ne_nil (Nat.toDigits_ne_nil (n := n) (b := 10))
  rw [hds] at hdigits hvalue hcs
  have hc : isBlank c = false :=
    Bool.eq_false_iff.mpr fun h => not_idle_of_isDigit (hdigits c List.mem_cons_self) (.inl h)
  have hinteger : lexeme c (cs ++ [')']) = (.token (.integer n), cs.length + 1) := by
    rw [lexeme_digits hdigits (by simp [Parted, isNamePart]), integer, hvalue, if_pos hn]
  have hclosed : Spells [')'] [.symbol .closeParen] := .token rfl rfl .nil
  have hcount : Spells (c :: cs ++ [')']) [.integer n, .symbol .closeParen] :=
    .lexeme hinteger hclosed
  rw [hcs]
  exact .token rfl rfl (.token rfl rfl (.token rfl rfl (.token rfl rfl
    (.blank (by simpa using hc) hcount))))

end Lexer

namespace Program

theorem loadLine_beacon (line : Nat) :
    loadLine "beacon(flag_1)" line = .ok (some (.beacon "flag_1")) := by
  cbv

/-- A replay with a whole number for its count loads. -/
theorem loadLine_replay {n : Nat} (hn : n < 2 ^ 63) (line : Nat) : ∃ span,
    loadLine s!"replay(flag_1, {n})" line = .ok (some (.replay "flag_1" (.integer n span))) := by
  obtain ⟨ts, hts, hrow⟩ := Lexer.spells_replay hn 0
  obtain ⟨_, _, _, rfl, hopen⟩ := Grammar.row_eq_cons hrow
  obtain ⟨_, _, _, rfl, hname⟩ := Grammar.row_eq_cons hopen
  obtain ⟨_, _, _, rfl, hcomma⟩ := Grammar.row_eq_cons hname
  obtain ⟨_, _, _, rfl, hcount⟩ := Grammar.row_eq_cons hcomma
  obtain ⟨start, stop, _, rfl, hclose⟩ := Grammar.row_eq_cons hcount
  obtain ⟨_, _, _, rfl, hnone⟩ := Grammar.row_eq_cons hclose
  obtain rfl := List.map_eq_nil_iff.mp hnone
  refine ⟨⟨line, start, stop⟩, ?_⟩
  rw [loadLine, Call.parse_eq hts]
  cbv

end Program

end EntropyGame
