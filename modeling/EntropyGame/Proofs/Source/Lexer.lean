import EntropyGame.Data.Results
import EntropyGame.Source.Lexer
import EntropyGame.Text.Words
import Mathlib.Data.List.TakeWhile

namespace EntropyGame

/-- A whole number that is not negative and fits into 64 bits with a sign. -/
def IsShort (n : Int) : Prop :=
  0 ≤ n ∧ n < 2 ^ 63

namespace Lexer

/-- A word that is not reserved. -/
def IsName (s : String) : Prop :=
  ∃ c cs, s.toList = c :: cs ∧ isNameStart c = true ∧ (∀ d ∈ cs, isNamePart d = true) ∧
    Symbol.words.find? (·.spelling = s) = none

/-- Whether a token is one that a text can have, as far as whole numbers and names go. -/
def IsRead : Token → Prop
  | .integer n => IsShort n
  | .name s => IsName s
  | _ => True

theorem isRead_integer {ds : List Char} {t : Token} (h : integer ds = .token t) : IsRead t := by
  simp only [integer] at h
  split at h
  · rename_i hlt
    cases h
    exact ⟨Int.natCast_nonneg _, by omega⟩
  · cases h

theorem isRead_float {ds : List Char} {power : Int} {t : Token} (h : float ds power = .token t) :
    IsRead t := by
  simp only [float] at h
  split at h
  · cases h
    trivial
  · cases h

theorem isRead_number {cs : List Char} {t : Token} (h : (number cs).1 = .token t) : IsRead t := by
  simp only [number] at h
  split at h
  · split at h
    · exact isRead_integer h
    · exact isRead_float h
  · split at h
    · exact isRead_float h
    · exact isRead_float h

theorem isRead_quoted {quote : Char} {cs : List Char} {t : Token}
    (h : (quoted quote cs).1 = .token t) : IsRead t := by
  simp only [quoted] at h
  split at h
  · split at h
    · cases h
      trivial
    · cases h
  · cases h

theorem isNamePart_of_isNameStart {c : Char} (h : isNameStart c = true) : isNamePart c = true := by
  simp only [isNameStart, isNamePart, Char.isAlphanum, Bool.or_eq_true] at h ⊢
  exact h.imp_left .inl

theorem isRead_word {c : Char} {cs : List Char} {t : Token} (hc : isNameStart c = true)
    (h : (word (c :: cs)).1 = .token t) : IsRead t := by
  simp only [word] at h
  split at h
  · cases h
    trivial
  · rename_i hword
    cases h
    refine ⟨c, cs.takeWhile isNamePart, ?_, hc, fun d hd => List.mem_takeWhile_imp hd, hword⟩
    rw [String.toList_ofList, List.takeWhile_cons_of_pos (isNamePart_of_isNameStart hc)]

theorem isRead_sign {cs : List Char} {t : Token} (h : (sign cs).1 = .token t) : IsRead t := by
  simp only [sign] at h
  split at h
  · cases h
    trivial
  · cases h

theorem isRead_lexeme {c : Char} {cs : List Char} {t : Token} (h : (lexeme c cs).1 = .token t) :
    IsRead t := by
  unfold lexeme at h
  split at h
  · cases h
  · split at h
    · cases h
    · split at h
      · exact isRead_number h
      · split at h
        · exact isRead_quoted h
        · split at h
          · rename_i hname
            exact isRead_word hname h
          · exact isRead_sign h

/-- A text has no more tokens than characters. -/
theorem length_tokensFrom {start : Nat} {cs : List Char} {ts : List Located}
    (h : tokensFrom start cs = .ok ts) : ts.length ≤ cs.length := by
  fun_induction tokensFrom start cs generalizing ts with
  | case1 =>
    cases h
    exact Nat.le_refl _
  | case2 start c cs size read stop hlex =>
    rename_i ih
    have hi := ih h
    rw [List.length_drop] at hi
    rw [List.length_cons]
    omega
  | case3 => cases h
  | case4 start c cs size read stop t hlex =>
    rename_i ih
    obtain ⟨us, hu, rfl⟩ := map_ok h
    have hi := ih hu
    rw [List.length_drop] at hi
    rw [List.length_cons, List.length_cons]
    omega

/-- The whole numbers of a text are short, and its names are words. -/
theorem isRead_of_mem_tokensFrom {start : Nat} {cs : List Char} {ts : List Located}
    (h : tokensFrom start cs = .ok ts) : ∀ t ∈ ts, IsRead t.token := by
  fun_induction tokensFrom start cs generalizing ts with
  | case1 =>
    cases h
    nofun
  | case2 start c cs size read stop hlex =>
    rename_i ih
    exact ih h
  | case3 => cases h
  | case4 start c cs size read stop u hlex =>
    rename_i ih
    obtain ⟨us, hu, rfl⟩ := map_ok h
    exact List.forall_mem_cons.mpr ⟨isRead_lexeme (congrArg Prod.fst hlex), ih hu⟩

end Lexer

namespace Text

theorem length_dropCarriageReturn (cs : List Char) : (dropCarriageReturn cs).length ≤ cs.length := by
  rw [dropCarriageReturn]
  split
  · rw [List.length_dropLast]
    omega
  · exact Nat.le_refl _

theorem mem_linesFrom {done : List (List Char)} {line cs l : List Char}
    (h : l ∈ linesFrom done line cs) : l ∈ done ∨ l.length ≤ line.length + cs.length := by
  fun_induction linesFrom done line cs with
  | case1 done line =>
    rw [List.mem_reverse] at h
    split at h
    · exact .inl h
    · obtain rfl | h := List.mem_cons.mp h
      · simp
      · exact .inl h
  | case2 done line cs ih =>
    obtain h | h := ih h
    · obtain rfl | h := List.mem_cons.mp h
      · have hd := length_dropCarriageReturn line.reverse
        rw [List.length_reverse] at hd
        rw [List.length_cons]
        omega
      · exact .inl h
    · rw [List.length_nil] at h
      rw [List.length_cons]
      omega
  | case3 done line c cs _ ih =>
    obtain h | h := ih h
    · exact .inl h
    · rw [List.length_cons] at h ⊢
      omega

/-- No line is longer than the text that it comes from. -/
theorem length_of_mem_lines {s l : String} (h : l ∈ lines s) : l.length ≤ s.length := by
  obtain ⟨cs, hcs, rfl⟩ := List.mem_map.mp h
  obtain h | h := mem_linesFrom hcs
  · cases h
  · rw [List.length_nil, Nat.zero_add, String.length_toList] at h
    rwa [String.length_ofList]

end Text

end EntropyGame
