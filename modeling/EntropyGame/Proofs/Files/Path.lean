import EntropyGame.Files.Path
import Mathlib.Data.List.Basic

namespace EntropyGame.Path

/-- The parts of the path to a folder, before the name of what is in it. -/
def within (folder : String) : List String :=
  (parts (join folder "")).dropLast

variable {folder name : String}

theorem isAbsolute_of_notMem (h : '/' ∉ name.toList) : isAbsolute name = false := by
  rw [isAbsolute, decide_eq_false_iff_not]
  intro hhead
  exact h (List.mem_of_mem_head? hhead)

/-- What comes before a name in a path is empty or ends with a slash. -/
theorem join_empty (folder : String) :
    join folder "" = "" ∨ ∃ cs, (join folder "").toList = cs ++ ['/'] := by
  rw [join]
  have habsolute : isAbsolute "" = false := rfl
  cases hempty : folder.isEmpty with
  | true => exact .inl (by simp [habsolute])
  | false =>
    right
    simp only [habsolute, Bool.or_self, Bool.false_eq_true, if_false]
    split
    · rename_i hlast
      obtain ⟨cs, hcs⟩ := List.getLast?_eq_some_iff.mp hlast
      exact ⟨cs, by rw [String.toList_append, hcs]; simp⟩
    · exact ⟨folder.toList, by simp⟩

theorem join_eq_append (h : isAbsolute name = false) : join folder name = join folder "" ++ name := by
  have habsolute : isAbsolute "" = false := rfl
  simp only [join, h, habsolute, Bool.false_or]
  split
  · simp
  · split <;> simp

/-- A name without slashes is the last part of a path. -/
theorem parts_join (folder : String) (h : '/' ∉ name.toList) :
    parts (join folder name) = within folder ++ [name] := by
  have hname : name.toList.splitOn '/' = [name.toList] := List.splitOn_eq_singleton h
  rw [within, join_eq_append (isAbsolute_of_notMem h)]
  obtain hfront | ⟨cs, hfront⟩ := join_empty folder
  · rw [hfront, parts, String.toList_append]
    simp [parts, hname]
  · have hsplit : ∀ ds : List Char, (cs ++ ['/'] ++ ds).splitOn '/' =
        cs.splitOn '/' ++ ds.splitOn '/' := by
      intro ds
      rw [List.append_assoc]
      exact List.splitOn_append_cons_self cs ds
    have hfolder := hsplit []
    rw [List.append_nil] at hfolder
    rw [parts, parts, String.toList_append, hfront, hsplit, hfolder, hname]
    simp

theorem join_injective {name' : String} (h : isAbsolute name = false) (h' : isAbsolute name' = false)
    (heq : join folder name = join folder name') : name = name' := by
  rw [join_eq_append h, join_eq_append h'] at heq
  have hlist := congrArg String.toList heq
  rw [String.toList_append, String.toList_append] at hlist
  exact String.toList_inj.mp (List.append_cancel_left hlist)

theorem splitLast_join (h : '/' ∉ name.toList) :
    splitLast (join folder name) = (join folder "", name) := by
  have hne : ∀ c ∈ name.toList.reverse, decide (c ≠ '/') = true := by
    intro c hc
    refine decide_eq_true ?_
    rintro rfl
    exact h (List.mem_reverse.mp hc)
  rw [join_eq_append (isAbsolute_of_notMem h), splitLast, String.toList_append, List.reverse_append,
    List.dropWhile_append_of_pos hne, List.takeWhile_append_of_pos hne]
  obtain hfront | ⟨cs, hfront⟩ := join_empty folder
  · simp [hfront]
  · have hback : String.ofList (cs ++ ['/']) = join folder "" := by
      rw [← hfront, String.ofList_toList]
    simp [hfront, hback]

theorem stem?_append {stem extension : String} (h : '.' ∉ extension.toList) (hne : stem ≠ "") :
    stem? (stem ++ "." ++ extension) = some stem := by
  have hpoint : ∀ c ∈ extension.toList.reverse, decide (c ≠ '.') = true := by
    intro c hc
    refine decide_eq_true ?_
    rintro rfl
    exact h (List.mem_reverse.mp hc)
  have hstem : stem.toList ≠ [] := fun he => hne (String.toList_inj.mp he)
  have hdot : ".".toList = ['.'] := rfl
  rw [stem?, String.toList_append, String.toList_append, List.reverse_append,
    List.dropWhile_append_of_pos hpoint, List.reverse_append, hdot]
  simp [hstem]

/-- A name that is more than a point before its extension may get another extension. -/
theorem withExtension_join {stem extension : String} (new : String) (hstem : '/' ∉ stem.toList)
    (hextension : '/' ∉ extension.toList) (hlast : '.' ∉ extension.toList) (hne : stem ≠ "")
    (hpoint : stem ≠ ".") :
    withExtension (join folder (stem ++ "." ++ extension)) new =
      join folder (stem ++ "." ++ new) := by
  have hname : '/' ∉ (stem ++ "." ++ extension).toList := by
    simp only [String.toList_append, List.mem_append, not_or]
    exact ⟨⟨hstem, by decide⟩, hextension⟩
  have hnew : isAbsolute (stem ++ "." ++ new) = false := by
    rw [isAbsolute, decide_eq_false_iff_not, String.toList_append, String.toList_append]
    cases hcs : stem.toList with
    | nil => exact absurd (String.toList_inj.mp hcs) hne
    | cons c cs =>
      intro hhead
      obtain rfl : c = '/' := Option.some.inj hhead
      exact hstem (hcs ▸ List.mem_cons_self)
  simp only [withExtension, splitLast_join hname, stem?_append hlast hne, if_neg hpoint]
  rw [join_eq_append hnew, String.append_assoc, String.append_assoc, String.append_assoc]

end EntropyGame.Path
