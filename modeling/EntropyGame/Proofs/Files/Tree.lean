import EntropyGame.Files.Tree
import EntropyGame.Proofs.Files.Path

namespace EntropyGame.Tree

/-- A name of something in a folder, which leads nowhere else. -/
structure IsName (name : String) : Prop where
  noSlash : '/' ∉ name.toList
  notIdle : Path.isIdle name = false
  notAbove : name ≠ ".."

variable {t : Tree} {folder name : String} {place : List String}

theorem walk_append (t : Tree) (place front rest : List String) :
    t.walk place (front ++ rest) = (t.walk place front).bind (t.walk · rest) := by
  induction front generalizing place with
  | nil => rfl
  | cons part front ih =>
    simp only [List.cons_append, walk]
    split
    · rfl
    · split
      · exact ih place
      · split
        · exact ih (above place)
        · exact ih (place ++ [part])

/-- What is wrong with a path lies behind the folders that it goes through. -/
theorem wayFault_append {place front last rest : List String} (t : Tree)
    (h : t.walk place front = some last) :
    t.wayFault place (front ++ rest) = t.wayFault last rest := by
  induction front generalizing place with
  | nil =>
    cases h
    rfl
  | cons part front ih =>
    simp only [List.cons_append, walk, wayFault] at h ⊢
    split at h
    · cases h
    · rename_i hpart
      rw [Bool.or_eq_true, Bool.not_eq_true', decide_eq_true_eq, not_or, Bool.not_eq_false] at hpart
      rw [hpart.1, Bool.not_true, if_neg Bool.false_ne_true, if_neg hpart.2]
      split at h
      · rename_i hidle
        rw [if_pos hidle, ih h]
      · rename_i hidle
        rw [if_neg hidle]
        split at h
        · rename_i habove
          rw [if_pos habove, ih h]
        · rename_i habove
          rw [if_neg habove, ih h]

theorem walk_name (h : IsName name) (t : Tree) (place : List String) :
    t.walk place [name] =
      if t.isFolder place && name.utf8ByteSize ≤ nameLimit then some (place ++ [name]) else none := by
  by_cases hf : t.isFolder place = true <;> by_cases hn : name.utf8ByteSize ≤ nameLimit <;>
    simp [walk, h.notIdle, h.notAbove, hf, hn, Nat.not_lt.mpr, Nat.lt_of_not_le]

theorem wayFault_name (h : IsName name) (hf : t.isFolder place = true) :
    t.wayFault place [name] =
      if nameLimit < name.utf8ByteSize then .nameTooLong
      else if t.isFolder (place ++ [name]) then .isFolder else .notFound := by
  simp [wayFault, h.notIdle, h.notAbove, hf]

theorem isName_ne_empty (h : IsName name) : name ≠ "" := by
  rintro rfl
  exact absurd h.notIdle (by decide)

theorem join_ne_empty (h : IsName name) (folder : String) : Path.join folder name ≠ "" := by
  intro he
  have hparts := Path.parts_join folder h.noSlash
  rw [he] at hparts
  have hlast := congrArg List.getLast? hparts
  rw [List.getLast?_append, List.getLast?_singleton] at hlast
  exact isName_ne_empty h (Option.some.inj hlast).symm

/-- A name leads into the place of its folder. -/
theorem find?_join (h : IsName name) (t : Tree) (folder : String) :
    t.find? (Path.join folder name) =
      if isPath (Path.join folder name) then
        (t.walk [] (Path.within folder)).bind fun place =>
          if t.isFolder place && name.utf8ByteSize ≤ nameLimit then some (place ++ [name]) else none
      else none := by
  have hempty : (Path.join folder name).isEmpty = false := by
    simpa using join_ne_empty h folder
  rw [find?, hempty, Path.parts_join folder h.noSlash, walk_append]
  cases hp : isPath (Path.join folder name) with
  | false => rfl
  | true =>
    simp only [Bool.not_true, Bool.or_self, Bool.false_eq_true, if_false, if_true]
    cases t.walk [] (Path.within folder) with
    | none => rfl
    | some place => exact walk_name h t place

theorem find?_join_eq_some (h : IsName name) :
    t.find? (Path.join folder name) = some place ↔
      isPath (Path.join folder name) = true ∧ ∃ front, t.walk [] (Path.within folder) = some front ∧
        t.isFolder front = true ∧ name.utf8ByteSize ≤ nameLimit ∧ place = front ++ [name] := by
  rw [find?_join h]
  split
  · rename_i hp
    rw [Option.bind_eq_some_iff]
    constructor
    · rintro ⟨front, hfront, hplace⟩
      split at hplace
      · rename_i hin
        rw [Bool.and_eq_true, decide_eq_true_eq] at hin
        exact ⟨hp, front, hfront, hin.1, hin.2, (Option.some.inj hplace).symm⟩
      · cases hplace
    · rintro ⟨-, front, hfront, hfolder, hsize, rfl⟩
      exact ⟨front, hfront, if_pos (by simp [hfolder, hsize])⟩
  · rename_i hp
    simp [hp]

/-- Different names lead to different places. -/
theorem name_eq_of_find? {name' : String} (h : IsName name) (h' : IsName name')
    (hp : t.find? (Path.join folder name) = some place)
    (hp' : t.find? (Path.join folder name') = some place) : name = name' := by
  obtain ⟨-, front, -, -, -, rfl⟩ := (find?_join_eq_some h).mp hp
  obtain ⟨-, front', -, -, -, heq⟩ := (find?_join_eq_some h').mp hp'
  exact (List.append_inj_right' heq rfl |> List.singleton_inj.mp)

section

variable {t' : Tree}

theorem isFolder_congr (h : t'.folders = t.folders) (place : List String) :
    t'.isFolder place = t.isFolder place := by
  rw [isFolder, isFolder, h]

theorem walk_congr (h : t'.folders = t.folders) (place names : List String) :
    t'.walk place names = t.walk place names := by
  induction names generalizing place with
  | nil => rfl
  | cons name names ih => simp only [walk, isFolder_congr h, ih]

/-- Where paths lead to depends on the folders only. -/
theorem find?_congr (h : t'.folders = t.folders) (path : String) : t'.find? path = t.find? path := by
  rw [find?, find?, walk_congr h]

/-- What is wrong with a name in a folder depends on the folders only. -/
theorem fault_join_congr (h : IsName name) (hfolders : t'.folders = t.folders)
    {front : List String} (hfront : t.walk [] (Path.within folder) = some front)
    (hfolder : t.isFolder front = true) :
    t'.fault (Path.join folder name) = t.fault (Path.join folder name) := by
  have hfront' := (walk_congr hfolders [] (Path.within folder)).trans hfront
  have hfolder' := (isFolder_congr hfolders front).trans hfolder
  rw [fault, fault, Path.parts_join folder h.noSlash, wayFault_append t' hfront',
    wayFault_append t hfront, wayFault_name h hfolder', wayFault_name h hfolder,
    isFolder_congr hfolders]

/-- Two trees in which the same names lead from a folder to the same places, and the same is wrong
with those that lead nowhere. -/
structure SameWays (folder : String) (t t' : Tree) : Prop where
  folders : t'.folders = t.folders
  fault {name : String} : IsName name →
    t'.fault (Path.join folder name) = t.fault (Path.join folder name)

theorem SameWays.refl (folder : String) (t : Tree) : SameWays folder t t :=
  ⟨rfl, fun _ => rfl⟩

/-- Where a name leads to a place in a folder, files come and go without changing any way. -/
theorem SameWays.of_find? (h : IsName name) (hplace : t.find? (Path.join folder name) = some place)
    (hfolders : t'.folders = t.folders) : SameWays folder t t' := by
  obtain ⟨-, front, hfront, hfolder, -⟩ := (find?_join_eq_some h).mp hplace
  exact ⟨hfolders, fun hname => fault_join_congr hname hfolders hfront hfolder⟩

/-- What is read at a name in a folder depends on the ways from there and on the file at its
place. -/
theorem SameWays.read (hways : SameWays folder t t') (h : IsName name)
    (hfile : ∀ place, t.find? (Path.join folder name) = some place →
      t'.files.get? place = t.files.get? place) :
    t'.read (Path.join folder name) = t.read (Path.join folder name) := by
  rw [Tree.read, Tree.read, find?_congr hways.folders, hways.fault h]
  cases hp : t.find? (Path.join folder name) with
  | none => rfl
  | some place =>
    dsimp only
    rw [hfile place hp, isFolder_congr hways.folders]

end

theorem read_eq_text {path text : String} (hplace : t.find? path = some place)
    (hfile : t.files.get? place = some text) : t.read path = .text text := by
  rw [read, hplace]
  dsimp only
  rw [hfile]

/-- Whether a text can be written at a path. -/
def takes (t : Tree) (path : String) : Bool :=
  (t.find? path).any fun place => !t.isFolder place

theorem takes_congr {t' : Tree} (h : t'.folders = t.folders) (path : String) :
    t'.takes path = t.takes path := by
  simp only [takes, find?_congr h, isFolder_congr h]

section

variable {path source text : String} {first : List String}

theorem takes_eq_true : t.takes path = true ↔
    ∃ place, t.find? path = some place ∧ t.isFolder place = false := by
  simp [takes, Option.any_eq_true]

theorem write_of_not_takes (hnull : path ≠ nullPath) (h : t.takes path = false) (text : String) :
    t.write path text = (.error (t.fault path), t) := by
  rw [write]
  cases hplace : t.find? path with
  | none => rw [if_neg hnull]
  | some place =>
    have hfolder : t.isFolder place = true := by simpa [takes, hplace] using h
    exact if_pos hfolder

theorem write_of_find? (hplace : t.find? path = some place) (hfolder : t.isFolder place = false)
    (text : String) :
    t.write path text = (.ok (), { t with files := t.files.insert place text }) := by
  rw [write, hplace]
  exact if_neg (by simp [hfolder])

/-- What is written at a path that takes it is read there. -/
theorem read_write (h : t.takes path = true) (text : String) :
    (t.write path text).1 = .ok () ∧ (t.write path text).2.read path = .text text := by
  obtain ⟨place, hplace, hfolder⟩ := takes_eq_true.mp h
  have hfolders : ({ t with files := t.files.insert place text } : Tree).folders = t.folders := rfl
  rw [write_of_find? hplace hfolder]
  refine ⟨rfl, read_eq_text ((find?_congr hfolders path).trans hplace) ?_⟩
  rw [OrderedMap.get?_insert, if_pos rfl]

/-- A text that was just written is given another path if that takes it, or stays. -/
theorem rename_written (hfirst : t.find? source = some first) (target text : String) :
    ∃ files, ({ t with files := t.files.insert first text } : Tree).rename source target =
        (if t.takes target then .ok ()
          else .error (({ t with files := t.files.insert first text } : Tree).fault target),
          { t with files := files }) ∧
      ∀ place, place ≠ first → files.get? place =
        if t.takes target ∧ t.find? target = some place then some text
        else t.files.get? place := by
  have hfolders : ({ t with files := t.files.insert first text } : Tree).folders = t.folders := rfl
  have hwritten := (find?_congr hfolders source).trans hfirst
  have htarget := find?_congr hfolders target
  have hfound : (t.files.insert first text).get? first = some text := by
    rw [OrderedMap.get?_insert, if_pos rfl]
  have hstay : ∀ place, place ≠ first →
      (t.files.insert first text).get? place = t.files.get? place := by
    intro place hne
    rw [OrderedMap.get?_insert, if_neg hne]
  cases hlast : t.find? target with
  | none =>
    have htakes : t.takes target = false := by simp [takes, hlast]
    refine ⟨t.files.insert first text, ?_, ?_⟩
    · rw [rename, hwritten, htarget, hlast, htakes]
      rfl
    · intro place hne
      rw [if_neg (by simp [htakes]), hstay place hne]
  | some last =>
    have htakes : t.takes target = !t.isFolder last := by simp [takes, hlast]
    cases hblocked : t.isFolder last with
    | true =>
      refine ⟨t.files.insert first text, ?_, ?_⟩
      · simp only [rename, hwritten, htarget, hlast, hfound, htakes, isFolder_congr hfolders,
          hblocked, if_true, Bool.not_true, Bool.false_eq_true, if_false]
      · intro place hne
        rw [if_neg (by simp [htakes, hblocked]), hstay place hne]
    | false =>
      refine ⟨((t.files.insert first text).erase first).insert last text, ?_, ?_⟩
      · simp only [rename, hwritten, htarget, hlast, hfound, htakes, isFolder_congr hfolders,
          hblocked, Bool.false_eq_true, if_false, Bool.not_false, if_true]
      · intro place hne
        rw [OrderedMap.get?_insert, OrderedMap.get?_erase, if_neg hne, hstay place hne, htakes,
          hblocked]
        simp [eq_comm]

end

end EntropyGame.Tree
