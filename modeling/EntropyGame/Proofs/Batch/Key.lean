import EntropyGame.Batch.Store
import EntropyGame.Batch.Unit
import EntropyGame.Proofs.Files.Tree
import EntropyGame.Proofs.Text.Percent
import Mathlib

namespace EntropyGame

/-- Two rows with a mark, neither of which has one before it, are alike before and behind it. -/
theorem append_cons_inj {α : Type} {mark : α} {xs ys xs' ys' : List α} (hx : mark ∉ xs)
    (hy : mark ∉ ys) (h : xs ++ mark :: xs' = ys ++ mark :: ys') : xs = ys ∧ xs' = ys' := by
  induction xs generalizing ys with
  | nil =>
    cases ys with
    | nil => exact ⟨rfl, (List.cons.inj h).2⟩
    | cons y ys =>
      obtain rfl := (List.cons.inj h).1
      exact absurd List.mem_cons_self hy
  | cons x xs ih =>
    cases ys with
    | nil =>
      obtain rfl := (List.cons.inj h).1
      exact absurd List.mem_cons_self hx
    | cons y ys =>
      obtain ⟨rfl, hrest⟩ := List.cons.inj h
      obtain ⟨rfl, htail⟩ := ih (fun hm => hx (List.mem_cons_of_mem _ hm))
        (fun hm => hy (List.mem_cons_of_mem _ hm)) hrest
      exact ⟨rfl, htail⟩

namespace WorkUnit

/-- The characters of keys. -/
def IsKeyChar (c : Char) : Prop :=
  Text.Percent.IsWritten c ∨ c = '_'

instance : DecidablePred IsKeyChar := fun c =>
  inferInstanceAs (Decidable (Text.Percent.IsWritten c ∨ c = '_'))

/-- The combination that a unit stands for. -/
def Same (u v : WorkUnit) : Prop :=
  u.game.name = v.game.name ∧ u.player.id = v.player.id ∧ u.seed = v.seed

theorem underscore_notMem (s : String) : '_' ∉ (Text.Percent.encode s).toList := by
  intro h
  exact absurd (Text.Percent.isWritten_encode h) (by decide)

variable {u v : WorkUnit}

theorem toList_key (u : WorkUnit) :
    u.key.toList = (Text.Percent.encode u.game.name).toList ++ '_' :: '_' ::
      ((Text.Percent.encode u.player.id).toList ++ '_' :: '_' :: u.seed.repr.toList) := by
  simp [key, toString]

theorem isKeyChar_of_mem {c : Char} (h : c ∈ u.key.toList) : IsKeyChar c := by
  rw [toList_key] at h
  simp only [List.mem_append, List.mem_cons] at h
  obtain h | rfl | rfl | h | rfl | rfl | h := h
  · exact .inl (Text.Percent.isWritten_encode h)
  · exact .inr rfl
  · exact .inr rfl
  · exact .inl (Text.Percent.isWritten_encode h)
  · exact .inr rfl
  · exact .inr rfl
  · refine .inl (.inl ?_)
    have hd : c.isDigit = true := by
      rw [Nat.toList_repr] at h
      exact Nat.isDigit_of_mem_toDigits (by decide) (by decide) h
    simp [Char.isAlphanum, hd]

/-- The parts of a key can be told apart, as none of them has an underscore. -/
theorem key_eq_iff : u.key = v.key ↔ u.Same v := by
  constructor
  · intro h
    have hlist := congrArg String.toList h
    rw [toList_key, toList_key] at hlist
    obtain ⟨hgame, hrest⟩ := append_cons_inj (underscore_notMem _) (underscore_notMem _) hlist
    obtain ⟨hplayer, hrest⟩ := append_cons_inj (underscore_notMem _) (underscore_notMem _)
      (List.cons.inj hrest).2
    have hseed := String.toList_inj.mp (List.cons.inj hrest).2
    exact ⟨Text.Percent.encode_injective (String.toList_inj.mp hgame),
      Text.Percent.encode_injective (String.toList_inj.mp hplayer), Nat.repr_inj.mp hseed⟩
  · rintro ⟨hgame, hplayer, hseed⟩
    rw [key, key, hgame, hplayer, hseed]

theorem underscore_mem_key (u : WorkUnit) : '_' ∈ u.key.toList := by
  rw [toList_key]
  simp

theorem slash_notMem_key (u : WorkUnit) : '/' ∉ u.key.toList := by
  intro h
  exact absurd (isKeyChar_of_mem h) (by decide)

theorem key_ne {s : String} (h : '_' ∉ s.toList) (u : WorkUnit) : u.key ≠ s := by
  rintro rfl
  exact h u.underscore_mem_key

/-- What a key begins is a name of a file. -/
theorem isName_key {extension : String} (h : '/' ∉ extension.toList) (u : WorkUnit) :
    Tree.IsName (u.key ++ extension) := by
  have hmem : '_' ∈ (u.key ++ extension).toList := by
    rw [String.toList_append]
    exact List.mem_append_left _ u.underscore_mem_key
  have hne : ∀ s : String, '_' ∉ s.toList → u.key ++ extension ≠ s := by
    rintro s hs rfl
    exact hs hmem
  refine ⟨?_, ?_, hne ".." (by decide)⟩
  · rw [String.toList_append, List.mem_append, not_or]
    exact ⟨u.slash_notMem_key, h⟩
  · simp [Path.isIdle, hne "" (by decide), hne "." (by decide)]

theorem isName_file (u : WorkUnit) : Tree.IsName (u.key ++ ".json") :=
  u.isName_key (by decide)

theorem path_eq_iff {folder : String} :
    Store.path folder u.key = Store.path folder v.key ↔ u.key = v.key := by
  constructor
  · intro h
    have hname := Path.join_injective (Path.isAbsolute_of_notMem u.isName_file.noSlash)
      (Path.isAbsolute_of_notMem v.isName_file.noSlash) h
    exact String.append_left_inj _ |>.mp hname
  · intro h
    rw [h]

/-- The files of units with different keys are at different places. -/
theorem key_eq_of_find? {t : Tree} {folder : String} {place : List String}
    (hu : t.find? (Store.path folder u.key) = some place)
    (hv : t.find? (Store.path folder v.key) = some place) : u.key = v.key :=
  (String.append_left_inj _).mp (Tree.name_eq_of_find? u.isName_file v.isName_file hu hv)

/-- Keys are alike for one combination of game, player and seed only, whatever the names are; they
consist of ASCII letters, digits, dots, hyphens, percent signs and underscores; and the results of
different combinations are in files with different paths and at different places. -/
theorem keys_apart (u v : WorkUnit) :
    (u.key = v.key ↔ u.Same v) ∧ (∀ c ∈ u.key.toList, IsKeyChar c) ∧
      (∀ folder, Store.path folder u.key = Store.path folder v.key ↔ u.Same v) ∧
      ∀ (t : Tree) (folder : String) (place : List String),
        t.find? (Store.path folder u.key) = some place →
        t.find? (Store.path folder v.key) = some place → u.Same v := by
  refine ⟨key_eq_iff, fun c => isKeyChar_of_mem, fun folder => ?_, fun t folder place hu hv => ?_⟩
  · rw [path_eq_iff, key_eq_iff]
  · exact key_eq_iff.mp (key_eq_of_find? hu hv)

/-- A unit whose names look like other names with their parts joined or written already. -/
def lookalike (program : String) : WorkUnit where
  game := { name := "a__b/%2F", program }
  player := { id := "" }
  seed := 7

theorem lookalike_key (program : String) : (lookalike program).key = "a%5F%5Fb%2F%252F____7" := by
  cbv

/-- Where the results of such a unit are. -/
def lookalikePlace : List String :=
  ["a%5F%5Fb%2F%252F____7.json"]

theorem lookalike_find? (program : String) :
    ({} : Tree).find? (Store.path "." (lookalike program).key) = some lookalikePlace := by
  refine (Tree.find?_join_eq_some (isName_file _)).mpr ⟨?_, [], by decide +kernel, rfl, ?_, ?_⟩ <;>
    rw [lookalike_key] <;> decide +kernel

/-- Units that differ in their programs only share a file, and no others do. -/
theorem keys_apart_lookalike :
    '%' ∈ (lookalike "reward(1)").key.toList ∧ IsKeyChar '%' ∧
      ({} : Tree).find? (Store.path "." (lookalike "reward(1)").key) = some lookalikePlace ∧
      ({} : Tree).find? (Store.path "." (lookalike "reward(2)").key) = some lookalikePlace ∧
      (lookalike "reward(1)").Same (lookalike "reward(2)") ∧
      (lookalike "reward(1)").key = (lookalike "reward(2)").key := by
  obtain ⟨hkey, hchar, -, hplace⟩ := keys_apart (lookalike "reward(1)") (lookalike "reward(2)")
  have hmem : '%' ∈ (lookalike "reward(1)").key.toList := by
    rw [lookalike_key]
    decide
  have hfirst := lookalike_find? "reward(1)"
  have hsecond := lookalike_find? "reward(2)"
  have hsame := hplace {} "." lookalikePlace hfirst hsecond
  exact ⟨hmem, hchar '%' hmem, hfirst, hsecond, hsame, hkey.mpr hsame⟩

end WorkUnit

end EntropyGame
