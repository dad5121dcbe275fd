import EntropyGame.Proofs.Batch.Store

namespace EntropyGame

variable {S : Type}

namespace Store

/-- What a file tells, given its path. -/
def recordOf (path : String) : Content → Except BatchError (Option UnitRecord)
  | .missing _ => .ok none
  | .unreadable fault => .error (.file path fault)
  | .text text =>
    match UnitRecord.read? text with
    | none => .error (.malformed .record text)
    | some r => .ok (some r)

/-- A disk on which the file of each unit can be read and replaced without touching the others.
Whether there is room for it does not change by that. -/
structure Replaces (disk : Disk (StateM S)) (folder : String) (content : S → String → Content)
    (room : S → String → Except BatchError Unit) : Prop where
  read (u : WorkUnit) (s : S) : (disk.read (path folder u.key)).run s = (content s u.key, s)
  replace_answer (u : WorkUnit) (text : String) (s : S) :
    ((replaceFile disk (path folder u.key) text).run s).1 = (room s u.key).map fun _ => true
  replace_own (u : WorkUnit) (text : String) (s : S) :
    content ((replaceFile disk (path folder u.key) text).run s).2 u.key =
      if (room s u.key).isOk then .text text else content s u.key
  replace_other (u v : WorkUnit) (text : String) (s : S) : u.key ≠ v.key →
    content ((replaceFile disk (path folder u.key) text).run s).2 v.key = content s v.key
  replace_room (u v : WorkUnit) (text : String) (s : S) :
    room ((replaceFile disk (path folder u.key) text).run s).2 v.key = room s v.key

/-- What a disk holds under a key of a folder. -/
def fileSlot (folder : String) (content : S → String → Content)
    (room : S → String → Except BatchError Unit) (s : S) (key : String) : Slot :=
  ⟨recordOf (path folder key) (content s key), room s key⟩

section

variable {disk : Disk (StateM S)} {folder : String} {content : S → String → Content}
  {room : S → String → Except BatchError Unit}

theorem loadFile_run {p : String} {s : S} {c : Content} (h : (disk.read p).run s = (c, s)) :
    (loadFile disk p).run s = (recordOf p c, s) := by
  rw [loadFile, StateT.run_bind, h]
  cases c with
  | missing fault => rfl
  | unreadable fault => rfl
  | text text =>
    rw [recordOf]
    dsimp only [bind]
    cases UnitRecord.read? text <;> rfl

theorem Replaces.save_run (h : Replaces disk folder content room) (u : WorkUnit) (r : UnitRecord)
    (s : S) : ((files disk folder).save u.key r).run s =
      match recordOf (path folder u.key) (content s u.key) with
      | .error e => (.error e, s)
      | .ok old =>
        if old.any UnitRecord.isComplete then (.ok false, s)
        else (replaceFile disk (path folder u.key) r.write).run s := by
  have hrun : ((files disk folder).save u.key r).run s =
      (match ((loadFile disk (path folder u.key)).run s).1 with
        | .error e => return .error e
        | .ok old =>
          if old.any UnitRecord.isComplete then return .ok false
          else replaceFile disk (path folder u.key) r.write : StateM S (Except BatchError Bool)).run
        ((loadFile disk (path folder u.key)).run s).2 := rfl
  rw [hrun, loadFile_run (h.read u s)]
  cases recordOf (path folder u.key) (content s u.key) with
  | error e => rfl
  | ok old =>
    dsimp only
    split <;> rfl

theorem replaceFile_run (disk : Disk (StateM S)) (p text : String) (s : S) :
    (replaceFile disk p text).run s =
      let staging := Path.withExtension p "json.tmp"
      let written := (disk.write staging text).run s
      let renamed := (disk.rename staging p).run written.2
      match written.1 with
      | .error fault => (.error (.file staging fault), written.2)
      | .ok () => (match renamed.1 with
        | .error fault => .error (.file p fault)
        | .ok () => .ok true, renamed.2) := by
  rw [replaceFile, StateT.run_bind]
  dsimp only [bind]
  cases (disk.write (Path.withExtension p "json.tmp") text).run s with
  | mk wrote s' =>
    cases wrote with
    | error fault => rfl
    | ok _ =>
      dsimp only
      show (((disk.rename (Path.withExtension p "json.tmp") p) >>= _ : StateM S _).run s') = _
      rw [StateT.run_bind]
      dsimp only [bind]
      cases (disk.rename (Path.withExtension p "json.tmp") p).run s' with
      | mk renamed s'' => cases renamed <;> rfl

/-- A file store keeps records that read back. -/
theorem Replaces.keyed (h : Replaces disk folder content room) :
    (files disk folder).Keyed (fileSlot folder content room)
      fun r => UnitRecord.read? r.write = some r where
  load u s := loadFile_run (h.read u s)
  save_answer u r s := by
    rw [h.save_run, Slot.answer, fileSlot]
    dsimp only
    cases hold : recordOf (path folder u.key) (content s u.key) with
    | error e => rfl
    | ok old =>
      dsimp only
      split
      · rfl
      · rw [h.replace_answer u r.write s]
  save_put u r s hr := by
    rw [h.save_run]
    cases hold : recordOf (path folder u.key) (content s u.key) with
    | error e =>
      rw [Slot.put_of_ne (by simp [Slot.answer, fileSlot, hold])]
    | ok old =>
      dsimp only
      cases hcomplete : old.any UnitRecord.isComplete with
      | true =>
        rw [if_pos rfl, Slot.put_of_ne (by simp [Slot.answer, fileSlot, hold, hcomplete])]
      | false =>
        have hc := h.replace_own u r.write s
        have hroom := h.replace_room u u r.write s
        rw [if_neg (by simp), fileSlot, hc, hroom]
        cases hfree : room s u.key with
        | ok _ =>
          rw [Slot.put_of_true
            (by simp [Slot.answer, fileSlot, hold, hcomplete, hfree, Except.map])]
          simp [fileSlot, recordOf, hr, hfree, Except.isOk, Except.toBool]
        | error e =>
          rw [Slot.put_of_ne (by simp [Slot.answer, fileSlot, hold, hcomplete, hfree, Except.map])]
          simp [fileSlot, hfree, Except.isOk, Except.toBool]
  save_other u v r s hne := by
    rw [h.save_run]
    cases recordOf (path folder u.key) (content s u.key) with
    | error e => rfl
    | ok old =>
      dsimp only
      split
      · rfl
      · rw [fileSlot, fileSlot, h.replace_other u v r.write s hne, h.replace_room u v r.write s]

end

/-- Where a text is written before it takes the place of the file of a key. -/
def staging (folder key : String) : String :=
  Path.join folder (key ++ ".json.tmp")

section

variable {folder : String} {u v : WorkUnit}

theorem withExtension_path (folder : String) (u : WorkUnit) :
    Path.withExtension (path folder u.key) "json.tmp" = staging folder u.key := by
  have hold : u.key ++ ".json" = u.key ++ "." ++ "json" := by
    rw [String.append_assoc]
    rfl
  have hnew : u.key ++ ".json.tmp" = u.key ++ "." ++ "json.tmp" := by
    rw [String.append_assoc]
    rfl
  rw [path, staging, hold, hnew, Path.withExtension_join _ u.slash_notMem_key (by decide)
    (by decide) (u.key_ne (by decide)) (u.key_ne (by decide))]

theorem isName_staging (u : WorkUnit) : Tree.IsName (u.key ++ ".json.tmp") :=
  u.isName_key (by decide)

/-- No text is written first where another record is. -/
theorem file_ne_staging (u v : WorkUnit) : u.key ++ ".json" ≠ v.key ++ ".json.tmp" := by
  intro h
  have hlast := congrArg (fun s : String => s.toList.getLast?) h
  simp at hlast

theorem path_ne_staging : path folder u.key ≠ staging folder v.key := fun h =>
  file_ne_staging u v (Path.join_injective (Path.isAbsolute_of_notMem u.isName_file.noSlash)
    (Path.isAbsolute_of_notMem (isName_staging v).noSlash) h)

end

/-- What texts hold at the file of a key. -/
def textsContent (folder : String) (t : Texts) (key : String) : Content :=
  t.read (path folder key)

theorem texts_write_run (path text : String) (t : Texts) :
    (Texts.disk.write path text).run t = (.ok (), t.write path text) :=
  rfl

theorem texts_rename_run (source target : String) (t : Texts) :
    (Texts.disk.rename source target).run t = t.rename source target :=
  rfl

theorem texts_replaceFile (folder : String) (u : WorkUnit) (text : String) (t : Texts) :
    (replaceFile Texts.disk (path folder u.key) text).run t =
      (.ok true, { files := ((t.files.insert (staging folder u.key) text).erase
        (staging folder u.key)).insert (path folder u.key) text }) := by
  have hfound : (t.files.insert (staging folder u.key) text).get? (staging folder u.key) =
      some text := by
    rw [OrderedMap.get?_insert, if_pos rfl]
  have hrename : (t.write (staging folder u.key) text).rename (staging folder u.key)
      (path folder u.key) =
      (.ok (), { files := ((t.files.insert (staging folder u.key) text).erase
        (staging folder u.key)).insert (path folder u.key) text }) := by
    rw [Texts.write, Texts.rename, hfound]
  rw [replaceFile_run, withExtension_path]
  simp only [texts_write_run, texts_rename_run, hrename]

/-- Texts under paths take every record. -/
theorem texts_replaces (folder : String) :
    Replaces Texts.disk folder (textsContent folder) fun _ _ => .ok () where
  read _ _ := rfl
  replace_answer u text t := by
    rw [texts_replaceFile]
    rfl
  replace_own u text t := by
    rw [texts_replaceFile, textsContent, Texts.read, OrderedMap.get?_insert, if_pos rfl]
    rfl
  replace_other u v text t hne := by
    have hpath : path folder v.key ≠ path folder u.key := fun h =>
      hne (WorkUnit.path_eq_iff.mp h).symm
    rw [texts_replaceFile, textsContent, textsContent, Texts.read, Texts.read,
      OrderedMap.get?_insert, if_neg hpath, OrderedMap.get?_erase, if_neg path_ne_staging,
      OrderedMap.get?_insert, if_neg path_ne_staging]
  replace_room _ _ _ _ := rfl

theorem tree_write_run (path text : String) (t : Tree) :
    (Tree.disk.write path text).run t = t.write path text :=
  rfl

theorem tree_rename_run (source target : String) (t : Tree) :
    (Tree.disk.rename source target).run t = t.rename source target :=
  rfl

/-- What keeps a text from being written at a path. -/
def treeSpot (t : Tree) (path : String) : Except BatchError Unit :=
  if t.takes path then .ok () else .error (.file path (t.fault path))

theorem treeSpot_of_takes {t : Tree} {path : String} (h : t.takes path = true) :
    treeSpot t path = .ok () :=
  if_pos h

theorem treeSpot_of_not_takes {t : Tree} {path : String} (h : t.takes path = false) :
    treeSpot t path = .error (.file path (t.fault path)) :=
  if_neg (by simp [h])

/-- What keeps a text from being put at the file of a key. -/
def treeRoom (folder : String) (t : Tree) (key : String) : Except BatchError Unit := do
  treeSpot t (staging folder key)
  treeSpot t (path folder key)

/-- What a tree holds at the file of a key. -/
def treeContent (folder : String) (t : Tree) (key : String) : Content :=
  t.read (path folder key)

section

variable {folder : String} {u v : WorkUnit} {t t' : Tree} {place : List String}

theorem treeSpot_congr {name : String} (hways : t.SameWays folder t') (h : Tree.IsName name) :
    treeSpot t' (Path.join folder name) = treeSpot t (Path.join folder name) := by
  rw [treeSpot, treeSpot, Tree.takes_congr hways.folders, hways.fault h]

theorem treeRoom_congr (hways : t.SameWays folder t') (u : WorkUnit) :
    treeRoom folder t' u.key = treeRoom folder t u.key := by
  rw [treeRoom, treeRoom, staging, path, treeSpot_congr hways (isName_staging u),
    treeSpot_congr hways u.isName_file]

/-- Where there is room for a file, its path takes it. -/
theorem takes_of_treeRoom {key : String} (h : (treeRoom folder t key).isOk = true) :
    t.takes (path folder key) = true := by
  unfold treeRoom treeSpot at h
  cases htakes : t.takes (path folder key) with
  | true => rfl
  | false =>
    rw [htakes] at h
    split at h <;> cases h

/-- No file of a unit is the one that takes anything. -/
theorem join_ne_nullPath {extension : String} (h : '/' ∉ extension.toList) (u : WorkUnit) :
    Path.join folder (u.key ++ extension) ≠ Tree.nullPath := by
  intro heq
  have hparts := Path.parts_join folder (u.isName_key h).noSlash
  have hnull : Path.parts Tree.nullPath = ["", "dev", "null"] := by decide
  rw [heq, hnull] at hparts
  have hlast := congrArg List.getLast? hparts
  rw [List.getLast?_append, List.getLast?_singleton] at hlast
  have hname : "null" = u.key ++ extension := Option.some.inj hlast
  have hmem : '_' ∈ (u.key ++ extension).toList := by
    rw [String.toList_append]
    exact List.mem_append_left _ u.underscore_mem_key
  rw [← hname] at hmem
  exact absurd hmem (by decide)

/-- A text is written first where no record is. -/
theorem find?_path_ne_staging (h : t.find? (path folder u.key) = some place) :
    t.find? (staging folder v.key) ≠ some place := fun h' =>
  file_ne_staging u v (Tree.name_eq_of_find? u.isName_file (isName_staging v) h h')

/-- What comes of replacing a file in a tree: the text is at its place if there is room, and only
this place and the one that the text is written to first are touched. -/
theorem tree_replaceFile (folder : String) (u : WorkUnit) (text : String) (t : Tree) :
    ∃ t', (replaceFile Tree.disk (path folder u.key) text).run t =
        ((treeRoom folder t u.key).map fun _ => true, t') ∧ t.SameWays folder t' ∧
      ∀ place, t.find? (staging folder u.key) ≠ some place → t'.files.get? place =
        if (treeRoom folder t u.key).isOk ∧ t.find? (path folder u.key) = some place then some text
        else t.files.get? place := by
  have hnull : staging folder u.key ≠ Tree.nullPath := join_ne_nullPath (by decide) u
  have hways : ∀ first, t.find? (staging folder u.key) = some first →
      ∀ files, t.SameWays folder { t with files := files } :=
    fun first hfirst files => .of_find? (isName_staging u) hfirst rfl
  have hfault : ∀ t' : Tree, t.SameWays folder t' →
      t'.fault (path folder u.key) = t.fault (path folder u.key) :=
    fun t' h => h.fault u.isName_file
  rw [replaceFile_run, withExtension_path, treeRoom]
  generalize staging folder u.key = source at *
  generalize path folder u.key = p at *
  simp only [tree_write_run, tree_rename_run]
  cases htakes : t.takes source with
  | false =>
    rw [Tree.write_of_not_takes hnull htakes, treeSpot_of_not_takes htakes]
    exact ⟨t, rfl, .refl folder t, fun place _ => (if_neg fun h => by cases h.1).symm⟩
  | true =>
    obtain ⟨first, hfirst, hfolder⟩ := Tree.takes_eq_true.mp htakes
    obtain ⟨files, hrename, hfiles⟩ := Tree.rename_written hfirst p text
    rw [Tree.write_of_find? hfirst hfolder, treeSpot_of_takes htakes]
    dsimp only
    rw [hrename, hfault _ (hways first hfirst _)]
    refine ⟨{ t with files := files }, ?_, hways first hfirst files, ?_⟩
    · rw [treeSpot]
      cases t.takes p <;> rfl
    · intro place hne
      rw [hfiles place fun he => hne (he ▸ hfirst)]
      cases hp : t.takes p with
      | true => simp [treeSpot_of_takes hp, bind, Except.bind, Except.isOk, Except.toBool]
      | false => simp [treeSpot_of_not_takes hp, bind, Except.bind, Except.isOk, Except.toBool]

/-- A tree, whatever it holds, has room for records at the files of some keys. -/
theorem tree_replaces (folder : String) :
    Replaces Tree.disk folder (treeContent folder) (treeRoom folder) where
  read _ _ := rfl
  replace_answer u text t := by
    obtain ⟨t', hrun, -⟩ := tree_replaceFile folder u text t
    rw [hrun]
  replace_own u text t := by
    obtain ⟨t', hrun, hways, hfiles⟩ := tree_replaceFile folder u text t
    rw [hrun]
    cases hroom : (treeRoom folder t u.key).isOk with
    | true =>
      obtain ⟨place, hplace, -⟩ := Tree.takes_eq_true.mp (takes_of_treeRoom hroom)
      have hfile := hfiles place (find?_path_ne_staging hplace)
      rw [if_pos ⟨hroom, hplace⟩] at hfile
      rw [if_pos rfl, treeContent]
      exact Tree.read_eq_text ((Tree.find?_congr hways.folders _).trans hplace) hfile
    | false =>
      rw [if_neg Bool.false_ne_true, treeContent, treeContent]
      refine hways.read u.isName_file ?_
      intro place hplace
      rw [hfiles place (find?_path_ne_staging hplace), if_neg (by simp [hroom])]
  replace_other u v text t hne := by
    obtain ⟨t', hrun, hways, hfiles⟩ := tree_replaceFile folder u text t
    rw [hrun]
    refine hways.read v.isName_file ?_
    intro place hplace
    have hother : t.find? (path folder u.key) ≠ some place := fun h =>
      hne (WorkUnit.key_eq_of_find? h hplace)
    rw [hfiles place (find?_path_ne_staging hplace), if_neg (fun h => hother h.2)]
  replace_room u v text t := by
    obtain ⟨t', hrun, hways, -⟩ := tree_replaceFile folder u text t
    rw [hrun]
    exact treeRoom_congr hways v

end

end Store

end EntropyGame
