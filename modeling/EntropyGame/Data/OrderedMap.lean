namespace EntropyGame

/-- A finite map that remembers in which order its keys came. -/
structure OrderedMap (α β : Type) where
  entries : List (α × β)
  nodup : (entries.map Prod.fst).Nodup

namespace OrderedMap

variable {α β : Type}

def empty : OrderedMap α β :=
  ⟨[], List.nodup_nil⟩

instance : Inhabited (OrderedMap α β) :=
  ⟨empty⟩

instance [BEq α] [BEq β] : BEq (OrderedMap α β) :=
  ⟨fun m n => m.entries == n.entries⟩

theorem ext {m n : OrderedMap α β} (h : m.entries = n.entries) : m = n := by
  cases m
  cases n
  cases h
  rfl

def keys (m : OrderedMap α β) : List α :=
  m.entries.map Prod.fst

def size (m : OrderedMap α β) : Nat :=
  m.entries.length

def map {γ : Type} (f : β → γ) (m : OrderedMap α β) : OrderedMap α γ :=
  ⟨m.entries.map fun e => (e.1, f e.2), by simpa [Function.comp_def] using m.nodup⟩

/-- Changes the values, which may depend on their keys. -/
def mapWithKey {γ : Type} (f : α → β → γ) (m : OrderedMap α β) : OrderedMap α γ :=
  ⟨m.entries.map fun e => (e.1, f e.1 e.2), by simpa [Function.comp_def] using m.nodup⟩

variable [DecidableEq α]

def find (key : α) : List (α × β) → Option β
  | [] => none
  | (k, v) :: es => if k = key then some v else find key es

def get? (m : OrderedMap α β) (key : α) : Option β :=
  find key m.entries

def put (key : α) (value : β) : List (α × β) → List (α × β)
  | [] => [(key, value)]
  | (k, v) :: es => if k = key then (k, value) :: es else (k, v) :: put key value es

theorem mem_keys_put {key : α} {value : β} {es : List (α × β)} {k : α} :
    k ∈ (put key value es).map Prod.fst ↔ k = key ∨ k ∈ es.map Prod.fst := by
  induction es with
  | nil => simp [put]
  | cons e es ih =>
    by_cases h : e.1 = key
    · simp only [put, h, if_true, List.map_cons, List.mem_cons]
      constructor
      · rintro (rfl | h)
        · exact .inl rfl
        · exact .inr (.inr h)
      · rintro (rfl | rfl | h)
        · exact .inl rfl
        · exact .inl rfl
        · exact .inr h
    · simp only [put, h, if_false, List.map_cons, List.mem_cons, ih]
      constructor
      · rintro (rfl | rfl | h)
        · exact .inr (.inl rfl)
        · exact .inl rfl
        · exact .inr (.inr h)
      · rintro (rfl | rfl | h)
        · exact .inr (.inl rfl)
        · exact .inl rfl
        · exact .inr (.inr h)

theorem nodup_put {key : α} {value : β} {es : List (α × β)} (h : (es.map Prod.fst).Nodup) :
    ((put key value es).map Prod.fst).Nodup := by
  induction es with
  | nil => simp [put]
  | cons e es ih =>
    rw [List.map_cons, List.nodup_cons] at h
    by_cases hk : e.1 = key
    · rw [put, if_pos hk, List.map_cons, List.nodup_cons]
      exact ⟨h.1, h.2⟩
    · simp only [put, hk, if_false, List.map_cons, List.nodup_cons]
      refine ⟨?_, ih h.2⟩
      rw [mem_keys_put]
      rintro (h' | h')
      · exact hk h'
      · exact h.1 h'

/-- Sets the value of a key; a new key comes last, a known one keeps its place. -/
def insert (m : OrderedMap α β) (key : α) (value : β) : OrderedMap α β :=
  ⟨put key value m.entries, nodup_put m.nodup⟩

/-- Takes a key out and leaves the others in order. -/
def erase (m : OrderedMap α β) (key : α) : OrderedMap α β :=
  ⟨m.entries.filter fun e => e.1 ≠ key,
    m.nodup.sublist (List.Sublist.map Prod.fst List.filter_sublist)⟩

def contains (m : OrderedMap α β) (key : α) : Bool :=
  (m.get? key).isSome

/-- Of the values given for one key the last one holds, at the place of the first. -/
def ofList (es : List (α × β)) : OrderedMap α β :=
  es.foldl (fun m e => m.insert e.1 e.2) empty

theorem find_put (key k : α) (value : β) (es : List (α × β)) :
    find k (put key value es) = if k = key then some value else find k es := by
  induction es with
  | nil => by_cases h : key = k <;> simp [put, find, h, eq_comm]
  | cons e es ih =>
    by_cases h : e.1 = key
    · by_cases hk : key = k
      · simp [put, find, h, hk]
      · simp [put, find, h, hk, Ne.symm hk]
    · by_cases hk : e.1 = k
      · have : ¬ k = key := fun hkey => h (hk.trans hkey)
        simp [put, find, hk, this]
      · simp [put, find, h, hk, ih]

theorem get?_insert (m : OrderedMap α β) (key k : α) (value : β) :
    (m.insert key value).get? k = if k = key then some value else m.get? k :=
  find_put key k value m.entries

theorem find_filter_ne (key k : α) (es : List (α × β)) :
    find k (es.filter fun e => e.1 ≠ key) = if k = key then none else find k es := by
  induction es with
  | nil => simp [find]
  | cons e es ih =>
    by_cases h : e.1 = key
    · by_cases hk : key = k
      · simp_all
      · simp_all [find, Ne.symm hk]
    · by_cases hk : e.1 = k
      · have : ¬ k = key := fun hkey => h (hk.trans hkey)
        simp [find, hk, this]
      · simp_all [find]

theorem get?_erase (m : OrderedMap α β) (key k : α) :
    (m.erase key).get? k = if k = key then none else m.get? k :=
  find_filter_ne key k m.entries

/-- What holds of all entries and of a new one holds after it is set. -/
theorem forall_insert {P : α → β → Prop} {m : OrderedMap α β}
    (h : ∀ k v, m.get? k = some v → P k v) {key : α} {value : β} (hnew : P key value) :
    ∀ k v, (m.insert key value).get? k = some v → P k v := by
  intro k v hv
  rw [get?_insert] at hv
  split at hv
  · rename_i hk
    cases hv
    exact hk ▸ hnew
  · exact h k v hv

theorem forall_erase {P : α → β → Prop} {m : OrderedMap α β}
    (h : ∀ k v, m.get? k = some v → P k v) (key : α) :
    ∀ k v, (m.erase key).get? k = some v → P k v := by
  intro k v hv
  rw [get?_erase] at hv
  split at hv
  · cases hv
  · exact h k v hv

theorem get?_empty (k : α) : (empty : OrderedMap α β).get? k = none :=
  rfl

theorem isSome_find {key : α} {es : List (α × β)} :
    (find key es).isSome = true ↔ key ∈ es.map Prod.fst := by
  induction es with
  | nil => simp [find]
  | cons e es ih =>
    by_cases h : e.1 = key
    · simp [find, h]
    · simp [find, h, Ne.symm h, ih]

theorem isSome_get? {m : OrderedMap α β} {key : α} :
    (m.get? key).isSome = true ↔ key ∈ m.keys :=
  isSome_find

theorem mem_of_find {key : α} {value : β} {es : List (α × β)} (h : find key es = some value) :
    (key, value) ∈ es := by
  induction es with
  | nil => cases h
  | cons e es ih =>
    rw [find] at h
    split at h
    · rename_i hk
      cases h
      exact hk ▸ List.mem_cons_self
    · exact List.mem_cons_of_mem _ (ih h)

theorem mem_of_get? {m : OrderedMap α β} {key : α} {value : β} (h : m.get? key = some value) :
    (key, value) ∈ m.entries :=
  mem_of_find h

theorem find_of_mem {e : α × β} {es : List (α × β)} (hn : (es.map Prod.fst).Nodup) (h : e ∈ es) :
    find e.1 es = some e.2 := by
  induction es with
  | nil => cases h
  | cons e' es ih =>
    rw [List.map_cons, List.nodup_cons] at hn
    obtain rfl | h := List.mem_cons.mp h
    · exact if_pos rfl
    · have hne : e'.1 ≠ e.1 := fun he => hn.1 (he ▸ List.mem_map_of_mem h)
      exact (if_neg hne).trans (ih hn.2 h)

theorem get?_of_mem {m : OrderedMap α β} {e : α × β} (h : e ∈ m.entries) :
    m.get? e.1 = some e.2 :=
  find_of_mem m.nodup h

/-- A map is its keys in order with their values. -/
theorem ext_get? {m n : OrderedMap α β} (hkeys : m.keys = n.keys)
    (h : ∀ key, m.get? key = n.get? key) : m = n := by
  have ext_find : ∀ es fs : List (α × β), (es.map Prod.fst).Nodup →
      es.map Prod.fst = fs.map Prod.fst → (∀ key, find key es = find key fs) → es = fs := by
    intro es
    induction es with
    | nil =>
      intro fs _ hkeys _
      exact (List.map_eq_nil_iff.mp hkeys.symm).symm
    | cons e es ih =>
      intro fs hnodup hkeys hfind
      cases fs with
      | nil => cases hkeys
      | cons f fs =>
        simp only [List.map_cons, List.cons.injEq] at hkeys
        rw [List.map_cons, List.nodup_cons] at hnodup
        have hvalue : e.2 = f.2 := by simpa [find, hkeys.1] using hfind e.1
        have hfirst : e = f := Prod.ext hkeys.1 hvalue
        have hrest : ∀ key, find key es = find key fs := by
          intro key
          by_cases hk : e.1 = key
          · have hes : (find key es).isSome = false := by
              rw [Bool.eq_false_iff, ne_eq, isSome_find, ← hk]
              exact hnodup.1
            have hfs : (find key fs).isSome = false := by
              rw [Bool.eq_false_iff, ne_eq, isSome_find, ← hk, ← hkeys.2]
              exact hnodup.1
            rw [Option.isSome_eq_false_iff, Option.isNone_iff_eq_none] at hes hfs
            rw [hes, hfs]
          · have hf : ¬ f.1 = key := hkeys.1 ▸ hk
            simpa [find, hk, hf] using hfind key
        rw [hfirst, ih fs hnodup.2 hkeys.2 hrest]
  exact ext (ext_find m.entries n.entries m.nodup hkeys h)

theorem put_of_find {key : α} {value : β} {es : List (α × β)} (h : find key es = some value) :
    put key value es = es := by
  induction es with
  | nil => simp [find] at h
  | cons e es ih =>
    obtain ⟨k, v⟩ := e
    by_cases hk : k = key
    · simp only [find, hk, if_true, Option.some.injEq] at h
      rw [put, if_pos hk, h]
    · simp only [find, hk, if_false] at h
      rw [put, if_neg hk, ih h]

/-- Setting a key to the value that it has changes nothing. -/
theorem insert_of_get? {m : OrderedMap α β} {key : α} {value : β} (h : m.get? key = some value) :
    m.insert key value = m :=
  ext (put_of_find h)

theorem keys_put_of_mem {key : α} {value : β} {es : List (α × β)} (h : key ∈ es.map Prod.fst) :
    (put key value es).map Prod.fst = es.map Prod.fst := by
  induction es with
  | nil => simp at h
  | cons e es ih =>
    by_cases hk : e.1 = key
    · simp [put, hk]
    · have h : key ∈ es.map Prod.fst := by
        rw [List.map_cons, List.mem_cons] at h
        exact h.resolve_left (Ne.symm hk)
      simp [put, hk, ih h]

theorem keys_insert_of_mem {m : OrderedMap α β} {key : α} {value : β} (h : key ∈ m.keys) :
    (m.insert key value).keys = m.keys :=
  keys_put_of_mem h

theorem mem_put {key : α} {value : β} {es : List (α × β)} {e : α × β} (h : e ∈ put key value es) :
    e = (key, value) ∨ e ∈ es := by
  induction es with
  | nil => exact .inl (by simpa [put] using h)
  | cons e' es ih =>
    obtain ⟨k, v⟩ := e'
    rw [put] at h
    split at h
    · rename_i hk
      obtain he | he := List.mem_cons.mp h
      · exact .inl (by rw [he, hk])
      · exact .inr (List.mem_cons_of_mem _ he)
    · obtain he | he := List.mem_cons.mp h
      · exact .inr (he ▸ List.mem_cons_self)
      · exact (ih he).imp_right (List.mem_cons_of_mem _)

theorem mem_insert {m : OrderedMap α β} {key : α} {value : β} {e : α × β}
    (h : e ∈ (m.insert key value).entries) : e = (key, value) ∨ e ∈ m.entries :=
  mem_put h

/-- A map made of some entries has no others. -/
theorem mem_ofList {es : List (α × β)} {e : α × β} (h : e ∈ (ofList es).entries) : e ∈ es := by
  have hfrom : ∀ m : OrderedMap α β,
      e ∈ (es.foldl (fun m e => m.insert e.1 e.2) m).entries → e ∈ m.entries ∨ e ∈ es := by
    clear h
    induction es with
    | nil => exact fun m he => .inl he
    | cons e' es ih =>
      intro m he
      obtain he | he := ih _ he
      · obtain rfl | he := mem_insert he
        · exact .inr List.mem_cons_self
        · exact .inl he
      · exact .inr (List.mem_cons_of_mem _ he)
  obtain he | he := hfrom empty h
  · cases he
  · exact he

omit [DecidableEq α] in
theorem keys_mapWithKey {γ : Type} (f : α → β → γ) (m : OrderedMap α β) :
    (m.mapWithKey f).keys = m.keys := by
  simp [keys, mapWithKey, Function.comp_def]

theorem get?_mapWithKey {γ : Type} (f : α → β → γ) (m : OrderedMap α β) (key : α) :
    (m.mapWithKey f).get? key = (m.get? key).map (f key) := by
  have find_map : ∀ es : List (α × β),
      find key (es.map fun e => (e.1, f e.1 e.2)) = (find key es).map (f key) := by
    intro es
    induction es with
    | nil => rfl
    | cons e es ih =>
      by_cases h : e.1 = key
      · simp [find, h]
      · simp [find, h, ih]
  exact find_map m.entries

theorem mapWithKey_insert {γ : Type} (f : α → β → γ) (m : OrderedMap α β) (key : α) (value : β) :
    (m.insert key value).mapWithKey f = (m.mapWithKey f).insert key (f key value) := by
  have map_put : ∀ es : List (α × β), (put key value es).map (fun e => (e.1, f e.1 e.2)) =
      put key (f key value) (es.map fun e => (e.1, f e.1 e.2)) := by
    intro es
    induction es with
    | nil => rfl
    | cons e es ih =>
      by_cases h : e.1 = key
      · simp [put, h]
      · simp [put, h, ih]
  exact ext (map_put m.entries)

theorem put_of_notMem {key : α} {value : β} {es : List (α × β)} (h : key ∉ es.map Prod.fst) :
    put key value es = es ++ [(key, value)] := by
  induction es with
  | nil => rfl
  | cons e es ih =>
    rw [List.map_cons, List.mem_cons, not_or] at h
    rw [put, if_neg (Ne.symm h.1), ih h.2, List.cons_append]

/-- A list with distinct keys is kept as it is. -/
theorem entries_ofList {es : List (α × β)} (h : (es.map Prod.fst).Nodup) :
    (ofList es).entries = es := by
  have append : ∀ (es : List (α × β)) (m : OrderedMap α β),
      ((m.entries ++ es).map Prod.fst).Nodup →
      (es.foldl (fun m e => m.insert e.1 e.2) m).entries = m.entries ++ es := by
    intro es
    induction es with
    | nil => simp
    | cons e es ih =>
      intro m hm
      have hnew : e.1 ∉ m.entries.map Prod.fst := by
        intro hmem
        rw [List.map_append, List.map_cons, List.nodup_append] at hm
        exact hm.2.2 _ hmem _ List.mem_cons_self rfl
      have he : (m.insert e.1 e.2).entries = m.entries ++ [e] := put_of_notMem hnew
      rw [List.foldl_cons, ih, he, List.append_assoc, List.singleton_append]
      rwa [he, List.append_assoc]
  simpa [ofList, empty] using append es empty (by simpa [empty] using h)

theorem ofList_entries (m : OrderedMap α β) : ofList m.entries = m :=
  ext (entries_ofList m.nodup)

/-- Two maps with the same values in the same order, where the keys of one are renamed in the
other. -/
def Renamed {α' : Type} (f : α → α') (m : OrderedMap α β) (m' : OrderedMap α' β) : Prop :=
  m'.entries = m.entries.map fun e => (f e.1, e.2)

namespace Renamed

variable {α' : Type} [DecidableEq α'] {f : α → α'} {m : OrderedMap α β} {m' : OrderedMap α' β}

omit [DecidableEq α] [DecidableEq α'] in
theorem empty : Renamed f (OrderedMap.empty : OrderedMap α β) OrderedMap.empty :=
  rfl

theorem get? (h : Renamed f m m') (hf : f.Injective) (key : α) : m'.get? (f key) = m.get? key := by
  have find_map : ∀ es : List (α × β),
      find (f key) (es.map fun e => (f e.1, e.2)) = find key es := by
    intro es
    induction es with
    | nil => rfl
    | cons e es ih => simp only [List.map_cons, find, hf.eq_iff, ih]
  rw [OrderedMap.get?, h, find_map]
  rfl

theorem insert (h : Renamed f m m') (hf : f.Injective) (key : α) (value : β) :
    Renamed f (m.insert key value) (m'.insert (f key) value) := by
  have map_put : ∀ es : List (α × β), put (f key) value (es.map fun e => (f e.1, e.2)) =
      (put key value es).map fun e => (f e.1, e.2) := by
    intro es
    induction es with
    | nil => rfl
    | cons e es ih =>
      by_cases hk : e.1 = key
      · simp [put, hk]
      · simp [put, hk, hf.eq_iff, ih]
  show put (f key) value m'.entries = (put key value m.entries).map fun e => (f e.1, e.2)
  rw [h, map_put]

theorem erase (h : Renamed f m m') (hf : f.Injective) (key : α) :
    Renamed f (m.erase key) (m'.erase (f key)) := by
  show (m'.entries.filter fun e => e.1 ≠ f key) =
    (m.entries.filter fun e => e.1 ≠ key).map fun e => (f e.1, e.2)
  rw [h, List.filter_map]
  simp only [Function.comp_def, ne_eq, hf.eq_iff]

end Renamed

end OrderedMap

end EntropyGame
