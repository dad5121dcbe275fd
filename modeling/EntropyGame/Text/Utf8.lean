namespace EntropyGame.Text

/-- Bytes that a text takes in UTF-8. -/
def byteLength : List Char → Nat
  | [] => 0
  | c :: cs => c.utf8Size + byteLength cs

theorem byteLength_append (cs ds : List Char) :
    byteLength (cs ++ ds) = byteLength cs + byteLength ds := by
  induction cs with
  | nil => simp [byteLength]
  | cons c cs ih => simp [byteLength, ih, Nat.add_assoc]

theorem byteLength_eq_zero {cs : List Char} (h : byteLength cs = 0) : cs = [] := by
  cases cs with
  | nil => rfl
  | cons c cs => exact absurd (Nat.add_eq_zero_iff.mp h).1 (Nat.pos_iff_ne_zero.mp c.utf8Size_pos)

/-- What follows the first `n` bytes, unless they end inside a character or past the end. -/
def dropBytes? : Nat → List Char → Option (List Char)
  | 0, cs => some cs
  | _ + 1, [] => none
  | n + 1, c :: cs => if c.utf8Size ≤ n + 1 then dropBytes? (n + 1 - c.utf8Size) cs else none

/-- The first `n` bytes, unless they end inside a character or past the end. -/
def takeBytes? : Nat → List Char → Option (List Char)
  | 0, _ => some []
  | _ + 1, [] => none
  | n + 1, c :: cs =>
    if c.utf8Size ≤ n + 1 then (takeBytes? (n + 1 - c.utf8Size) cs).map (c :: ·) else none

/-- The text between two byte offsets that fall on character boundaries in order. -/
def slice? (start stop : Nat) (cs : List Char) : Option (List Char) :=
  if start ≤ stop then (dropBytes? start cs).bind (takeBytes? (stop - start)) else none

theorem dropBytes?_byteLength (cs ds : List Char) :
    dropBytes? (byteLength cs) (cs ++ ds) = some ds := by
  induction cs with
  | nil => cases ds <;> rfl
  | cons c cs ih =>
    have hc := c.utf8Size_pos
    obtain ⟨n, hn⟩ : ∃ n, byteLength (c :: cs) = n + 1 :=
      ⟨byteLength (c :: cs) - 1, by simp only [byteLength]; omega⟩
    have hle : c.utf8Size ≤ n + 1 := by rw [← hn]; simp [byteLength]
    have hrest : n + 1 - c.utf8Size = byteLength cs := by rw [← hn]; simp [byteLength]
    rw [hn, List.cons_append, dropBytes?, if_pos hle, hrest, ih]

theorem takeBytes?_byteLength (cs ds : List Char) :
    takeBytes? (byteLength cs) (cs ++ ds) = some cs := by
  induction cs with
  | nil => simp [byteLength, takeBytes?]
  | cons c cs ih =>
    have hc := c.utf8Size_pos
    obtain ⟨n, hn⟩ : ∃ n, byteLength (c :: cs) = n + 1 :=
      ⟨byteLength (c :: cs) - 1, by simp only [byteLength]; omega⟩
    have hle : c.utf8Size ≤ n + 1 := by rw [← hn]; simp [byteLength]
    have hrest : n + 1 - c.utf8Size = byteLength cs := by rw [← hn]; simp [byteLength]
    rw [hn, List.cons_append, takeBytes?, if_pos hle, hrest, ih, Option.map_some]

theorem slice?_append (cs ds es : List Char) :
    slice? (byteLength cs) (byteLength cs + byteLength ds) (cs ++ (ds ++ es)) = some ds := by
  simp [slice?, dropBytes?_byteLength, takeBytes?_byteLength]

theorem append_of_dropBytes? {n : Nat} {cs ds : List Char} (h : dropBytes? n cs = some ds) :
    ∃ us, cs = us ++ ds ∧ byteLength us = n := by
  fun_induction dropBytes? n cs with
  | case1 cs =>
    cases h
    exact ⟨[], rfl, rfl⟩
  | case2 => cases h
  | case3 n c cs hc ih =>
    obtain ⟨us, rfl, hus⟩ := ih h
    exact ⟨c :: us, rfl, by simp only [byteLength]; omega⟩
  | case4 => cases h

theorem append_of_takeBytes? {n : Nat} {cs us : List Char} (h : takeBytes? n cs = some us) :
    ∃ ds, cs = us ++ ds ∧ byteLength us = n := by
  fun_induction takeBytes? n cs generalizing us with
  | case1 cs =>
    cases h
    exact ⟨cs, rfl, rfl⟩
  | case2 => cases h
  | case3 n c cs hc ih =>
    obtain ⟨vs, hvs, rfl⟩ := Option.map_eq_some_iff.mp h
    obtain ⟨ds, rfl, hlength⟩ := ih hvs
    exact ⟨ds, rfl, by simp only [byteLength]; omega⟩
  | case4 => cases h

theorem slice?_eq_some {start stop : Nat} {cs ds : List Char} :
    slice? start stop cs = some ds ↔
      ∃ us vs, cs = us ++ (ds ++ vs) ∧ byteLength us = start ∧ start + byteLength ds = stop := by
  constructor
  · intro h
    rw [slice?] at h
    split at h
    · obtain ⟨rest, hdrop, htake⟩ := Option.bind_eq_some_iff.mp h
      obtain ⟨us, rfl, hus⟩ := append_of_dropBytes? hdrop
      obtain ⟨vs, rfl, hds⟩ := append_of_takeBytes? htake
      exact ⟨us, vs, rfl, hus, by omega⟩
    · cases h
  · rintro ⟨us, vs, rfl, rfl, rfl⟩
    exact slice?_append us ds vs

/-- Two slices of a text, of which one ends after the other begins, lie in a slice from the begin of
the one to the end of the other. -/
theorem slice?_join {a b c d : Nat} {cs ds es : List Char} (h : slice? a b cs = some ds)
    (h' : slice? c d cs = some es) (hlt : a < d) : ∃ fs, slice? a d cs = some fs ∧ fs ≠ [] := by
  obtain ⟨us, vs, rfl, rfl, rfl⟩ := slice?_eq_some.mp h
  obtain ⟨us', vs', hcs, rfl, rfl⟩ := slice?_eq_some.mp h'
  rw [← List.append_assoc us', List.append_eq_append_iff] at hcs
  obtain ⟨fs, hus, hds⟩ | ⟨fs, rfl, -⟩ := hcs
  · have hlength := congrArg byteLength hus
    rw [byteLength_append, byteLength_append] at hlength
    refine ⟨fs, ?_, ?_⟩
    · rw [hlength, hds]
      exact slice?_append us fs vs'
    · rintro rfl
      rw [byteLength] at hlength
      omega
  · rw [byteLength_append, byteLength_append] at hlt
    omega

end EntropyGame.Text
