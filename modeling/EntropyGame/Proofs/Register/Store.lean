import EntropyGame.Register.Store

namespace EntropyGame

namespace Register

theorem mem_all (r : Register) : r ∈ all := by
  obtain ⟨f, i⟩ := r
  cases f <;> (revert i; decide)

theorem kind_eq_list {r : Register} : r.kind = .list ↔ r.isList = true := by
  rw [kind]
  split <;> simp [*]

theorem isList_of_isStatic {r : Register} (h : r.isStatic = true) : r.isList = false := by
  obtain ⟨f, i⟩ := r
  cases f <;> first | rfl | cases h

end Register

namespace Registers

/-- All registers are there in catalogue order, and each holds a value of its kind. -/
structure Typed (rs : Registers) : Prop where
  keys : rs.keys = Register.all
  kind : ∀ e ∈ rs.entries, e.2.kind = e.1.kind

theorem Typed.isSome_get? {rs : Registers} (h : rs.Typed) (r : Register) :
    (rs.get? r).isSome = true := by
  rw [OrderedMap.isSome_get?, h.keys]
  exact r.mem_all

theorem Typed.get?_ne_none {rs : Registers} (h : rs.Typed) (r : Register) : rs.get? r ≠ none := by
  have hsome := h.isSome_get? r
  rintro hnone
  rw [hnone] at hsome
  cases hsome

theorem initial_kind (presets : OrderedMap String String) (r : Register) :
    (initial presets r).kind = r.kind := by
  unfold initial
  split
  · rename_i h
    exact (Register.kind_eq_list.mpr h).symm
  · rename_i h
    simp [Register.kind, h, Value.ofText, Value.kind]

theorem entries_ofPresets (presets : OrderedMap String String) :
    (ofPresets presets).entries = Register.all.map fun r => (r, initial presets r) :=
  OrderedMap.entries_ofList (by
    rw [List.map_map, show Prod.fst ∘ _ = id from rfl, List.map_id]
    decide)

theorem get?_ofPresets (presets : OrderedMap String String) (r : Register) :
    (ofPresets presets).get? r = some (initial presets r) := by
  refine OrderedMap.get?_of_mem (e := (r, initial presets r)) ?_
  rw [entries_ofPresets]
  exact List.mem_map_of_mem r.mem_all

theorem initial_of_isStatic {r : Register} (presets : OrderedMap String String)
    (h : r.isStatic = true) : initial presets r = .ofText ((presets.get? r.name).getD "") := by
  simp [initial, Register.isList_of_isStatic h, h]

theorem ofPresets_typed (presets : OrderedMap String String) : (ofPresets presets).Typed where
  keys := by
    rw [OrderedMap.keys, entries_ofPresets, List.map_map, show Prod.fst ∘ _ = id from rfl,
      List.map_id]
  kind e he := by
    rw [entries_ofPresets, List.mem_map] at he
    obtain ⟨r, _, rfl⟩ := he
    exact initial_kind presets r

/-- What a write succeeds with. -/
theorem set_ok {rs rs' : Registers} {r : Register} {v : Value} (h : rs.set r v = .ok rs') :
    rs' = rs.insert r v ∧ r.isStatic = false ∧ v.kind = r.kind := by
  unfold set at h
  split at h
  · cases h
  · rename_i hs
    split at h
    · cases h
    · rename_i hk
      cases h
      exact ⟨rfl, by simpa using hs, by simpa using hk⟩

/-- A write that is allowed is made. -/
theorem set_of_kind {rs : Registers} {r : Register} {v : Value} (hs : r.isStatic = false)
    (hk : v.kind = r.kind) : rs.set r v = .ok (rs.insert r v) := by
  simp [set, hs, hk]

/-- A write changes nothing but its register, which is not static. -/
theorem set_changed {rs rs' : Registers} {r q : Register} {v : Value} (h : rs.set r v = .ok rs')
    (hq : rs'.get? q ≠ rs.get? q) : q = r ∧ q.isStatic = false := by
  obtain ⟨rfl, hs, _⟩ := set_ok h
  rw [OrderedMap.get?_insert] at hq
  split at hq
  · rename_i he
    exact ⟨he, he ▸ hs⟩
  · exact absurd rfl hq

theorem set_typed {rs rs' : Registers} {r : Register} {v : Value} (h : rs.Typed)
    (hs : rs.set r v = .ok rs') : rs'.Typed := by
  obtain ⟨rfl, _, hk⟩ := set_ok hs
  constructor
  · rw [OrderedMap.keys_insert_of_mem, h.keys]
    rw [h.keys]
    exact r.mem_all
  · intro e he
    obtain rfl | he := OrderedMap.mem_insert he
    · exact hk
    · exact h.kind e he

theorem resetLists_typed {rs : Registers} (h : rs.Typed) : rs.resetLists.Typed where
  keys := by rw [resetLists, OrderedMap.keys_mapWithKey, h.keys]
  kind e he := by
    obtain ⟨⟨r, v⟩, hmem, rfl⟩ := List.mem_map.mp he
    show (if r.isList then Value.list [] else v).kind = r.kind
    split
    · rename_i hl
      exact (Register.kind_eq_list.mpr hl).symm
    · exact h.kind _ hmem

theorem get?_resetLists_of_isList {rs : Registers} (h : rs.Typed) {r : Register}
    (hr : r.isList = true) : rs.resetLists.get? r = some (.list []) := by
  obtain ⟨v, hv⟩ := Option.isSome_iff_exists.mp (h.isSome_get? r)
  rw [resetLists, OrderedMap.get?_mapWithKey, hv, Option.map_some, if_pos hr]

theorem get?_resetLists_of_not_isList (rs : Registers) {r : Register} (hr : r.isList = false) :
    rs.resetLists.get? r = rs.get? r := by
  rw [resetLists, OrderedMap.get?_mapWithKey]
  cases rs.get? r with
  | none => rfl
  | some v => simp [hr]

/-- Stores with the same registers are the same without their lists if all else is. -/
theorem resetLists_congr {rs rs' : Registers} (hkeys : rs'.keys = rs.keys)
    (hscalars : ∀ r : Register, r.isList = false → rs'.get? r = rs.get? r) :
    rs'.resetLists = rs.resetLists := by
  refine OrderedMap.ext_get? ?_ fun r => ?_
  · rw [resetLists, resetLists, OrderedMap.keys_mapWithKey, OrderedMap.keys_mapWithKey, hkeys]
  · cases hr : r.isList with
    | false =>
      rw [get?_resetLists_of_not_isList rs' hr, get?_resetLists_of_not_isList rs hr, hscalars r hr]
    | true =>
      have hsome : (rs'.get? r).isSome = (rs.get? r).isSome := by
        rw [Bool.eq_iff_iff, OrderedMap.isSome_get?, OrderedMap.isSome_get?, hkeys]
      rw [resetLists, resetLists, OrderedMap.get?_mapWithKey, OrderedMap.get?_mapWithKey]
      cases h : rs.get? r <;> cases h' : rs'.get? r <;> simp_all

end Registers

end EntropyGame
