import EntropyGame.Json.Map
import EntropyGame.Proofs.Json.Text

namespace EntropyGame.Json

variable {α β : Type} {depth : Nat}

/-- The fields of an object are found by name if no name stands twice. -/
theorem record?_object {fields : List (String × Json)} (h : (fields.map Prod.fst).Nodup)
    (names : List String) :
    record? names (.object fields) = some fun name => lookup name fields := by
  refine if_pos (List.all_eq_true.mpr fun name _ => decide_eq_true ?_)
  have hc : (fields.filter (·.1 = name)).length = (fields.map Prod.fst).count name := by
    rw [← List.countP_eq_length_filter, List.count, List.countP_map]
    rfl
  rw [hc]
  exact List.nodup_iff_count.mp h name

theorem lookup_eq_find (name : String) (fields : List (String × Json)) :
    lookup name fields = OrderedMap.find name fields := by
  induction fields with
  | nil => rfl
  | cons f fields ih => rw [lookup, OrderedMap.find, ih]

/-- Reading a record goes on with all its fields. -/
theorem bind_record? {fields : List (String × Json)} {names : List String}
    {f : (String → Option Json) → Option α} {a : α} (h : (fields.map Prod.fst).Nodup)
    (hf : ∀ field, (∀ e ∈ fields, field e.1 = some e.2) → f field = some a) :
    (record? names (.object fields) >>= f) = some a := by
  refine bind_of_some (record?_object h names) (hf _ fun e he => ?_)
  rw [lookup_eq_find]
  exact OrderedMap.find_of_mem h he

theorem orDefault_some {default a : α} {value : Json → Option α} {field : Option Json} {j : Json}
    (h : field = some j) (hj : value j = some a) : orDefault default value field = some a := by
  rw [h, orDefault, hj]

theorem toNat?_nat {bound n : Nat} (h : n < bound) : toNat? bound (nat n) = some n := by
  simp [toNat?, nat, h]

theorem toFloat?_number {x : Float} (h : x.isFinite = true) : toFloat? (number x) = some x := by
  simp [toFloat?, number, h]

theorem toList?_map {write : α → Json} {read? : Json → Option α} {xs : List α}
    (h : ∀ x ∈ xs, read? (write x) = some x) : toList? read? (.array (xs.map write)) = some xs :=
  mapM_map h

/-- A map keeps its entries and their order if its keys and values read back. -/
theorem toMap?_ofMap [DecidableEq α] {name : α → String} {key? : String → Option α}
    {write : β → Json} {read? : Json → Option β} {m : OrderedMap α β}
    (hk : ∀ e ∈ m.entries, key? (name e.1) = some e.1)
    (hv : ∀ e ∈ m.entries, read? (write e.2) = some e.2) :
    (ofMap name write m).toMap? key? read? = some m := by
  have he : (m.entries.map fun e => (name e.1, write e.2)).mapM (toPair? key? read?) =
      some m.entries := by
    refine mapM_map fun e he => ?_
    rw [toPair?, hk e he, hv e he]
    rfl
  simp [toMap?, ofMap, toFields?, he, OrderedMap.ofList_entries]

theorem toCounts?_ofMap {read? : Json → Option Nat} {m : OrderedMap Nat Nat}
    (hk : ∀ e ∈ m.entries, e.1 < word) (hv : ∀ e ∈ m.entries, read? (nat e.2) = some e.2) :
    toCounts? read? (ofMap toString nat m) = some m :=
  toMap?_ofMap (fun e he => nameNat?_toString (hk e he)) hv

theorem Readable.mono {less : Nat} {j : Json} (h : Readable less j) (hle : less ≤ depth) :
    Readable depth j := by
  induction h generalizing depth with
  | null => exact .null
  | bool b => exact .bool b
  | int h0 hn => exact .int h0 hn
  | float hx => exact .float hx
  | string s => exact .string s
  | array _ ih =>
    obtain ⟨depth, rfl⟩ := Nat.exists_eq_add_of_lt hle
    exact .array fun item hi => ih item hi (by omega)
  | object _ ih =>
    obtain ⟨depth, rfl⟩ := Nat.exists_eq_add_of_lt hle
    exact .object fun f hf => ih f hf (by omega)

theorem readable_nat {n : Nat} (h : n < word) : Readable depth (nat n) :=
  .int (Int.natCast_nonneg n) (by simp only [word] at h; omega)

theorem readable_number {x : Float} (h : ReadsBack x) : Readable depth (number x) := by
  rw [number, if_pos h.isFinite]
  exact .float h

theorem readable_map {write : α → Json} {xs : List α} (h : ∀ x ∈ xs, Readable depth (write x)) :
    Readable (depth + 1) (.array (xs.map write)) := by
  refine .array fun item hi => ?_
  obtain ⟨x, hx, rfl⟩ := List.mem_map.mp hi
  exact h x hx

theorem readable_ofMap {name : α → String} {write : β → Json} {m : OrderedMap α β}
    (h : ∀ e ∈ m.entries, Readable depth (write e.2)) :
    Readable (depth + 1) (ofMap name write m) := by
  refine .object fun f hf => ?_
  obtain ⟨e, he, rfl⟩ := List.mem_map.mp hf
  exact h e he

theorem areSound_of_forall {items : List Json} (h : ∀ item ∈ items, isSound item = true) :
    areSound items = true := by
  induction items with
  | nil => rfl
  | cons item items ih =>
    rw [areSound, h item List.mem_cons_self, ih fun i hi => h i (List.mem_cons_of_mem _ hi)]
    rfl

theorem haveSoundValues_of_forall {fields : List (String × Json)}
    (h : ∀ f ∈ fields, isSound f.2 = true) : haveSoundValues fields = true := by
  induction fields with
  | nil => rfl
  | cons f fields ih =>
    rw [haveSoundValues, h f List.mem_cons_self, ih fun f hf => h f (List.mem_cons_of_mem _ hf)]
    rfl

theorem Readable.isSound {j : Json} (h : Readable depth j) : j.isSound = true := by
  induction h with
  | array _ ih => exact areSound_of_forall ih
  | object _ ih => exact haveSoundValues_of_forall ih
  | _ => rfl

end EntropyGame.Json
