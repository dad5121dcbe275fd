import EntropyGame.Proofs.Json.Record
import EntropyGame.Value.Codec

namespace EntropyGame

open Json

/-- The doubles of a value. -/
def Value.floats : Value → List Float
  | costs v => v.factor :: v.costs
  | number x => [x]
  | _ => []

theorem Phrase.ofJson?_toJson (p : Phrase) : Phrase.ofJson? p.toJson = some p := by
  obtain ⟨primary, decoration⟩ := p
  -- an empty decoration is left out, and a missing one is read as empty
  by_cases hd : decoration = ""
  · simp -implicitDefEqProofs [toJson, ofJson?, isDecorated, hd, record?_object, toText?, lookup,
      orDefault]
  · have hj : toJson ⟨primary, decoration⟩ =
        .object [("primary", .string primary), ("prefix", .string decoration)] := by
      simp [toJson, isDecorated, hd]
    rw [hj]
    refine bind_record? (by simp) fun field hfield => ?_
    simp only [List.forall_mem_cons] at hfield
    obtain ⟨hp, hd, -⟩ := hfield
    refine bind_of_some hp (bind_of_some rfl (bind_of_some ?_ rfl))
    rw [hd]
    rfl

theorem Phrase.readable_toJson (p : Phrase) : Readable 1 p.toJson := by
  rw [toJson]
  split
  · exact .object (by simp [Readable.string])
  · exact .object (by simp [Readable.string])

theorem Verdict.ofJson?_toJson (v : Verdict) : Verdict.ofJson? v.toJson = some v := by
  refine bind_record? (by simp) fun field hfield => ?_
  simp only [List.forall_mem_cons] at hfield
  obtain ⟨hv, ht, -⟩ := hfield
  exact bind_of_some hv (bind_of_some rfl (bind_of_some ht (bind_of_some rfl rfl)))

theorem Verdict.readable_toJson (v : Verdict) : Readable 1 v.toJson :=
  .object (by simp [Readable.bool, Readable.string])

theorem costPairOfJson?_costPairToJson {p : String × Float} (h : p.2.isFinite = true) :
    costPairOfJson? (costPairToJson p) = some p := by
  simp [costPairOfJson?, costPairToJson, toText?, toFloat?_number h]

theorem readable_costPairToJson {p : String × Float} (h : ReadsBack p.2) :
    Readable 1 (costPairToJson p) :=
  .array (by simp [Readable.string, readable_number h])

namespace CostVector

variable {v : CostVector Float}

theorem ofJson?_toJson (hf : v.factor.isFinite = true) (hc : ∀ x ∈ v.costs, x.isFinite = true) :
    ofJson? v.toJson = some v := by
  have hp : toList? costPairOfJson? (.array (v.pairs.map costPairToJson)) = some v.pairs :=
    toList?_map fun p hp => costPairOfJson?_costPairToJson (hc p.2 (List.mem_map_of_mem hp))
  refine bind_record? (by simp) fun field hfield => ?_
  simp only [List.forall_mem_cons] at hfield
  obtain ⟨hpairs, hscale, -⟩ := hfield
  exact bind_of_some hpairs (bind_of_some hp
    (bind_of_some hscale (bind_of_some (toFloat?_number hf) rfl)))

theorem readable_toJson (hf : ReadsBack v.factor) (hc : ∀ x ∈ v.costs, ReadsBack x) :
    Readable 3 v.toJson := by
  have hp : Readable 2 (.array (v.pairs.map costPairToJson)) :=
    readable_map fun p hp => readable_costPairToJson (hc p.2 (List.mem_map_of_mem hp))
  exact .object (by simp [hp, readable_number hf])

end CostVector

namespace Value

variable {v : Value}

/-- A content reads back under the name of its kind, kept whole or not. -/
theorem decode?_tagged {kind : String} {content : Json} (h : ofContent? content kind = some v)
    (kept : Bool) : decode? kept (tagged kind content) = some v := by
  have hfirst : isContentFirst (tagged kind content) = false := by
    simp [isContentFirst, tagged, toFields?]
  have hguard : (!isContentFirst (tagged kind content) || content.isSound) = true := by
    rw [hfirst]
    rfl
  refine bind_record? (by simp) fun field hfield => ?_
  simp only [List.forall_mem_cons] at hfield
  obtain ⟨hkind, hvalue, -⟩ := hfield
  exact bind_of_some hvalue (bind_of_some (if_pos hguard)
    (bind_of_some hkind (bind_of_some rfl h)))

theorem decode?_toJson (h : ∀ x ∈ v.floats, x.isFinite = true) (kept : Bool) :
    decode? kept v.toJson = some v := by
  cases v with
  | phrase p => exact decode?_tagged (by simp [ofContent?, Phrase.ofJson?_toJson]) kept
  | list ps =>
    have hps : toList? Phrase.ofJson? (.array (ps.map Phrase.toJson)) = some ps :=
      toList?_map fun p _ => Phrase.ofJson?_toJson p
    exact decode?_tagged (by simp [ofContent?, hps]) kept
  | costs v =>
    have hv : CostVector.ofJson? v.toJson = some v :=
      CostVector.ofJson?_toJson (h _ List.mem_cons_self)
        fun x hx => h x (List.mem_cons_of_mem _ hx)
    exact decode?_tagged (by simp [ofContent?, hv]) kept
  | verdict v => exact decode?_tagged (by simp [ofContent?, Verdict.ofJson?_toJson]) kept
  | number x =>
    have hx : toFloat? (.number x) = some x := toFloat?_number (h x List.mem_cons_self)
    exact decode?_tagged (by simp [ofContent?, hx]) kept
  | bool b => exact decode?_tagged (by simp [ofContent?, toBool?]) kept

theorem readable_tagged {depth : Nat} {kind : String} {content : Json}
    (h : Readable depth content) : Readable (depth + 1) (tagged kind content) :=
  .object (by simp [Readable.string, h])

theorem readable_toJson (h : ∀ x ∈ v.floats, ReadsBack x) : Readable 4 v.toJson := by
  cases v with
  | phrase p => exact readable_tagged (p.readable_toJson.mono (by decide))
  | list ps =>
    exact readable_tagged (readable_map fun p _ => p.readable_toJson.mono (by decide))
  | costs v =>
    exact readable_tagged (CostVector.readable_toJson (h _ List.mem_cons_self)
      fun x hx => h x (List.mem_cons_of_mem _ hx))
  | verdict v => exact readable_tagged (v.readable_toJson.mono (by decide))
  | number x => exact readable_tagged (readable_number (h x List.mem_cons_self))
  | bool b => exact readable_tagged (.bool b)

end Value

end EntropyGame
