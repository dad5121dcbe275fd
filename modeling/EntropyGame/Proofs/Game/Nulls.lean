import EntropyGame.Proofs.Game.Codec
import EntropyGame.Proofs.Json.Nulls

namespace EntropyGame

open Json

theorem Phrase.nulls_toJson (p : Phrase) : p.toJson.nulls = 0 := by
  refine nulls_object fun f hf => ?_
  by_cases hd : p.isDecorated = true
  · simp only [hd, reduceIte, List.mem_cons, List.not_mem_nil, or_false] at hf
    obtain rfl | rfl := hf <;> rfl
  · simp only [hd, Bool.false_eq_true, reduceIte, List.mem_cons, List.not_mem_nil, or_false] at hf
    obtain rfl := hf
    rfl

theorem Verdict.nulls_toJson (v : Verdict) : v.toJson.nulls = 0 :=
  nulls_object (by simp)

theorem costPairToJson_nulls {p : String × Float} (h : p.2.isFinite = true) :
    (costPairToJson p).nulls = 0 := by
  simp [costPairToJson, nulls, nullsOfItems, nulls_number h]

theorem CostVector.nulls_toJson {v : CostVector Float} (hf : v.factor.isFinite = true)
    (hc : ∀ x ∈ v.costs, x.isFinite = true) : v.toJson.nulls = 0 := by
  have hpairs : (Json.array (v.pairs.map costPairToJson)).nulls = 0 :=
    nulls_array fun p hp => costPairToJson_nulls (hc p.2 (List.mem_map_of_mem hp))
  exact nulls_object (by simp [hpairs, nulls_number hf])

namespace Value

theorem nulls_tagged {kind : String} {content : Json} (h : content.nulls = 0) :
    (tagged kind content).nulls = 0 :=
  nulls_object (by simp [h])

theorem nulls_toJson {v : Value} (h : ∀ x ∈ v.floats, x.isFinite = true) : v.toJson.nulls = 0 := by
  cases v with
  | phrase p => exact nulls_tagged p.nulls_toJson
  | list ps => exact nulls_tagged (nulls_array fun p _ => p.nulls_toJson)
  | costs v =>
    obtain ⟨hf, hc⟩ := List.forall_mem_cons.mp h
    exact nulls_tagged (CostVector.nulls_toJson hf hc)
  | verdict v => exact nulls_tagged v.nulls_toJson
  | number x => exact nulls_tagged (nulls_number (h x List.mem_cons_self))
  | bool b => exact nulls_tagged rfl

end Value

theorem Event.nulls_toJson {e : Event} (h : ∀ x ∈ e.floats, x.isFinite = true) :
    e.toJson.nulls = 0 := by
  refine nulls_object (List.forall_mem_cons.mpr ⟨rfl, ?_⟩)
  cases e with
  | roundStarted round => simp [fields]
  | elicitRequest line register maxLength => simp [fields]
  | elicitResponse line register response => simp [fields, response.nulls_toJson]
  | reveal line values =>
    have hv : (Json.array (values.map Value.toJson)).nulls = 0 :=
      nulls_array fun v hv => Value.nulls_toJson fun x hx => h x (List.mem_flatMap.mpr ⟨v, hv, hx⟩)
    simp [fields, hv]
  | reward line value score =>
    obtain ⟨hscore, hvalue⟩ := List.forall_mem_cons.mp h
    simp [fields, nulls_number hscore, Value.nulls_toJson hvalue]
  | failedEnsure line results retryLine attempt =>
    have hb : (Json.array (results.map Json.bool)).nulls = 0 := nulls_array fun _ _ => nulls_bool _
    simp [fields, hb]
  | roundFinished round score =>
    simp [fields, nulls_number (h score List.mem_cons_self)]

theorem Usage.nulls_toJson (u : Usage) : u.toJson.nulls = 0 :=
  rfl

theorem nulls_historyToJson {history : Array Event}
    (h : ∀ x ∈ historyFloats history, x.isFinite = true) : (historyToJson history).nulls = 0 :=
  nulls_array fun e he => Event.nulls_toJson fun x hx => h x (List.mem_flatMap.mpr ⟨e, he, hx⟩)

theorem RoundResult.nulls_toJson {r : RoundResult} (h : ∀ x ∈ r.floats, x.isFinite = true) :
    r.toJson.nulls = 0 := by
  obtain ⟨hscore, hhistory⟩ := List.forall_mem_cons.mp h
  exact nulls_object (by
    simp [nulls_number hscore, r.usage.nulls_toJson, nulls_historyToJson hhistory])

theorem nulls_roundsToJson {rounds : Array RoundResult}
    (h : ∀ x ∈ roundsFloats rounds, x.isFinite = true) : (roundsToJson rounds).nulls = 0 :=
  nulls_array fun r hr => RoundResult.nulls_toJson fun x hx =>
    h x (List.mem_flatMap.mpr ⟨r, hr, hx⟩)

theorem Registers.nulls_toJson {rs : Registers}
    (h : ∀ x ∈ rs.entries.flatMap (·.2.floats), x.isFinite = true) : rs.toJson.nulls = 0 := by
  have hm : (ofMap Register.name Value.toJson rs).nulls = 0 :=
    nulls_ofMap fun e he => Value.nulls_toJson fun x hx => h x (List.mem_flatMap.mpr ⟨e, he, hx⟩)
  exact nulls_object (by simp [hm])

/-- A state without a request in progress says so. -/
theorem State.nulls_toJson {s : State} (h : ∀ x ∈ s.floats, x.isFinite = true) :
    s.toJson.nulls = if s.pending.isNone then 1 else 0 := by
  obtain ⟨hround, h⟩ := List.forall_mem_cons.mp h
  obtain ⟨htotal, h⟩ := List.forall_mem_cons.mp h
  have hregisters : s.registers.toJson.nulls = 0 :=
    Registers.nulls_toJson fun x hx => h x (by simp [hx])
  have hhistory : (historyToJson s.history).nulls = 0 :=
    nulls_historyToJson fun x hx => h x (by simp [hx])
  have hcompleted : (roundsToJson s.completed).nulls = 0 :=
    nulls_roundsToJson fun x hx => h x (by simp [hx])
  have hbeacons : (ofMap id nat s.beacons).nulls = 0 := nulls_ofMap fun _ _ => nulls_nat _
  have hreplay : (ofMap toString nat s.replayCounters).nulls = 0 :=
    nulls_ofMap fun _ _ => nulls_nat _
  have hensure : (ofMap toString nat s.ensureFailures).nulls = 0 :=
    nulls_ofMap fun _ _ => nulls_nat _
  have hpending : (pendingToJson s.pending).nulls = if s.pending.isNone then 1 else 0 := by
    cases s.pending <;> rfl
  simp only [toJson, nulls, nullsOfFields, hregisters, hbeacons, hreplay, hensure, nulls_nat,
    nulls_number hround, nulls_number htotal, Usage.nulls_toJson, hpending, hhistory, hcompleted,
    Nat.zero_add, Nat.add_zero]

theorem GameConfig.nulls_toJson (c : GameConfig) : c.toJson.nulls = 0 := by
  have hpresets : (ofMap id Json.string c.presets).nulls = 0 := nulls_ofMap fun _ _ => nulls_string _
  exact nulls_object (by simp [hpresets])

namespace Checkpoint

/-- How many nulls the text of a checkpoint shows: as many as there are letters of that kind
outside of its strings. -/
def shownNulls (c : Checkpoint) : Nat :=
  (unquoted false c.write.toList).count 'n'

theorem shownNulls_results {rounds : Array RoundResult}
    (h : ∀ x ∈ roundsFloats rounds, x.isFinite = true) : (results rounds).shownNulls = 0 := by
  rw [shownNulls, write, count_unquoted_toPretty]
  exact nulls_object (by simp [nulls_roundsToJson h])

theorem shownNulls_state {saved : SavedGame} (h : ∀ x ∈ saved.state.floats, x.isFinite = true) :
    (state saved).shownNulls = if saved.state.pending.isNone then 1 else 0 := by
  have hjudge : saved.judge.toJson.nulls = 0 := rfl
  rw [shownNulls, write, count_unquoted_toPretty]
  simp only [toJson, SavedGame.toJson, nulls, nullsOfFields, saved.config.nulls_toJson,
    State.nulls_toJson h, hjudge, Nat.zero_add, Nat.add_zero]

end Checkpoint

end EntropyGame
