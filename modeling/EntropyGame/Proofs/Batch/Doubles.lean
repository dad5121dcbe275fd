import EntropyGame.Proofs.Batch.Run
import EntropyGame.Proofs.Game.Doubles
import EntropyGame.Proofs.Json.Bounded
import EntropyGame.Proofs.Json.Doubles

namespace EntropyGame

open Json

theorem yields_costPairOfJson? : Yields costPairOfJson? fun p => p.2.isFinite = true := by
  intro j p hj h
  unfold costPairOfJson? at h
  split at h
  · obtain ⟨token, -, h⟩ := Option.bind_eq_some_iff.mp h
    obtain ⟨cost, hcost, h⟩ := Option.bind_eq_some_iff.mp h
    cases h
    cases hj with
    | array hall => exact yields_toFloat? (hall _ (by simp)) hcost
  · cases h

theorem CostVector.yields_ofJson? : Yields CostVector.ofJson? fun v =>
    ∀ x ∈ v.factor :: v.costs, x.isFinite = true := by
  intro j v hj h
  obtain ⟨field, hfield, h⟩ := Option.bind_eq_some_iff.mp h
  obtain ⟨pairsField, hpairsField, h⟩ := Option.bind_eq_some_iff.mp h
  obtain ⟨pairs, hpairs, h⟩ := Option.bind_eq_some_iff.mp h
  obtain ⟨scaleField, hscaleField, h⟩ := Option.bind_eq_some_iff.mp h
  obtain ⟨scale, hscale, h⟩ := Option.bind_eq_some_iff.mp h
  cases h
  refine List.forall_mem_cons.mpr ⟨?_, ?_⟩
  · exact yields_toFloat? (bounded_record? hj hfield hscaleField) hscale
  · intro x hx
    obtain ⟨p, hp, rfl⟩ := List.mem_map.mp hx
    exact yields_toList? yields_costPairOfJson? (bounded_record? hj hfield hpairsField) hpairs p hp

namespace Value

theorem floats_of_ofContent? {content : Json} {kind : String} {v : Value} (hc : content.Bounded)
    (h : ofContent? content kind = some v) : ∀ x ∈ v.floats, x.isFinite = true := by
  unfold ofContent? at h
  split at h
  · obtain ⟨p, -, rfl⟩ := Option.map_eq_some_iff.mp h
    exact fun x hx => absurd hx List.not_mem_nil
  · obtain ⟨ps, -, rfl⟩ := Option.map_eq_some_iff.mp h
    exact fun x hx => absurd hx List.not_mem_nil
  · obtain ⟨v, hv, rfl⟩ := Option.map_eq_some_iff.mp h
    exact CostVector.yields_ofJson? hc hv
  · obtain ⟨v, -, rfl⟩ := Option.map_eq_some_iff.mp h
    exact fun x hx => absurd hx List.not_mem_nil
  · obtain ⟨x, hx, rfl⟩ := Option.map_eq_some_iff.mp h
    exact List.forall_mem_singleton.mpr (yields_toFloat? hc hx)
  · obtain ⟨b, -, rfl⟩ := Option.map_eq_some_iff.mp h
    exact fun x hx => absurd hx List.not_mem_nil
  · cases h

theorem yields_decode? (kept : Bool) :
    Yields (decode? kept) fun v => ∀ x ∈ v.floats, x.isFinite = true := by
  intro j v hj h
  unfold decode? at h
  split at h
  · obtain ⟨kind, -, h⟩ := Option.bind_eq_some_iff.mp h
    cases hj with
    | array hall => exact floats_of_ofContent? (hall _ (by simp)) h
  · cases h
  · obtain ⟨field, hfield, h⟩ := Option.bind_eq_some_iff.mp h
    obtain ⟨content, hcontent, h⟩ := Option.bind_eq_some_iff.mp h
    obtain ⟨_, -, h⟩ := Option.bind_eq_some_iff.mp h
    obtain ⟨kindField, -, h⟩ := Option.bind_eq_some_iff.mp h
    obtain ⟨kind, -, h⟩ := Option.bind_eq_some_iff.mp h
    exact floats_of_ofContent? (bounded_record? hj hfield hcontent) h

end Value

namespace Event

theorem bounded_untag? {tag : String} {j kind body : Json} (hj : j.Bounded)
    (h : untag? tag j = some (kind, body)) : body.Bounded := by
  cases hj with
  | object hall | disguised hall =>
    rw [untag?] at h
    split at h
    · cases h
      exact .object fun f hf => hall f (List.mem_of_mem_filter hf)
    · cases h
  | @array items hall =>
    cases items with
    | nil => cases h
    | cons item items =>
      cases h
      exact .array fun i hi => hall i (List.mem_cons_of_mem _ hi)
  | _ => cases h

theorem yields_ofJson? : Yields Event.ofJson? Event.AllFinite := by
  intro j e hj h
  obtain ⟨⟨tag, body⟩, hbody, h⟩ := Option.bind_eq_some_iff.mp h
  have hbounded := bounded_untag? hj hbody
  obtain ⟨_, -, h⟩ := Option.bind_eq_some_iff.mp h
  obtain ⟨name, -, h⟩ := Option.bind_eq_some_iff.mp h
  split at h
  · obtain ⟨field, -, h⟩ := Option.bind_eq_some_iff.mp h
    obtain ⟨round, -, h⟩ := Option.bind_eq_some_iff.mp h
    cases h
    exact allFinite_of_floats rfl
  · obtain ⟨field, -, h⟩ := Option.bind_eq_some_iff.mp h
    obtain ⟨line, -, h⟩ := Option.bind_eq_some_iff.mp h
    obtain ⟨register, -, h⟩ := Option.bind_eq_some_iff.mp h
    obtain ⟨maxLength, -, h⟩ := Option.bind_eq_some_iff.mp h
    cases h
    exact allFinite_of_floats rfl
  · obtain ⟨field, -, h⟩ := Option.bind_eq_some_iff.mp h
    obtain ⟨line, -, h⟩ := Option.bind_eq_some_iff.mp h
    obtain ⟨register, -, h⟩ := Option.bind_eq_some_iff.mp h
    obtain ⟨response, -, h⟩ := Option.bind_eq_some_iff.mp h
    obtain ⟨phrase, -, h⟩ := Option.bind_eq_some_iff.mp h
    cases h
    exact allFinite_of_floats rfl
  · obtain ⟨field, hfield, h⟩ := Option.bind_eq_some_iff.mp h
    obtain ⟨line, -, h⟩ := Option.bind_eq_some_iff.mp h
    obtain ⟨valuesField, hvaluesField, h⟩ := Option.bind_eq_some_iff.mp h
    obtain ⟨values, hvalues, h⟩ := Option.bind_eq_some_iff.mp h
    cases h
    intro x hx
    obtain ⟨v, hv, hx⟩ := List.mem_flatMap.mp hx
    exact yields_toList? (Value.yields_decode? true)
      (bounded_record? hbounded hfield hvaluesField) hvalues v hv x hx
  · obtain ⟨field, hfield, h⟩ := Option.bind_eq_some_iff.mp h
    obtain ⟨line, -, h⟩ := Option.bind_eq_some_iff.mp h
    obtain ⟨valueField, hvalueField, h⟩ := Option.bind_eq_some_iff.mp h
    obtain ⟨value, hvalue, h⟩ := Option.bind_eq_some_iff.mp h
    obtain ⟨score, hscore, h⟩ := Option.bind_eq_some_iff.mp h
    obtain ⟨scoreField, hscoreField, hscore⟩ := Option.bind_eq_some_iff.mp hscore
    cases h
    refine List.forall_mem_cons.mpr ⟨?_, ?_⟩
    · exact yields_toFloat? (bounded_record? hbounded hfield hscoreField) hscore
    · exact Value.yields_decode? true (bounded_record? hbounded hfield hvalueField) hvalue
  · obtain ⟨field, -, h⟩ := Option.bind_eq_some_iff.mp h
    obtain ⟨line, -, h⟩ := Option.bind_eq_some_iff.mp h
    obtain ⟨resultsField, -, h⟩ := Option.bind_eq_some_iff.mp h
    obtain ⟨results, -, h⟩ := Option.bind_eq_some_iff.mp h
    obtain ⟨retryLine, -, h⟩ := Option.bind_eq_some_iff.mp h
    obtain ⟨attempt, -, h⟩ := Option.bind_eq_some_iff.mp h
    cases h
    exact allFinite_of_floats rfl
  · obtain ⟨field, hfield, h⟩ := Option.bind_eq_some_iff.mp h
    obtain ⟨round, -, h⟩ := Option.bind_eq_some_iff.mp h
    obtain ⟨score, hscore, h⟩ := Option.bind_eq_some_iff.mp h
    obtain ⟨scoreField, hscoreField, hscore⟩ := Option.bind_eq_some_iff.mp hscore
    cases h
    exact List.forall_mem_singleton.mpr
      (yields_toFloat? (bounded_record? hbounded hfield hscoreField) hscore)
  · cases h

end Event

theorem yields_historyOfJson? : Yields historyOfJson? fun history =>
    ∀ e ∈ history, e.AllFinite := by
  intro j history hj h
  obtain ⟨events, hevents, h⟩ := Option.bind_eq_some_iff.mp h
  cases h
  intro e he
  exact yields_toList? Event.yields_ofJson? hj hevents e (List.mem_toArray.mp he)

theorem RoundResult.yields_ofJson? : Yields RoundResult.ofJson? fun r =>
    r.score.isFinite = true ∧ ∀ e ∈ r.history, e.AllFinite := by
  intro j r hj h
  obtain ⟨field, hfield, h⟩ := Option.bind_eq_some_iff.mp h
  obtain ⟨_, -, h⟩ := Option.bind_eq_some_iff.mp h
  obtain ⟨round, -, h⟩ := Option.bind_eq_some_iff.mp h
  obtain ⟨_, hscoreField, h⟩ := Option.bind_eq_some_iff.mp h
  obtain ⟨score, hscore, h⟩ := Option.bind_eq_some_iff.mp h
  obtain ⟨_, -, h⟩ := Option.bind_eq_some_iff.mp h
  obtain ⟨usage, -, h⟩ := Option.bind_eq_some_iff.mp h
  obtain ⟨_, hhistoryField, h⟩ := Option.bind_eq_some_iff.mp h
  obtain ⟨history, hhistory, h⟩ := Option.bind_eq_some_iff.mp h
  cases h
  exact ⟨yields_toFloat? (bounded_record? hj hfield hscoreField) hscore,
    yields_historyOfJson? (bounded_record? hj hfield hhistoryField) hhistory⟩

theorem yields_roundsOfJson? : Yields roundsOfJson? fun rounds =>
    ∀ r ∈ rounds, r.score.isFinite = true ∧ ∀ e ∈ r.history, e.AllFinite := by
  intro j rounds hj h
  obtain ⟨results, hresults, h⟩ := Option.bind_eq_some_iff.mp h
  cases h
  intro r hr
  exact yields_toList? RoundResult.yields_ofJson? hj hresults r (List.mem_toArray.mp hr)

theorem Registers.yields_ofJson? : Yields Registers.ofJson? fun rs =>
    ∀ e ∈ rs.entries, ∀ x ∈ e.2.floats, x.isFinite = true := by
  intro j rs hj h
  obtain ⟨field, hfield, h⟩ := Option.bind_eq_some_iff.mp h
  obtain ⟨slots, hslots, h⟩ := Option.bind_eq_some_iff.mp h
  exact yields_toMap? (Value.yields_decode? false) (bounded_record? hj hfield hslots) h

theorem State.yields_ofJson? : Yields State.ofJson? State.AllFinite := by
  intro j s hj h
  obtain ⟨field, hfield, h⟩ := Option.bind_eq_some_iff.mp h
  obtain ⟨_, hregistersField, h⟩ := Option.bind_eq_some_iff.mp h
  obtain ⟨registers, hregisters, h⟩ := Option.bind_eq_some_iff.mp h
  obtain ⟨_, -, h⟩ := Option.bind_eq_some_iff.mp h
  obtain ⟨beacons, -, h⟩ := Option.bind_eq_some_iff.mp h
  obtain ⟨_, -, h⟩ := Option.bind_eq_some_iff.mp h
  obtain ⟨replays, -, h⟩ := Option.bind_eq_some_iff.mp h
  obtain ⟨_, -, h⟩ := Option.bind_eq_some_iff.mp h
  obtain ⟨failures, -, h⟩ := Option.bind_eq_some_iff.mp h
  obtain ⟨_, -, h⟩ := Option.bind_eq_some_iff.mp h
  obtain ⟨line, -, h⟩ := Option.bind_eq_some_iff.mp h
  obtain ⟨_, -, h⟩ := Option.bind_eq_some_iff.mp h
  obtain ⟨round, -, h⟩ := Option.bind_eq_some_iff.mp h
  obtain ⟨_, -, h⟩ := Option.bind_eq_some_iff.mp h
  obtain ⟨started, -, h⟩ := Option.bind_eq_some_iff.mp h
  obtain ⟨_, hroundField, h⟩ := Option.bind_eq_some_iff.mp h
  obtain ⟨roundScore, hround, h⟩ := Option.bind_eq_some_iff.mp h
  obtain ⟨_, htotalField, h⟩ := Option.bind_eq_some_iff.mp h
  obtain ⟨totalScore, htotal, h⟩ := Option.bind_eq_some_iff.mp h
  obtain ⟨_, -, h⟩ := Option.bind_eq_some_iff.mp h
  obtain ⟨usage, -, h⟩ := Option.bind_eq_some_iff.mp h
  obtain ⟨_, -, h⟩ := Option.bind_eq_some_iff.mp h
  obtain ⟨roundUsage, -, h⟩ := Option.bind_eq_some_iff.mp h
  obtain ⟨_, -, h⟩ := Option.bind_eq_some_iff.mp h
  obtain ⟨steps, -, h⟩ := Option.bind_eq_some_iff.mp h
  obtain ⟨pending, -, h⟩ := Option.bind_eq_some_iff.mp h
  obtain ⟨_, hhistoryField, h⟩ := Option.bind_eq_some_iff.mp h
  obtain ⟨history, hhistory, h⟩ := Option.bind_eq_some_iff.mp h
  obtain ⟨_, hcompletedField, h⟩ := Option.bind_eq_some_iff.mp h
  obtain ⟨completed, hcompleted, h⟩ := Option.bind_eq_some_iff.mp h
  cases h
  have hrounds := yields_roundsOfJson? (bounded_record? hj hfield hcompletedField) hcompleted
  exact {
    registers := Registers.yields_ofJson? (bounded_record? hj hfield hregistersField) hregisters
    history := yields_historyOfJson? (bounded_record? hj hfield hhistoryField) hhistory
    scores := fun r hr => (hrounds r hr).1
    histories := fun r hr => (hrounds r hr).2
    roundScore := yields_toFloat? (bounded_record? hj hfield hroundField) hround
    totalScore := yields_toFloat? (bounded_record? hj hfield htotalField) htotal }

theorem Checkpoint.yields_ofJson? : Yields Checkpoint.ofJson? fun c =>
    ∀ x ∈ c.floats, x.isFinite = true := by
  intro j c hj h
  unfold Checkpoint.ofJson? at h
  split at h
  · rename_i rounds
    cases hj with
    | object hall =>
      obtain ⟨results, hresults, rfl⟩ := Option.map_eq_some_iff.mp h
      have hrounds := yields_roundsOfJson? (hall _ List.mem_cons_self) hresults
      exact allFinite_rounds.mp ⟨fun r hr => (hrounds r hr).1, fun r hr => (hrounds r hr).2⟩
  · rename_i game
    cases hj with
    | object hall =>
      obtain ⟨saved, hsaved, rfl⟩ := Option.map_eq_some_iff.mp h
      obtain ⟨field, hfield, h⟩ := Option.bind_eq_some_iff.mp hsaved
      obtain ⟨_, -, h⟩ := Option.bind_eq_some_iff.mp h
      obtain ⟨program, -, h⟩ := Option.bind_eq_some_iff.mp h
      obtain ⟨_, -, h⟩ := Option.bind_eq_some_iff.mp h
      obtain ⟨config, -, h⟩ := Option.bind_eq_some_iff.mp h
      obtain ⟨_, hstateField, h⟩ := Option.bind_eq_some_iff.mp h
      obtain ⟨state, hstate, h⟩ := Option.bind_eq_some_iff.mp h
      obtain ⟨_, -, h⟩ := Option.bind_eq_some_iff.mp h
      obtain ⟨judge, -, h⟩ := Option.bind_eq_some_iff.mp h
      cases h
      exact State.allFinite_iff.mp (State.yields_ofJson?
        (bounded_record? (hall _ List.mem_cons_self) hfield hstateField) hstate)
  · cases h

namespace UnitRecord

theorem yields_ofJson? : Yields UnitRecord.ofJson? fun r => ∀ x ∈ r.floats, x.isFinite = true := by
  intro j r hj h
  simp only [UnitRecord.ofJson?, Option.bind_eq_bind, Option.bind_eq_some_iff] at h
  obtain ⟨field, hfield, _, -, game, -, _, -, player, -, _, -, seed, -, _, htotalField, total, htotal,
    _, -, usage, -, _, hcheckpointField, checkpoint, hcheckpoint, h⟩ := h
  cases h
  exact List.forall_mem_cons.mpr ⟨yields_toFloat? (bounded_record? hj hfield htotalField) htotal,
    Checkpoint.yields_ofJson? (bounded_record? hj hfield hcheckpointField) hcheckpoint⟩

/-- The doubles of a record that is read are finite. -/
theorem isFinite_of_read? {text : String} {r : UnitRecord} (h : read? text = some r) :
    ∀ x ∈ r.floats, x.isFinite = true := by
  obtain ⟨j, hj, h⟩ := Option.bind_eq_some_iff.mp h
  exact yields_ofJson? (bounded_ofText? hj) h

end UnitRecord

/-- The doubles of a record in a file are finite. -/
theorem Store.isFinite_of_recordOf {path : String} {c : Content} {r : UnitRecord}
    (h : recordOf path c = .ok (some r)) : ∀ x ∈ r.floats, x.isFinite = true := by
  cases c with
  | missing fault => cases h
  | unreadable fault => cases h
  | text text =>
    rw [recordOf] at h
    split at h
    · cases h
    · rename_i hread
      cases h
      exact UnitRecord.isFinite_of_read? hread

namespace Batch

variable {σ : Type} {b : Batch σ} {u : WorkUnit} {stored : Option UnitRecord}

/-- A game that is new or goes on from finite doubles has finite doubles. -/
theorem start_allFinite {g : Game} {s : State} (h : b.start u stored = .ok (g, s))
    (hstored : ∀ r ∈ stored, ∀ x ∈ r.floats, x.isFinite = true) : g.IsLoaded ∧ s.AllFinite := by
  unfold start at h
  split at h
  · rename_i saved
    obtain ⟨hp, hconfig, -, rfl, -⟩ := SavedGame.resume_ok (mapError_ok h)
    refine ⟨?_, State.allFinite_iff.mpr fun x hx => hstored _ rfl x (List.mem_cons_of_mem _ hx)⟩
    rw [Game.IsLoaded, hconfig, (Program.load_ok hp).1, hp]
  · obtain ⟨judge, -, h⟩ := bind_ok h
    obtain ⟨g', hg', h⟩ := bind_ok h
    cases h
    exact ⟨(Game.load_ok (mapError_ok hg')).1, g.initial_allFinite⟩

theorem play_floats {g : Game} {s : State} {r : UnitRecord} {status : UnitStatus}
    (h : b.play u g s = .ok (r, status)) (hg : g.IsLoaded) (hs : s.AllFinite) :
    ∀ x ∈ r.floats, x.isFinite = true := by
  obtain ⟨memory, t, ⟨hrun, rfl, -⟩ | ⟨hrun, rfl, -⟩⟩ := play_ok h
  · have hend : t.state.AllFinite := g.run_allFinite hg hrun (by simp) hs
    exact List.forall_mem_cons.mpr
      ⟨hend.totalScore, allFinite_rounds.mp ⟨hend.scores, hend.histories⟩⟩
  · have hend : t.state.AllFinite := g.run_allFinite hg hrun (by simp) hs
    exact List.forall_mem_cons.mpr ⟨hend.totalScore, State.allFinite_iff.mp hend⟩

/-- What comes of a unit has finite doubles if what is stored of it has. -/
theorem outcome_floats {r : UnitRecord} {status : UnitStatus}
    (h : b.outcome u stored = .ok (r, status))
    (hstored : ∀ r ∈ stored, ∀ x ∈ r.floats, x.isFinite = true) :
    ∀ x ∈ r.floats, x.isFinite = true := by
  obtain ⟨g, s, hstart, hplay⟩ := outcome_ok h
  obtain ⟨hg, hs⟩ := start_allFinite hstart hstored
  exact play_floats hplay hg hs

/-- What comes of a unit can be read from its file again. -/
theorem Makes.readsBack {S : Type} {disk : Disk (StateM S)} {folder : String}
    {content : S → String → Content} {room : S → String → Except BatchError Unit} {s : S}
    (hd : Store.Replaces disk folder content room)
    (h : b.Makes UnitRecord.Fits u ((Store.files disk folder).found s u.key)) :
    b.Makes (fun r => UnitRecord.read? r.write = some r) u
      (Store.fileSlot folder content room s u.key).found := by
  intro stored r status hfound hstored houtcome
  have hfinite := outcome_floats houtcome fun r' hr' => by
    rw [Option.mem_def] at hr'
    subst hr'
    exact Store.isFinite_of_recordOf hfound
  rw [← hd.keyed.found] at hfound
  exact UnitRecord.read?_write (h stored r status hfound hstored houtcome) fun x hx =>
    readsBack_of_isFinite (hfinite x hx)

end Batch

end EntropyGame
