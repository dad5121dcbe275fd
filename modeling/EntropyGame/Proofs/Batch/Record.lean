import EntropyGame.Batch.Record
import EntropyGame.Proofs.Game.Codec

namespace EntropyGame.UnitRecord

open Json

/-- Every number of a record is within its machine word. -/
structure Fits (r : UnitRecord) : Prop where
  seed : r.seed < word
  usage : r.usage.Fits
  checkpoint : r.checkpoint.Fits

/-- The doubles of a record. -/
def floats (r : UnitRecord) : List Float :=
  r.totalScore :: r.checkpoint.floats

variable {r : UnitRecord}

theorem ofJson?_toJson (hf : r.Fits) (hx : ∀ x ∈ r.floats, ReadsBack x) :
    ofJson? r.toJson = some r := by
  obtain ⟨htotal, hcheckpoint⟩ := List.forall_mem_cons.mp hx
  have hc : Checkpoint.ofJson? r.checkpoint.toJson = some r.checkpoint :=
    Checkpoint.ofJson?_toJson hf.checkpoint hcheckpoint
  refine bind_record? (by simp) fun field hfield => ?_
  simp only [List.forall_mem_cons] at hfield
  obtain ⟨h1, h2, h3, h4, h5, h6, -⟩ := hfield
  refine bind_of_some h1 (bind_of_some rfl ?_)
  refine bind_of_some h2 (bind_of_some rfl ?_)
  refine bind_of_some h3 (bind_of_some (toNat?_nat hf.seed) ?_)
  refine bind_of_some h4 (bind_of_some (toFloat?_number htotal.isFinite) ?_)
  refine bind_of_some h5 (bind_of_some (Usage.ofJson?_toJson hf.usage) ?_)
  exact bind_of_some h6 (bind_of_some hc rfl)

theorem readable_toJson (hf : r.Fits) (hx : ∀ x ∈ r.floats, ReadsBack x) :
    Readable 13 r.toJson := by
  obtain ⟨htotal, hcheckpoint⟩ := List.forall_mem_cons.mp hx
  have husage : Readable 12 r.usage.toJson := (Usage.readable_toJson hf.usage).mono (by decide)
  exact .object (by
    simp [Readable.string, readable_nat hf.seed, readable_number htotal, husage,
      Checkpoint.readable_toJson hf.checkpoint hcheckpoint])

/-- A record reads back from what is written of it. -/
theorem read?_write (hf : r.Fits) (hx : ∀ x ∈ r.floats, ReadsBack x) : read? r.write = some r := by
  have ht : Json.ofText? r.toJson.toPretty = some r.toJson :=
    ((readable_toJson hf hx).mono (by decide)).ofText?_toPretty
  rw [read?, write, ht, Option.bind_some, ofJson?_toJson hf hx]

end EntropyGame.UnitRecord
