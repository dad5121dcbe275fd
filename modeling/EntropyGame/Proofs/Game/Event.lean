import EntropyGame.Game.Event
import EntropyGame.Proofs.Value.Codec

namespace EntropyGame.Event

open Json

/-- The doubles of an event. -/
def floats : Event → List Float
  | reveal _ values => values.flatMap Value.floats
  | reward _ value score => score :: value.floats
  | roundFinished _ score => [score]
  | _ => []

/-- Every number of an event is within its machine word. -/
def Fits : Event → Prop
  | roundStarted round => round < word
  | elicitRequest line _ maxLength => line < word ∧ maxLength < word
  | elicitResponse line _ _ => line < word
  | reveal line _ => line < word
  | reward line _ _ => line < word
  | failedEnsure line _ retryLine attempt =>
    line < word ∧ retryLine < word ∧ attempt < halfWord
  | roundFinished round _ => round < word

variable {e : Event}

theorem readable_fields (hf : e.Fits) (hx : ∀ x ∈ e.floats, ReadsBack x) :
    Readable 6 (.object e.fields) := by
  cases e with
  | roundStarted round =>
    have hr : round < word := hf
    exact .object (by simp [fields, readable_nat hr])
  | elicitRequest line register maxLength =>
    exact .object (by simp [fields, readable_nat hf.1, readable_nat hf.2, Readable.string])
  | elicitResponse line register response =>
    have hl : line < word := hf
    have hp : Readable 5 response.toJson := response.readable_toJson.mono (by decide)
    exact .object (by simp [fields, readable_nat hl, Readable.string, hp])
  | reveal line values =>
    have hl : line < word := hf
    have hv : Readable 5 (.array (values.map Value.toJson)) :=
      readable_map fun v hv => Value.readable_toJson fun x hxv =>
        hx x (List.mem_flatMap.mpr ⟨v, hv, hxv⟩)
    exact .object (by simp [fields, readable_nat hl, hv])
  | reward line value score =>
    have hl : line < word := hf
    have hs : ReadsBack score := hx _ List.mem_cons_self
    have hv : Readable 5 value.toJson :=
      (Value.readable_toJson fun x hxv => hx x (List.mem_cons_of_mem _ hxv)).mono (by decide)
    exact .object (by simp [fields, readable_nat hl, hv, readable_number hs])
  | failedEnsure line results retryLine attempt =>
    obtain ⟨hl, hr, ha⟩ := hf
    have ha : attempt < word := Nat.lt_trans ha (by decide)
    have hb : Readable 5 (.array (results.map Json.bool)) := readable_map fun b _ => .bool b
    exact .object (by simp [fields, readable_nat, hl, hr, ha, hb])
  | roundFinished round score =>
    have hr : round < word := hf
    have hs : ReadsBack score := hx _ List.mem_cons_self
    exact .object (by simp [fields, readable_nat hr, readable_number hs])

theorem readable_toJson (hf : e.Fits) (hx : ∀ x ∈ e.floats, ReadsBack x) :
    Readable 6 e.toJson := by
  cases readable_fields hf hx with
  | object h => exact .object (List.forall_mem_cons.mpr ⟨.string _, h⟩)

/-- The name of an event is not one of its fields. -/
theorem untag?_toJson (e : Event) :
    untag? "type" e.toJson = some (.string e.name, .object e.fields) := by
  cases e <;> simp -implicitDefEqProofs [untag?, toJson, fields]

theorem count?_some {n : Nat} {field : Option Json} (h : field = some (nat n)) (hn : n < word) :
    count? field = some n := by
  rw [count?, h, Option.bind_some, toNat?_nat hn]

theorem text?_some {text : String} {field : Option Json} (h : field = some (.string text)) :
    text? field = some text := by
  rw [text?, h, Option.bind_some, toText?]

theorem float?_some {x : Float} {field : Option Json} (h : field = some (number x))
    (hx : x.isFinite = true) : float? field = some x := by
  rw [float?, h, Option.bind_some, toFloat?_number hx]

theorem ofJson?_toJson (hf : e.Fits) (hx : ∀ x ∈ e.floats, ReadsBack x) :
    ofJson? e.toJson = some e := by
  have hs : (Json.object e.fields).isSound = true := (readable_fields hf hx).isSound
  refine bind_of_some (untag?_toJson e) (bind_of_some (if_pos hs) (bind_of_some rfl ?_))
  cases e with
  | roundStarted round =>
    refine bind_record? (by simp [Event.fields]) fun field hfield => ?_
    simp only [Event.fields, List.forall_mem_cons] at hfield
    exact bind_of_some (count?_some hfield.1 hf) rfl
  | elicitRequest line register maxLength =>
    refine bind_record? (by simp [Event.fields]) fun field hfield => ?_
    simp only [Event.fields, List.forall_mem_cons] at hfield
    obtain ⟨hline, hregister, hmax, -⟩ := hfield
    exact bind_of_some (count?_some hline hf.1) (bind_of_some (text?_some hregister)
      (bind_of_some (count?_some hmax hf.2) rfl))
  | elicitResponse line register response =>
    refine bind_record? (by simp [Event.fields]) fun field hfield => ?_
    simp only [Event.fields, List.forall_mem_cons] at hfield
    obtain ⟨hline, hregister, hresponse, -⟩ := hfield
    exact bind_of_some (count?_some hline hf) (bind_of_some (text?_some hregister)
      (bind_of_some hresponse (bind_of_some (Phrase.ofJson?_toJson response) rfl)))
  | reveal line values =>
    have hv : toList? Value.ofKeptJson? (.array (values.map Value.toJson)) = some values :=
      toList?_map fun v hv => Value.decode?_toJson (fun x hxv =>
        (hx x (List.mem_flatMap.mpr ⟨v, hv, hxv⟩)).isFinite) true
    refine bind_record? (by simp [Event.fields]) fun field hfield => ?_
    simp only [Event.fields, List.forall_mem_cons] at hfield
    obtain ⟨hline, hvalues, -⟩ := hfield
    exact bind_of_some (count?_some hline hf) (bind_of_some hvalues (bind_of_some hv rfl))
  | reward line value score =>
    have hscore : score.isFinite = true := (hx _ List.mem_cons_self).isFinite
    have hv : Value.ofKeptJson? value.toJson = some value :=
      Value.decode?_toJson (fun x hxv => (hx x (List.mem_cons_of_mem _ hxv)).isFinite) true
    refine bind_record? (by simp [Event.fields]) fun field hfield => ?_
    simp only [Event.fields, List.forall_mem_cons] at hfield
    obtain ⟨hline, hvalue, hs, -⟩ := hfield
    exact bind_of_some (count?_some hline hf) (bind_of_some hvalue (bind_of_some hv
      (bind_of_some (float?_some hs hscore) rfl)))
  | failedEnsure line results retryLine attempt =>
    obtain ⟨hl, hr, ha⟩ := hf
    have hb : toList? toBool? (.array (results.map Json.bool)) = some results :=
      toList?_map fun _ _ => rfl
    refine bind_record? (by simp [Event.fields]) fun field hfield => ?_
    simp only [Event.fields, List.forall_mem_cons] at hfield
    obtain ⟨hline, hresults, hretry, hattempt, -⟩ := hfield
    have ha : (field "attempt").bind (toNat? halfWord) = some attempt := by
      rw [hattempt, Option.bind_some, toNat?_nat ha]
    exact bind_of_some (count?_some hline hl) (bind_of_some hresults (bind_of_some hb
      (bind_of_some (count?_some hretry hr) (bind_of_some ha rfl))))
  | roundFinished round score =>
    have hscore : score.isFinite = true := (hx _ List.mem_cons_self).isFinite
    refine bind_record? (by simp [Event.fields]) fun field hfield => ?_
    simp only [Event.fields, List.forall_mem_cons] at hfield
    obtain ⟨hround, hs, -⟩ := hfield
    exact bind_of_some (count?_some hround hf) (bind_of_some (float?_some hs hscore) rfl)

end EntropyGame.Event
