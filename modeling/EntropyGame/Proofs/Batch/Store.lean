import EntropyGame.Files.Texts
import EntropyGame.Proofs.Batch.Key
import EntropyGame.Proofs.Batch.Record

namespace EntropyGame

/-- What is under a key: what loading it gives, and what is in the way of putting a record there. -/
structure Slot where
  found : Except BatchError (Option UnitRecord)
  room : Except BatchError Unit

namespace Slot

/-- What saving a record tells. -/
def answer (slot : Slot) : Except BatchError Bool :=
  match slot.found with
  | .error e => .error e
  | .ok old =>
    if old.any UnitRecord.isComplete then .ok false else slot.room.map fun _ => true

/-- What is under the key after a record was saved. -/
def put (slot : Slot) (r : UnitRecord) : Slot :=
  match slot.answer with
  | .ok true => { slot with found := .ok (some r) }
  | _ => slot

variable {slot : Slot} {r : UnitRecord}

theorem put_of_true (h : slot.answer = .ok true) :
    slot.put r = { slot with found := .ok (some r) } := by
  rw [put, h]

theorem put_of_ne (h : slot.answer ≠ .ok true) : slot.put r = slot := by
  unfold put
  split
  · rename_i ha
    exact absurd ha h
  · rfl

end Slot

variable {S : Type}

/-- What loading from a store gives. -/
def Store.found (store : Store (StateM S)) (s : S) (key : String) :
    Except BatchError (Option UnitRecord) :=
  ((store.load key).run s).1

/-- A store that has a slot for each key of a unit: what is done under one key depends on its slot
only and changes no other, and records of some kind are found as they were saved. -/
structure Store.Keyed (store : Store (StateM S)) (slot : S → String → Slot)
    (kept : UnitRecord → Prop) : Prop where
  load (u : WorkUnit) (s : S) : (store.load u.key).run s = ((slot s u.key).found, s)
  save_answer (u : WorkUnit) (r : UnitRecord) (s : S) :
    ((store.save u.key r).run s).1 = (slot s u.key).answer
  save_put (u : WorkUnit) (r : UnitRecord) (s : S) :
    kept r → slot ((store.save u.key r).run s).2 u.key = (slot s u.key).put r
  save_other (u v : WorkUnit) (r : UnitRecord) (s : S) :
    u.key ≠ v.key → slot ((store.save u.key r).run s).2 v.key = slot s v.key

namespace Store

theorem Keyed.found {store : Store (StateM S)} {slot : S → String → Slot}
    {kept : UnitRecord → Prop} (h : store.Keyed slot kept) (s : S) (u : WorkUnit) :
    store.found s u.key = (slot s u.key).found := by
  rw [Store.found, h.load]

/-- What a map of records holds under a key. -/
def memorySlot (records : OrderedMap String UnitRecord) (key : String) : Slot :=
  ⟨.ok (records.get? key), .ok ()⟩

theorem memory_save (key : String) (r : UnitRecord) (records : OrderedMap String UnitRecord) :
    (memory.save key r).run records =
      if (records.get? key).any UnitRecord.isComplete then (.ok false, records)
      else (.ok true, records.insert key r) := by
  have hrun : (memory.save key r).run records =
      (if (records.get? key).any UnitRecord.isComplete then return .ok false
        else do
          modify (·.insert key r)
          return .ok true : StateM (OrderedMap String UnitRecord) (Except BatchError Bool)).run
        records := rfl
  rw [hrun]
  split <;> rfl

theorem memory_answer (key : String) (records : OrderedMap String UnitRecord) :
    (memorySlot records key).answer =
      if (records.get? key).any UnitRecord.isComplete then .ok false else .ok true :=
  rfl

theorem memory_keyed : memory.Keyed memorySlot fun _ => True where
  load _ _ := rfl
  save_answer u r records := by
    rw [memory_save, memory_answer]
    split <;> rfl
  save_put u r records _ := by
    rw [memory_save]
    split
    · rename_i h
      rw [Slot.put_of_ne (by rw [memory_answer, if_pos h]; simp)]
    · rename_i h
      rw [Slot.put_of_true (by rw [memory_answer, if_neg h]), memorySlot, OrderedMap.get?_insert,
        if_pos rfl]
      rfl
  save_other u v r records hne := by
    rw [memory_save]
    split
    · rfl
    · rw [memorySlot, OrderedMap.get?_insert, if_neg (Ne.symm hne)]
      rfl

end Store

end EntropyGame
