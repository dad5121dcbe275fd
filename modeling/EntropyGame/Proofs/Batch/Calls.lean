import EntropyGame.Proofs.Batch.Isolation

namespace EntropyGame

/-- A call of a store under the key of a unit. -/
inductive StoreCall
  | load (u : WorkUnit)
  | save (u : WorkUnit) (r : UnitRecord)

/-- What a call of a store gives. -/
inductive StoreAnswer
  | loaded (found : Except BatchError (Option UnitRecord))
  | saved (taken : Except BatchError Bool)

/-- Calls with what they gave, the first one first. -/
abbrev StoreTrace := List (StoreCall × StoreAnswer)

namespace StoreCall

def key : StoreCall → String
  | load u => u.key
  | save u _ => u.key

/-- What a call gives where a map has `held` under its key. -/
def answer (held : Option UnitRecord) : StoreCall → StoreAnswer
  | load _ => .loaded (.ok held)
  | save _ _ => .saved (.ok !held.any UnitRecord.isComplete)

/-- What a map has under a key after a call. -/
def after (held : Option UnitRecord) (key : String) : StoreCall → Option UnitRecord
  | load _ => held
  | save u r => if u.key = key ∧ held.any UnitRecord.isComplete = false then some r else held

/-- The calls of a map from keys to records. -/
def mapTrace (held : String → Option UnitRecord) : List StoreCall → StoreTrace
  | [] => []
  | c :: cs => (c, c.answer (held c.key)) :: mapTrace (fun key => c.after (held key) key) cs

end StoreCall

namespace StoreTrace

/-- The record under a key that was taken last, or the one that was there before. -/
def lastTaken (key : String) (old : Option UnitRecord) : StoreTrace → Option UnitRecord
  | [] => old
  | (.save u r, .saved (.ok true)) :: trace =>
    lastTaken key (if u.key = key then some r else old) trace
  | _ :: trace => lastTaken key old trace

end StoreTrace

namespace Store

variable {m : Type → Type} [Monad m]

def perform (store : Store m) : StoreCall → m StoreAnswer
  | .load u => do return .loaded (← store.load u.key)
  | .save u r => do return .saved (← store.save u.key r)

/-- Makes calls one after another and notes what each gives. -/
def trace (store : Store m) (calls : List StoreCall) : m StoreTrace :=
  calls.mapM fun c => do return (c, ← store.perform c)

end Store

open StoreCall StoreTrace

section

variable {S : Type} {store : Store (StateM S)} {slot : S → String → Slot}
  {kept : UnitRecord → Prop} {held : String → Option UnitRecord} {s : S}

/-- The keys of units have what a map has under them, and can be given other records. -/
def Holds (slot : S → String → Slot) (s : S) (held : String → Option UnitRecord) : Prop :=
  ∀ u : WorkUnit, slot s u.key = ⟨.ok (held u.key), .ok ()⟩

theorem Holds.perform (hk : store.Keyed slot kept) (h : Holds slot s held) {c : StoreCall}
    (hc : ∀ u r, c = .save u r → kept r) :
    ∃ s', (store.perform c).run s = (c.answer (held c.key), s') ∧
      Holds slot s' fun key => c.after (held key) key := by
  cases c with
  | load u =>
    refine ⟨s, ?_, h⟩
    have hrun : (store.perform (.load u)).run s =
        (.loaded ((store.load u.key).run s).1, ((store.load u.key).run s).2) := rfl
    rw [hrun, hk.load, h u]
    rfl
  | save u r =>
    refine ⟨((store.save u.key r).run s).2, ?_, ?_⟩
    · have hrun : (store.perform (.save u r)).run s =
          (.saved ((store.save u.key r).run s).1, ((store.save u.key r).run s).2) := rfl
      rw [hrun, hk.save_answer, h u, Slot.answer, StoreCall.answer, StoreCall.key]
      cases hcomplete : (held u.key).any UnitRecord.isComplete <;> simp [hcomplete, Except.map]
    · intro v
      by_cases hkey : u.key = v.key
      · rw [← hkey, hk.save_put u r s (hc u r rfl), h u]
        cases hcomplete : (held u.key).any UnitRecord.isComplete with
        | true =>
          rw [Slot.put_of_ne (by simp [Slot.answer, hcomplete])]
          simp [StoreCall.after, hcomplete]
        | false =>
          rw [Slot.put_of_true (by simp [Slot.answer, hcomplete, Except.map])]
          simp [StoreCall.after, hcomplete]
      · rw [hk.save_other u v r s hkey, h v]
        simp [StoreCall.after, hkey]

/-- A store that holds what a map has answers every sequence of calls as the map does. -/
theorem Holds.trace (hk : store.Keyed slot kept) (h : Holds slot s held) {calls : List StoreCall}
    (hcalls : ∀ u r, .save u r ∈ calls → kept r) :
    ((store.trace calls).run s).1 = mapTrace held calls := by
  induction calls generalizing s held with
  | nil => rfl
  | cons c calls ih =>
    obtain ⟨s', hrun, hs'⟩ := h.perform hk (c := c) fun u r hc => hcalls u r (hc ▸ List.mem_cons_self)
    have hrest := ih hs' fun u r hmem => hcalls u r (List.mem_cons_of_mem _ hmem)
    have hcons : ((store.trace (c :: calls)).run s).1 =
        (c, ((store.perform c).run s).1) ::
          ((store.trace calls).run ((store.perform c).run s).2).1 := by
      rw [Store.trace, List.mapM_cons]
      rfl
    rw [hcons, hrun, hrest, mapTrace]

end

section

variable {held : String → Option UnitRecord} {calls : List StoreCall}

theorem map_fst_mapTrace : (mapTrace held calls).map Prod.fst = calls := by
  induction calls generalizing held with
  | nil => rfl
  | cons c calls ih => rw [mapTrace, List.map_cons, ih]

/-- What a map has after a call is what was taken last. -/
theorem lastTaken_cons (c : StoreCall) (held : String → Option UnitRecord) (key : String)
    (trace : StoreTrace) :
    lastTaken key (held key) ((c, c.answer (held c.key)) :: trace) =
      lastTaken key (c.after (held key) key) trace := by
  cases c with
  | load u => rfl
  | save u r =>
    rw [StoreCall.answer, StoreCall.key, StoreCall.after]
    cases hcomplete : (held u.key).any UnitRecord.isComplete with
    | true =>
      have hstay : ¬ (u.key = key ∧ (held key).any UnitRecord.isComplete = false) := by
        rintro ⟨rfl, hfalse⟩
        rw [hcomplete] at hfalse
        cases hfalse
      rw [if_neg hstay]
      rfl
    | false =>
      by_cases hkey : u.key = key
      · subst hkey
        rw [if_pos ⟨rfl, hcomplete⟩]
        simp [lastTaken]
      · rw [if_neg fun ha => hkey ha.1]
        simp [lastTaken, hkey]

/-- After some calls a map goes on from what was taken last. -/
theorem mapTrace_append {before rest : StoreTrace} (h : mapTrace held calls = before ++ rest) :
    ∃ held' calls', rest = mapTrace held' calls' ∧
      ∀ key, held' key = lastTaken key (held key) before := by
  induction before generalizing held calls with
  | nil => exact ⟨held, calls, h.symm, fun _ => rfl⟩
  | cons e before ih =>
    cases calls with
    | nil => cases h
    | cons c calls =>
      rw [mapTrace, List.cons_append, List.cons.injEq] at h
      obtain ⟨rfl, hrest⟩ := h
      obtain ⟨held', calls', heq, hheld⟩ := ih hrest
      refine ⟨held', calls', heq, fun key => ?_⟩
      rw [lastTaken_cons, hheld]

/-- Every answer of a map is told by what was taken last. -/
theorem answer_mapTrace {before rest : StoreTrace} {c : StoreCall} {a : StoreAnswer}
    (h : mapTrace held calls = before ++ (c, a) :: rest) :
    a = c.answer (lastTaken c.key (held c.key) before) := by
  obtain ⟨held', calls', heq, hheld⟩ := mapTrace_append h
  cases calls' with
  | nil => cases heq
  | cons c' calls' =>
    rw [mapTrace, List.cons.injEq, Prod.mk.injEq] at heq
    obtain ⟨⟨rfl, rfl⟩, -⟩ := heq
    rw [hheld]

/-- Where a map has a complete record, no other is taken. -/
theorem lastTaken_of_isComplete {before rest : StoreTrace} {key : String} {r : UnitRecord}
    (h : mapTrace held calls = before ++ rest) (hheld : held key = some r)
    (hr : r.isComplete = true) : lastTaken key (held key) before = some r := by
  induction before generalizing held calls with
  | nil => exact hheld
  | cons e before ih =>
    cases calls with
    | nil => cases h
    | cons c calls =>
      rw [mapTrace, List.cons_append, List.cons.injEq] at h
      obtain ⟨rfl, hrest⟩ := h
      have hstay : c.after (held key) key = some r := by
        rw [hheld]
        cases c <;> simp [StoreCall.after, hr]
      rw [lastTaken_cons]
      exact ih hrest hstay

/-- A complete record that was taken is what every later call under its key tells. -/
theorem answer_mapTrace_of_isComplete {before between rest : StoreTrace} {u : WorkUnit}
    {r : UnitRecord} {c : StoreCall} {a : StoreAnswer}
    (h : mapTrace held calls =
      before ++ (.save u r, .saved (.ok true)) :: (between ++ (c, a) :: rest))
    (hr : r.isComplete = true) (hc : c.key = u.key) : a = c.answer (some r) := by
  obtain ⟨held', calls', heq, -⟩ := mapTrace_append h
  cases calls' with
  | nil => cases heq
  | cons c' calls' =>
    rw [mapTrace, List.cons.injEq, Prod.mk.injEq] at heq
    obtain ⟨⟨rfl, htaken⟩, hrest⟩ := heq
    have hfree : (held' u.key).any UnitRecord.isComplete = false := by
      simpa [StoreCall.answer, StoreCall.key] using htaken
    have hheld : (StoreCall.save u r).after (held' u.key) u.key = some r :=
      if_pos ⟨rfl, hfree⟩
    rw [answer_mapTrace hrest.symm, hc]
    exact congrArg c.answer (lastTaken_of_isComplete hrest.symm hheld hr)

end

namespace Store

theorem holds_texts (folder : String) :
    Holds (fileSlot folder (textsContent folder) fun _ _ => .ok ()) {} fun _ => none :=
  fun _ => rfl

theorem holds_memory : Holds memorySlot .empty fun _ => none :=
  fun _ => rfl

/-- A store of files and one in memory, both empty at first, answer every sequence of calls alike,
call by call. Each answer is told by the record under its key that was taken last, and a complete
record that was taken is what every later call under its key tells. -/
theorem files_answer_as_memory (folder : String) (calls : List StoreCall)
    (hcalls : ∀ u r, .save u r ∈ calls → r.Fits ∧ ∀ x ∈ r.floats, x.isFinite = true) :
    ∃ trace : StoreTrace,
      (((files Texts.disk folder).trace calls).run {}).1 = trace ∧
      ((memory.trace calls).run .empty).1 = trace ∧
      trace.map Prod.fst = calls ∧
      (∀ before c a rest, trace = before ++ (c, a) :: rest →
        a = c.answer (lastTaken c.key none before)) ∧
      ∀ before u r between c a rest,
        trace = before ++ (.save u r, .saved (.ok true)) :: (between ++ (c, a) :: rest) →
        r.isComplete = true → c.key = u.key → a = c.answer (some r) := by
  have hkept : ∀ u r, .save u r ∈ calls → UnitRecord.read? r.write = some r := by
    intro u r hmem
    obtain ⟨hfits, hfinite⟩ := hcalls u r hmem
    exact UnitRecord.read?_write hfits fun x hx => Json.readsBack_of_isFinite (hfinite x hx)
  have hfiles := (holds_texts folder).trace (texts_replaces folder).keyed hkept
  have hmemory : ((memory.trace calls).run .empty).1 = mapTrace (fun _ => none) calls :=
    holds_memory.trace memory_keyed fun _ _ _ => trivial
  refine ⟨_, hfiles, hmemory, map_fst_mapTrace, ?_, ?_⟩
  · intro before c a rest htrace
    exact answer_mapTrace htrace
  · intro before u r between c a rest htrace hr hc
    exact answer_mapTrace_of_isComplete htrace hr hc

/-- A unit whose game was left off is stored anew until it is done. -/
theorem files_answer_as_memory_waiting :
    let left := Batch.record waitUnit (waitAfter 3).state
      (.state (paidRequest.save (waitAfter 3).state))
    let done := Batch.record payUnit (payAfter 4).state (.results (payAfter 4).state.completed)
    (((files Texts.disk "results").trace [.save waitUnit left, .load waitUnit, .save waitUnit done,
      .save waitUnit left, .load waitUnit, .load payUnit]).run {}).1 =
      [(.save waitUnit left, .saved (.ok true)), (.load waitUnit, .loaded (.ok (some left))),
        (.save waitUnit done, .saved (.ok true)), (.save waitUnit left, .saved (.ok false)),
        (.load waitUnit, .loaded (.ok (some done))), (.load payUnit, .loaded (.ok none))] := by
  intro left done
  have hfinite : ∀ r ∈ [left, done], ∀ x ∈ r.floats, x.isFinite = true := by
    simp only [List.forall_mem_cons]
    exact ⟨Batch.outcome_floats waitUnit_outcome (by simp),
      Batch.outcome_floats payUnit_outcome (by simp), by simp⟩
  have hcalls : ∀ u r, .save u r ∈ ([.save waitUnit left, .load waitUnit, .save waitUnit done,
      .save waitUnit left, .load waitUnit, .load payUnit] : List StoreCall) → r ∈ [left, done] := by
    intro u r hmem
    simp only [List.mem_cons, StoreCall.save.injEq, reduceCtorEq, List.not_mem_nil, or_false,
      false_or] at hmem
    obtain ⟨-, rfl⟩ | ⟨-, rfl⟩ | ⟨-, rfl⟩ := hmem <;> simp
  have hfits : ∀ r ∈ [left, done], r.Fits := by
    simpa using ⟨waitRecord_fits, payRecord_fits⟩
  obtain ⟨trace, hfiles, hmemory, -⟩ := files_answer_as_memory "results" _
    fun u r hmem => ⟨hfits r (hcalls u r hmem), hfinite r (hcalls u r hmem)⟩
  rw [hfiles, ← hmemory]
  rfl

end Store

end EntropyGame
