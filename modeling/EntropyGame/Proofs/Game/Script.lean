import EntropyGame.Game.Player

namespace EntropyGame.Script

/-- The answer of a script to the request that comes after so many answers, if it has one. -/
def answer? (s : Script) (k : Nat) : Option String :=
  match s.responses[k]? with
  | some r => some r
  | none => if s.halts then none else s.responses.getLast?.or s.last

/-- A script after some answers have been given. -/
structure Given (s : Script) (rs : List String) (t : Script) : Prop where
  responses : t.responses = s.responses.drop rs.length
  halts : t.halts = s.halts
  last : t.last = rs.getLast?.or s.last
  requests : t.requests = s.requests + rs.length
  answers : ∀ k < rs.length, rs[k]? = s.answer? k

namespace Given

variable {s t : Script} {rs : List String}

theorem refl (s : Script) : s.Given [] s where
  responses := rfl
  halts := rfl
  last := rfl
  requests := rfl
  answers _ hk := absurd hk (Nat.not_lt_zero _)

/-- A script takes no note of events but to keep them. -/
theorem notify (h : s.Given rs t) (events : Array Event) : s.Given rs { t with events } :=
  { h with }

/-- Where all responses are used up, the last answer was the last of them, unless it was older. -/
theorem last_eq (h : s.Given rs t) (hhalts : s.halts = false)
    (hle : s.responses.length ≤ rs.length) : t.last = s.responses.getLast?.or s.last := by
  rw [h.last]
  rcases Nat.eq_zero_or_pos rs.length with hzero | hpos
  · have hrs : rs = [] := List.length_eq_zero_iff.mp hzero
    have hresponses : s.responses = [] :=
      List.length_eq_zero_iff.mp (Nat.le_zero.mp (hzero ▸ hle))
    rw [hrs, hresponses]
  · have hlast := h.answers (rs.length - 1) (by omega)
    rw [← List.getLast?_eq_getElem?, answer?, hhalts] at hlast
    rcases Nat.lt_or_ge (rs.length - 1) s.responses.length with hlt | hge
    · have hend : rs.length - 1 = s.responses.length - 1 := by omega
      rw [hlast, List.getLast?_eq_getElem?, ← hend, List.getElem?_eq_getElem hlt]
    · rw [List.getElem?_eq_none hge] at hlast
      rw [hlast]
      exact (Option.or_assoc ..).trans (congrArg _ Option.or_self)

theorem next?_eq (h : s.Given rs t) :
    t.next? = (s.answer? rs.length).map fun r => (r, s.responses.drop (rs.length + 1)) := by
  rw [next?, h.responses, answer?]
  rcases Nat.lt_or_ge rs.length s.responses.length with hlt | hge
  · rw [List.drop_eq_getElem_cons hlt, List.getElem?_eq_getElem hlt]
    rfl
  · rw [List.drop_eq_nil_of_le hge, List.getElem?_eq_none hge,
      List.drop_eq_nil_of_le (Nat.le_succ_of_le hge), h.halts]
    cases hhalts : s.halts with
    | true => rfl
    | false => simp [h.last_eq hhalts hge]

/-- A script that has no answer halts and stays as it is. -/
theorem request_none (h : s.Given rs t) (hr : s.answer? rs.length = none) (q : Request) :
    t.request q = (.error .halt, t) := by
  rw [request, h.next?_eq, hr]
  rfl

theorem request_some (h : s.Given rs t) {r : String} (hr : s.answer? rs.length = some r)
    (q : Request) : ∃ u, t.request q = (.ok { response := r, usage := ⟨0, Text.wordCount r⟩ }, u) ∧
      u.events = t.events ∧ s.Given (rs ++ [r]) u := by
  refine ⟨{ t with
    responses := s.responses.drop (rs.length + 1)
    last := some r
    requests := t.requests + 1 }, ?_, rfl, ?_⟩
  · rw [request, h.next?_eq, hr]
    rfl
  · refine ⟨?_, h.halts, ?_, ?_, fun k hk => ?_⟩
    · rw [List.length_append, List.length_singleton]
    · rw [List.getLast?_concat]
      rfl
    · rw [List.length_append, List.length_singleton, h.requests, Nat.add_assoc]
    · rw [List.length_append, List.length_singleton] at hk
      rcases Nat.lt_or_eq_of_le (Nat.le_of_lt_succ hk) with hlt | rfl
      · rw [List.getElem?_append_left hlt, h.answers k hlt]
      · rw [List.getElem?_concat_length, hr]

end Given

end EntropyGame.Script
