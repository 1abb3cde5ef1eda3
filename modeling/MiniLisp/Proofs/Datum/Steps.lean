import MiniLisp.Datum.Reader

/-! # Reading token by token

Taking some tokens and then others takes them all (`Reading.steps_append`). A token that cannot be taken is
a syntax error at its place, unless it is a date outside the calendar (`Reading.step_failure`); and
reading fails at the first token that it comes to and cannot take, or at the end
(`Datum.ofTokens_failure`). -/

namespace MiniLisp

namespace Reading

theorem steps_append (r : Reading) (ts us : List Token) :
    r.steps (ts ++ us) = r.steps ts >>= (·.steps us) := by
  induction ts generalizing r with
  | nil => rfl
  | cons t ts ih =>
    rw [List.cons_append, steps, steps]
    cases r.step t with
    | ok r' => exact ih r'
    | error e => rfl

/-- **Taking tokens fails at the first token that cannot be taken.** -/
theorem steps_eq_error_iff {r : Reading} {ts : List Token} {e : Failure} :
    r.steps ts = .error e ↔
      ∃ before t after r', ts = before ++ t :: after ∧ r.steps before = .ok r' ∧
        r'.step t = .error e := by
  constructor
  · intro h
    induction ts generalizing r with
    | nil => cases h
    | cons t ts ih =>
      rw [steps] at h
      cases hstep : r.step t with
      | error e' =>
        rw [hstep] at h
        cases h
        exact ⟨[], t, ts, r, rfl, rfl, hstep⟩
      | ok r₁ =>
        rw [hstep] at h
        obtain ⟨before, u, after, r', rfl, hbefore, hu⟩ := ih h
        exact ⟨t :: before, u, after, r', rfl, by rw [steps, hstep]; exact hbefore, hu⟩
  · rintro ⟨before, t, after, r', rfl, hbefore, ht⟩
    rw [steps_append, hbefore]
    change r'.steps (t :: after) = _
    rw [steps, ht]

/-- A token that cannot be taken is a syntax error at its place or a date outside the calendar. -/
theorem step_failure {r : Reading} {t : Token} {e : Failure} (h : r.step t = .error e) :
    (∃ fault, e = .syntaxError fault t.place) ∨
      (e = .dateOutOfCalendar ∧ t.kind = .date ∧ DateTime.ofText t.value = .error .outOfCalendar) := by
  unfold step at h
  split at h
  · split at h <;> cases h
    exact .inl ⟨_, rfl⟩
  · cases h
  · cases h
  · next hk =>
    split at h
    · cases h
    · cases h
      exact .inl ⟨_, rfl⟩
    · next hd =>
      cases h
      exact .inr ⟨rfl, hk, hd⟩
  · cases h
  · cases h
  · split at h <;> cases h
    exact .inl ⟨_, rfl⟩
  · cases h

theorem step_of_outOfCalendar (r : Reading) {t : Token} (hkind : t.kind = .date)
    (hout : DateTime.ofText t.value = .error .outOfCalendar) :
    r.step t = .error .dateOutOfCalendar := by
  simp only [step, hkind, hout]

theorem finish_failure {r : Reading} {place : Place} {e : Failure}
    (h : r.finish place = .error e) : ∃ fault, e = .syntaxError fault place := by
  unfold finish at h
  split at h <;> cases h
  · exact ⟨_, rfl⟩
  · exact ⟨_, rfl⟩

theorem finish_eq_ok {r : Reading} {place : Place} {fs : List Datum}
    (h : r.finish place = .ok fs) : r.opened = [] ∧ fs = r.done.reverse := by
  unfold finish at h
  split at h <;> cases h
  exact ⟨by assumption, rfl⟩

end Reading

namespace Datum

open Reading

theorem beforeEnd_append {ts : List Token} (h : ∀ t ∈ ts, t.isEnd = false) (us : List Token) :
    beforeEnd (ts ++ us) = ts ++ beforeEnd us :=
  List.takeWhile_append_of_pos fun t ht => by rw [h t ht]; rfl

theorem beforeEnd_append_cons {ts : List Token} (hts : ∀ t ∈ ts, t.isEnd = false) {e : Token}
    (he : e.isEnd = true) (us : List Token) : beforeEnd (ts ++ e :: us) = ts := by
  have hnil : beforeEnd (e :: us) = [] := by simp [beforeEnd, he]
  rw [beforeEnd_append hts, hnil, List.append_nil]

theorem endPlace_append_cons {ts : List Token} (hts : ∀ t ∈ ts, t.isEnd = false) {e : Token}
    (he : e.isEnd = true) (us : List Token) : endPlace (ts ++ e :: us) = e.place := by
  have hnone : ts.find? Token.isEnd = none :=
    List.find?_eq_none.2 fun t ht => by simp [hts t ht]
  have hfind : (ts ++ e :: us).find? Token.isEnd = some e := by
    rw [List.find?_append, hnone, Option.none_or, List.find?_cons_of_pos he]
  rw [endPlace, hfind]

/-- Reading comes to a token: the tokens before it can be taken. -/
def ComesTo (ts : List Token) (t : Token) : Prop :=
  ∃ before after r, beforeEnd ts = before ++ t :: after ∧ Reading.empty.steps before = .ok r

theorem ComesTo.mem {ts : List Token} {t : Token} (h : ComesTo ts t) : t ∈ ts := by
  obtain ⟨before, after, r, heq, -⟩ := h
  exact List.takeWhile_subset _ (by rw [← beforeEnd, heq]; simp)

/-- **Reading fails** at the end, or at the first token that it comes to and cannot take. -/
theorem ofTokens_failure {ts : List Token} {e : Failure} (h : ofTokens ts = .error e) :
    (∃ fault, e = .syntaxError fault (endPlace ts)) ∨
      (∃ fault, ∃ t, ComesTo ts t ∧ e = .syntaxError fault t.place) ∨
        (e = .dateOutOfCalendar ∧ ∃ t, ComesTo ts t ∧ t.kind = .date ∧
          DateTime.ofText t.value = .error .outOfCalendar) := by
  unfold ofTokens at h
  split at h
  · exact .inl (finish_failure h)
  · next he =>
    cases h
    obtain ⟨before, t, after, r, heq, hbefore, ht⟩ := steps_eq_error_iff.1 he
    have hcomes : ComesTo ts t := ⟨before, after, r, heq, hbefore⟩
    rcases step_failure ht with ⟨fault, rfl⟩ | ⟨rfl, hout⟩
    · exact .inr (.inl ⟨fault, t, hcomes, rfl⟩)
    · exact .inr (.inr ⟨rfl, t, hcomes, hout⟩)

theorem ofTokens_of_outOfCalendar {ts : List Token} {t : Token} (hcomes : ComesTo ts t)
    (hkind : t.kind = .date) (hout : DateTime.ofText t.value = .error .outOfCalendar) :
    ofTokens ts = .error .dateOutOfCalendar := by
  obtain ⟨before, after, r, heq, hbefore⟩ := hcomes
  have hsteps : Reading.empty.steps (beforeEnd ts) = .error .dateOutOfCalendar :=
    steps_eq_error_iff.2 ⟨before, t, after, r, heq, hbefore, step_of_outOfCalendar r hkind hout⟩
  rw [ofTokens, hsteps]

end Datum

end MiniLisp
