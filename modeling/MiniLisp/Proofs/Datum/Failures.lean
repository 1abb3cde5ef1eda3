import MiniLisp.Proofs.DateTime.Calendar
import MiniLisp.Proofs.Datum.Steps
import MiniLisp.Proofs.Except
import MiniLisp.Proofs.Token.Cutting
import MiniLisp.Editor.Index

/-! # How reading a text fails

Reading a text gives its data, or a syntax error at the place of a token, or it comes to a date that names a
moment outside the calendar; only then does a document have no index (`reading_outcome`). -/

namespace MiniLisp

namespace Datum

/-- Tokens that have an end among them end at its place. -/
theorem exists_endPlace {ts : List Token} (h : ∃ t ∈ ts, t.isEnd = true) :
    ∃ t ∈ ts, endPlace ts = t.place := by
  cases hfind : ts.find? Token.isEnd with
  | some t => exact ⟨t, List.mem_of_find?_eq_some hfind, by rw [endPlace, hfind]⟩
  | none =>
    obtain ⟨t, ht, hend⟩ := h
    exact absurd hend (List.find?_eq_none.1 hfind t ht)

theorem exists_isEnd_ofText (source : String) : ∃ t ∈ Token.ofText source, t.isEnd = true := by
  obtain ⟨ts, hts, -⟩ := Token.exists_scanFrom_eq source.toList .start
  exact ⟨_, by rw [Token.ofText, hts]; exact List.mem_append_right _ List.mem_cons_self, rfl⟩

end Datum

open Datum Editor

theorem Editor.exists_index_iff (source : String) :
    (∃ idx, Index.ofText source = .ok idx) ↔
      (∃ ds, readAll source = .ok ds) ∨
        ∃ fault place, readAll source = .error (.syntaxError fault place) := by
  have hissue : (∃ idx, Index.ofText source = .ok idx) ↔
      ∃ issue, issue? (Token.ofText source) = .ok issue := by
    constructor
    · rintro ⟨idx, h⟩
      obtain ⟨issue, hissue, -⟩ := Except.bind_eq_ok.1 h
      exact ⟨issue, hissue⟩
    · rintro ⟨issue, hissue⟩
      exact ⟨_, Except.bind_eq_ok.2 ⟨issue, hissue, rfl⟩⟩
  rw [hissue, readAll, issue?]
  split
  · next ds hds => exact ⟨fun _ => .inl ⟨ds, hds⟩, fun _ => ⟨_, rfl⟩⟩
  · next fault place he => exact ⟨fun _ => .inr ⟨fault, place, he⟩, fun _ => ⟨_, rfl⟩⟩
  · next e hother he =>
    rw [he]
    refine ⟨nofun, ?_⟩
    rintro (⟨ds, h⟩ | ⟨fault, place, h⟩) <;> cases h
    exact absurd rfl (hother fault place)

/-- **What comes of reading a text**: its data, or a syntax error at the place of one of its tokens, or
it comes to a date that names a moment outside the calendar, which is no syntax error. In this last case
alone the text has no index. Dates are read on a host that keeps universal time. -/
theorem reading_outcome (source : String) :
    ((∃ ds, readAll source = .ok ds) ∨
      (∃ fault, ∃ t ∈ Token.ofText source, readAll source = .error (.syntaxError fault t.place)) ∨
      readAll source = .error .dateOutOfCalendar) ∧
    (readAll source = .error .dateOutOfCalendar ↔
      ∃ t, ComesTo (Token.ofText source) t ∧ t.kind = .date ∧
        DateTime.NamesOutside .universal t.value.toList) ∧
    ((∃ idx, Index.ofText source = .ok idx) ↔ readAll source ≠ .error .dateOutOfCalendar) := by
  have hcases : (∃ ds, readAll source = .ok ds) ∨
      (∃ fault, ∃ t ∈ Token.ofText source, readAll source = .error (.syntaxError fault t.place)) ∨
      (readAll source = .error .dateOutOfCalendar ∧
        ∃ t, ComesTo (Token.ofText source) t ∧ t.kind = .date ∧
          DateTime.ofText t.value = .error .outOfCalendar) := by
    cases h : readAll source with
    | ok ds => exact .inl ⟨ds, rfl⟩
    | error e =>
      rcases ofTokens_failure h with ⟨fault, rfl⟩ | ⟨fault, t, ht, rfl⟩ | ⟨rfl, hout⟩
      · obtain ⟨t, ht, hplace⟩ := exists_endPlace (exists_isEnd_ofText source)
        exact .inr (.inl ⟨fault, t, ht, by rw [hplace]⟩)
      · exact .inr (.inl ⟨fault, t, ht.mem, rfl⟩)
      · exact .inr (.inr ⟨rfl, hout⟩)
  refine ⟨?_, ⟨fun h => ?_, ?_⟩, ?_⟩
  · exact hcases.imp_right (.imp_right And.left)
  · rcases hcases with ⟨ds, hds⟩ | ⟨fault, t, -, ht⟩ | ⟨-, t, hcomes, hkind, hout⟩
    · rw [h] at hds
      cases hds
    · rw [h] at ht
      cases ht
    · exact ⟨t, hcomes, hkind, DateTime.ofCharsIn_eq_outOfCalendar_iff.1 hout⟩
  · rintro ⟨t, hcomes, hkind, hout⟩
    exact ofTokens_of_outOfCalendar hcomes hkind (DateTime.ofCharsIn_eq_outOfCalendar_iff.2 hout)
  · rw [exists_index_iff]
    constructor
    · rintro (⟨ds, h⟩ | ⟨fault, place, h⟩) <;> rw [h] <;> exact nofun
    · intro hne
      rcases hcases with h | ⟨fault, t, -, h⟩ | ⟨h, -⟩
      · exact .inl h
      · exact .inr ⟨fault, t.place, h⟩
      · exact absurd h hne

/-- One minute past midnight on the first day, written in a zone that is two minutes ahead: reading the
text is no syntax error, and the text has no index. The date leaves the calendar on a host of any zone. -/
theorem reading_outcome_firstDay :
    readAll "#d\"0001-01-01T00:01+00:02\"" = .error .dateOutOfCalendar ∧
    (¬ ∃ idx, Index.ofText "#d\"0001-01-01T00:01+00:02\"" = .ok idx) ∧
    ∀ zone, DateTime.ofCharsIn zone "0001-01-01T00:01+00:02".toList = .error .outOfCalendar := by
  have hread : readAll "#d\"0001-01-01T00:01+00:02\"" = .error .dateOutOfCalendar := by
    with_unfolding_all rfl
  obtain ⟨day, hday, hiso⟩ : ∃ day : Date, (day.year = 1 ∧ day.month = 1 ∧ day.day = 1) ∧
      DateTime.readIso (Text.trim "0001-01-01T00:01+00:02".toList) =
        some ⟨day, 0, 1, 0, 0, some 120000000⟩ := by
    refine ⟨⟨1, 1, 1, by decide, by decide⟩, ⟨rfl, rfl, rfl⟩, ?_⟩
    rfl
  have hmoment : DateTime.onDate? day 0 1 0 0 = some ⟨day, 60000000, by decide⟩ := by
    simp [DateTime.onDate?]
  refine ⟨hread, fun h => ?_, fun zone => ?_⟩
  · rcases (exists_index_iff _).1 h with ⟨ds, h⟩ | ⟨fault, place, h⟩ <;> rw [hread] at h <;> cases h
  · have hleaves : (60000000 : Int) < 120000000 := by decide
    exact DateTime.ofCharsIn_eq_outOfCalendar_iff.2
      ⟨_, _, 120000000, hiso, hmoment, rfl, .inl (.inl ⟨hday, hleaves⟩)⟩

end MiniLisp
