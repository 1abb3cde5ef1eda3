import MiniLisp.Editor.Diagnostics
import MiniLisp.Proofs.Datum.Failures
import MiniLisp.Proofs.Editor.Agreement

/-! # The marks in a document

A document is marked where its text cannot be read: the syntax error at its place, and the parentheses if
there are not as many of one kind as of the other. Texts that can be read have as many of both
(`parenBalance_of_readAll`), so the count never marks what the reader accepts, and the marks say exactly
how reading ends (`diagnostics_verdict`). -/

namespace MiniLisp

open Datum

/-! ### Places -/

/-- Lines and columns are counted from 1. -/
def Place.Counted (p : Place) : Prop := 0 < p.line ∧ 0 < p.column

theorem Place.Counted.advanceAll {p : Place} (h : p.Counted) (cs : List Char) :
    (p.advanceAll cs).Counted := by
  induction cs generalizing p with
  | nil => exact h
  | cons c cs ih =>
    have hstep : (p.advance c).Counted := by
      unfold Place.advance
      split
      · exact ⟨Nat.succ_pos _, Nat.one_pos⟩
      · exact ⟨h.1, Nat.succ_pos _⟩
    exact ih hstep

/-- The numbers of an editor are one lower. -/
theorem Place.Counted.exists_eq {p : Place} (h : p.Counted) :
    ∃ line column, p.line = line + 1 ∧ p.column = column + 1 := by
  obtain ⟨hline, hcolumn⟩ := h
  exact ⟨p.line - 1, p.column - 1, by omega, by omega⟩

namespace Token

theorem counted_scanFrom (cs : List Char) : ∀ p : Place, p.Counted →
    ∀ t ∈ scanFrom p cs, t.place.Counted := by
  induction cs using cutting with
  | blank cs h =>
    intro p hp t ht
    rw [scanFrom_of_skip_nil h, List.mem_singleton] at ht
    subst ht
    exact hp.advanceAll _
  | token cs c rest h ih =>
    intro p hp t ht
    have hstart := hp.advanceAll (skip false cs).1
    rw [scanFrom_of_skip_cons h, List.mem_cons] at ht
    rcases ht with rfl | ht
    · exact hstart
    · exact ih _ (hstart.advanceAll _) t ht

end Token

/-- A syntax error stands at a place of the text. -/
theorem Datum.counted_of_readAll {source : String} {fault : SyntaxFault} {place : Place}
    (h : readAll source = .error (.syntaxError fault place)) : place.Counted := by
  have hcounted := Token.counted_scanFrom source.toList .start ⟨Nat.one_pos, Nat.one_pos⟩
  rcases ofTokens_failure h with ⟨fault', he⟩ | ⟨fault', t, ht, he⟩ | ⟨he, -⟩
  · obtain ⟨t, ht, hplace⟩ := exists_endPlace (exists_isEnd_ofText source)
    cases he
    rw [hplace]
    exact hcounted t ht
  · cases he
    exact hcounted t ht.mem
  · cases he

/-! ### Parentheses -/

namespace Editor

/-- **What can be read is balanced.** -/
theorem parenBalance_of_readAll {source : String} {ds : List Datum}
    (h : readAll source = .ok ds) : parenBalance (Token.ofText source) = 0 := by
  obtain ⟨derivations, htokens, -⟩ := Derivation.ofTokens_eq_ok_iff.1 h
  obtain ⟨ts, hts, hend⟩ := Token.exists_scanFrom_eq source.toList .start
  have hbefore : beforeEnd (Token.ofText source) = ts := by
    rw [Token.ofText, hts]
    exact beforeEnd_append_cons hend rfl []
  rw [hbefore] at htokens
  have hall : parenBalance ts = 0 := by rw [← htokens, Derivation.parenBalance_tokensOfAll]
  have hlast : ∀ p, parenBalance [Token.atEnd p] = 0 := fun p => rfl
  rw [Token.ofText, hts, parenBalance_append, hall, hlast, Int.add_zero]

/-- The number of tokens of a kind. -/
def countKind (kind : Token.Kind) (ts : List Token) : Nat := ts.countP (·.kind == kind)

/-- The marks about parentheses for numbers of opening and closing ones: one at the start of the
document if the numbers differ, which says what there is too little or too much of. -/
def parenMarks (opening closing : Nat) : List Diagnostic :=
  if opening = closing then []
  else [⟨⟨0, 0, 0, 1⟩, "Unmatched parentheses detected (" ++
    (if closing < opening then "missing ')'" else "extra ')'") ++ ")", .warning, diagnosticSource⟩]

theorem balance_marks (ts : List Token) :
    (if parenBalance ts = 0 then [] else [balanceWarning (parenBalance ts)]) =
      parenMarks (countKind .leftParen ts) (countKind .rightParen ts) := by
  have hbalance : parenBalance ts =
      (countKind .leftParen ts : Int) - countKind .rightParen ts := rfl
  have hzero : parenBalance ts = 0 ↔ countKind .leftParen ts = countKind .rightParen ts := by omega
  have hpos : 0 < parenBalance ts ↔ countKind .rightParen ts < countKind .leftParen ts := by omega
  unfold parenMarks balanceWarning
  simp only [hzero, hpos]
  rfl

/-! ### All marks -/

theorem exists_index_of_readAll {source : String} {ds : List Datum} (h : readAll source = .ok ds) :
    ∃ idx, Index.ofText source = .ok idx ∧ idx.issue = none ∧
      idx.balance = parenBalance (Token.ofText source) := by
  have hissue : issue? (Token.ofText source) = .ok none := by
    have h : ofTokens (Token.ofText source) = .ok ds := h
    rw [issue?, h]
  exact ⟨_, by rw [Index.ofText, hissue]; rfl, rfl, rfl⟩

theorem exists_index_of_syntaxError {source : String} {fault : SyntaxFault} {place : Place}
    (h : readAll source = .error (.syntaxError fault place)) :
    ∃ idx, Index.ofText source = .ok idx ∧
      idx.issue = some ⟨fault.message, place.line - 1, place.column - 1⟩ ∧
      idx.balance = parenBalance (Token.ofText source) := by
  have hissue : issue? (Token.ofText source) =
      .ok (some ⟨fault.message, place.line - 1, place.column - 1⟩) := by
    have h : ofTokens (Token.ofText source) = .error (.syntaxError fault place) := h
    rw [issue?, h]
  exact ⟨_, by rw [Index.ofText, hissue]; rfl, rfl, rfl⟩

/-- **The marks are the verdict of the reader.** A document without dates outside the calendar has no
marks exactly if it can be read. Otherwise the syntax error is marked with its reason, at its place
counted from 0, and the parentheses are marked as their numbers say. -/
theorem diagnostics_verdict (source : String)
    (hdates : ∀ t ∈ Token.ofText source, ¬ Derivation.OutOfCalendar t) :
    ∃ idx, Index.ofText source = .ok idx ∧
      (diagnostics idx = [] ↔ ∃ ds, readAll source = .ok ds) ∧
      ∀ e, readAll source = .error e →
        ∃ fault place line column, e = .syntaxError fault place ∧
          place.line = line + 1 ∧ place.column = column + 1 ∧
          diagnostics idx = ⟨⟨line, column, line, column + 1⟩, fault.message, .error, diagnosticSource⟩ ::
            parenMarks (countKind .leftParen (Token.ofText source))
              (countKind .rightParen (Token.ofText source)) := by
  cases hread : readAll source with
  | ok ds =>
    obtain ⟨idx, hidx, hissue, hbalance⟩ := exists_index_of_readAll hread
    have hnone : diagnostics idx = [] := by
      rw [diagnostics, hissue, hbalance, parenBalance_of_readAll hread]
      rfl
    exact ⟨idx, hidx, iff_of_true hnone ⟨ds, rfl⟩, fun e he => by cases he⟩
  | error e =>
    rcases Derivation.ofTokens_eq_error hread with ⟨fault, place, rfl⟩ | ⟨t, ht, hout⟩
    · obtain ⟨idx, hidx, hissue, hbalance⟩ := exists_index_of_syntaxError hread
      obtain ⟨line, column, hline, hcolumn⟩ := (counted_of_readAll hread).exists_eq
      have hmarks : diagnostics idx =
          ⟨⟨line, column, line, column + 1⟩, fault.message, .error, diagnosticSource⟩ ::
            parenMarks (countKind .leftParen (Token.ofText source))
              (countKind .rightParen (Token.ofText source)) := by
        rw [diagnostics, hissue, hbalance, balance_marks, hline, hcolumn]
        rfl
      refine ⟨idx, hidx, iff_of_false ?_ ?_, fun e he => ?_⟩
      · rw [hmarks]
        exact List.cons_ne_nil _ _
      · rintro ⟨ds, hds⟩
        cases hds
      · cases he
        exact ⟨fault, place, line, column, rfl, hline, hcolumn, hmarks⟩
    · exact absurd hout (hdates t ht)

/-- A parenthesis in a string does not count: the text `(f ")"` is marked at its end and as one that
lacks a parenthesis. -/
theorem diagnostics_verdict_string :
    (∀ t ∈ Token.ofText "(f \")\"", ¬ Derivation.OutOfCalendar t) ∧
    ∃ idx, Index.ofText "(f \")\"" = .ok idx ∧ diagnostics idx =
      [⟨⟨0, 6, 0, 7⟩, "Expected ')' at end of list", .error, "attolisp-ls"⟩,
        ⟨⟨0, 0, 0, 1⟩, "Unmatched parentheses detected (missing ')')", .warning, "attolisp-ls"⟩] := by
  have htokens : Token.ofText "(f \")\"" = [⟨.leftParen, "(", ⟨0, 1, 1⟩⟩, ⟨.symbol, "f", ⟨1, 1, 2⟩⟩,
      ⟨.string, ")", ⟨3, 1, 4⟩⟩, .atEnd ⟨6, 1, 7⟩] := by decide +kernel
  have hdates : ∀ t ∈ Token.ofText "(f \")\"", ¬ Derivation.OutOfCalendar t := by
    rw [htokens]
    simp [Derivation.OutOfCalendar, Token.atEnd]
  have hread : readAll "(f \")\"" = .error (.syntaxError .unclosedList ⟨6, 1, 7⟩) := by
    rw [readAll, htokens]
    rfl
  obtain ⟨idx, hidx, -, hmarks⟩ := diagnostics_verdict "(f \")\"" hdates
  obtain ⟨fault, place, line, column, he, hline, hcolumn, hall⟩ := hmarks _ hread
  cases he
  cases hline
  cases hcolumn
  refine ⟨hdates, idx, hidx, ?_⟩
  rw [hall, htokens]
  decide

end Editor

end MiniLisp
