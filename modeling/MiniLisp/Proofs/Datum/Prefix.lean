import MiniLisp.Proofs.Datum.Steps
import MiniLisp.Proofs.Except

/-! # Where a syntax error is reported

Reading stops at the first token after which nothing can be read any more. For as long as tokens are
taken, what they leave open can be finished: a symbol ends every quotation that waits for its datum, and
then each open list takes a closing parenthesis (`Reading.exists_closed`). So the tokens before a syntax
error have completions that are read, and with the token at its place they have none
(`Datum.syntaxError_first`). -/

namespace MiniLisp

namespace Reading

/-! ### Finishing what is open -/

/-- How many lists are open. -/
def openLists : List Opening → Nat
  | [] => 0
  | .list _ :: opened => openLists opened + 1
  | .quote :: opened => openLists opened

/-- After a datum no quotation waits: nothing is open, or a list is innermost. -/
theorem opened_put (done : List Datum) : ∀ (opened : List Opening) (d : Datum),
    (openLists opened = 0 ∧ (put done d opened).opened = []) ∨
      ∃ items rest, openLists opened = openLists rest + 1 ∧
        (put done d opened).opened = .list items :: rest
  | [], _ => .inl ⟨rfl, rfl⟩
  | .quote :: opened, d => opened_put done opened d.quoted
  | .list items :: opened, d => .inr ⟨d :: items, opened, rfl, rfl⟩

theorem step_closer {r : Reading} {t : Token} {items : List Datum} {rest : List Opening}
    (hkind : t.kind = .rightParen) (hopened : r.opened = .list items :: rest) :
    r.step t = .ok (put r.done (.list items.reverse) rest) := by
  simp only [step, hkind, hopened]

/-- **After a datum**, as many closing parentheses as lists are open leave nothing open. -/
theorem exists_closed_put {closer : Token} (hkind : closer.kind = .rightParen) :
    ∀ (n : Nat) (done : List Datum) (d : Datum) (opened : List Opening), openLists opened = n →
      ∃ r, (put done d opened).steps (List.replicate n closer) = .ok r ∧ r.opened = [] := by
  intro n
  induction n with
  | zero =>
    intro done d opened hn
    rcases opened_put done opened d with ⟨-, hnone⟩ | ⟨items, rest, hlists, -⟩
    · exact ⟨_, rfl, hnone⟩
    · omega
  | succ n ih =>
    intro done d opened hn
    rcases opened_put done opened d with ⟨hzero, -⟩ | ⟨items, rest, hlists, hopened⟩
    · omega
    · obtain ⟨r, hr, hnone⟩ := ih (put done d opened).done (.list items.reverse) rest (by omega)
      refine ⟨r, ?_, hnone⟩
      rw [List.replicate_succ, steps, step_closer hkind hopened]
      exact hr

/-- The tokens that finish what is open: a symbol, and a closing parenthesis for each list. -/
def closing (opened : List Opening) : List Token :=
  ⟨.symbol, "x", .start⟩ :: List.replicate (openLists opened) ⟨.rightParen, ")", .start⟩

theorem isEnd_of_mem_closing {opened : List Opening} {t : Token} (h : t ∈ closing opened) :
    t.isEnd = false := by
  rcases List.mem_cons.mp h with rfl | h
  · rfl
  · rw [List.eq_of_mem_replicate h]
    rfl

/-- **Whatever is open** can be finished. -/
theorem exists_closed (r : Reading) : ∃ r', r.steps (closing r.opened) = .ok r' ∧ r'.opened = [] :=
  exists_closed_put rfl _ r.done (.atom (.ofName "x")) r.opened rfl

/-! ### Taking fewer tokens -/

theorem exists_steps_of_prefix {r r' : Reading} {ts us : List Token} (hinit : ts <+: us)
    (h : r.steps us = .ok r') : ∃ r₁, r.steps ts = .ok r₁ := by
  obtain ⟨rest, rfl⟩ := hinit
  rw [steps_append] at h
  obtain ⟨r₁, hr₁, -⟩ := Except.bind_eq_ok.1 h
  exact ⟨r₁, hr₁⟩

end Reading

namespace Datum

open Reading

/-! ### Tokens that can still be read -/

/-- The tokens read as data. -/
def IsRead (ts : List Token) : Prop := ∃ ds, ofTokens ts = .ok ds

/-- Some tokens and an end after these tokens make them tokens that are read. -/
def Completable (ts : List Token) : Prop :=
  ∃ us place, (∀ u ∈ us, u.isEnd = false) ∧ IsRead (ts ++ us ++ [.atEnd place])

/-- **Tokens that were taken can be completed.** -/
theorem completable_of_steps {ts : List Token} {r : Reading} (hts : ∀ t ∈ ts, t.isEnd = false)
    (h : Reading.empty.steps ts = .ok r) : Completable ts := by
  obtain ⟨r', hr', hopened⟩ := exists_closed r
  have hend : ∀ t ∈ ts ++ closing r.opened, t.isEnd = false := by
    intro t ht
    rcases List.mem_append.mp ht with ht | ht
    · exact hts t ht
    · exact isEnd_of_mem_closing ht
  have hsteps : Reading.empty.steps (ts ++ closing r.opened) = .ok r' := by
    rw [steps_append, h]
    exact hr'
  refine ⟨closing r.opened, .start, fun u hu => isEnd_of_mem_closing hu, r'.done.reverse, ?_⟩
  rw [ofTokens, beforeEnd_append_cons hend rfl, hsteps]
  simp only [finish, hopened]

theorem completable_of_prefix {before ts : List Token} {r : Reading} (hts : ts <+: before)
    (hbefore : ∀ t ∈ before, t.isEnd = false) (h : Reading.empty.steps before = .ok r) :
    Completable ts := by
  obtain ⟨r₁, hr₁⟩ := exists_steps_of_prefix hts h
  exact completable_of_steps (fun t ht => hbefore t (hts.subset ht)) hr₁

/-- Tokens after which one cannot be taken are not read, whatever follows. -/
theorem not_isRead_of_step {before : List Token} {t : Token} {r : Reading} {e : Failure}
    (hbefore : ∀ u ∈ before, u.isEnd = false) (ht : t.isEnd = false)
    (hsteps : Reading.empty.steps before = .ok r) (hstep : r.step t = .error e) (us : List Token) :
    ¬ IsRead (before ++ t :: us) := by
  rintro ⟨ds, hds⟩
  have hcons : beforeEnd (t :: us) = t :: beforeEnd us := by simp [beforeEnd, ht]
  have htaken : beforeEnd (before ++ t :: us) = before ++ t :: beforeEnd us := by
    rw [beforeEnd_append hbefore, hcons]
  have herror : Reading.empty.steps (beforeEnd (before ++ t :: us)) = .error e :=
    steps_eq_error_iff.2 ⟨before, t, beforeEnd us, r, htaken, hsteps, hstep⟩
  rw [ofTokens, herror] at hds
  cases hds

/-- Tokens that end while something is open are not read, whatever follows the end. -/
theorem not_isRead_of_finish {before : List Token} {e : Token} {r : Reading} {f : Failure}
    {place : Place} (hbefore : ∀ u ∈ before, u.isEnd = false) (he : e.isEnd = true)
    (hsteps : Reading.empty.steps before = .ok r) (hfinish : r.finish place = .error f)
    (us : List Token) : ¬ IsRead (before ++ e :: us) := by
  rintro ⟨ds, hds⟩
  rw [ofTokens, beforeEnd_append_cons hbefore he, hsteps] at hds
  have hopened : r.opened = [] := (finish_eq_ok hds).1
  simp only [finish, hopened] at hfinish
  cases hfinish

/-- **A syntax error stands at the first token that nothing can follow.** Of tokens before an end that are
a syntax error, one stands at the place of the error, possibly the end: the tokens up to it are the start
of no tokens that are read, and all that is shorter can be completed. -/
theorem syntaxError_first {body : List Token} {e : Token} {fault : SyntaxFault} {place : Place}
    (hbody : ∀ t ∈ body, t.isEnd = false) (he : e.isEnd = true)
    (h : ofTokens (body ++ [e]) = .error (.syntaxError fault place)) :
    ∃ before t after, body ++ [e] = before ++ t :: after ∧ place = t.place ∧
      (∀ us, ¬ IsRead (before ++ [t] ++ us)) ∧ ∀ ts, ts <+: before → Completable ts := by
  rw [ofTokens, beforeEnd_append_cons hbody he, endPlace_append_cons hbody he] at h
  split at h
  · -- every token was taken, so the end is the one that nothing can follow
    next r hsteps =>
    obtain ⟨fault', hfault⟩ := finish_failure h
    refine ⟨body, e, [], rfl, by cases hfault; rfl, fun us => ?_, fun ts hts => ?_⟩
    · rw [List.append_assoc]
      exact not_isRead_of_finish hbody he hsteps h us
    · exact completable_of_prefix hts hbody hsteps
  · next f hf =>
    cases h
    obtain ⟨before, t, after, r, rfl, hsteps, hstep⟩ := steps_eq_error_iff.1 hf
    have hbefore : ∀ u ∈ before, u.isEnd = false := fun u hu =>
      hbody u (List.mem_append_left _ hu)
    have ht : t.isEnd = false := hbody t (List.mem_append_right _ List.mem_cons_self)
    have hplace : place = t.place := by
      rcases step_failure hstep with ⟨fault', hfault⟩ | ⟨hfault, -⟩
      · cases hfault
        rfl
      · cases hfault
    refine ⟨before, t, after ++ [e], by simp, hplace, fun us => ?_, fun ts hts => ?_⟩
    · rw [List.append_assoc]
      exact not_isRead_of_step hbefore ht hsteps hstep us
    · exact completable_of_prefix hts hbefore hsteps

/-- The tokens of `(')`. -/
def quotedCloser : List Token :=
  [⟨.leftParen, "(", ⟨0, 1, 1⟩⟩, ⟨.quote, "'", ⟨1, 1, 2⟩⟩, ⟨.rightParen, ")", ⟨2, 1, 3⟩⟩]

/-- A quote mark waits for its datum where the list is closed: the error stands at the closing
parenthesis, and the list and the quote mark before it can be completed. -/
theorem syntaxError_first_quotedCloser :
    (∀ t ∈ quotedCloser, t.isEnd = false) ∧
    ofTokens (quotedCloser ++ [.atEnd ⟨3, 1, 4⟩]) =
      .error (.syntaxError .unexpectedCloser ⟨2, 1, 3⟩) ∧
    (∀ us, ¬ IsRead (quotedCloser ++ us)) ∧ Completable (quotedCloser.take 2) := by
  have hbody : ∀ t ∈ quotedCloser, t.isEnd = false := by decide
  have hread : ofTokens (quotedCloser ++ [.atEnd ⟨3, 1, 4⟩]) =
      .error (.syntaxError .unexpectedCloser ⟨2, 1, 3⟩) := rfl
  obtain ⟨before, t, after, hsplit, hplace, hno, hshorter⟩ := syntaxError_first hbody rfl hread
  -- of the four tokens only the third stands at the place of the error
  have hbefore : before = quotedCloser.take 2 ∧ [t] = quotedCloser.drop 2 := by
    match before, hsplit with
    | [], hsplit => cases hsplit; cases hplace
    | [_], hsplit => cases hsplit; cases hplace
    | [_, _], hsplit => cases hsplit; exact ⟨rfl, rfl⟩
    | [_, _, _], hsplit => cases hsplit; cases hplace
    | _ :: _ :: _ :: _ :: before, hsplit => cases before <;> cases hsplit
  obtain ⟨rfl, ht⟩ := hbefore
  refine ⟨hbody, hread, fun us => ?_, hshorter _ (List.prefix_refl _)⟩
  rw [← List.take_append_drop 2 quotedCloser, ← ht]
  exact hno us

end Datum

end MiniLisp
