import MiniLisp.Proofs.Datum.Derivation
import MiniLisp.Proofs.Datum.Steps

/-! # The reader accepts its grammar

Reading keeps, between two tokens, derivations of all that it has finished and of what is open
(`Progress`): their tokens are the tokens read so far, in order (`exists_progress_steps`). So data that
are read have derivations (soundness); with completeness, reading succeeds exactly on the tokens of
derivations, and gives what they derive. Everything else is a syntax error, unless a date lies outside
the calendar (`ofTokens_grammar`). -/

namespace MiniLisp

namespace Derivation

open Reading Datum

/-- What is open, with the derivations of its items, newest first. -/
inductive Pending where
  | list (opener : Token) (items : List Derivation) (opens : opener.kind = .leftParen)
  | quote (mark : Token) (kind : mark.kind = .quote)

/-- What reading sees of it. -/
def Pending.opening : Pending → Opening
  | .list _ items _ => .list (items.map datum)
  | .quote .. => .quote

/-- The tokens read since it was opened. -/
def Pending.tokens : Pending → List Token
  | .list opener items _ => opener :: tokensOfAll items.reverse
  | .quote mark _ => [mark]

/-- Derivations of what was read, newest first. -/
structure Progress where
  done : List Derivation
  opened : List Pending

namespace Progress

/-- What reading sees of it. -/
def reading (p : Progress) : Reading := ⟨p.done.map datum, p.opened.map Pending.opening⟩

/-- The tokens read so far. -/
def tokens (p : Progress) : List Token :=
  tokensOfAll p.done.reverse ++ p.opened.reverse.flatMap Pending.tokens

/-- Puts a finished derivation into what is open. -/
def put (done : List Derivation) (d : Derivation) : List Pending → Progress
  | [] => ⟨d :: done, []⟩
  | .quote mark kind :: opened => put done (.quote mark d kind) opened
  | .list opener items opens :: opened => ⟨done, .list opener (d :: items) opens :: opened⟩

theorem reading_put (done : List Derivation) : ∀ (opened : List Pending) (d : Derivation),
    (put done d opened).reading =
      Reading.put (done.map datum) d.datum (opened.map Pending.opening)
  | [], _ => rfl
  | .quote mark kind :: opened, d => reading_put done opened (.quote mark d kind)
  | .list .. :: _, _ => rfl

theorem tokens_put (done : List Derivation) : ∀ (opened : List Pending) (d : Derivation),
    (put done d opened).tokens = tokens ⟨done, opened⟩ ++ d.tokens
  | [], d => by
    simp only [put, tokens, List.reverse_cons, tokensOfAll_append, tokensOfAll, List.reverse_nil,
      List.flatMap_nil, List.append_nil]
  | .quote mark kind :: opened, d => by
    rw [put, tokens_put done opened]
    simp only [tokens, List.reverse_cons, List.flatMap_append, List.flatMap_cons, List.flatMap_nil,
      Pending.tokens, Derivation.tokens, List.append_nil, List.append_assoc, List.singleton_append]
  | .list opener items opens :: opened, d => by
    simp only [put, tokens, List.reverse_cons, List.flatMap_append, List.flatMap_cons,
      List.flatMap_nil, Pending.tokens, tokensOfAll_append, tokensOfAll, List.append_nil,
      List.append_assoc, List.cons_append]

/-- Finishing a derivation of one token. -/
theorem exists_of_tokens_eq {p : Progress} {d : Derivation} {t : Token} {r : Reading}
    (hd : d.tokens = [t]) (hr : Reading.put p.reading.done d.datum p.reading.opened = r) :
    ∃ q : Progress, q.reading = r ∧ q.tokens = p.tokens ++ [t] :=
  ⟨put p.done d p.opened, by rw [reading_put, ← hr]; rfl, by rw [tokens_put, hd]⟩

/-- Opening a list or a quotation. -/
theorem exists_of_opening {p : Progress} {o : Pending} {t : Token} {r : Reading}
    (ho : o.tokens = [t]) (hr : Reading.mk p.reading.done (o.opening :: p.reading.opened) = r) :
    ∃ q : Progress, q.reading = r ∧ q.tokens = p.tokens ++ [t] := by
  refine ⟨⟨p.done, o :: p.opened⟩, hr, ?_⟩
  simp only [tokens, List.reverse_cons, List.flatMap_append, List.flatMap_cons, List.flatMap_nil,
    ho, List.append_nil, List.append_assoc]

/-- Closing a list. -/
theorem exists_of_closing {p : Progress} {t : Token} {items : List Datum} {opened : List Opening}
    (ht : t.kind = .rightParen) (ho : p.reading.opened = .list items :: opened) :
    ∃ q : Progress, q.reading = Reading.put p.reading.done (.list items.reverse) opened ∧
      q.tokens = p.tokens ++ [t] := by
  obtain ⟨done, pending⟩ := p
  match pending, ho with
  | .list opener ds opens :: pending, ho =>
    cases ho
    refine ⟨put done (.list opener ds.reverse t opens ht) pending, ?_, ?_⟩
    · rw [reading_put, datum, data_eq_map, List.map_reverse]
      rfl
    · rw [tokens_put]
      simp only [tokens, Derivation.tokens, List.reverse_cons, List.flatMap_append,
        List.flatMap_cons, List.flatMap_nil, Pending.tokens, List.append_nil, List.append_assoc,
        List.cons_append]

/-- **One token further**, the derivations account for that token. -/
theorem exists_progress_step {p : Progress} {t : Token} {r : Reading} (hend : t.isEnd = false)
    (h : p.reading.step t = .ok r) : ∃ q : Progress, q.reading = r ∧ q.tokens = p.tokens ++ [t] := by
  unfold step at h
  split at h
  · next hk =>
    split at h <;> cases h
    next n hn => exact exists_of_tokens_eq (d := .number t n hk hn) rfl rfl
  · next hk =>
    cases h
    exact exists_of_tokens_eq (d := .string t hk) rfl rfl
  · next hk =>
    cases h
    exact exists_of_tokens_eq (d := .symbol t hk) rfl rfl
  · next hk =>
    split at h <;> cases h
    next d hd => exact exists_of_tokens_eq (d := .date t d hk hd) rfl rfl
  · next hk =>
    cases h
    exact exists_of_opening (o := .list t [] hk) rfl rfl
  · next hk =>
    cases h
    exact exists_of_opening (o := .quote t hk) rfl rfl
  · next hk =>
    split at h <;> cases h
    next items opened ho => exact exists_of_closing hk ho
  · next hk =>
    rw [Token.isEnd, hk] at hend
    cases hend

/-- **After any number of tokens**, the derivations account for all of them. -/
theorem exists_progress_steps : ∀ {ts : List Token} {p : Progress} {r : Reading},
    (∀ t ∈ ts, t.isEnd = false) → p.reading.steps ts = .ok r →
      ∃ q : Progress, q.reading = r ∧ q.tokens = p.tokens ++ ts
  | [], p, r, _, h => by
    cases h
    exact ⟨p, rfl, (List.append_nil _).symm⟩
  | t :: ts, p, r, hend, h => by
    rw [List.forall_mem_cons] at hend
    unfold steps at h
    split at h
    · next r' hr' =>
      obtain ⟨q, rfl, hq⟩ := exists_progress_step hend.1 hr'
      obtain ⟨q', hr, hq'⟩ := exists_progress_steps hend.2 h
      exact ⟨q', hr, by rw [hq', hq, List.append_assoc, List.singleton_append]⟩
    · cases h

end Progress

/-! ### Failures of reading -/

/-- The date lies outside the calendar. -/
def OutOfCalendar (t : Token) : Prop :=
  t.kind = .date ∧ DateTime.ofText t.value = .error .outOfCalendar

/-- Reading fails with a syntax error, unless a date lies outside the calendar. -/
theorem ofTokens_eq_error {ts : List Token} {e : Failure} (h : ofTokens ts = .error e) :
    (∃ fault place, e = .syntaxError fault place) ∨ ∃ t ∈ ts, OutOfCalendar t := by
  rcases ofTokens_failure h with ⟨fault, rfl⟩ | ⟨fault, t, -, rfl⟩ | ⟨-, t, ht, hkind, hd⟩
  · exact .inl ⟨fault, _, rfl⟩
  · exact .inl ⟨fault, _, rfl⟩
  · exact .inr ⟨t, ht.mem, hkind, hd⟩

/-! ### Soundness and completeness -/

theorem isEnd_of_mem_beforeEnd {ts : List Token} {t : Token} (h : t ∈ beforeEnd ts) :
    t.isEnd = false := by
  have := List.all_eq_true.1 List.all_takeWhile t h
  rwa [Bool.not_eq_true'] at this

/-- **Reading succeeds exactly on derivations**, with the data that they derive. -/
theorem ofTokens_eq_ok_iff {ts : List Token} {fs : List Datum} :
    ofTokens ts = .ok fs ↔ ∃ ds, tokensOfAll ds = beforeEnd ts ∧ data ds = fs := by
  constructor
  · intro h
    unfold ofTokens at h
    split at h
    · next r hr =>
      obtain ⟨q, rfl, hq⟩ := Progress.exists_progress_steps (p := ⟨[], []⟩)
        (fun t ht => isEnd_of_mem_beforeEnd ht) hr
      obtain ⟨ho, rfl⟩ := finish_eq_ok h
      have hopened : q.opened = [] := List.map_eq_nil_iff.1 ho
      refine ⟨q.done.reverse, ?_, ?_⟩
      · rw [Progress.tokens, hopened] at hq
        simpa [Progress.tokens, tokensOfAll] using hq
      · rw [data_eq_map, List.map_reverse]
        rfl
    · cases h
  · rintro ⟨ds, hds, rfl⟩
    have hsteps : Reading.empty.steps (beforeEnd ts) = .ok ⟨(data ds).reverse, []⟩ := by
      have h := steps_tokensOfAll ds Reading.empty []
      rw [List.append_nil, hds, Reading.empty, putAll_nil, List.append_nil] at h
      exact h
    unfold ofTokens
    rw [hsteps]
    simp only [finish, List.reverse_reverse]

mutual

theorem isEnd_of_mem_tokens : ∀ (d : Derivation) {t : Token}, t ∈ d.tokens → t.isEnd = false
  | .number t _ kind _, t', h => by rw [List.mem_singleton.1 h, Token.isEnd, kind]; rfl
  | .string t kind, t', h => by rw [List.mem_singleton.1 h, Token.isEnd, kind]; rfl
  | .date t _ kind _, t', h => by rw [List.mem_singleton.1 h, Token.isEnd, kind]; rfl
  | .symbol t kind, t', h => by rw [List.mem_singleton.1 h, Token.isEnd, kind]; rfl
  | .list opener items closer opens closes, t', h => by
    rw [tokens, List.mem_cons, List.mem_append, List.mem_singleton] at h
    rcases h with rfl | h | rfl
    · rw [Token.isEnd, opens]
      rfl
    · exact isEnd_of_mem_tokensOfAll items h
    · rw [Token.isEnd, closes]
      rfl
  | .quote mark inner kind, t', h => by
    rw [tokens, List.mem_cons] at h
    rcases h with rfl | h
    · rw [Token.isEnd, kind]
      rfl
    · exact isEnd_of_mem_tokens inner h

theorem isEnd_of_mem_tokensOfAll : ∀ (ds : List Derivation) {t : Token},
    t ∈ tokensOfAll ds → t.isEnd = false
  | [], _, h => by cases h
  | d :: ds, _, h => by
    rw [tokensOfAll, List.mem_append] at h
    rcases h with h | h
    · exact isEnd_of_mem_tokens d h
    · exact isEnd_of_mem_tokensOfAll ds h

end

/-- Derivations take no end, so what they take stands before it. -/
theorem beforeEnd_tokensOfAll (ds : List Derivation) (p : Place) :
    beforeEnd (tokensOfAll ds ++ [.atEnd p]) = tokensOfAll ds :=
  beforeEnd_append_cons (fun _ => isEnd_of_mem_tokensOfAll ds) rfl []

/-! ### Where `nil` comes from -/

/-- The token is a symbol that spells `nil`. -/
def spellsNil (t : Token) : Bool := t.kind == .symbol && Atom.ofName t.value == .nil

mutual

/-- How often `nil` occurs in a datum. -/
def nils : Datum → Nat
  | .atom a => if a = .nil then 1 else 0
  | .list items => nilsOfAll items

/-- How often `nil` occurs in some data. -/
def nilsOfAll : List Datum → Nat
  | [] => 0
  | d :: ds => nils d + nilsOfAll ds

end

mutual

theorem nils_datum : ∀ d : Derivation, nils d.datum = d.tokens.countP spellsNil
  | .number t n kind _ => by simp [datum, nils, tokens, spellsNil, kind]
  | .string t kind => by simp [datum, nils, tokens, spellsNil, kind]
  | .date t d kind _ => by simp [datum, nils, tokens, spellsNil, kind]
  | .symbol t kind => by simp [datum, nils, tokens, spellsNil, kind, List.countP_singleton]
  | .list opener items closer opens closes => by
    have hopen : spellsNil opener = false := by rw [spellsNil, opens]; rfl
    have hclose : spellsNil closer = false := by rw [spellsNil, closes]; rfl
    rw [datum, nils, nilsOfAll_data items, tokens, List.countP_cons_of_neg (by simp [hopen]),
      List.countP_append, List.countP_singleton, hclose]
    rfl
  | .quote mark inner kind => by
    have hmark : spellsNil mark = false := by rw [spellsNil, kind]; rfl
    rw [tokens, List.countP_cons_of_neg (by simp [hmark]), ← nils_datum inner]
    simp [datum, Datum.quoted, Datum.symbol, nils, nilsOfAll]

theorem nilsOfAll_data : ∀ ds : List Derivation,
    nilsOfAll (data ds) = (tokensOfAll ds).countP spellsNil
  | [] => rfl
  | d :: ds => by
    rw [data, nilsOfAll, nils_datum d, nilsOfAll_data ds, tokensOfAll, List.countP_append]

end

/-- **Reading accepts exactly its grammar.** The data are those of the derivations, which take every
token before the end once and are unique; a `nil` in the data comes from a symbol that spells it; and
tokens without derivations are a syntax error if the calendar has all their dates. -/
theorem ofTokens_grammar (ts : List Token) :
    (∀ fs, ofTokens ts = .ok fs ↔ ∃ ds, tokensOfAll ds = beforeEnd ts ∧ data ds = fs) ∧
    (∀ ds es, tokensOfAll ds = beforeEnd ts → tokensOfAll es = beforeEnd ts → ds = es) ∧
    (∀ fs, ofTokens ts = .ok fs → nilsOfAll fs = (beforeEnd ts).countP spellsNil) ∧
    ((∀ t ∈ ts, ¬ OutOfCalendar t) → (¬ ∃ ds, tokensOfAll ds = beforeEnd ts) →
      ∃ fault place, ofTokens ts = .error (.syntaxError fault place)) := by
  refine ⟨fun fs => ofTokens_eq_ok_iff, fun ds es hd he => ?_, fun fs h => ?_, fun hdates hno => ?_⟩
  · exact tokensOfAll_injective (by rw [hd, he])
  · obtain ⟨ds, hds, rfl⟩ := ofTokens_eq_ok_iff.1 h
    rw [nilsOfAll_data, hds]
  · cases h : ofTokens ts with
    | ok fs =>
      obtain ⟨ds, hds, -⟩ := ofTokens_eq_ok_iff.1 h
      exact absurd ⟨ds, hds⟩ hno
    | error e =>
      rcases ofTokens_eq_error h with ⟨fault, place, rfl⟩ | ⟨t, ht, hd⟩
      · exact ⟨fault, place, rfl⟩
      · exact absurd hd (hdates t ht)

/-- The tokens of `'(1 NIL)`. -/
def quotedPair : List Token :=
  [⟨.quote, "'", ⟨0, 1, 1⟩⟩, ⟨.leftParen, "(", ⟨1, 1, 2⟩⟩, ⟨.number, "1", ⟨2, 1, 3⟩⟩,
    ⟨.symbol, "NIL", ⟨4, 1, 5⟩⟩, ⟨.rightParen, ")", ⟨7, 1, 8⟩⟩, .atEnd ⟨8, 1, 9⟩]

/-- The derivation of `'(1 NIL)`. -/
def quotedPairDerivation : Derivation :=
  .quote ⟨.quote, "'", ⟨0, 1, 1⟩⟩
    (.list ⟨.leftParen, "(", ⟨1, 1, 2⟩⟩
      [.number ⟨.number, "1", ⟨2, 1, 3⟩⟩ (.int 1) rfl rfl, .symbol ⟨.symbol, "NIL", ⟨4, 1, 5⟩⟩ rfl]
      ⟨.rightParen, ")", ⟨7, 1, 8⟩⟩ rfl rfl) rfl

/-- A quoted list has its one derivation and its one `nil`, and the same tokens without the opening
parenthesis are a syntax error. -/
theorem ofTokens_grammar_quotedPair :
    ofTokens quotedPair = .ok [Datum.quoted (.list [.atom (.number (.int 1)), .atom .nil])] ∧
    (∀ ds, tokensOfAll ds = beforeEnd quotedPair → ds = [quotedPairDerivation]) ∧
    nilsOfAll [Datum.quoted (.list [.atom (.number (.int 1)), .atom .nil])] = 1 ∧
    ∃ fault place, ofTokens (quotedPair.eraseIdx 1) = .error (.syntaxError fault place) := by
  have hnil : Atom.ofName "NIL" = .nil := by decide +kernel
  have hread : ofTokens quotedPair =
      .ok [Datum.quoted (.list [.atom (.number (.int 1)), .atom .nil])] := by
    refine ((ofTokens_grammar quotedPair).1 _).2 ⟨[quotedPairDerivation], rfl, ?_⟩
    simp only [data, datum, quotedPairDerivation, hnil]
  refine ⟨hread, fun ds hds => (ofTokens_grammar quotedPair).2.1 ds _ hds rfl, ?_, ?_⟩
  · rw [(ofTokens_grammar quotedPair).2.2.1 _ hread]
    decide +kernel
  · refine (ofTokens_grammar _).2.2.2 ?_ ?_
    · simp [quotedPair, OutOfCalendar, Token.atEnd]
    · rintro ⟨ds, hds⟩
      cases ((ofTokens_grammar _).1 _).2 ⟨ds, hds, rfl⟩

end Derivation

end MiniLisp
