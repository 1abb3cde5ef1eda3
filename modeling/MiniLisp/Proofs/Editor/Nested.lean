import MiniLisp.Proofs.Datum.Grammar
import MiniLisp.Proofs.Editor.Elements

/-! # Lists at any depth

The reader builds a list for every parenthesis that opens, also inside other lists and after quote
marks: among the tokens of derivations, each such parenthesis is where the derivation of a list starts
(`exists_list_of_getElem?_tokensOfAll`). What starts at a token, at whatever depth, stands there with
all of its tokens (`StartsAt.stands`), so the scan of the index finds the elements of each of these lists
and its end (`elementsAt_lists`). -/

namespace MiniLisp

open Editor

namespace Derivation

/-! ### Where derivations start -/

/-- **The derivation `e` starts at the token `i`**, where some derivations take tokens from a number on:
it is one of them, or it starts among the items of a list, or it is in what a quotation quotes. -/
inductive StartsAt (i : Nat) (e : Derivation) : Nat → List Derivation → Prop where
  | here (ds : List Derivation) : StartsAt i e i (e :: ds)
  | later {start : Nat} {d : Derivation} {ds : List Derivation}
      (h : StartsAt i e (start + d.tokens.length) ds) : StartsAt i e start (d :: ds)
  | item {start : Nat} {opener closer : Token} {items : List Derivation}
      {opens : opener.kind = .leftParen} {closes : closer.kind = .rightParen}
      (h : StartsAt i e (start + 1) items) (ds : List Derivation) :
      StartsAt i e start (.list opener items closer opens closes :: ds)
  | quoted {start : Nat} {mark : Token} {inner : Derivation} {kind : mark.kind = .quote}
      (h : StartsAt i e (start + 1) [inner]) (ds : List Derivation) :
      StartsAt i e start (.quote mark inner kind :: ds)

theorem prefix_drop_of_append {all ts us : List Token} {i : Nat} (h : ts ++ us <+: all.drop i) :
    us <+: all.drop (i + ts.length) := by
  obtain ⟨rest, h⟩ := h
  refine ⟨rest, ?_⟩
  rw [← List.drop_drop, ← h, List.append_assoc, List.drop_left]

/-- **A derivation stands where it starts**, at any depth. -/
theorem StartsAt.stands {all : List Token} {i start : Nat} {e : Derivation} {ds : List Derivation}
    (h : StartsAt i e start ds) (hds : tokensOfAll ds <+: all.drop start) : Stands all i e := by
  induction h with
  | here ds => exact (List.prefix_append _ _).trans hds
  | later h ih => exact ih (prefix_drop_of_append hds)
  | @item start opener closer items _ _ h ds ih =>
    refine ih ?_
    rw [tokensOfAll, tokens, List.cons_append, ← List.singleton_append, List.append_assoc] at hds
    exact (List.prefix_append _ _).trans (prefix_drop_of_append hds)
  | @quoted start mark inner _ h ds ih =>
    refine ih ?_
    rw [tokensOfAll, tokens, List.cons_append, ← List.singleton_append] at hds
    have hinner := (List.prefix_append _ _).trans (prefix_drop_of_append hds)
    rwa [tokensOfAll, tokensOfAll, List.append_nil]

/-- At most one derivation stands at a token. -/
theorem Stands.eq {all : List Token} {i : Nat} {d e : Derivation} (hd : Stands all i d)
    (he : Stands all i e) : d = e := by
  obtain ⟨rest, hd⟩ := hd
  obtain ⟨rest', he⟩ := he
  exact (tokens_append_inj d e (hd.trans he.symm)).1

/-! ### Every parenthesis that opens -/

theorem getElem?_singleton_ne {t opener : Token} {k : Nat} (opens : opener.kind = .leftParen)
    (ht : t.kind ≠ .leftParen) : [t][k]? ≠ some opener := fun h => by
  rw [List.mem_singleton.mp (List.mem_of_getElem? h)] at opens
  exact ht opens

mutual

/-- A parenthesis that opens among the tokens of a derivation starts a list in it. -/
theorem exists_list_of_getElem?_tokens {opener : Token} (opens : opener.kind = .leftParen) :
    ∀ (d : Derivation) {k : Nat} (start : Nat) (ds : List Derivation), d.tokens[k]? = some opener →
      ∃ items closer closes,
        StartsAt (start + k) (.list opener items closer opens closes) start (d :: ds)
  | .number _ _ kind _, _, _, _, h => absurd h (getElem?_singleton_ne opens (by rw [kind]; decide))
  | .string _ kind, _, _, _, h => absurd h (getElem?_singleton_ne opens (by rw [kind]; decide))
  | .date _ _ kind _, _, _, _, h => absurd h (getElem?_singleton_ne opens (by rw [kind]; decide))
  | .symbol _ kind, _, _, _, h => absurd h (getElem?_singleton_ne opens (by rw [kind]; decide))
  | .list t items closer opens' closes, k, start, ds, h => by
    rw [tokens] at h
    cases k with
    | zero =>
      cases h
      exact ⟨items, closer, closes, .here ds⟩
    | succ k =>
      rw [List.getElem?_cons_succ, List.getElem?_append] at h
      split at h
      · obtain ⟨items', closer', closes', hstarts⟩ :=
          exists_list_of_getElem?_tokensOfAll opens items (start + 1) h
        rw [Nat.add_right_comm] at hstarts
        exact ⟨items', closer', closes', .item hstarts ds⟩
      · have hcloser := List.mem_of_getElem? h
        rw [List.mem_singleton.mp hcloser, closes] at opens
        cases opens
  | .quote mark inner kind, k, start, ds, h => by
    rw [tokens] at h
    cases k with
    | zero =>
      cases h
      rw [kind] at opens
      cases opens
    | succ k =>
      rw [List.getElem?_cons_succ] at h
      obtain ⟨items, closer, closes, hstarts⟩ :=
        exists_list_of_getElem?_tokens opens inner (start + 1) [] h
      rw [Nat.add_right_comm] at hstarts
      exact ⟨items, closer, closes, .quoted hstarts ds⟩

/-- **Every parenthesis that opens** among the tokens of derivations starts a list. -/
theorem exists_list_of_getElem?_tokensOfAll {opener : Token} (opens : opener.kind = .leftParen) :
    ∀ (ds : List Derivation) {k : Nat} (start : Nat), (tokensOfAll ds)[k]? = some opener →
      ∃ items closer closes,
        StartsAt (start + k) (.list opener items closer opens closes) start ds
  | [], k, start, h => by cases h
  | d :: ds, k, start, h => by
    rw [tokensOfAll, List.getElem?_append] at h
    split at h
    · exact exists_list_of_getElem?_tokens opens d start ds h
    · next hlen =>
      obtain ⟨items, closer, closes, hstarts⟩ :=
        exists_list_of_getElem?_tokensOfAll opens ds (start + d.tokens.length) h
      have hk : start + d.tokens.length + (k - d.tokens.length) = start + k := by omega
      rw [hk] at hstarts
      exact ⟨items, closer, closes, .later hstarts⟩

end

/-! ### Every list -/

/-- **The scan finds the elements of every list.** Where tokens are read, each parenthesis that opens
before the end starts exactly one derivation among those of all that is read, and that is one of a list.
The elements that the scan finds from this parenthesis are where the items of the list start, one after
the other, each with all of its quote marks; and the scan ends at the token that closes the list. -/
theorem elementsAt_lists {ts : List Token} {fs : List Datum} (h : Datum.ofTokens ts = .ok fs) :
    ∃ ds, tokensOfAll ds = Datum.beforeEnd ts ∧ data ds = fs ∧
      ∀ (i : Nat) (opener : Token), (Datum.beforeEnd ts)[i]? = some opener → opener.kind = .leftParen →
        ∃ items closer opens closes,
          (∀ e, StartsAt i e 0 ds ↔ e = .list opener items closer opens closes) ∧
          elementsAt ts i = (starts (i + 1) items, i + 1 + (tokensOfAll items).length) ∧
          List.Forall₂ (Stands ts) (elementsAt ts i).1 items ∧
          ts[(elementsAt ts i).2]? = some closer := by
  obtain ⟨ds, hds, hdata⟩ := ofTokens_eq_ok_iff.mp h
  have hprefix : tokensOfAll ds <+: ts.drop 0 := hds ▸ List.takeWhile_prefix _
  refine ⟨ds, hds, hdata, fun i opener hi opens => ?_⟩
  rw [← hds] at hi
  obtain ⟨items, closer, closes, hstarts⟩ := exists_list_of_getElem?_tokensOfAll opens ds 0 hi
  rw [Nat.zero_add] at hstarts
  have hstands := hstarts.stands hprefix
  refine ⟨items, closer, opens, closes, fun e => ⟨fun he => ?_, ?_⟩, hstands.elementsAt_eq,
    stands_elementsAt hstands, ?_⟩
  · exact (he.stands hprefix).eq hstands
  · rintro rfl
    exact hstarts
  · rw [hstands.elementsAt_eq]
    exact hstands.getElem?_closer

/-- The tokens of `(f ''(g) ())`, on the second line of a text. -/
def nestedQuotes : List Token :=
  [⟨.leftParen, "(", ⟨1, 2, 1⟩⟩, ⟨.symbol, "f", ⟨2, 2, 2⟩⟩, ⟨.quote, "'", ⟨4, 2, 4⟩⟩,
    ⟨.quote, "'", ⟨5, 2, 5⟩⟩, ⟨.leftParen, "(", ⟨6, 2, 6⟩⟩, ⟨.symbol, "g", ⟨7, 2, 7⟩⟩,
    ⟨.rightParen, ")", ⟨8, 2, 8⟩⟩, ⟨.leftParen, "(", ⟨10, 2, 10⟩⟩, ⟨.rightParen, ")", ⟨11, 2, 11⟩⟩,
    ⟨.rightParen, ")", ⟨12, 2, 12⟩⟩, .atEnd ⟨13, 2, 13⟩]

/-- The derivation of `(g)` in it. -/
def nestedQuotesInner : Derivation :=
  .list ⟨.leftParen, "(", ⟨6, 2, 6⟩⟩ [.symbol ⟨.symbol, "g", ⟨7, 2, 7⟩⟩ rfl]
    ⟨.rightParen, ")", ⟨8, 2, 8⟩⟩ rfl rfl

/-- The derivation of all of it. -/
def nestedQuotesDerivation : Derivation :=
  .list ⟨.leftParen, "(", ⟨1, 2, 1⟩⟩
    [.symbol ⟨.symbol, "f", ⟨2, 2, 2⟩⟩ rfl,
      .quote ⟨.quote, "'", ⟨4, 2, 4⟩⟩ (.quote ⟨.quote, "'", ⟨5, 2, 5⟩⟩ nestedQuotesInner rfl) rfl,
      .list ⟨.leftParen, "(", ⟨10, 2, 10⟩⟩ [] ⟨.rightParen, ")", ⟨11, 2, 11⟩⟩ rfl rfl]
    ⟨.rightParen, ")", ⟨12, 2, 12⟩⟩ rfl rfl

/-- A list after two quote marks is one element together with them, and its own elements are found as
well; a list in the last place is an element like the others. -/
theorem elementsAt_lists_nestedQuotes :
    Datum.ofTokens nestedQuotes = .ok [nestedQuotesDerivation.datum] ∧
      elementsAt nestedQuotes 0 = ([1, 2, 7], 9) ∧ elementsAt nestedQuotes 4 = ([5], 6) := by
  have hds : tokensOfAll [nestedQuotesDerivation] = Datum.beforeEnd nestedQuotes := rfl
  have hread : Datum.ofTokens nestedQuotes = .ok [nestedQuotesDerivation.datum] :=
    ofTokens_eq_ok_iff.mpr ⟨_, hds, rfl⟩
  obtain ⟨ds, htokens, -, hlists⟩ := elementsAt_lists hread
  cases tokensOfAll_injective (hds.trans htokens.symm)
  refine ⟨hread, ?_, ?_⟩
  · obtain ⟨items, closer, opens, closes, hlist, hscan, -⟩ := hlists 0 _ rfl rfl
    cases (hlist nestedQuotesDerivation).mp (.here [])
    exact hscan
  · obtain ⟨items, closer, opens, closes, hlist, hscan, -⟩ := hlists 4 _ rfl rfl
    have hinner : StartsAt 4 nestedQuotesInner 0 [nestedQuotesDerivation] := by
      refine .item (.later ?_) []
      exact .quoted (.quoted (.here []) []) _
    cases (hlist nestedQuotesInner).mp hinner
    exact hscan

end Derivation

end MiniLisp
