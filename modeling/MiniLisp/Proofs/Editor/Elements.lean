import Mathlib.Data.List.Forall2
import MiniLisp.Editor.Index
import MiniLisp.Proofs.Datum.Derivation

/-! # Elements of a list among the tokens

The index finds the elements of a list by counting parentheses. Among tokens that have derivations
it finds what the reader finds: one element for every item (`elementStarts_items`), and the tokens
of the item stand where the element starts (`stands_starts`). -/

namespace MiniLisp

open Editor

namespace Derivation

/-! ### Where derivations stand -/

/-- The first token. -/
def first : Derivation → Token
  | .number t .. => t
  | .string t _ => t
  | .date t .. => t
  | .symbol t _ => t
  | .list opener .. => opener
  | .quote mark .. => mark

theorem kind_first (d : Derivation) : d.first.kind = d.kind := by
  cases d with
  | number _ _ kind => exact kind
  | string _ kind => exact kind
  | date _ _ kind => exact kind
  | symbol _ kind => exact kind
  | list _ _ _ opens => exact opens
  | quote _ _ kind => exact kind

/-- The tokens of the derivation stand among `all` from the number `i` on. -/
def Stands (all : List Token) (i : Nat) (d : Derivation) : Prop := d.tokens <+: all.drop i

theorem Stands.getElem? {all : List Token} {i : Nat} {d : Derivation} (h : Stands all i d) :
    all[i]? = some d.first := by
  obtain ⟨rest, h⟩ := h
  have hhead : all[i]? = (d.tokens ++ rest).head? := by rw [h, List.head?_drop]
  rw [hhead]
  cases d <;> rfl

/-- The numbers of the tokens that start derivations, which take tokens from the number `i` on. -/
def starts (i : Nat) : List Derivation → List Nat
  | [] => []
  | d :: ds => i :: starts (i + d.tokens.length) ds

/-- **Derivations stand where they start.** -/
theorem stands_starts {all : List Token} : ∀ {ds : List Derivation} {i : Nat} {rest : List Token},
    all.drop i = tokensOfAll ds ++ rest → List.Forall₂ (Stands all) (starts i ds) ds
  | [], _, _, _ => .nil
  | d :: ds, i, rest, h => by
    rw [tokensOfAll, List.append_assoc] at h
    have hds : all.drop (i + d.tokens.length) = tokensOfAll ds ++ rest := by
      rw [← List.drop_drop, h, List.drop_left]
    exact .cons ⟨_, h.symm⟩ (stands_starts hds)

/-! ### Inside an inner list -/

/-- A scan of tokens that takes no notice of them inside a list, but for the number of open lists.
-/
structure PassesOver {α : Type} (scan : Nat → Nat → List Token → α) : Prop where
  opener (depth i : Nat) (t : Token) (ts : List Token) (h : t.kind = .leftParen) :
    scan (depth + 1) i (t :: ts) = scan (depth + 2) (i + 1) ts
  closer (depth i : Nat) (t : Token) (ts : List Token) (h : t.kind = .rightParen) :
    scan (depth + 2) i (t :: ts) = scan (depth + 1) (i + 1) ts
  other (depth i : Nat) (t : Token) (ts : List Token)
    (h : t.kind ∉ [.leftParen, .rightParen, .endOfInput]) :
    scan (depth + 1) i (t :: ts) = scan (depth + 1) (i + 1) ts

section PassesOver

variable {α : Type} {scan : Nat → Nat → List Token → α}

mutual

/-- **Inside a list** such a scan passes over the tokens of a derivation. -/
theorem PassesOver.tokens (hscan : PassesOver scan) : ∀ (d : Derivation) (depth i : Nat)
    (rest : List Token), scan (depth + 1) i (d.tokens ++ rest) =
      scan (depth + 1) (i + d.tokens.length) rest
  | .number t _ kind _, depth, i, rest => hscan.other depth i t rest (by rw [kind]; decide)
  | .string t kind, depth, i, rest => hscan.other depth i t rest (by rw [kind]; decide)
  | .date t _ kind _, depth, i, rest => hscan.other depth i t rest (by rw [kind]; decide)
  | .symbol t kind, depth, i, rest => hscan.other depth i t rest (by rw [kind]; decide)
  | .list opener items closer opens closes, depth, i, rest => by
    rw [Derivation.tokens, List.cons_append, hscan.opener depth i opener _ opens, List.append_assoc,
      hscan.tokensOfAll items, List.singleton_append, hscan.closer depth _ closer rest closes]
    simp only [List.length_cons, List.length_append, List.length_nil]
    congr 1
    omega
  | .quote mark inner kind, depth, i, rest => by
    rw [Derivation.tokens, List.cons_append, hscan.other depth i mark _ (by rw [kind]; decide),
      hscan.tokens inner, List.length_cons]
    congr 1
    omega

theorem PassesOver.tokensOfAll (hscan : PassesOver scan) : ∀ (ds : List Derivation) (depth i : Nat)
    (rest : List Token), scan (depth + 1) i (tokensOfAll ds ++ rest) =
      scan (depth + 1) (i + (tokensOfAll ds).length) rest
  | [], _, _, _ => rfl
  | d :: ds, depth, i, rest => by
    rw [Derivation.tokensOfAll, List.append_assoc, hscan.tokens d, hscan.tokensOfAll ds,
      List.length_append, Nat.add_assoc]

end

end PassesOver

theorem passesOver_elementStarts :
    PassesOver fun depth i ts => elementStarts depth false i ts where
  opener depth i t ts h := by simp [elementStarts, Token.isEnd, h]
  closer depth i t ts h := by simp [elementStarts, Token.isEnd, h]
  other depth i t ts h := by
    simp only [List.mem_cons, List.not_mem_nil, or_false, not_or] at h
    simp [elementStarts, Token.isEnd, h]

/-! ### Elements -/

/-- A token that is a datum by itself is an element. -/
theorem elementStarts_atom {t : Token}
    (h : t.kind ∉ [.leftParen, .rightParen, .quote, .endOfInput]) (quoted : Bool) (i : Nat)
    (rest : List Token) : elementStarts 0 quoted i (t :: rest) =
      let r := elementStarts 0 false (i + 1) rest
      (if quoted then r.1 else i :: r.1, r.2) := by
  simp only [List.mem_cons, List.not_mem_nil, or_false, not_or] at h
  obtain ⟨hopen, hclose, hquote, hend⟩ := h
  have hquote' : (t.kind == .quote) = false := beq_eq_false_iff_ne.2 hquote
  cases quoted <;> simp [elementStarts, Token.isEnd, hopen, hclose, hquote', hend]

/-- **A derivation is one element**, and none if a quote mark before it is one already. -/
theorem elementStarts_tokens : ∀ (d : Derivation) (quoted : Bool) (i : Nat) (rest : List Token),
    elementStarts 0 quoted i (d.tokens ++ rest) =
      let r := elementStarts 0 false (i + d.tokens.length) rest
      (if quoted then r.1 else i :: r.1, r.2)
  | .number _ _ kind _, quoted, i, rest => elementStarts_atom (by rw [kind]; decide) quoted i rest
  | .string _ kind, quoted, i, rest => elementStarts_atom (by rw [kind]; decide) quoted i rest
  | .date _ _ kind _, quoted, i, rest => elementStarts_atom (by rw [kind]; decide) quoted i rest
  | .symbol _ kind, quoted, i, rest => elementStarts_atom (by rw [kind]; decide) quoted i rest
  | .list opener items closer opens closes, quoted, i, rest => by
    have hopen : ∀ ts, elementStarts 0 quoted i (opener :: ts) =
        let r := elementStarts 1 false (i + 1) ts
        (if quoted then r.1 else i :: r.1, r.2) := fun ts => by
      have hquote : (Token.Kind.leftParen == .quote) = false := rfl
      cases quoted <;> simp [elementStarts, Token.isEnd, opens, hquote]
    have hclose : ∀ j, elementStarts 1 false j (closer :: rest) =
        elementStarts 0 false (j + 1) rest := fun j => by
      simp [elementStarts, Token.isEnd, closes]
    rw [tokens, List.cons_append, hopen, List.append_assoc,
      passesOver_elementStarts.tokensOfAll items, List.singleton_append, hclose]
    simp only [List.length_cons, List.length_append, List.length_nil, Nat.add_assoc, Nat.add_comm 1]
  | .quote mark inner kind, quoted, i, rest => by
    have hmark : ∀ ts, elementStarts 0 quoted i (mark :: ts) =
        let r := elementStarts 0 true (i + 1) ts
        (if quoted then r.1 else i :: r.1, r.2) := fun ts => by
      cases quoted <;> simp [elementStarts, Token.isEnd, kind]
    rw [tokens, List.cons_append, hmark, elementStarts_tokens inner]
    simp only [if_true, List.length_cons, Nat.add_assoc, Nat.add_comm 1]

/-- **The elements of a list** are the derivations of its items, up to the token that closes it. -/
theorem elementStarts_items {closer : Token} (closes : closer.kind = .rightParen)
    (rest : List Token) : ∀ (ds : List Derivation) (i : Nat),
      elementStarts 0 false i (tokensOfAll ds ++ closer :: rest) =
        (starts i ds, i + (tokensOfAll ds).length)
  | [], i => by simp [tokensOfAll, elementStarts, Token.isEnd, closes, starts]
  | d :: ds, i => by
    rw [tokensOfAll, List.append_assoc, elementStarts_tokens, elementStarts_items closes rest ds,
      starts, List.length_append, Nat.add_assoc]
    rfl

section

variable {all : List Token} {i : Nat} {opener closer : Token} {items : List Derivation}
  {opens : opener.kind = .leftParen} {closes : closer.kind = .rightParen}

theorem Stands.exists_drop_eq (h : Stands all i (.list opener items closer opens closes)) :
    ∃ rest, all.drop (i + 1) = tokensOfAll items ++ closer :: rest := by
  obtain ⟨rest, h⟩ := h
  refine ⟨rest, ?_⟩
  rw [← List.drop_drop, ← h, tokens, List.cons_append, List.drop_succ_cons, List.drop_zero,
    List.append_assoc, List.singleton_append]

/-- **The scan of a list that stands among the tokens** finds where its items start, and where it is
closed. -/
theorem Stands.elementsAt_eq (h : Stands all i (.list opener items closer opens closes)) :
    elementsAt all i = (starts (i + 1) items, i + 1 + (tokensOfAll items).length) := by
  obtain ⟨rest, hdrop⟩ := h.exists_drop_eq
  rw [elementsAt, hdrop, elementStarts_items closes]

theorem Stands.getElem?_closer (h : Stands all i (.list opener items closer opens closes)) :
    all[i + 1 + (tokensOfAll items).length]? = some closer := by
  obtain ⟨rest, hdrop⟩ := h.exists_drop_eq
  rw [← List.getElem?_drop, hdrop, List.getElem?_append_right (Nat.le_refl _), Nat.sub_self]
  rfl

/-- The elements of a list that stands among the tokens are its items. -/
theorem stands_elementsAt (h : Stands all i (.list opener items closer opens closes)) :
    List.Forall₂ (Stands all) (elementsAt all i).1 items := by
  obtain ⟨rest, hdrop⟩ := h.exists_drop_eq
  rw [h.elementsAt_eq]
  exact stands_starts hdrop

end

end Derivation

end MiniLisp
