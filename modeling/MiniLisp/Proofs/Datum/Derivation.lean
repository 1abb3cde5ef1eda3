import MiniLisp.Datum.Reader

/-! # The grammar of data

A datum is derived from tokens: from a number, a string, a date or a symbol, from data between
parentheses, or from a datum after a quote mark. A `Derivation` keeps the tokens that it takes together
with what these read as, so a derivation is always one of tokens that the grammar accepts.

* `steps_tokens`, `steps_tokensOfAll`: reading the tokens of a derivation puts its datum into what is
  open (completeness).
* `tokensOfAll_injective`: tokens have at most one derivation. -/

namespace MiniLisp

/-- **A derivation of a datum.** -/
inductive Derivation where
  | number (t : Token) (n : Number) (kind : t.kind = .number)
      (reads : Number.ofText t.value = .ok n)
  | string (t : Token) (kind : t.kind = .string)
  | date (t : Token) (d : DateTime) (kind : t.kind = .date)
      (reads : DateTime.ofText t.value = .ok d)
  | symbol (t : Token) (kind : t.kind = .symbol)
  | list (opener : Token) (items : List Derivation) (closer : Token)
      (opens : opener.kind = .leftParen) (closes : closer.kind = .rightParen)
  | quote (mark : Token) (inner : Derivation) (kind : mark.kind = .quote)

namespace Derivation

mutual

/-- The tokens that a derivation takes, in order. -/
def tokens : Derivation → List Token
  | .number t .. => [t]
  | .string t _ => [t]
  | .date t .. => [t]
  | .symbol t _ => [t]
  | .list opener items closer .. => opener :: (tokensOfAll items ++ [closer])
  | .quote mark inner _ => mark :: inner.tokens

/-- The tokens that some derivations take one after the other. -/
def tokensOfAll : List Derivation → List Token
  | [] => []
  | d :: ds => d.tokens ++ tokensOfAll ds

end

mutual

/-- The datum that is derived. -/
def datum : Derivation → Datum
  | .number _ n .. => .atom (.number n)
  | .string t _ => .atom (.string t.value)
  | .date _ d .. => .atom (.date d)
  | .symbol t _ => .atom (.ofName t.value)
  | .list _ items .. => .list (data items)
  | .quote _ inner _ => inner.datum.quoted

/-- The data that are derived. -/
def data : List Derivation → List Datum
  | [] => []
  | d :: ds => d.datum :: data ds

end

theorem data_eq_map : ∀ ds : List Derivation, data ds = ds.map datum
  | [] => rfl
  | d :: ds => by rw [data, data_eq_map ds, List.map_cons]

theorem tokensOfAll_append (ds es : List Derivation) :
    tokensOfAll (ds ++ es) = tokensOfAll ds ++ tokensOfAll es := by
  induction ds with
  | nil => rfl
  | cons d ds ih => rw [List.cons_append, tokensOfAll, tokensOfAll, ih, List.append_assoc]

/-- The kind of the first token. -/
def kind : Derivation → Token.Kind
  | .number .. => .number
  | .string .. => .string
  | .date .. => .date
  | .symbol .. => .symbol
  | .list .. => .leftParen
  | .quote .. => .quote

theorem tokens_eq_cons (d : Derivation) : ∃ t ts, d.tokens = t :: ts ∧ t.kind = d.kind := by
  cases d with
  | number t n h => exact ⟨t, [], rfl, h⟩
  | string t h => exact ⟨t, [], rfl, h⟩
  | date t d h => exact ⟨t, [], rfl, h⟩
  | symbol t h => exact ⟨t, [], rfl, h⟩
  | list opener items closer h => exact ⟨opener, _, rfl, h⟩
  | quote mark inner h => exact ⟨mark, _, rfl, h⟩

theorem kind_ne_rightParen (d : Derivation) : d.kind ≠ .rightParen := by
  cases d <;> exact Token.Kind.noConfusion

/-! ### Completeness -/

open Reading

theorem steps_cons {r r' : Reading} {t : Token} (h : r.step t = .ok r') (ts : List Token) :
    r.steps (t :: ts) = r'.steps ts := by
  rw [steps, h]

/-- Puts finished data into what is open, one after the other. -/
def putAll (r : Reading) (ds : List Datum) : Reading := ds.foldl (fun r d => put r.done d r.opened) r

theorem putAll_list (done : List Datum) (opened : List Opening) :
    ∀ (ds items : List Datum), putAll ⟨done, .list items :: opened⟩ ds =
      ⟨done, .list (ds.reverse ++ items) :: opened⟩
  | [], _ => rfl
  | d :: ds, items => by
    have h : putAll ⟨done, .list items :: opened⟩ (d :: ds) =
      putAll ⟨done, .list (d :: items) :: opened⟩ ds := rfl
    rw [h, putAll_list done opened ds, List.reverse_cons, List.append_assoc]
    rfl

theorem putAll_nil (ds : List Datum) : ∀ done : List Datum,
    putAll ⟨done, []⟩ ds = ⟨ds.reverse ++ done, []⟩ := by
  induction ds with
  | nil => exact fun _ => rfl
  | cons d ds ih =>
    intro done
    have h : putAll ⟨done, []⟩ (d :: ds) = putAll ⟨d :: done, []⟩ ds := rfl
    rw [h, ih, List.reverse_cons, List.append_assoc]
    rfl

mutual

/-- **Reading the tokens of a derivation puts its datum** into what is open. -/
theorem steps_tokens : ∀ (d : Derivation) (r : Reading) (rest : List Token),
    r.steps (d.tokens ++ rest) = (put r.done d.datum r.opened).steps rest
  | .number t n kind reads, r, rest => steps_cons (by rw [step, kind]; simp only [reads]; rfl) rest
  | .string t kind, r, rest => steps_cons (by rw [step, kind]; rfl) rest
  | .date t d kind reads, r, rest => steps_cons (by rw [step, kind]; simp only [reads]; rfl) rest
  | .symbol t kind, r, rest => steps_cons (by rw [step, kind]; rfl) rest
  | .list opener items closer opens closes, r, rest => by
    have hopen : r.step opener = .ok ⟨r.done, .list [] :: r.opened⟩ := by rw [step, opens]
    have hclose : (Reading.mk r.done (.list (data items).reverse :: r.opened)).step closer =
        .ok (put r.done (.list (data items)) r.opened) := by
      rw [step, closes]
      simp only [List.reverse_reverse]
    rw [tokens, List.cons_append, steps_cons hopen, List.append_assoc, steps_tokensOfAll items,
      putAll_list, List.append_nil]
    exact steps_cons hclose rest
  | .quote mark inner kind, r, rest => by
    have hmark : r.step mark = .ok ⟨r.done, .quote :: r.opened⟩ := by rw [step, kind]
    rw [tokens, List.cons_append, steps_cons hmark, steps_tokens inner]
    rfl

/-- Reading the tokens of derivations puts their data into what is open. -/
theorem steps_tokensOfAll : ∀ (ds : List Derivation) (r : Reading) (rest : List Token),
    r.steps (tokensOfAll ds ++ rest) = (putAll r (data ds)).steps rest
  | [], _, _ => rfl
  | d :: ds, r, rest => by
    rw [tokensOfAll, List.append_assoc, steps_tokens d, steps_tokensOfAll ds]
    rfl

end

/-! ### At most one derivation -/

/-- No datum starts here: at the end, or at a closing parenthesis. -/
def Stops (ts : List Token) : Prop := ∀ t ∈ ts.head?, t.kind = .rightParen

theorem Stops.ne_tokens {ts rest : List Token} (h : Stops ts) (d : Derivation) :
    ts ≠ d.tokens ++ rest := by
  rintro rfl
  obtain ⟨t, ts, hd, hk⟩ := d.tokens_eq_cons
  have ht := h t (by rw [hd]; rfl)
  exact d.kind_ne_rightParen (by rw [← hk, ht])

theorem kind_eq_of_tokens_append {d e : Derivation} {rest rest' : List Token}
    (h : d.tokens ++ rest = e.tokens ++ rest') : d.kind = e.kind := by
  obtain ⟨t, ts, hd, hk⟩ := d.tokens_eq_cons
  obtain ⟨t', ts', he, hk'⟩ := e.tokens_eq_cons
  rw [hd, he, List.cons_append, List.cons_append, List.cons.injEq] at h
  rw [← hk, ← hk', h.1]

mutual

theorem tokens_append_inj : ∀ (d e : Derivation) {rest rest' : List Token},
    d.tokens ++ rest = e.tokens ++ rest' → d = e ∧ rest = rest'
  | .number t n kind reads, e, rest, rest', h => by
    have hk := kind_eq_of_tokens_append h
    cases e with
    | number t' n' kind' reads' =>
      cases h
      rw [reads] at reads'
      cases reads'
      exact ⟨rfl, rfl⟩
    | _ => cases hk
  | .string t kind, e, rest, rest', h => by
    have hk := kind_eq_of_tokens_append h
    cases e with
    | string t' kind' => cases h; exact ⟨rfl, rfl⟩
    | _ => cases hk
  | .date t d kind reads, e, rest, rest', h => by
    have hk := kind_eq_of_tokens_append h
    cases e with
    | date t' d' kind' reads' =>
      cases h
      rw [reads] at reads'
      cases reads'
      exact ⟨rfl, rfl⟩
    | _ => cases hk
  | .symbol t kind, e, rest, rest', h => by
    have hk := kind_eq_of_tokens_append h
    cases e with
    | symbol t' kind' => cases h; exact ⟨rfl, rfl⟩
    | _ => cases hk
  | .list opener items closer opens closes, e, rest, rest', h => by
    have hk := kind_eq_of_tokens_append h
    cases e with
    | list opener' items' closer' opens' closes' =>
      simp only [tokens, List.cons_append, List.append_assoc, List.nil_append,
        List.cons.injEq] at h
      have hstops : Stops (closer :: rest) := by rintro t ⟨⟩; exact closes
      have hstops' : Stops (closer' :: rest') := by rintro t ⟨⟩; exact closes'
      obtain ⟨rfl, hrest⟩ := tokensOfAll_append_inj items items' hstops hstops' h.2
      cases hrest
      cases h.1
      exact ⟨rfl, rfl⟩
    | _ => cases hk
  | .quote mark inner kind, e, rest, rest', h => by
    have hk := kind_eq_of_tokens_append h
    cases e with
    | quote mark' inner' kind' =>
      simp only [tokens, List.cons_append, List.cons.injEq] at h
      obtain ⟨rfl, hrest⟩ := tokens_append_inj inner inner' h.2
      cases h.1
      exact ⟨rfl, hrest⟩
    | _ => cases hk

theorem tokensOfAll_append_inj : ∀ (ds es : List Derivation) {rest rest' : List Token},
    Stops rest → Stops rest' → tokensOfAll ds ++ rest = tokensOfAll es ++ rest' →
      ds = es ∧ rest = rest'
  | [], [], _, _, _, _, h => ⟨rfl, h⟩
  | [], e :: es, _, _, hr, _, h => by
    rw [tokensOfAll, tokensOfAll, List.append_assoc] at h
    exact absurd h (hr.ne_tokens e)
  | d :: ds, [], _, _, _, hr', h => by
    rw [tokensOfAll, tokensOfAll, List.append_assoc] at h
    exact absurd h.symm (hr'.ne_tokens d)
  | d :: ds, e :: es, _, _, hr, hr', h => by
    rw [tokensOfAll, tokensOfAll, List.append_assoc, List.append_assoc] at h
    obtain ⟨rfl, htail⟩ := tokens_append_inj d e h
    obtain ⟨rfl, hrest⟩ := tokensOfAll_append_inj ds es hr hr' htail
    exact ⟨rfl, hrest⟩

end

/-- **Tokens have at most one derivation.** -/
theorem tokensOfAll_injective {ds es : List Derivation} (h : tokensOfAll ds = tokensOfAll es) :
    ds = es := by
  have hstops : Stops [] := by rintro t ⟨⟩
  exact (tokensOfAll_append_inj ds es hstops hstops (by rw [h])).1

end Derivation

end MiniLisp
