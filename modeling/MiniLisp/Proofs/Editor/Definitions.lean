import MiniLisp.Eval.SpecialForm
import MiniLisp.Proofs.Datum.Grammar
import MiniLisp.Proofs.Token.Cutting
import MiniLisp.Proofs.Editor.Elements

/-! # Definitions in the index

The index looks for definitions among the tokens. Where the tokens have derivations, what it finds
can be read off these: at the parenthesis of an outermost list it finds what the derivation of the
list says (`definitionAt?_eq_listed?`), inside of lists it finds nothing, and it passes over quote
marks. So the symbols of a text are entered one derivation after the other (`exists_index`), and it
is known which names are among them (`index_lists`): a quoted list that looks like a definition
counts as one. -/

namespace MiniLisp

open Editor Datum

/-! ### Tables written one name after the other -/

namespace Assoc

variable {α : Type}

/-- Gives names values, one after the other. -/
def insertAll (t : Assoc α) (bs : List (String × α)) : Assoc α :=
  bs.foldl (fun t b => insert b.1 b.2 t) t

theorem insertAll_append (t : Assoc α) (bs cs : List (String × α)) :
    insertAll t (bs ++ cs) = insertAll (insertAll t bs) cs :=
  List.foldl_append

theorem names_insertAll (bs : List (String × α)) : ∀ t : Assoc α,
    names (insertAll t bs) =
      names t ++ ((bs.map (·.1)).filter fun name => !(names t).contains name).eraseDups := by
  induction bs with
  | nil => exact fun t => (List.append_nil _).symm
  | cons b bs ih =>
    intro t
    have hcons : insertAll t (b :: bs) = insertAll (insert b.1 b.2 t) bs := rfl
    rw [hcons, ih, names_insert]
    by_cases hb : b.1 ∈ names t
    · simp [hb]
    · simp [hb, List.eraseDups_cons, List.filter_filter, Bool.and_comm, Bool.beq_eq_decide_eq]

/-- The names stand in the order in which they first came. -/
theorem names_insertAll_nil (bs : List (String × α)) :
    names (insertAll [] bs) = (bs.map (·.1)).eraseDups := by
  rw [names_insertAll]
  simp [names]

theorem get?_insertAll_of_notMem {name : String} : ∀ {bs : List (String × α)} {t : Assoc α},
    name ∉ bs.map (·.1) → get? name (insertAll t bs) = get? name t
  | [], _, _ => rfl
  | b :: bs, t, h => by
    rw [List.map_cons, List.mem_cons, not_or] at h
    have hcons : insertAll t (b :: bs) = insertAll (insert b.1 b.2 t) bs := rfl
    rw [hcons, get?_insertAll_of_notMem h.2, get?_insert, if_neg h.1]

/-- The last value of a name counts. -/
theorem get?_insertAll_last {t : Assoc α} {before after : List (String × α)} {b : String × α}
    (h : b.1 ∉ after.map (·.1)) : get? b.1 (insertAll t (before ++ b :: after)) = some b.2 := by
  have hcons : insertAll t (before ++ b :: after) =
      insertAll (insert b.1 b.2 (insertAll t before)) after := insertAll_append t before (b :: after)
  rw [hcons, get?_insertAll_of_notMem h, get?_insert, if_pos rfl]

end Assoc

namespace Derivation

/-! ### What the index finds -/

/-- The token of the name that the index finds in a definition with this target, and as what it
takes the name. -/
def targetName? (target : Derivation) (further : List Derivation) :
    Option (Token × DefinitionKind) :=
  match target, further with
  | .list _ (.symbol name _ :: _) .., _ => some (name, .function)
  | .symbol name _, parameters :: _ :: _ =>
    some (name, if parameters.kind = .leftParen then .function else .variable_)
  | .symbol name _, _ => some (name, .variable_)
  | _, _ => none

/-- The same for a derivation on the outermost level. Quote marks do not count. -/
def indexed? : Derivation → Option (Token × DefinitionKind)
  | .list _ (.symbol head _ :: target :: further) .. =>
    if head.value = "define" then targetName? target further else none
  | .quote _ inner _ => inner.indexed?
  | _ => none

/-- What stands in the index for a name. -/
def entry (p : Token × DefinitionKind) : String × Definition :=
  (p.1.value, ⟨p.2, p.1.place.line - 1, p.1.place.column - 1⟩)

/-- What the index notes of a derivation. -/
def listed? (d : Derivation) : Option (String × Definition) := d.indexed?.map entry

/-- The token after the parenthesis of a list. -/
theorem Stands.getElem?_succ {all : List Token} {i : Nat} {opener closer : Token}
    {items : List Derivation} {opens : opener.kind = .leftParen}
    {closes : closer.kind = .rightParen}
    (h : Stands all i (.list opener items closer opens closes)) :
    all[i + 1]? = some ((items.head?.map first).getD closer) := by
  obtain ⟨rest, h⟩ := h
  have hnext : all[i + 1]? = (tokensOfAll items ++ closer :: rest).head? := by
    rw [← List.head?_drop, ← List.drop_drop, ← h, tokens, List.cons_append, List.drop_succ_cons,
      List.drop_zero, List.append_assoc, List.singleton_append]
  rw [hnext]
  rcases items with _ | ⟨_ | _ | _ | _ | _ | _, _⟩ <;> rfl

theorem definedName?_eq_targetName? {all : List Token} {i : Nat} {is : List Nat}
    {target : Derivation} {further : List Derivation} (htarget : Stands all i target)
    (hfurther : List.Forall₂ (Stands all) is further) :
    definedName? all i is = targetName? target further := by
  rw [definedName?, htarget.getElem?]
  cases target with
  | number t n kind => simp [first, kind, targetName?]
  | string t kind => simp [first, kind, targetName?]
  | date t d kind => simp [first, kind, targetName?]
  | quote mark inner kind => simp [first, kind, targetName?]
  | list opener items closer opens closes =>
    have hname := htarget.getElem?_succ
    rcases items with _ | ⟨d, ds⟩
    · simp [first, opens, hname, closes, targetName?]
    · have hkind := d.kind_first
      cases d <;> simp_all [first, kind, targetName?]
  | symbol t kind =>
    have hfirst : (symbol t kind).first = t := rfl
    cases hfurther with
    | nil => simp [hfirst, kind, targetName?]
    | cons hparameters hrest =>
      cases hrest with
      | nil => simp [hfirst, kind, targetName?]
      | cons => simp [hfirst, kind, targetName?, hparameters.getElem?, kind_first]

/-- **At a list the index finds what its derivation says.** -/
theorem definitionAt?_eq_listed? {all : List Token} {i : Nat} {opener closer : Token}
    {items : List Derivation} {opens : opener.kind = .leftParen}
    {closes : closer.kind = .rightParen}
    (h : Stands all i (.list opener items closer opens closes)) :
    definitionAt? all i = listed? (.list opener items closer opens closes) := by
  have helems := stands_elementsAt h
  unfold definitionAt?
  generalize (elementsAt all i).1 = is at helems
  cases helems with
  | nil => rfl
  | @cons j head js ds hhead htail =>
    cases htail with
    | nil => cases head <;> rfl
    | @cons k target ks further htarget hfurther =>
      simp only [hhead.getElem?, definedName?_eq_targetName? htarget hfurther]
      cases head with
      | symbol t kind =>
        have hfirst : (symbol t kind).first = t := rfl
        by_cases hdefine : t.value = "define" <;>
          simp [hfirst, kind, hdefine, listed?, indexed?, Option.map_eq_bind, Function.comp_def, entry]
      | number t n kind => simp [first, kind, listed?, indexed?]
      | string t kind => simp [first, kind, listed?, indexed?]
      | date t d kind => simp [first, kind, listed?, indexed?]
      | list opener items closer opens => simp [first, opens, listed?, indexed?]
      | quote mark inner kind => simp [first, kind, listed?, indexed?]

/-! ### The whole text -/

theorem passesOver_definitionsFrom (all : List Token) (found : Assoc Definition) :
    PassesOver fun depth i ts => definitionsFrom all found depth i ts where
  opener depth i t ts h := by simp [definitionsFrom, h]
  closer depth i t ts h := by simp [definitionsFrom, h]
  other depth i t ts h := by
    simp only [List.mem_cons, List.not_mem_nil, or_false, not_or] at h
    rw [definitionsFrom]
    split <;> simp_all

/-- **On the outermost level** the index notes what it finds in the derivation. -/
theorem definitionsFrom_tokens {all : List Token} {found : Assoc Definition} :
    ∀ {d : Derivation} {i : Nat} {rest : List Token}, all.drop i = d.tokens ++ rest →
      definitionsFrom all found 0 i (d.tokens ++ rest) =
        definitionsFrom all (Assoc.insertAll found d.listed?.toList) 0 (i + d.tokens.length) rest
  | .number t _ kind _, _, _, _ => by
    simp [tokens, definitionsFrom, kind, listed?, indexed?, Assoc.insertAll]
  | .string t kind, _, _, _ => by
    simp [tokens, definitionsFrom, kind, listed?, indexed?, Assoc.insertAll]
  | .date t _ kind _, _, _, _ => by
    simp [tokens, definitionsFrom, kind, listed?, indexed?, Assoc.insertAll]
  | .symbol t kind, _, _, _ => by
    simp [tokens, definitionsFrom, kind, listed?, indexed?, Assoc.insertAll]
  | .list opener items closer opens closes, i, rest, h => by
    have hstands : Stands all i (.list opener items closer opens closes) := ⟨rest, h.symm⟩
    have hfound := definitionAt?_eq_listed? hstands
    have hopen : ∀ ts, definitionsFrom all found 0 i (opener :: ts) =
        definitionsFrom all
          (Assoc.insertAll found (listed? (.list opener items closer opens closes)).toList) 1 (i + 1)
          ts := fun ts => by
      rw [← hfound]
      simp only [definitionsFrom, opens]
      cases definitionAt? all i <;> rfl
    have hclose : ∀ found j, definitionsFrom all found 1 j (closer :: rest) =
        definitionsFrom all found 0 (j + 1) rest := fun found j => by
      simp [definitionsFrom, closes]
    rw [tokens, List.cons_append, hopen, List.append_assoc,
      (passesOver_definitionsFrom all _).tokensOfAll items, List.singleton_append, hclose]
    simp only [List.length_cons, List.length_append, List.length_nil]
    congr 1
    omega
  | .quote mark inner kind, i, rest, h => by
    have hmark : ∀ ts, definitionsFrom all found 0 i (mark :: ts) =
        definitionsFrom all found 0 (i + 1) ts := fun ts => by
      simp [definitionsFrom, kind]
    have hinner : all.drop (i + 1) = inner.tokens ++ rest := by
      rw [← List.drop_drop, h, tokens, List.cons_append, List.drop_succ_cons, List.drop_zero]
    rw [tokens, List.cons_append, hmark, definitionsFrom_tokens hinner, List.length_cons,
      Nat.add_assoc, Nat.add_comm 1]
    rfl

theorem definitionsFrom_tokensOfAll {all : List Token} :
    ∀ {ds : List Derivation} (found : Assoc Definition) {i : Nat} {rest : List Token},
      all.drop i = tokensOfAll ds ++ rest →
        definitionsFrom all found 0 i (tokensOfAll ds ++ rest) =
          definitionsFrom all (Assoc.insertAll found (ds.filterMap listed?)) 0
            (i + (tokensOfAll ds).length) rest
  | [], _, _, _, _ => rfl
  | d :: ds, found, i, rest, h => by
    rw [tokensOfAll, List.append_assoc] at h
    have hds : all.drop (i + d.tokens.length) = tokensOfAll ds ++ rest := by
      rw [← List.drop_drop, h, List.drop_left]
    rw [tokensOfAll, List.append_assoc, definitionsFrom_tokens h, definitionsFrom_tokensOfAll _ hds,
      ← Assoc.insertAll_append, List.length_append, Nat.add_assoc]
    cases hd : d.listed? with
    | none => rw [List.filterMap_cons_none hd]; rfl
    | some e => rw [List.filterMap_cons_some hd]; rfl

/-- **The symbols of a text that can be read** are what the index notes of its derivations. -/
theorem exists_index {source : String} {ds : List Derivation}
    (hds : tokensOfAll ds = beforeEnd (Token.ofText source)) :
    ∃ idx, Index.ofText source = .ok idx ∧
      idx.symbols = Assoc.insertAll [] (ds.filterMap listed?) := by
  have hread : ofTokens (Token.ofText source) = .ok (data ds) :=
    ofTokens_eq_ok_iff.2 ⟨ds, hds, rfl⟩
  obtain ⟨ts, hts, hend⟩ := Token.exists_scanFrom_eq source.toList .start
  have htext : Token.ofText source =
      tokensOfAll ds ++ [.atEnd (Place.start.advanceAll source.toList)] := by
    rw [hds, Token.ofText, hts, beforeEnd_append_cons hend rfl]
  have hfound : definitionsFrom (Token.ofText source) [] 0 0 (Token.ofText source) =
      Assoc.insertAll [] (ds.filterMap listed?) := by
    have hdrop : (Token.ofText source).drop 0 = tokensOfAll ds ++ [.atEnd _] := htext
    have h := definitionsFrom_tokensOfAll [] hdrop
    rw [← htext] at h
    exact h
  refine ⟨⟨definitionsFrom (Token.ofText source) [] 0 0 (Token.ofText source),
    parenBalance (Token.ofText source), none⟩, ?_, hfound⟩
  simp [Index.ofText, issue?, hread]

/-! ### Which names the index lists -/

/-- The derivation without the quote marks before it. -/
def unquoted : Derivation → Derivation
  | .quote _ inner _ => inner.unquoted
  | d => d

end Derivation

/-- The form is headed by `define`, and its second element is the atom or a list headed by the atom.
-/
inductive Datum.Defines (a : Atom) : Datum → Prop
  | variable (further : List Datum) : Defines a (.list (symbol "define" :: .atom a :: further))
  | function (parameters further : List Datum) :
    Defines a (.list (symbol "define" :: .list (.atom a :: parameters) :: further))

/-- A quotation defines nothing. -/
theorem Datum.not_defines_quoted {a : Atom} {d : Datum} : ¬ d.quoted.Defines a := by
  intro h
  have hhead : ∀ form : Datum, form.Defines a → ∃ items, form = .list (symbol "define" :: items) := by
    rintro form (_ | _) <;> exact ⟨_, rfl⟩
  obtain ⟨items, hitems⟩ := hhead _ h
  rw [quoted, Datum.list.injEq, List.cons.injEq] at hitems
  exact absurd hitems.1 (by simp [symbol])

namespace Derivation

theorem datum_of_define {t : Token} {kind : t.kind = .symbol} (h : t.value = "define") :
    (symbol t kind).datum = Datum.symbol "define" := by
  have hname : Atom.ofName "define" = .symbol "define" := by decide +kernel
  rw [datum, h, hname]
  rfl

/-- The name that the index finds is the target, or the head of the target. -/
theorem eq_of_targetName? {target : Derivation} {further : List Derivation}
    {p : Token × DefinitionKind} (h : targetName? target further = some p) :
    (∃ kind, target = .symbol p.1 kind) ∨
      ∃ opener kind items closer opens closes,
        target = .list opener (.symbol p.1 kind :: items) closer opens closes := by
  cases target with
  | symbol t kind =>
    have hp : p.1 = t := by
      rcases further with _ | ⟨_, _ | ⟨_, _⟩⟩ <;> cases h <;> rfl
    subst hp
    exact .inl ⟨kind, rfl⟩
  | list opener items closer opens closes =>
    cases items with
    | nil => cases h
    | cons d ds =>
      cases d with
      | symbol t kind =>
        cases h
        exact .inr ⟨opener, kind, ds, closer, opens, closes, rfl⟩
      | _ => cases h
  | _ => cases h

/-- What the index takes for a definition has its shape, when the quote marks are taken away. -/
theorem defines_of_indexed? {d : Derivation} {p : Token × DefinitionKind}
    (h : d.indexed? = some p) : d.unquoted.datum.Defines (Atom.ofName p.1.value) := by
  fun_induction indexed? d with
  | case1 _ head _ target further _ _ _ hdefine =>
    rw [unquoted, datum, data, data, datum_of_define hdefine]
    · rcases eq_of_targetName? h with ⟨kind, rfl⟩ | ⟨opener, kind, items, closer, opens, closes, rfl⟩
      · exact .variable _
      · exact .function _ _
    · exact nofun
  | case2 => cases h
  | case3 _ inner _ ih => exact ih h
  | case4 => cases h

/-- **What the index lists**: exactly the names that it finds on the outermost level, where quote
marks do not count. So a listed name is defined by a form of the text, or it spells no symbol, or a
quoted form looks like its definition. -/
theorem index_lists {source : String} {forms : List Datum} (hread : readAll source = .ok forms) :
    ∃ ds, tokensOfAll ds = beforeEnd (Token.ofText source) ∧ data ds = forms ∧
      ∃ idx, Index.ofText source = .ok idx ∧ ∀ name,
        (name ∈ Assoc.names idx.symbols ↔ ∃ d ∈ ds, ∃ p, d.indexed? = some p ∧ p.1.value = name) ∧
        (name ∈ Assoc.names idx.symbols →
          (∃ form ∈ forms, form.Defines (.symbol name)) ∨
          (Atom.ofName name ≠ .symbol name ∧ ∃ form ∈ forms, form.Defines (Atom.ofName name)) ∨
          ∃ mark inner kind, .quote mark inner kind ∈ ds ∧
            inner.unquoted.datum.Defines (Atom.ofName name)) := by
  obtain ⟨ds, hds, rfl⟩ := ofTokens_eq_ok_iff.1 hread
  obtain ⟨idx, hidx, hsymbols⟩ := exists_index hds
  have hnames : ∀ name, name ∈ Assoc.names idx.symbols ↔
      ∃ d ∈ ds, ∃ p, d.indexed? = some p ∧ p.1.value = name := fun name => by
    rw [hsymbols, Assoc.names_insertAll_nil, List.mem_eraseDups]
    simp [listed?, entry]
  refine ⟨ds, hds, rfl, idx, hidx, fun name => ⟨hnames name, fun h => ?_⟩⟩
  obtain ⟨d, hd, p, hp, rfl⟩ := (hnames name).1 h
  have hdefines := defines_of_indexed? hp
  cases d with
  | quote mark inner kind => exact .inr (.inr ⟨mark, inner, kind, hd, hdefines⟩)
  | list opener items closer opens closes =>
    have hform : datum (.list opener items closer opens closes) ∈ data ds := by
      rw [data_eq_map]
      exact List.mem_map_of_mem hd
    by_cases hname : Atom.ofName p.1.value = .symbol p.1.value
    · exact .inl ⟨_, hform, hname ▸ hdefines⟩
    · exact .inr (.inl ⟨hname, _, hform, hdefines⟩)
  | _ => cases hp

/-- A definition of `nil` binds nothing, and the index lists it. -/
theorem index_lists_nil :
    ∃ idx, Index.ofText "(define nil 2)" = .ok idx ∧ "nil" ∈ Assoc.names idx.symbols ∧
      ∃ forms ds, readAll "(define nil 2)" = .ok forms ∧ data ds = forms ∧
        ((∃ form ∈ forms, form.Defines (.symbol "nil")) ∨
          (Atom.ofName "nil" ≠ .symbol "nil" ∧
            ∃ form ∈ forms, form.Defines (Atom.ofName "nil")) ∨
          ∃ mark inner kind, .quote mark inner kind ∈ ds ∧
            inner.unquoted.datum.Defines (Atom.ofName "nil")) := by
  have hread : readAll "(define nil 2)" = .ok
      [.list [Datum.symbol "define", .atom .nil, .atom (.number (.int 2))]] := by
    with_unfolding_all rfl
  have hindex : Index.ofText "(define nil 2)" = .ok ⟨[("nil", ⟨.variable_, 0, 8⟩)], 0, none⟩ := by
    with_unfolding_all rfl
  obtain ⟨ds, -, hforms, idx, hidx, hlists⟩ := index_lists hread
  have hmem : "nil" ∈ Assoc.names idx.symbols := by
    cases hindex.symm.trans hidx
    decide
  exact ⟨idx, hidx, hmem, _, ds, hread, hforms, (hlists "nil").2 hmem⟩

/-- Quoted data are indexed: `'(define x 1)` defines nothing, and the index lists `x`. -/
theorem index_lists_quoted :
    readAll "'(define x 1)" = .ok [Datum.quoted
      (.list [Datum.symbol "define", Datum.symbol "x", .atom (.number (.int 1))])] ∧
    ∃ idx, Index.ofText "'(define x 1)" = .ok idx ∧ "x" ∈ Assoc.names idx.symbols ∧
      ∀ form ∈ [Datum.quoted
        (.list [Datum.symbol "define", Datum.symbol "x", .atom (.number (.int 1))])],
        ¬ form.Defines (.symbol "x") := by
  have hindex : Index.ofText "'(define x 1)" = .ok ⟨[("x", ⟨.variable_, 0, 9⟩)], 0, none⟩ := by
    with_unfolding_all rfl
  refine ⟨by with_unfolding_all rfl, _, hindex, by decide, ?_⟩
  rintro form hform hdefines
  rw [List.mem_singleton.1 hform] at hdefines
  exact Datum.not_defines_quoted hdefines

end Derivation

end MiniLisp
