import MiniLisp.Proofs.Editor.Definitions
import MiniLisp.Proofs.Except
import MiniLisp.Proofs.Run.Follows

/-! # The index agrees with evaluation

What a definition binds is decided by the shape of its operands when it is evaluated
(`SpecialForm.definition`), and guessed from the tokens by the index. The two agree where no quote
mark stands in the way (`binding?_datum`), so the index of a text lists the names that its
definitions bind, each as its last definition says (`index_agrees`). -/

namespace MiniLisp

open Editor Datum

/-! ### What a definition binds -/

/-- The name that a definition binds, and whether to a function that it makes. -/
def SpecialForm.Definition.bound : SpecialForm.Definition → String × DefinitionKind
  | .function name .. => (name, .function)
  | .variable name _ => (name, .variable_)

/-- The name that a form binds if it is a definition, and as what. The identities of its lists are
counted from `next`. -/
def Datum.binding? (next : ObjectId) : Datum → Option (String × DefinitionKind)
  | .list (.atom (.symbol head) :: operands) =>
    if head = "define" then
      match SpecialForm.definition (Value.ofData next operands).1 with
      | .ok definition => some definition.bound
      | .error _ => none
    else none
  | _ => none

namespace SpecialForm

theorem definitionOf_eq_ok {name : String} {operand : Value} {body : List Value}
    {definition : Definition} (h : definitionOf name operand body = .ok definition) :
    (body = [] ∧ definition.bound = (name, .variable_)) ∨
      (body ≠ [] ∧ definition.bound = (name, .function) ∧ ∃ id params, operand = .list id params) := by
  unfold definitionOf at h
  split at h
  · cases h
    exact .inl ⟨rfl, rfl⟩
  · next hbody hformals =>
    cases h
    refine .inr ⟨hbody, rfl, ?_⟩
    unfold formals? at hformals
    split at hformals
    · exact ⟨_, _, rfl⟩
    · cases hformals
  · cases h

/-- **What a well-shaped definition looks like.** -/
theorem definition_eq_ok {operands : List Value} {d : Definition} (h : definition operands = .ok d) :
    ∃ target operand body name, operands = target :: operand :: body ∧
      ((∃ id head params, target = .list id (head :: params) ∧ head.symbolName? = some name ∧
          d.bound = (name, .function)) ∨
        (target.symbolName? = some name ∧ definitionOf name operand body = .ok d)) := by
  unfold definition at h
  split at h
  · next target operand body =>
    split at h
    · next id head params =>
      split at h
      · next name hname =>
        obtain ⟨names, -, hd⟩ := Except.bind_eq_ok.1 h
        cases hd
        exact ⟨_, _, _, name, rfl, .inl ⟨id, head, params, rfl, hname, rfl⟩⟩
      · cases h
    · split at h
      · next name hname => exact ⟨_, _, _, name, rfl, .inr ⟨hname, h⟩⟩
      · cases h
  · cases h

/-- **What a definition does when it is evaluated**: it binds that name in its frame to its value,
and this is a function made on the spot or the value of a form. -/
theorem runDefine_eq_ok {ev : Evaluator} {env : FrameId} {operands : List Value} {s s' : Store}
    {v : Value} {d : Definition} (hd : definition operands = .ok d)
    (h : runDefine ev env operands s = .ok v s') :
    ∃ s₁, s' = { s₁ with frames := s₁.frames.define env d.bound.1 v } ∧
      match d.bound.2 with
      | .function => ∃ formals body, v = .closure s.nextId formals body env d.bound.1
      | .variable_ => ∃ form, ev form env s = .ok v s₁ := by
  rw [runDefine, hd] at h
  rcases d with ⟨name, formals, body⟩ | ⟨name, form⟩
  · cases h
    exact ⟨{ s with nextId := s.nextId + 1 }, rfl, formals, body, rfl⟩
  · have h : (ev form env >>= fun v => Run.define env name v >>= fun _ => pure v) s = .ok v s' := h
    rw [Run.bind_apply] at h
    cases hv : ev form env s with
    | ok w s₁ =>
      rw [hv] at h
      cases h
      exact ⟨s₁, rfl, form, hv⟩
    | error e s₁ =>
      rw [hv] at h
      cases h

end SpecialForm

namespace Derivation

/-! ### Values of derivations -/

/-- A derivation whose value is a symbol is one of a symbol's token. -/
theorem eq_symbol_of_symbolName? {d : Derivation} {next : ObjectId} {name : String}
    (h : (Value.ofDatum next d.datum).1.symbolName? = some name) :
    ∃ t kind, d = .symbol t kind ∧ t.value = name := by
  cases d with
  | symbol t kind =>
    refine ⟨t, kind, rfl, ?_⟩
    simp only [datum, Value.ofDatum, Atom.ofName] at h
    split at h
    · cases h
    · split at h <;> cases h
      rfl
  | _ => cases h

/-- A derivation whose value is a list is one of a list, if it is not a quotation. -/
theorem eq_list_of_ofDatum {d : Derivation} {next id : ObjectId} {vs : List Value}
    (hd : d.kind ≠ .quote) (h : (Value.ofDatum next d.datum).1 = .list id vs) :
    ∃ opener items closer opens closes, d = .list opener items closer opens closes ∧
      vs = (Value.ofData (next + 1) (data items)).1 := by
  cases d with
  | list opener items closer opens closes =>
    cases h
    exact ⟨opener, items, closer, opens, closes, rfl, rfl⟩
  | quote => exact absurd rfl hd
  | _ => cases h

/-! ### Agreement on one form -/

/-- In a definition the target, and the parameter list if the target is a symbol, are written
without a quote mark. -/
def Plain : Derivation → Prop
  | .list _ (.symbol head _ :: target :: further) .. => head.value = "define" →
    target.kind ≠ .quote ∧ ∀ parameters body rest, target.kind = .symbol →
      further = parameters :: body :: rest → parameters.kind ≠ .quote
  | _ => True

/-- **The index guesses right**: a well-shaped definition binds the name that its tokens tell. -/
theorem targetName?_of_definition {target : Derivation} {further : List Derivation}
    {next : ObjectId} {d : SpecialForm.Definition}
    (h : SpecialForm.definition (Value.ofData next (target.datum :: data further)).1 = .ok d)
    (htarget : target.kind ≠ .quote) (hparameters : ∀ parameters body rest, target.kind = .symbol →
      further = parameters :: body :: rest → parameters.kind ≠ .quote) :
    ∃ t, targetName? target further = some (t, d.bound.2) ∧ t.value = d.bound.1 := by
  obtain ⟨v, operand, body, name, hoperands, hcases⟩ := SpecialForm.definition_eq_ok h
  rw [Value.ofData, List.cons.injEq] at hoperands
  obtain ⟨rfl, hfurther⟩ := hoperands
  rcases hcases with ⟨id, head, params, hlist, hname, hd⟩ | ⟨hname, hd⟩
  · obtain ⟨opener, items, closer, opens, closes, rfl, hitems⟩ := eq_list_of_ofDatum htarget hlist
    cases items with
    | nil => cases hitems
    | cons i items =>
      cases hitems
      obtain ⟨t, kind, rfl, rfl⟩ := eq_symbol_of_symbolName? hname
      exact ⟨t, by rw [hd]; rfl, by rw [hd]⟩
  · obtain ⟨t, kind, rfl, rfl⟩ := eq_symbol_of_symbolName? hname
    cases further with
    | nil => cases hfurther
    | cons p ps =>
      rw [data, Value.ofData, List.cons.injEq] at hfurther
      obtain ⟨rfl, rfl⟩ := hfurther
      rcases SpecialForm.definitionOf_eq_ok hd with ⟨hbody, hbound⟩ | ⟨hbody, hbound, id, vs, hlist⟩
      · cases ps with
        | nil => exact ⟨t, by rw [hbound]; rfl, by rw [hbound]⟩
        | cons b bs => cases hbody
      · cases ps with
        | nil => exact absurd rfl hbody
        | cons b bs =>
          obtain ⟨opener, items, closer, opens, closes, rfl, -⟩ :=
            eq_list_of_ofDatum (hparameters p b bs rfl rfl) hlist
          exact ⟨t, by rw [hbound]; rfl, by rw [hbound]⟩

/-- The form is a definition only if its shape is that of one. -/
def WellShaped (next : ObjectId) (form : Datum) : Prop :=
  ∀ operands, form = .list (Datum.symbol "define" :: operands) →
    ∃ d, SpecialForm.definition (Value.ofData next operands).1 = .ok d

theorem binding?_eq_none {next : ObjectId} {form : Datum}
    (h : ∀ operands, form ≠ .list (Datum.symbol "define" :: operands)) :
    form.binding? next = none := by
  unfold Datum.binding?
  split
  · split
    · next hhead =>
      subst hhead
      exact absurd rfl (h _)
    · rfl
  · rfl

theorem binding?_of_definition {next : ObjectId} {operands : List Datum}
    {d : SpecialForm.Definition}
    (h : SpecialForm.definition (Value.ofData next operands).1 = .ok d) :
    (Datum.list (Datum.symbol "define" :: operands)).binding? next = some d.bound := by
  simp only [Datum.binding?, Datum.symbol, if_true, h]

/-- A list whose head is not spelled `define` is not headed by that symbol. -/
theorem datum_ne_define {d : Derivation} (h : ∀ t kind, d = .symbol t kind → t.value ≠ "define") :
    d.datum ≠ Datum.symbol "define" := by
  intro hd
  have hname : (Value.ofDatum 0 d.datum).1.symbolName? = some "define" := by rw [hd]; rfl
  obtain ⟨t, kind, rfl, ht⟩ := eq_symbol_of_symbolName? hname
  exact h t kind rfl ht

theorem indexed?_list_eq_none {opener closer : Token} {head : Derivation} {items : List Derivation}
    {opens : opener.kind = .leftParen} {closes : closer.kind = .rightParen}
    (h : ∀ t kind, head = .symbol t kind → t.value ≠ "define") :
    indexed? (.list opener (head :: items) closer opens closes) = none := by
  cases items with
  | nil => cases head <;> rfl
  | cons target further =>
    cases head with
    | symbol t kind => exact if_neg (h t kind rfl)
    | _ => rfl

/-- **A list binds what the index finds in it**, if its shape is right and no quote mark stands in
the way. -/
theorem binding?_list {opener closer : Token} {items : List Derivation}
    {opens : opener.kind = .leftParen} {closes : closer.kind = .rightParen} {next : ObjectId}
    (hplain : Plain (.list opener items closer opens closes))
    (hshape : WellShaped next (.list (data items))) :
    (Datum.list (data items)).binding? next =
      (indexed? (.list opener items closer opens closes)).map fun p => (p.1.value, p.2) := by
  cases items with
  | nil => rfl
  | cons head items =>
    by_cases hhead : ∃ t kind, head = .symbol t kind ∧ t.value = "define"
    · obtain ⟨t, kind, rfl, hdefine⟩ := hhead
      rw [data, datum_of_define hdefine] at hshape ⊢
      obtain ⟨d, hd⟩ := hshape _ rfl
      rw [binding?_of_definition hd]
      cases items with
      | nil => cases hd
      | cons target further =>
        have hquote := hplain hdefine
        obtain ⟨name, hname, hvalue⟩ := targetName?_of_definition hd hquote.1 hquote.2
        rw [indexed?, if_pos hdefine, hname, Option.map_some, hvalue]
    · have hne : ∀ t kind, head = .symbol t kind → t.value ≠ "define" :=
        fun t kind ht hdefine => hhead ⟨t, kind, ht, hdefine⟩
      rw [indexed?_list_eq_none hne, Option.map_none]
      refine binding?_eq_none fun operands hform => datum_ne_define hne ?_
      rw [data, Datum.list.injEq, List.cons.injEq] at hform
      exact hform.1

end Derivation

/-! ### Quote marks -/

theorem Editor.parenBalance_append (ts us : List Token) :
    parenBalance (ts ++ us) = parenBalance ts + parenBalance us := by
  simp only [parenBalance, List.countP_append]
  omega

namespace Derivation

mutual

/-- Derivations close what they open. -/
theorem parenBalance_tokens : ∀ d : Derivation, parenBalance d.tokens = 0
  | .number t _ kind _ => by simp [tokens, parenBalance, kind]
  | .string t kind => by simp [tokens, parenBalance, kind]
  | .date t _ kind _ => by simp [tokens, parenBalance, kind]
  | .symbol t kind => by simp [tokens, parenBalance, kind]
  | .list opener items closer opens closes => by
    have hopen : parenBalance [opener] = 1 := by simp [parenBalance, opens]
    have hclose : parenBalance [closer] = -1 := by simp [parenBalance, closes]
    rw [tokens, ← List.singleton_append, parenBalance_append, parenBalance_append, hopen, hclose,
      parenBalance_tokensOfAll items]
    rfl
  | .quote mark inner kind => by
    have hmark : parenBalance [mark] = 0 := by simp [parenBalance, kind]
    rw [tokens, ← List.singleton_append, parenBalance_append, hmark, parenBalance_tokens inner]
    rfl

theorem parenBalance_tokensOfAll : ∀ ds : List Derivation, parenBalance (tokensOfAll ds) = 0
  | [] => rfl
  | d :: ds => by
    rw [tokensOfAll, parenBalance_append, parenBalance_tokens d, parenBalance_tokensOfAll ds]
    rfl

end

/-- In a quotation that the index takes for a definition a quote mark stands before the parenthesis,
and only quote marks stand before that one. -/
theorem exists_mark_of_indexed? : ∀ (d : Derivation) (mark : Token) (kind : mark.kind = .quote)
    {p : Token × DefinitionKind}, d.indexed? = some p →
      ∃ before mark' opener after, (quote mark d kind).tokens = before ++ mark' :: opener :: after ∧
        mark'.kind = .quote ∧ opener.kind = .leftParen ∧ parenBalance before = 0
  | .list opener items closer opens _, mark, kind, _, _ =>
    ⟨[], mark, opener, _, rfl, kind, opens, rfl⟩
  | .quote mark' inner kind', mark, kind, _, h => by
    obtain ⟨before, m, opener, after, htokens, hm, hopener, hbalance⟩ :=
      exists_mark_of_indexed? inner mark' kind' h
    have hmark : parenBalance [mark] = 0 := by simp [parenBalance, kind]
    refine ⟨mark :: before, m, opener, after, by rw [tokens, htokens, List.cons_append], hm, hopener,
      ?_⟩
    rw [← List.singleton_append, parenBalance_append, hmark, hbalance]
    rfl

/-- No quote mark directly precedes an outermost opening parenthesis. -/
def UnquotedLists (ts : List Token) : Prop :=
  ∀ before mark opener after, ts = before ++ mark :: opener :: after → mark.kind = .quote →
    opener.kind = .leftParen → parenBalance before ≠ 0

theorem indexed?_quote_eq_none {ts : List Token} {ds : List Derivation} {mark : Token}
    {inner : Derivation} {kind : mark.kind = .quote} (hts : UnquotedLists ts)
    (hds : tokensOfAll ds <+: ts)
    (h : .quote mark inner kind ∈ ds) : indexed? (.quote mark inner kind) = none := by
  refine Option.eq_none_iff_forall_ne_some.2 fun p hp => ?_
  obtain ⟨before, m, opener, after, htokens, hm, hopener, hbalance⟩ :=
    exists_mark_of_indexed? inner mark kind hp
  obtain ⟨ds₁, ds₂, rfl⟩ := List.append_of_mem h
  obtain ⟨rest, rfl⟩ := hds
  refine hts (tokensOfAll ds₁ ++ before) m opener (after ++ (tokensOfAll ds₂ ++ rest)) ?_ hm hopener ?_
  · rw [tokensOfAll_append, tokensOfAll, htokens]
    simp only [List.append_assoc, List.cons_append]
  · rw [parenBalance_append, parenBalance_tokensOfAll, hbalance]
    rfl

/-! ### Agreement on the whole text -/

/-- The token of the name in a definition: its target, or the head of its target. -/
def nameToken? : Derivation → Option Token
  | .list _ (_ :: .symbol name _ :: _) .. => some name
  | .list _ (_ :: .list _ (.symbol name _ :: _) .. :: _) .. => some name
  | _ => none

theorem nameToken?_of_indexed? {opener closer : Token} {items : List Derivation}
    {opens : opener.kind = .leftParen} {closes : closer.kind = .rightParen}
    {p : Token × DefinitionKind}
    (h : indexed? (.list opener items closer opens closes) = some p) :
    nameToken? (.list opener items closer opens closes) = some p.1 := by
  rcases items with _ | ⟨head, _ | ⟨target, further⟩⟩
  · cases h
  · cases head <;> cases h
  · have htarget : targetName? target further = some p := by
      cases head with
      | symbol t kind =>
        rw [indexed?] at h
        split at h
        · exact h
        · cases h
      | _ => cases h
    rcases eq_of_targetName? htarget with ⟨kind, rfl⟩ | ⟨opener, kind, items, closer, opens, closes, rfl⟩
    · rfl
    · rfl

/-- **Every form of a text binds what the index notes of it.** -/
theorem binding?_datum {ts : List Token} {ds : List Derivation} {d : Derivation} {next : ObjectId}
    (hts : UnquotedLists ts) (hds : tokensOfAll ds <+: ts) (hd : d ∈ ds) (hplain : Plain d)
    (hshape : WellShaped next d.datum) :
    d.datum.binding? next = d.indexed?.map fun p => (p.1.value, p.2) := by
  cases d with
  | list opener items closer opens closes => exact binding?_list hplain hshape
  | quote mark inner kind =>
    rw [indexed?_quote_eq_none hts hds hd]
    refine binding?_eq_none fun operands h => ?_
    exact absurd h (by simp [datum, Datum.quoted, Datum.symbol])
  | _ => rfl

/-- Where the forms bind what the index notes, it notes the names that they bind. -/
theorem map_fst_listed? {ds : List Derivation} {next : ObjectId}
    (h : ∀ d ∈ ds, d.datum.binding? next = d.indexed?.map fun p => (p.1.value, p.2)) :
    (ds.filterMap listed?).map (·.1) = ((data ds).filterMap (Datum.binding? next)).map (·.1) := by
  rw [data_eq_map, List.filterMap_map, List.map_filterMap, List.map_filterMap]
  refine List.filterMap_congr fun d hd => ?_
  rw [Function.comp_apply, h d hd, listed?, Option.map_map, Option.map_map]
  rfl

/-- **The index agrees with evaluation.** If no quote mark hides a form, a target or a parameter
list, and every definition has the shape of one, then the index lists the names that the definitions
bind, in the order of the first ones, and each with the kind and the place that its last definition
gives it. -/
theorem index_agrees {source : String} {forms : List Datum} {next : ObjectId}
    (hread : readAll source = .ok forms) (hquotes : UnquotedLists (Token.ofText source))
    (hplain : ∀ ds, tokensOfAll ds = beforeEnd (Token.ofText source) → ∀ d ∈ ds, Plain d)
    (hshape : ∀ form ∈ forms, WellShaped next form) :
    ∃ ds, tokensOfAll ds = beforeEnd (Token.ofText source) ∧ data ds = forms ∧
      ∃ idx, Index.ofText source = .ok idx ∧
        Assoc.names idx.symbols =
          ((forms.filterMap (Datum.binding? next)).map (·.1)).eraseDups ∧
        ∀ before d after name kind, ds = before ++ d :: after →
          d.datum.binding? next = some (name, kind) →
          (∀ form ∈ data after, ∀ kind', form.binding? next ≠ some (name, kind')) →
          ∃ t, d.nameToken? = some t ∧ t.value = name ∧
            Assoc.get? name idx.symbols = some ⟨kind, t.place.line - 1, t.place.column - 1⟩ := by
  obtain ⟨ds, hds, rfl⟩ := ofTokens_eq_ok_iff.1 hread
  obtain ⟨idx, hidx, hsymbols⟩ := exists_index hds
  have hprefix : tokensOfAll ds <+: Token.ofText source := hds ▸ List.takeWhile_prefix _
  have hbinding : ∀ d ∈ ds, d.datum.binding? next = d.indexed?.map fun p => (p.1.value, p.2) :=
    fun d hd => binding?_datum hquotes hprefix hd (hplain ds hds d hd)
      (hshape _ (by rw [data_eq_map]; exact List.mem_map_of_mem hd))
  refine ⟨ds, hds, rfl, idx, hidx, ?_, ?_⟩
  · rw [hsymbols, Assoc.names_insertAll_nil, map_fst_listed? hbinding]
  · rintro before d after name kind rfl hd hlast
    have hmem : d ∈ before ++ d :: after := List.mem_append_right _ List.mem_cons_self
    rw [hbinding d hmem] at hd
    obtain ⟨⟨t, kind'⟩, hindexed, hp⟩ := Option.map_eq_some_iff.1 hd
    cases hp
    refine ⟨t, ?_, rfl, ?_⟩
    · cases d with
      | list opener items closer opens closes => exact nameToken?_of_indexed? hindexed
      | quote mark inner hmark =>
        cases hindexed.symm.trans (indexed?_quote_eq_none hquotes hprefix hmem)
      | _ => cases hindexed
    · have hentry : d.listed? = some (entry (t, kind')) := by rw [listed?, hindexed]; rfl
      rw [hsymbols, List.filterMap_append, List.filterMap_cons_some hentry]
      refine Assoc.get?_insertAll_last (b := entry (t, kind')) ?_
      rw [map_fst_listed? fun d hd =>
        hbinding d (List.mem_append_right _ (List.mem_cons_of_mem _ hd))]
      intro hlater
      obtain ⟨⟨name, k⟩, hb, hname⟩ := List.mem_map.1 hlater
      obtain ⟨form, hform, hb⟩ := List.mem_filterMap.1 hb
      exact hlast form hform k (hb.trans (congrArg (fun n => some (n, k)) hname))

/-- The tokens of a text that defines a variable, and then a function of the same name. -/
def redefinition : List Token :=
  [⟨.leftParen, "(", ⟨0, 1, 1⟩⟩, ⟨.symbol, "define", ⟨1, 1, 2⟩⟩, ⟨.symbol, "x", ⟨8, 1, 9⟩⟩,
    ⟨.number, "1", ⟨10, 1, 11⟩⟩, ⟨.rightParen, ")", ⟨11, 1, 12⟩⟩,
    ⟨.leftParen, "(", ⟨13, 2, 1⟩⟩, ⟨.symbol, "define", ⟨14, 2, 2⟩⟩, ⟨.leftParen, "(", ⟨21, 2, 9⟩⟩,
    ⟨.symbol, "x", ⟨22, 2, 10⟩⟩, ⟨.rightParen, ")", ⟨23, 2, 11⟩⟩, ⟨.symbol, "y", ⟨25, 2, 13⟩⟩,
    ⟨.rightParen, ")", ⟨26, 2, 14⟩⟩, .atEnd ⟨27, 2, 15⟩]

/-- Its derivations. -/
def redefinitionDerivations : List Derivation :=
  [.list ⟨.leftParen, "(", ⟨0, 1, 1⟩⟩ [.symbol ⟨.symbol, "define", ⟨1, 1, 2⟩⟩ rfl,
      .symbol ⟨.symbol, "x", ⟨8, 1, 9⟩⟩ rfl, .number ⟨.number, "1", ⟨10, 1, 11⟩⟩ (.int 1) rfl rfl]
      ⟨.rightParen, ")", ⟨11, 1, 12⟩⟩ rfl rfl,
    .list ⟨.leftParen, "(", ⟨13, 2, 1⟩⟩ [.symbol ⟨.symbol, "define", ⟨14, 2, 2⟩⟩ rfl,
      .list ⟨.leftParen, "(", ⟨21, 2, 9⟩⟩ [.symbol ⟨.symbol, "x", ⟨22, 2, 10⟩⟩ rfl]
        ⟨.rightParen, ")", ⟨23, 2, 11⟩⟩ rfl rfl, .symbol ⟨.symbol, "y", ⟨25, 2, 13⟩⟩ rfl]
      ⟨.rightParen, ")", ⟨26, 2, 14⟩⟩ rfl rfl]

/-- A name that is defined as a variable and then as a function is listed once, as the function. -/
theorem index_agrees_redefinition :
    ∃ idx, Index.ofText "(define x 1)\n(define (x) y)" = .ok idx ∧
      Assoc.names idx.symbols = ["x"] ∧
      Assoc.get? "x" idx.symbols = some ⟨.function, 1, 9⟩ := by
  have htext : Token.ofText "(define x 1)\n(define (x) y)" = redefinition := by decide +kernel
  have hdata : data redefinitionDerivations =
      [.list [Datum.symbol "define", Datum.symbol "x", .atom (.number (.int 1))],
        .list [Datum.symbol "define", .list [Datum.symbol "x"], Datum.symbol "y"]] := by
    with_unfolding_all rfl
  have hquotes : UnquotedLists redefinition := fun before mark opener after h hmark => by
    have hmem : mark ∈ redefinition := h ▸ List.mem_append_right _ List.mem_cons_self
    exact absurd hmark ((by decide : ∀ t ∈ redefinition, t.kind ≠ .quote) mark hmem)
  have hplain : ∀ d ∈ redefinitionDerivations, Plain d := by
    simp [redefinitionDerivations, Plain, kind]
  have hshape : ∀ form ∈ data redefinitionDerivations, WellShaped 0 form := by
    rw [hdata]
    rintro form hform operands rfl
    simp only [List.mem_cons, Datum.list.injEq, List.cons.injEq, true_and, List.not_mem_nil,
      or_false] at hform
    rcases hform with rfl | rfl <;> exact ⟨_, rfl⟩
  have hds : tokensOfAll redefinitionDerivations =
      beforeEnd (Token.ofText "(define x 1)\n(define (x) y)") := by
    rw [htext]
    rfl
  obtain ⟨ds, htokens, -, idx, hidx, hnames, hlast⟩ :=
    index_agrees (ofTokens_eq_ok_iff.2 ⟨_, hds, rfl⟩) (htext ▸ hquotes)
      (fun ds htokens => tokensOfAll_injective (hds.trans htokens.symm) ▸ hplain) hshape
  cases tokensOfAll_injective (hds.trans htokens.symm)
  refine ⟨idx, hidx, ?_, ?_⟩
  · rw [hnames, hdata]
    rfl
  · obtain ⟨t, ht, -, hget⟩ := hlast [_] _ [] "x" .function rfl (by with_unfolding_all rfl)
      fun later hlater => absurd hlater List.not_mem_nil
    cases ht
    exact hget

end Derivation

end MiniLisp
