import MiniLisp.Proofs.StandardLibrary.Traversal

/-! # The functions of the library that visit a list

`map`, `filter` and `reduce` are programs. Each tests whether the list is empty, calls the function that was
handed over on the first element, and calls itself for the others. So by induction on the list, wherever
such a call is made, it ends as the calls on the elements end that are made one after the other
(`ends_map`, `ends_filter`, `ends_reduce`); it leaves frames of its own behind, and nothing else
(`EndsAlike`). So applying the names has the effects of these calls, and the values that it should have
(`visits_in_order`). -/

namespace MiniLisp

open Run SpecialForm

namespace StandardLibrary

/-! ### How a call of a library function ends -/

/-- **The call ends as the visit does** in the store `s`, of which it sees the frames under other numbers
and objects under other identities: `alike` says which value stands for which result. -/
inductive EndsAlike {α : Type} (f : Relabelling) (s : Store) (alike : Relabelling → α → Value → Prop) :
    EStateM.Result Failure Store α → Ending → Prop
  | ok {g : Relabelling} {a : α} {v : Value} {s' t' : Store} (hagrees : f.AgreesOn s g)
      (hembeds : s'.Embeds g t') (hvalue : alike g a v) : EndsAlike f s alike (.ok a s') (.ok v t')
  | error {g : Relabelling} {e : Failure} {s' t' : Store} (hagrees : f.AgreesOn s g)
      (hembeds : s'.Embeds g t') : EndsAlike f s alike (.error e s') (.error e t')

theorem EndsAlike.of_continues {α : Type} {f g : Relabelling} {s s' : Store}
    {alike : Relabelling → α → Value → Prop} {x : EStateM.Result Failure Store α} {r : Ending}
    (h : EndsAlike g s' alike x r) (hg : f.Continues s g s') : EndsAlike f s alike x r := by
  cases h with
  | ok hagrees hembeds hvalue => exact .ok (hg.agreesOn hagrees) hembeds hvalue
  | error hagrees hembeds => exact .error (hg.agreesOn hagrees) hembeds

/-- The value is the other one, relabelled. -/
def IsRelabelled (g : Relabelling) (a v : Value) : Prop := v = a.relabel g

/-- The value is a list of the values, relabelled. -/
def IsListRelabelled (g : Relabelling) (vs : List Value) (v : Value) : Prop :=
  ∃ id, v = .list id (vs.map (Value.relabel g))

variable {lib : Store} {p w : Value} {n : Nat}

/-- **A call of a library function** ends as its body does in the frame of the call. -/
theorem exists_ends_apply {α : Type} {x : EStateM.Result Failure Store α} {formals : List String}
    {args : List Value} {body : Value} {id : ObjectId} {name : String} {f : Relabelling}
    {s t : Store} {alike : Relabelling → α → Value → Prop} (h : Within lib f s t)
    (hlength : args.length = formals.length) (hnodup : formals.Nodup)
    (hnew : ∀ name ∈ visitNames, name ∉ formals)
    (hbody : ∀ (t' : Store) (e : FrameId), Within lib f s t' → InFrame lib t' e (formals.zip args) →
      (∀ i < s.frames.size, f.frame i ≠ e) →
      ∃ r, Finishes false body e t' r ∧ EndsAlike f s alike x r) :
    ∃ r, Ends (fun m => apply (evaluate false m) (.closure id formals [body] globalFrame name) args) t
        r ∧ EndsAlike f s alike x r := by
  obtain ⟨hin, hframe⟩ := h.enter hlength hnodup hnew
  obtain ⟨r, hr, halike⟩ := hbody _ _ hin hframe h.frame_ne_size
  exact ⟨r, ends_apply_closure hlength hr, halike⟩

/-- **A value is put before the list** that stands for the results of the other calls. -/
theorem exists_finishes_cons {f g : Relabelling} {s s' t t' : Store} {e : FrameId}
    {bindings : Bindings} {i : ObjectId} {a b head tail : Value} {visit : Run (List Value)} {r : Ending}
    (hlib : Provided lib) (hframe : InFrame lib t e bindings)
    (hhead : Finishes false head e t (.ok b t')) (htail : Finishes false tail e t' r)
    (halike : EndsAlike g s' IsListRelabelled (visit s') r) (hg : f.Continues s g s')
    (hb : b = a.relabel g) (ha : s'.Holds a) :
    ∃ r', Finishes false (.list i [.symbol "cons", head, tail]) e t r' ∧
      EndsAlike f s IsListRelabelled (((a :: ·) <$> visit) s') r' := by
  rw [map_apply]
  generalize visit s' = y at halike
  cases halike with
  | @ok g' vs _ s'' t'' hagrees hembeds hvs =>
    obtain ⟨k, rfl⟩ := hvs
    have hlist : IsListRelabelled g' (a :: vs) (.list t''.nextId (b :: vs.map (Value.relabel g'))) :=
      ⟨t''.nextId, by rw [List.map_cons, hagrees.value ha, hb]⟩
    exact ⟨_, hframe.finishes_cons hlib hhead htail,
      .ok (hg.agreesOn hagrees) (hembeds.grow t''.grows_bump) hlist⟩
  | error hagrees hembeds =>
    exact ⟨_, hframe.finishes_cons_of_error hlib
      (ends_all_of_error_tail hhead (ends_all_of_error_head htail)),
      .error (hg.agreesOn hagrees) hembeds⟩

/-! ### `map` -/

theorem isValue_map (h : map.IsValue w) : ∃ id i₁ i₂ i₃ i₄ i₅ i₆ i₇ i₈, w =
    .closure id ["f", "lst"] [.list i₁ [.symbol "if", .list i₂ [.symbol "empty?", .symbol "lst"],
      .list i₃ [.symbol "list"],
      .list i₄ [.symbol "cons", .list i₅ [.symbol "f", .list i₆ [.symbol "car", .symbol "lst"]],
        .list i₇ [.symbol "map", .symbol "f", .list i₈ [.symbol "cdr", .symbol "lst"]]]]]
      globalFrame "map" := by
  obtain ⟨id, next, rfl⟩ := h
  exact ⟨id, _, _, _, _, _, _, _, _, rfl⟩

/-- **A call of `map`** ends as the calls on the elements do. In the induction on the list the store within
is the one after the calls so far, and the store around it has the frames of the calls under way. -/
theorem ends_map (hlib : Provided lib) (hfun : p.isFunction = true) (hvalue : map.IsValue w)
    (hw : lib.frames.get? globalFrame "map" = some w) (xs : List Value) :
    ∀ {f : Relabelling} {s t : Store} (l : ObjectId), Within lib f s t → s.Holds p →
      (∀ x ∈ xs, s.Holds x) → ¬ Exhausted (mapped n p xs s) → Leaves lib (mapped n p) xs s →
      ∃ r, Ends (fun m => apply (evaluate false m) w
          [p.relabel f, .list l (xs.map (Value.relabel f))]) t r ∧
        EndsAlike f s IsListRelabelled (mapped n p xs s) r := by
  have hf : ofName? "f" = none := by decide
  obtain ⟨id, i₁, i₂, i₃, i₄, i₅, i₆, i₇, i₈, hbody⟩ := isValue_map hvalue
  induction xs with
  | nil =>
    intro f s t l hwithin hp _ _ _
    rw [hbody]
    refine exists_ends_apply hwithin rfl (by decide) (by decide) fun t' e hin hframe hown => ?_
    refine ⟨_, hframe.finishes_if_empty rfl hlib rfl (hframe.finishes_list hlib), ?_⟩
    exact .ok (Relabelling.AgreesOn.refl f s) (hin.grow t'.grows_bump).embeds ⟨_, rfl⟩
  | cons x xs ih =>
    intro f s t l hwithin hp hxs hne hleaves
    rw [List.forall_mem_cons] at hxs
    have harg : ∀ v ∈ [x], s.Holds v := List.forall_mem_singleton.2 hxs.1
    rw [hbody]
    refine exists_ends_apply hwithin rfl (by decide) (by decide) fun t' e hin hframe hown => ?_
    have hcar : Ends (fun n => (evaluate false n).all e [.list i₆ [.symbol "car", .symbol "lst"]]) t'
        (.ok [x.relabel f] t') :=
      ends_all_cons (hframe.finishes_car rfl hlib rfl) ends_all_nil
    cases hx : apply (evaluate false n) p [x] s with
    | error err s₁ =>
      rw [mapped_cons_of_error x xs hx] at hne ⊢
      obtain ⟨g, t₁, hcall, hagrees, hembeds⟩ := hin.finishes_visit_error hframe hf rfl hfun hp
        harg hcar hx fun h => hne (exhausted_error_iff.2 h)
      exact ⟨_, hframe.finishes_if_cons rfl hlib rfl
        (hframe.finishes_cons_of_error hlib (ends_all_of_error_head hcall)), .error hagrees hembeds⟩
    | ok v s₁ =>
      have hcons := fun ys => mapped_cons_of_ok x ys hx
      have hleaves' : Leaves lib (mapped n p) xs s₁ := hleaves.tail hcons
      obtain ⟨g, t₁, hcall, hg, hin₁, hframe₁, hv⟩ := hin.finishes_visit hframe hown
        hf rfl hfun hp harg hcar hx (hleaves'.original rfl)
      rw [hcons, exhausted_map_iff] at hne
      obtain ⟨r, hr, halike⟩ := ih t₁.nextId (hin₁.grow t₁.grows_bump) (hg.holds hp)
        (fun x hx => hg.holds (hxs.2 x hx)) hne hleaves'
      rw [hg.agrees.value hp, hg.agrees.values hxs.2] at hr
      have hrec : Finishes false (.list i₇ [.symbol "map", .symbol "f",
          .list i₈ [.symbol "cdr", .symbol "lst"]]) e t₁ r :=
        finishes_call (by decide) ((hframe₁.lookup?_global (by decide)).trans hw) hvalue.isFunction
          (ends_all_cons (finishes_symbol (hframe₁.lookup?_local rfl))
            (ends_all_cons (hframe₁.finishes_cdr rfl hlib rfl) ends_all_nil)) hr
      rw [hcons]
      obtain ⟨r', hr', halike'⟩ := exists_finishes_cons hlib hframe hcall hrec halike hg rfl hv
      exact ⟨r', hframe.finishes_if_cons rfl hlib rfl hr', halike'⟩

/-! ### `filter` -/

theorem isValue_filter (h : filter.IsValue w) :
    ∃ id i₁ i₂ i₃ i₄ i₅ i₆ i₇ i₈ i₉ i₁₀ i₁₁ i₁₂ i₁₃ i₁₄, w =
    .closure id ["pred", "lst"] [.list i₁ [.symbol "cond",
      .list i₂ [.list i₃ [.symbol "empty?", .symbol "lst"], .list i₄ [.symbol "list"]],
      .list i₅ [.list i₆ [.symbol "pred", .list i₇ [.symbol "car", .symbol "lst"]],
        .list i₈ [.symbol "cons", .list i₉ [.symbol "car", .symbol "lst"],
          .list i₁₀ [.symbol "filter", .symbol "pred", .list i₁₁ [.symbol "cdr", .symbol "lst"]]]],
      .list i₁₂ [.symbol "else",
        .list i₁₃ [.symbol "filter", .symbol "pred", .list i₁₄ [.symbol "cdr", .symbol "lst"]]]]]
      globalFrame "filter" := by
  obtain ⟨id, next, rfl⟩ := h
  exact ⟨id, _, _, _, _, _, _, _, _, _, _, _, _, _, _, rfl⟩

/-- **A call of `filter`** ends as the calls on the elements do. -/
theorem ends_filter (hlib : Provided lib) (hfun : p.isFunction = true) (hvalue : filter.IsValue w)
    (hw : lib.frames.get? globalFrame "filter" = some w) (xs : List Value) :
    ∀ {f : Relabelling} {s t : Store} (l : ObjectId), Within lib f s t → s.Holds p →
      (∀ x ∈ xs, s.Holds x) → ¬ Exhausted (filtered n p xs s) → Leaves lib (filtered n p) xs s →
      ∃ r, Ends (fun m => apply (evaluate false m) w
          [p.relabel f, .list l (xs.map (Value.relabel f))]) t r ∧
        EndsAlike f s IsListRelabelled (filtered n p xs s) r := by
  have hpred : ofName? "pred" = none := by decide
  obtain ⟨id, i₁, i₂, i₃, i₄, i₅, i₆, i₇, i₈, i₉, i₁₀, i₁₁, i₁₂, i₁₃, i₁₄, hbody⟩ :=
    isValue_filter hvalue
  induction xs with
  | nil =>
    intro f s t l hwithin hp _ _ _
    rw [hbody]
    refine exists_ends_apply hwithin rfl (by decide) (by decide) fun t' e hin hframe hown => ?_
    refine ⟨_, finishes_cond (List.cons_ne_nil _ _) (ends_clauses_taken rfl
      (hframe.finishes_empty rfl hlib) rfl (hframe.finishes_list hlib)), ?_⟩
    exact .ok (Relabelling.AgreesOn.refl f s) (hin.grow t'.grows_bump).embeds ⟨_, rfl⟩
  | cons x xs ih =>
    intro f s t l hwithin hp hxs hne hleaves
    rw [List.forall_mem_cons] at hxs
    have harg : ∀ v ∈ [x], s.Holds v := List.forall_mem_singleton.2 hxs.1
    rw [hbody]
    refine exists_ends_apply hwithin rfl (by decide) (by decide) fun t' e hin hframe hown => ?_
    have hlst : Assoc.get? "lst" (["pred", "lst"].zip [p.relabel f,
        .list l ((x :: xs).map (Value.relabel f))]) =
        some (.list l ((x :: xs).map (Value.relabel f))) := rfl
    have hempty : Finishes false (.list i₃ [.symbol "empty?", .symbol "lst"]) e t'
        (.ok (.bool false) t') := hframe.finishes_empty hlst hlib
    have hcar : Ends (fun n => (evaluate false n).all e [.list i₇ [.symbol "car", .symbol "lst"]]) t'
        (.ok [x.relabel f] t') :=
      ends_all_cons (hframe.finishes_car rfl hlib rfl) ends_all_nil
    cases hx : apply (evaluate false n) p [x] s with
    | error err s₁ =>
      rw [filtered_cons_of_error x xs hx] at hne ⊢
      obtain ⟨g, t₁, hcall, hagrees, hembeds⟩ := hin.finishes_visit_error hframe hpred rfl hfun hp
        harg hcar hx fun h => hne (exhausted_error_iff.2 h)
      exact ⟨_, finishes_cond (List.cons_ne_nil _ _) (ends_clauses_passed rfl hempty rfl
        (ends_clauses_of_error rfl hcall)), .error hagrees hembeds⟩
    | ok v s₁ =>
      have hcons := fun ys => filtered_cons_of_ok x ys hx
      have hleaves' : Leaves lib (filtered n p) xs s₁ := hleaves.tail hcons
      obtain ⟨g, t₁, hcall, hg, hin₁, hframe₁, hv⟩ := hin.finishes_visit hframe hown
        hpred rfl hfun hp harg hcar hx (hleaves'.original rfl)
      rw [hcons, exhausted_map_iff] at hne
      obtain ⟨r, hr, halike⟩ := ih t₁.nextId (hin₁.grow t₁.grows_bump) (hg.holds hp)
        (fun x hx => hg.holds (hxs.2 x hx)) hne hleaves'
      rw [hg.agrees.value hp, hg.agrees.values hxs.2] at hr
      have hrec : ∀ i j, Finishes false (.list i [.symbol "filter", .symbol "pred",
          .list j [.symbol "cdr", .symbol "lst"]]) e t₁ r := fun i j =>
        finishes_call (by decide) ((hframe₁.lookup?_global (by decide)).trans hw) hvalue.isFunction
          (ends_all_cons (finishes_symbol (hframe₁.lookup?_local rfl))
            (ends_all_cons (hframe₁.finishes_cdr rfl hlib rfl) ends_all_nil)) hr
      rw [hcons]
      cases hv' : v.isTruthy with
      | false =>
        simp only [Bool.false_eq_true, if_false, id_map']
        exact ⟨r, finishes_cond (List.cons_ne_nil _ _) (ends_clauses_passed rfl hempty rfl
          (ends_clauses_passed rfl hcall (by rwa [Value.isTruthy_relabel])
            (ends_clauses_else (hrec i₁₃ i₁₄)))), halike.of_continues hg⟩
      | true =>
        simp only [if_true]
        obtain ⟨r', hr', halike'⟩ := exists_finishes_cons hlib hframe₁
          (hframe₁.finishes_car hlst hlib rfl) (hrec i₁₀ i₁₁) halike hg
          (hg.agrees.value hxs.1).symm (hg.holds hxs.1)
        exact ⟨r', finishes_cond (List.cons_ne_nil _ _) (ends_clauses_passed rfl hempty rfl
          (ends_clauses_taken rfl hcall (by rwa [Value.isTruthy_relabel]) hr')), halike'⟩

/-! ### `reduce` -/

theorem isValue_reduce (h : reduce.IsValue w) : ∃ id i₁ i₂ i₃ i₄ i₅ i₆, w =
    .closure id ["f", "acc", "lst"] [.list i₁ [.symbol "if",
      .list i₂ [.symbol "empty?", .symbol "lst"], .symbol "acc",
      .list i₃ [.symbol "reduce", .symbol "f",
        .list i₄ [.symbol "f", .symbol "acc", .list i₅ [.symbol "car", .symbol "lst"]],
        .list i₆ [.symbol "cdr", .symbol "lst"]]]]
      globalFrame "reduce" := by
  obtain ⟨id, next, rfl⟩ := h
  exact ⟨id, _, _, _, _, _, _, rfl⟩

/-- **A call of `reduce`** ends as the calls on the elements do. -/
theorem ends_reduce (hlib : Provided lib) (hfun : p.isFunction = true) (hvalue : reduce.IsValue w)
    (hw : lib.frames.get? globalFrame "reduce" = some w) (xs : List Value) :
    ∀ {acc : Value} {f : Relabelling} {s t : Store} (l : ObjectId), Within lib f s t → s.Holds p →
      s.Holds acc → (∀ x ∈ xs, s.Holds x) → ¬ Exhausted (reduced n p acc xs s) →
      Leaves lib (reduced n p acc) xs s →
      ∃ r, Ends (fun m => apply (evaluate false m) w
          [p.relabel f, acc.relabel f, .list l (xs.map (Value.relabel f))]) t r ∧
        EndsAlike f s IsRelabelled (reduced n p acc xs s) r := by
  have hf : ofName? "f" = none := by decide
  obtain ⟨id, i₁, i₂, i₃, i₄, i₅, i₆, hbody⟩ := isValue_reduce hvalue
  induction xs with
  | nil =>
    intro acc f s t l hwithin hp _ _ _ _
    rw [hbody]
    refine exists_ends_apply hwithin rfl (by decide) (by decide) fun t' e hin hframe hown => ?_
    exact ⟨_, hframe.finishes_if_empty rfl hlib rfl (finishes_symbol (hframe.lookup?_local rfl)),
      .ok (Relabelling.AgreesOn.refl f s) hin.embeds rfl⟩
  | cons x xs ih =>
    intro acc f s t l hwithin hp hacc hxs hne hleaves
    rw [List.forall_mem_cons] at hxs
    have hargs : ∀ v ∈ [acc, x], s.Holds v :=
      List.forall_mem_cons.2 ⟨hacc, List.forall_mem_singleton.2 hxs.1⟩
    rw [hbody]
    refine exists_ends_apply hwithin rfl (by decide) (by decide) fun t' e hin hframe hown => ?_
    have hoperands : Ends (fun n => (evaluate false n).all e
        [.symbol "acc", .list i₅ [.symbol "car", .symbol "lst"]]) t'
        (.ok [acc.relabel f, x.relabel f] t') :=
      ends_all_cons (finishes_symbol (hframe.lookup?_local rfl))
        (ends_all_cons (hframe.finishes_car rfl hlib rfl) ends_all_nil)
    have hself : Finishes false (.symbol "f") e t' (.ok (p.relabel f) t') :=
      finishes_symbol (hframe.lookup?_local rfl)
    have hreduce : t'.frames.lookup? e "reduce" = some w :=
      (hframe.lookup?_global (by decide)).trans hw
    cases hx : apply (evaluate false n) p [acc, x] s with
    | error err s₁ =>
      rw [reduced_cons_of_error x xs hx] at hne ⊢
      obtain ⟨g, t₁, hcall, hagrees, hembeds⟩ := hin.finishes_visit_error hframe hf rfl hfun hp
        hargs hoperands hx fun h => hne (exhausted_error_iff.2 h)
      exact ⟨_, hframe.finishes_if_cons rfl hlib rfl (finishes_call_of_error (by decide) hreduce
        hvalue.isFunction (ends_all_of_error_tail hself (ends_all_of_error_head hcall))),
        .error hagrees hembeds⟩
    | ok v s₁ =>
      have hcons := fun ys => reduced_cons_of_ok x ys hx
      have hleaves' : Leaves lib (reduced n p v) xs s₁ :=
        hleaves.tail fun ys => (hcons ys).trans (congrFun (id_map _).symm s₁)
      obtain ⟨g, t₁, hcall, hg, hin₁, hframe₁, hv⟩ := hin.finishes_visit hframe hown
        hf rfl hfun hp hargs hoperands hx (hleaves'.original rfl)
      rw [hcons] at hne ⊢
      obtain ⟨r, hr, halike⟩ := ih t₁.nextId (hin₁.grow t₁.grows_bump) (hg.holds hp) hv
        (fun x hx => hg.holds (hxs.2 x hx)) hne hleaves'
      rw [hg.agrees.value hp, hg.agrees.values hxs.2] at hr
      refine ⟨r, hframe.finishes_if_cons rfl hlib rfl (finishes_call (by decide) hreduce hvalue.isFunction
        (ends_all_cons hself (ends_all_cons hcall
          (ends_all_cons (hframe₁.finishes_cdr rfl hlib rfl) ends_all_nil))) hr), ?_⟩
      exact halike.of_continues hg

/-! ### Applying them -/

theorem Original.size {lib s : Store} (hlib : Provided lib) (h : Original lib s) :
    globalFrame < s.frames.size := by
  obtain ⟨w, -, hw⟩ := hlib.function map (by simp [functions])
  have hget : s.frames.get? globalFrame "map" = some w := (h "map" (by decide)).trans hw
  refine Nat.lt_of_not_le fun hle => ?_
  rw [Frames.get?, Frames.vars_of_size_le hle] at hget
  cases hget

theorem sublist_of_filtered : ∀ {xs kept : List Value} {s s' : Store},
    filtered n p xs s = .ok kept s' → kept.Sublist xs
  | [], kept, s, s', h => by
    cases h
    exact List.Sublist.refl []
  | x :: xs, kept, s, s', h => by
    cases hx : apply (evaluate false n) p [x] s with
    | error e s₁ =>
      rw [filtered_cons_of_error x xs hx] at h
      cases h
    | ok v s₁ =>
      rw [filtered_cons_of_ok x xs hx, map_apply] at h
      cases hxs : filtered n p xs s₁ with
      | error e s₂ =>
        rw [hxs] at h
        cases h
      | ok ys s₂ =>
        rw [hxs] at h
        cases h
        have hys := sublist_of_filtered hxs
        split
        · exact hys.cons_cons x
        · exact hys.cons x

/-- The value is a list of the values. -/
def IsList (_ : Relabelling) (vs : List Value) (v : Value) : Prop := ∃ id, v = .list id vs

/-- **Applying the name to operands with these values ends as the visit does** in the store in which the
operands have been evaluated, and if it is traced and nothing is met that cannot be printed, it ends so up to
the trace. -/
def AppliesAlike {α : Type} (lib : Store) (name : String) (args : List Value) (s : Store)
    (alike : Relabelling → α → Value → Prop) (x : EStateM.Result Failure Store α) : Prop :=
  ∀ (env : FrameId) (s₀ : Store) (id : ObjectId) (operands : List Value),
    s₀.frames.lookup? env name = lib.frames.get? globalFrame name →
    Ends (fun n => (evaluate false n).all env operands) s₀ (.ok args s) →
    ∃ r, Finishes false (.list id (.symbol name :: operands)) env s₀ r ∧
      EndsAlike (.objects fun i => i) s alike x r ∧
      (Printable (.list id (.symbol name :: operands)) env s₀ →
        ∃ log, Finishes true (.list id (.symbol name :: operands)) env s₀ (Ending.logged r s₀ log))

theorem appliesAlike_of_apply {α : Type} {name : String} {args : List Value} {s : Store}
    {alike : Relabelling → α → Value → Prop} {x : EStateM.Result Failure Store α}
    (hspecial : ofName? name = none) (hw : lib.frames.get? globalFrame name = some w)
    (hwfun : w.isFunction = true)
    (h : ∃ r, Ends (fun m => apply (evaluate false m) w args) s r ∧
      EndsAlike (.objects fun i => i) s alike x r) : AppliesAlike lib name args s alike x := by
  intro env s₀ id operands hname hoperands
  obtain ⟨r, hr, halike⟩ := h
  have hfinishes : Finishes false (.list id (.symbol name :: operands)) env s₀ r :=
    finishes_call hspecial (hname.trans hw) hwfun hoperands hr
  exact ⟨r, hfinishes, halike, fun hprint => exists_finishes_true hprint hfinishes⟩

/-- **`map`, `filter` and `reduce` visit each element once, from the left.** In a store whose global names
still have the values that they had after loading, and for a function whose calls on the elements finish and
leave these names alone, the results are the list of the values of the calls, the list of the elements for
which they are true, and the last value, with the effects of the calls; or the failure of the first call that
fails, with the effects up to it. The store is one of which all that is in it was made in it, as everything
is that an interpreter reaches (`Interpreter.sound_eval`, `Store.Sound.evaluate`). -/
theorem visits_in_order {tracing : Bool} {clock : DateTime} {host : Host} {it : Interpreter}
    (hown : Settings.library host = .ok .own)
    (hload : (Interpreter.new tracing clock).loadLibrary host = (.ok (), it))
    {s : Store} (hsound : s.Sound) (horiginal : Original it.store s)
    {p : Value} (hfun : p.isFunction = true) (hp : s.Holds p)
    {l : ObjectId} {xs : List Value} (hxs : s.Holds (.list l xs)) :
    (∀ x, Ends (mapped · p xs) s x → (∀ n, Leaves it.store (mapped n p) xs s) →
      AppliesAlike it.store "map" [p, .list l xs] s IsListRelabelled x) ∧
    (∀ x, Ends (filtered · p xs) s x → (∀ n, Leaves it.store (filtered n p) xs s) →
      AppliesAlike it.store "filter" [p, .list l xs] s IsList x) ∧
    (∀ acc x, s.Holds acc → Ends (reduced · p acc xs) s x →
      (∀ n, Leaves it.store (reduced n p acc) xs s) →
      AppliesAlike it.store "reduce" [p, acc, .list l xs] s IsRelabelled x) := by
  have hlib := provided_of_loadLibrary hown hload
  have hwithin := Within.self hsound (horiginal.size hlib) horiginal
  have hself : ∀ v : Value, v.relabel (.objects fun i => i) = v := Value.relabel_identity
  have hall : ∀ vs : List Value, vs.map (Value.relabel (.objects fun i => i)) = vs := fun vs =>
    Value.map_relabel_eq_self_iff.2 fun v _ => hself v
  have hitems := (Store.holds_list_iff.1 hxs).2
  refine ⟨?map, ?filter, ?reduce⟩
  case map =>
    rintro x ⟨⟨n, rfl⟩, hne⟩ hleaves
    obtain ⟨w, hvalue, hw⟩ := hlib.function map (by simp [functions])
    have h := ends_map hlib hfun hvalue hw xs l hwithin hp hitems hne (hleaves n)
    rw [hself, hall] at h
    exact appliesAlike_of_apply (by decide) hw hvalue.isFunction h
  case filter =>
    rintro x ⟨⟨n, rfl⟩, hne⟩ hleaves
    obtain ⟨w, hvalue, hw⟩ := hlib.function filter (by simp [functions])
    obtain ⟨r, hr, halike⟩ := ends_filter hlib hfun hvalue hw xs l hwithin hp hitems hne (hleaves n)
    rw [hself, hall] at hr
    refine appliesAlike_of_apply (by decide) hw hvalue.isFunction ⟨r, hr, ?_⟩
    change EndsAlike _ s IsList (filtered n p xs s) r
    cases hx : filtered n p xs s with
    | error e s' =>
      rw [hx] at halike
      cases halike with
      | error hagrees hembeds => exact .error hagrees hembeds
    | ok kept s' =>
      rw [hx] at halike
      cases halike with
      | ok hagrees hembeds hkept =>
        obtain ⟨k, rfl⟩ := hkept
        refine .ok hagrees hembeds ⟨k, ?_⟩
        rw [hagrees.values fun v hv => hitems v ((sublist_of_filtered hx).subset hv), hall]
  case reduce =>
    rintro acc x hacc ⟨⟨n, rfl⟩, hne⟩ hleaves
    obtain ⟨w, hvalue, hw⟩ := hlib.function reduce (by simp [functions])
    have h := ends_reduce hlib hfun hvalue hw xs l hwithin hp hacc hitems hne (hleaves n)
    rw [hself, hself, hall] at h
    exact appliesAlike_of_apply (by decide) hw hvalue.isFunction h

/-- A host that sets nothing and has no files. -/
def bareHost : Host := ⟨fun _ => .missing, fun _ => none⟩

/-- Subtracting: the list of the negated numbers, all numbers since none of them is false, and what is left
of ten. -/
theorem visits_in_order_subtract : ∃ it i,
    (Interpreter.new false newYear).loadLibrary bareHost = (.ok (), it) ∧
    AppliesAlike it.store "map" [.builtin i .subtract, .list 0 [.int 1, .int 2]] it.store IsListRelabelled
      (.ok [.int (-1), .int (-2)] it.store) ∧
    AppliesAlike it.store "filter" [.builtin i .subtract, .list 0 [.int 1, .int 2]] it.store IsList
      (.ok [.int 1, .int 2] it.store) ∧
    AppliesAlike it.store "reduce" [.builtin i .subtract, .int 10, .list 0 [.int 1, .int 2]] it.store
      IsRelabelled (.ok (.int 7) it.store) := by
  have hown : Settings.library bareHost = .ok .own := rfl
  obtain ⟨it, hload, hlib⟩ := exists_loadLibrary false newYear hown
  obtain ⟨i, hi⟩ := hlib.builtin .subtract (by decide)
  have hp : it.store.Holds (.builtin i .subtract) :=
    hlib.sound.holds_of_mem (Assoc.mem_of_get? hi)
  have hatom : ∀ a, it.store.Holds (.atom a) := fun a => ⟨trivial, nofun⟩
  have hxs : it.store.Holds (.list 0 [.int 1, .int 2]) := Store.holds_list_iff.2
    ⟨Nat.lt_of_le_of_lt (Nat.zero_le i) hp.1, by simp [hatom]⟩
  have hcalls : ∀ n args, Preserves (Original it.store)
      (apply (evaluate false n) (.builtin i .subtract) args) := by
    intro n args s hs v s' h
    change Run.ofExcept (Builtin.pureCall .subtract args) s = _ at h
    cases hcall : Builtin.pureCall .subtract args with
    | ok w =>
      rw [hcall] at h
      cases h
      exact hs
    | error e =>
      rw [hcall] at h
      cases h
  have horiginal : Original it.store it.store := fun _ _ => rfl
  obtain ⟨hmap, hfilter, hreduce⟩ := visits_in_order hown hload hlib.sound horiginal rfl hp hxs
  refine ⟨it, i, hload, hmap _ ⟨⟨0, rfl⟩, id⟩ fun n => ?_, hfilter _ ⟨⟨0, rfl⟩, id⟩ fun n => ?_,
    hreduce _ _ (hatom _) ⟨⟨0, rfl⟩, id⟩ fun n => ?_⟩
  · exact Preserves.leaves (preserves_mapped (hcalls n)) horiginal _
  · exact Preserves.leaves (preserves_filtered (hcalls n)) horiginal _
  · exact Preserves.leaves (preserves_reduced (hcalls n) _) horiginal _

end StandardLibrary

end MiniLisp
