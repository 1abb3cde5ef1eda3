import MiniLisp.Proofs.StandardLibrary.Visits
import Mathlib.Data.Int.Range

/-! # The functions of the library that make lists

What `length`, `merge`, `range` and `reverse` give, in every store whose global frame still binds the names
that loading bound (`Intact`). Each call of them leaves frames and objects of its own behind and nothing else
changes, so a store in which they can be called (`Ready`) stays one (`Ready.grow`), and what a call gives
follows by induction: on the list for `length` and `merge`, on the number of steps for `range`.
`reverse` is a call of `reduce`, and `reduce` folds a list as soon as what it has so far means something
to the function that it calls (`gives_reduce`). The main statement is about the application of these
names (`list_functions_answer`). -/

namespace MiniLisp

open Run SpecialForm

namespace StandardLibrary

/-! ### Stores in which the library can be called -/

/-- The names that are bound when the library has been loaded. -/
def providedNames : List String := functions.map Function.name ++ Builtin.all.map Builtin.name

/-- **None of the names is bound anew**: the store binds them globally as the store `lib` does. -/
def Intact (lib s : Store) : Prop :=
  ∀ name ∈ providedNames, s.frames.get? globalFrame name = lib.frames.get? globalFrame name

theorem Intact.original {lib s : Store} (h : Intact lib s) : Original lib s := by
  have hsubset : visitNames ⊆ providedNames := by decide +kernel
  exact fun name hname => h name (hsubset hname)

/-- **A store in which the functions of the library can be called.** -/
structure Ready (lib t : Store) : Prop where
  intact : Intact lib t
  size : globalFrame < t.frames.size
  outermost : t.frames.chain globalFrame = [globalFrame]

namespace Ready

variable {lib s t t' : Store}

theorem of_sound (hlib : Provided lib) (hs : s.Sound) (h : Intact lib s) : Ready lib s := by
  have hsize := h.original.size hlib
  have hchain := (Within.self hs hsize h.original).outer_chain
  exact ⟨h, hsize, hchain⟩

theorem grow (h : Ready lib t) (hgrows : t.Grows t') : Ready lib t' where
  intact name hname := (hgrows.get? h.size name).trans (h.intact name hname)
  size := Nat.lt_of_lt_of_le h.size hgrows.size_le
  outermost := by
    rw [Frames.chain, Frames.enclosing, hgrows.frames _ h.size]
    exact h.outermost

end Ready

/-- **The run gives a value with the property**, and everything that there was stays as it was. -/
def Gives (P : Value → Prop) (r : Nat → Run Value) (t : Store) : Prop :=
  ∃ v t', Ends r t (.ok v t') ∧ t.Grows t' ∧ P v

variable {lib t t' : Store} {w p : Value} {P : Value → Prop}

/-- **A call of a library function** gives what its body gives in the frame of the call. -/
theorem gives_apply {formals : List String} {args : List Value} {body : Value} {id : ObjectId}
    {name : String} (h : Ready lib t) (hlength : args.length = formals.length)
    (hnodup : formals.Nodup) (hnew : ∀ name ∈ visitNames, name ∉ formals)
    (hbody : ∀ (t' : Store) (e : FrameId), t.Grows t' → InFrame lib t' e (formals.zip args) →
      Gives P (fun m => evaluate false m body e) t') :
    Gives P (fun m => apply (evaluate false m) (.closure id formals [body] globalFrame name) args) t := by
  have hnames : Assoc.names (formals.zip args) = formals :=
    List.map_fst_zip (Nat.le_of_eq hlength.symm)
  have hgrows := t.grows_enter globalFrame (formals.zip args)
  have hframe := t.getElem?_enter globalFrame (by rwa [hnames])
  rw [h.outermost] at hframe
  obtain ⟨v, t', hv, hgrows', hP⟩ := hbody _ _ hgrows
    ⟨hframe, by rwa [hnames], (h.grow hgrows).intact.original⟩
  exact ⟨v, t', ends_apply_closure hlength hv, hgrows.trans hgrows', hP⟩

/-- A name that the call does not bind is the one that loading bound. -/
theorem InFrame.lookup?_provided {e : FrameId} {bindings : Bindings} {name : String}
    (h : InFrame lib t e bindings) (hready : Ready lib t) (hname : name ∈ providedNames)
    (hnew : Assoc.get? name bindings = none) :
    t.frames.lookup? e name = lib.frames.get? globalFrame name := by
  rw [h.lookup?, hnew, ← hready.intact name hname]
  rfl

theorem InFrame.grow {e : FrameId} {bindings : Bindings} (h : InFrame lib t e bindings)
    (hready : Ready lib t) (hgrows : t.Grows t') : InFrame lib t' e bindings :=
  ⟨(hgrows.frames e h.lt_size).trans h.frame, h.names, (hready.grow hgrows).intact.original⟩

/-- **An application of a name that loading bound** ends as the call of what it was bound to. -/
theorem InFrame.finishes_provided {e : FrameId} {bindings : Bindings} {name : String} {id : ObjectId}
    {forms args : List Value} {r : Ending} (h : InFrame lib t e bindings) (hready : Ready lib t)
    (hname : name ∈ providedNames) (hnew : Assoc.get? name bindings = none)
    (hw : lib.frames.get? globalFrame name = some w) (hfun : w.isFunction = true)
    (hargs : Ends (fun n => (evaluate false n).all e forms) t (.ok args t'))
    (hcall : Ends (fun n => apply (evaluate false n) w args) t' r) :
    Finishes false (.list id (.symbol name :: forms)) e t r := by
  have hspecial : ∀ name ∈ providedNames, ofName? name = none := by decide +kernel
  exact finishes_call (hspecial name hname) ((h.lookup?_provided hready hname hnew).trans hw) hfun
    hargs hcall

theorem finishes_int (n : Int) (e : FrameId) (t : Store) :
    Finishes false (.int n) e t (.ok (.int n) t) := ⟨⟨1, rfl⟩, fun h => h⟩

/-- The value is a list of the values. -/
def IsListOf (vs : List Value) (v : Value) : Prop := ∃ id, v = .list id vs

/-! ### `length` -/

theorem isValue_length (h : length.IsValue w) : ∃ id i₁ i₂ i₃ i₄ i₅, w =
    .closure id ["lst"] [.list i₁ [.symbol "if", .list i₂ [.symbol "empty?", .symbol "lst"], .int 0,
      .list i₃ [.symbol "+", .int 1,
        .list i₄ [.symbol "length", .list i₅ [.symbol "cdr", .symbol "lst"]]]]]
      globalFrame "length" := by
  obtain ⟨id, next, rfl⟩ := h
  exact ⟨id, _, _, _, _, _, rfl⟩

theorem gives_length (hlib : Provided lib) (hvalue : length.IsValue w)
    (hw : lib.frames.get? globalFrame "length" = some w) (xs : List Value) :
    ∀ {t : Store} (l : ObjectId), Ready lib t →
      Gives (· = .int xs.length) (fun m => apply (evaluate false m) w [.list l xs]) t := by
  obtain ⟨id, i₁, i₂, i₃, i₄, i₅, hbody⟩ := isValue_length hvalue
  obtain ⟨plus, hplus⟩ := hlib.builtin .add (by decide)
  induction xs with
  | nil =>
    intro t l hready
    rw [hbody]
    refine gives_apply hready rfl (by decide) (by decide) fun t' e hgrows hframe => ?_
    exact ⟨_, t', hframe.finishes_if_empty rfl hlib rfl (finishes_int 0 e t'), .refl t', rfl⟩
  | cons x xs ih =>
    intro t l hready
    rw [hbody]
    refine gives_apply hready rfl (by decide) (by decide) fun t' e hgrows hframe => ?_
    have hready' := hready.grow hgrows
    have hcdr : Finishes false (.list i₅ [.symbol "cdr", .symbol "lst"]) e t'
        (.ok (.list t'.nextId xs) t'.bump) := hframe.finishes_cdr rfl hlib rfl
    obtain ⟨v, t'', hrest, hgrows', rfl⟩ := ih t'.nextId (hready'.grow t'.grows_bump)
    have hlength : Finishes false (.list i₄ [.symbol "length",
        .list i₅ [.symbol "cdr", .symbol "lst"]]) e t' (.ok (.int xs.length) t'') :=
      hframe.finishes_provided hready' (by decide +kernel) rfl hw hvalue.isFunction
        (ends_all_cons hcdr ends_all_nil) hrest
    have hadd : Builtin.call .add [.int 1, .int xs.length] t'' =
        .ok (.int (0 + 1 + xs.length)) t'' := rfl
    refine ⟨_, t'', hframe.finishes_if_cons rfl hlib rfl
      (hframe.finishes_provided hready' (by decide +kernel) rfl hplus rfl
        (ends_all_cons (finishes_int 1 e t') (ends_all_cons hlength ends_all_nil))
        (ends_apply_builtin hadd fun h => h)), t'.grows_bump.trans hgrows', ?_⟩
    rw [List.length_cons, Int.natCast_succ, Int.zero_add, Int.add_comm]

/-! ### `merge` -/

theorem isValue_merge (h : merge.IsValue w) : ∃ id i₁ i₂ i₃ i₄ i₅ i₆, w =
    .closure id ["a", "b"] [.list i₁ [.symbol "if", .list i₂ [.symbol "empty?", .symbol "a"],
      .symbol "b", .list i₃ [.symbol "cons", .list i₄ [.symbol "car", .symbol "a"],
        .list i₅ [.symbol "merge", .list i₆ [.symbol "cdr", .symbol "a"], .symbol "b"]]]]
      globalFrame "merge" := by
  obtain ⟨id, next, rfl⟩ := h
  exact ⟨id, _, _, _, _, _, _, rfl⟩

theorem gives_merge (hlib : Provided lib) (hvalue : merge.IsValue w)
    (hw : lib.frames.get? globalFrame "merge" = some w) (xs ys : List Value) :
    ∀ {t : Store} (k l : ObjectId), Ready lib t → Gives (IsListOf (xs ++ ys))
      (fun m => apply (evaluate false m) w [.list k xs, .list l ys]) t := by
  obtain ⟨id, i₁, i₂, i₃, i₄, i₅, i₆, hbody⟩ := isValue_merge hvalue
  induction xs with
  | nil =>
    intro t k l hready
    rw [hbody]
    refine gives_apply hready rfl (by decide) (by decide) fun t' e hgrows hframe => ?_
    exact ⟨_, t', hframe.finishes_if_empty rfl hlib rfl (finishes_symbol (hframe.lookup?_local rfl)),
      .refl t', l, rfl⟩
  | cons x xs ih =>
    intro t k l hready
    rw [hbody]
    refine gives_apply hready rfl (by decide) (by decide) fun t' e hgrows hframe => ?_
    have hready' := hready.grow hgrows
    have hcdr : Finishes false (.list i₆ [.symbol "cdr", .symbol "a"]) e t'
        (.ok (.list t'.nextId xs) t'.bump) := hframe.finishes_cdr rfl hlib rfl
    have hb : Finishes false (.symbol "b") e t'.bump (.ok (.list l ys) t'.bump) :=
      finishes_symbol ((hframe.grow hready' t'.grows_bump).lookup?_local rfl)
    obtain ⟨v, t'', hrest, hgrows', j, rfl⟩ := ih t'.nextId l (hready'.grow t'.grows_bump)
    have hmerge : Finishes false (.list i₅ [.symbol "merge",
        .list i₆ [.symbol "cdr", .symbol "a"], .symbol "b"]) e t' (.ok (.list j (xs ++ ys)) t'') :=
      hframe.finishes_provided hready' (by decide +kernel) rfl hw hvalue.isFunction
        (ends_all_cons hcdr (ends_all_cons hb ends_all_nil)) hrest
    exact ⟨_, t''.bump, hframe.finishes_if_cons rfl hlib rfl
      (hframe.finishes_cons hlib (hframe.finishes_car rfl hlib rfl) hmerge),
      (t'.grows_bump.trans hgrows').trans t''.grows_bump, _, rfl⟩

/-! ### `range` -/

theorem isValue_range (h : range.IsValue w) : ∃ id i₁ i₂ i₃ i₄ i₅ i₆, w =
    .closure id ["from", "to"] [.list i₁ [.symbol "if",
      .list i₂ [.symbol ">", .symbol "from", .symbol "to"], .list i₃ [.symbol "list"],
      .list i₄ [.symbol "cons", .symbol "from",
        .list i₅ [.symbol "range", .list i₆ [.symbol "+", .symbol "from", .int 1], .symbol "to"]]]]
      globalFrame "range" := by
  obtain ⟨id, next, rfl⟩ := h
  exact ⟨id, _, _, _, _, _, _, rfl⟩

/-- The whole numbers from one to another, both included. -/
def integers (m n : Int) : List Value := (Int.range m (n + 1)).map .int

theorem integers_of_lt {m n : Int} (h : n < m) : integers m n = [] := by
  rw [integers, Int.range, Int.toNat_of_nonpos (by omega)]
  rfl

theorem integers_of_le {m n : Int} (h : m ≤ n) : integers m n = .int m :: integers (m + 1) n := by
  have hcount : (n + 1 - m).toNat = (n + 1 - (m + 1)).toNat + 1 := by omega
  have hshift : ∀ k : Nat, m + ((k + 1 : Nat) : Int) = m + 1 + k := fun k => by omega
  simp only [integers, Int.range, hcount, List.range_succ_eq_map, List.map_cons, List.map_map,
    Function.comp_def, hshift, Nat.succ_eq_add_one, Int.natCast_zero, Int.add_zero]

theorem call_greater (m n : Int) (t : Store) :
    Builtin.call .greater [.int m, .int n] t = .ok (.bool (n < m)) t := by
  have hpure : Builtin.pureCall .greater [.int m, .int n] = .ok (.bool (n < m)) := by
    change Value.bool <$> (do
      let holds ← Value.less (.int n) (.int m)
      if holds then Comparison.neighbours (fun a b => b.less a) [.int n] else .ok false) = _
    change Value.bool <$> (if decide (n < m) then .ok true else .ok false : Except Failure Bool) = _
    cases decide (n < m) <;> rfl
  change Run.ofExcept (Builtin.pureCall .greater [.int m, .int n]) t = _
  rw [hpure]
  rfl

/-- In the induction there are `k` numbers to come. -/
theorem gives_range (hlib : Provided lib) (hvalue : range.IsValue w)
    (hw : lib.frames.get? globalFrame "range" = some w) (k : Nat) :
    ∀ {m n : Int} {t : Store}, (n + 1 - m).toNat = k → Ready lib t → Gives (IsListOf (integers m n))
      (fun fuel => apply (evaluate false fuel) w [.int m, .int n]) t := by
  obtain ⟨id, i₁, i₂, i₃, i₄, i₅, i₆, hbody⟩ := isValue_range hvalue
  obtain ⟨plus, hplus⟩ := hlib.builtin .add (by decide)
  obtain ⟨above, habove⟩ := hlib.builtin .greater (by decide)
  have htest : ∀ {m n : Int} {t : Store} {e : FrameId},
      InFrame lib t e (["from", "to"].zip [.int m, .int n]) → Ready lib t →
      Finishes false (.list i₂ [.symbol ">", .symbol "from", .symbol "to"]) e t
        (.ok (.bool (n < m)) t) := fun hframe hready =>
    hframe.finishes_provided hready (by decide +kernel) rfl habove rfl
      (ends_all_cons (finishes_symbol (hframe.lookup?_local rfl)) (hframe.ends_all_symbol rfl))
      (ends_apply_builtin (call_greater _ _ _) fun h => h)
  induction k with
  | zero =>
    intro m n t hk hready
    have hlt : n < m := by omega
    rw [hbody, integers_of_lt hlt]
    refine gives_apply hready rfl (by decide) (by decide) fun t' e hgrows hframe => ?_
    have hif := htest hframe (hready.grow hgrows)
    rw [decide_eq_true hlt] at hif
    exact ⟨_, t'.bump, finishes_if hif (hframe.finishes_list hlib), t'.grows_bump, _, rfl⟩
  | succ k ih =>
    intro m n t hk hready
    have hnot : ¬ n < m := by omega
    rw [hbody, integers_of_le (by omega)]
    refine gives_apply hready rfl (by decide) (by decide) fun t' e hgrows hframe => ?_
    have hready' := hready.grow hgrows
    have hif := htest hframe hready'
    rw [decide_eq_false hnot] at hif
    have hfrom : Finishes false (.symbol "from") e t' (.ok (.int m) t') :=
      finishes_symbol (hframe.lookup?_local rfl)
    have hadd : Builtin.call .add [.int m, .int 1] t' = .ok (.int (0 + m + 1)) t' := rfl
    rw [Int.zero_add] at hadd
    have hnext : Finishes false (.list i₆ [.symbol "+", .symbol "from", .int 1]) e t'
        (.ok (.int (m + 1)) t') :=
      hframe.finishes_provided hready' (by decide +kernel) rfl hplus rfl
        (ends_all_cons hfrom (ends_all_cons (finishes_int 1 e t') ends_all_nil))
        (ends_apply_builtin hadd fun h => h)
    obtain ⟨v, t'', hrest, hgrows', j, rfl⟩ := ih (by omega : (n + 1 - (m + 1)).toNat = k) hready'
    have hrange : Finishes false (.list i₅ [.symbol "range",
        .list i₆ [.symbol "+", .symbol "from", .int 1], .symbol "to"]) e t'
        (.ok (.list j (integers (m + 1) n)) t'') :=
      hframe.finishes_provided hready' (by decide +kernel) rfl hw hvalue.isFunction
        (ends_all_cons hnext (hframe.ends_all_symbol rfl)) hrest
    exact ⟨_, t''.bump, finishes_if hif (hframe.finishes_cons hlib hfrom hrange),
      hgrows'.trans t''.grows_bump, _, rfl⟩

/-! ### `reduce` and `reverse` -/

/-- **A call of `reduce` folds the list**, if the function that it calls does a step of the fold wherever it
is called from now on: `means` says which value stands for what has been folded. -/
theorem gives_reduce {α : Type} {means : α → Value → Prop} {step : α → Value → α} {t₀ : Store}
    (hlib : Provided lib) (hvalue : reduce.IsValue w)
    (hw : lib.frames.get? globalFrame "reduce" = some w) (hfun : p.isFunction = true)
    (hready : Ready lib t₀)
    (hp : ∀ {t : Store} {a : α} {v : Value} (x : Value), t₀.Grows t → means a v →
      Gives (means (step a x)) (fun m => apply (evaluate false m) p [v, x]) t) (xs : List Value) :
    ∀ {t : Store} {a : α} {v : Value} (l : ObjectId), t₀.Grows t → means a v →
      Gives (means (xs.foldl step a)) (fun m => apply (evaluate false m) w [p, v, .list l xs]) t := by
  obtain ⟨id, i₁, i₂, i₃, i₄, i₅, i₆, hbody⟩ := isValue_reduce hvalue
  induction xs with
  | nil =>
    intro t a v l hgrown hv
    rw [hbody]
    refine gives_apply (hready.grow hgrown) rfl (by decide) (by decide) fun t' e hgrows hframe => ?_
    exact ⟨v, t', hframe.finishes_if_empty rfl hlib rfl (finishes_symbol (hframe.lookup?_local rfl)),
      .refl t', hv⟩
  | cons x xs ih =>
    intro t a v l hgrown hv
    rw [hbody]
    refine gives_apply (hready.grow hgrown) rfl (by decide) (by decide) fun t' e hgrows hframe => ?_
    have hgrown' := hgrown.trans hgrows
    have hready' := hready.grow hgrown'
    have hself : Finishes false (.symbol "f") e t' (.ok p t') :=
      finishes_symbol (hframe.lookup?_local rfl)
    obtain ⟨v', t₁, hcall, hgrows₁, hv'⟩ := hp x hgrown' hv
    have hstep : Finishes false (.list i₄ [.symbol "f", .symbol "acc",
        .list i₅ [.symbol "car", .symbol "lst"]]) e t' (.ok v' t₁) :=
      finishes_call (by decide) (hframe.lookup?_local rfl) hfun
        (ends_all_cons (finishes_symbol (hframe.lookup?_local rfl))
          (ends_all_cons (hframe.finishes_car rfl hlib rfl) ends_all_nil)) hcall
    have hcdr : Finishes false (.list i₆ [.symbol "cdr", .symbol "lst"]) e t₁
        (.ok (.list t₁.nextId xs) t₁.bump) :=
      (hframe.grow hready' hgrows₁).finishes_cdr rfl hlib rfl
    have hgrows₂ := hgrows₁.trans t₁.grows_bump
    obtain ⟨u, t₂, hrest, hgrows₃, hu⟩ := ih t₁.nextId (hgrown'.trans hgrows₂) hv'
    exact ⟨u, t₂, hframe.finishes_if_cons rfl hlib rfl
      (hframe.finishes_provided hready' (by decide +kernel) rfl hw hvalue.isFunction
        (ends_all_cons hself (ends_all_cons hstep (ends_all_cons hcdr ends_all_nil))) hrest),
      hgrows₂.trans hgrows₃, hu⟩

theorem isValue_reverse (h : reverse.IsValue w) : ∃ id i₁ i₂ i₃ i₄ i₅, w =
    .closure id ["lst"] [.list i₁ [.symbol "reduce",
      .list i₂ [.symbol "lambda", .list i₃ [.symbol "acc", .symbol "x"],
        .list i₄ [.symbol "cons", .symbol "x", .symbol "acc"]],
      .list i₅ [.symbol "list"], .symbol "lst"]]
      globalFrame "reverse" := by
  obtain ⟨id, next, rfl⟩ := h
  exact ⟨id, _, _, _, _, _, rfl⟩

/-- **The function that `reverse` hands over puts a value before a list.** Its calls enter a frame inside the
frame of the call of `reverse`, in which only the name `cons` is looked up further out. -/
theorem gives_consed (hlib : Provided lib) (hready : Ready lib t) {e : FrameId} {bindings : Bindings}
    (hframe : InFrame lib t e bindings) (id i : ObjectId) (x : Value) {items : List Value} {v : Value}
    (hv : IsListOf items v) :
    Gives (IsListOf (x :: items)) (fun m => apply (evaluate false m) (.closure id ["acc", "x"]
      [.list i [.symbol "cons", .symbol "x", .symbol "acc"]] e "lambda") [v, x]) t := by
  obtain ⟨k, rfl⟩ := hv
  obtain ⟨cons, hcons⟩ := hlib.builtin .cons (by decide)
  have hnames : (Assoc.names (["acc", "x"].zip [.list k items, x])).Nodup := by
    change ["acc", "x"].Nodup
    decide
  have hgrows := t.grows_enter e (["acc", "x"].zip [.list k items, x])
  have hlookup := t.lookup?_enter hframe.lt_size hnames
  have hf : (t.enter e (["acc", "x"].zip [.list k items, x])).frames.lookup? t.frames.size "cons" =
      some (.builtin cons .cons) := by
    rw [hlookup]
    exact ((hframe.grow hready hgrows).lookup?_global (by decide)).trans hcons
  have hoperands : Ends (fun n => (evaluate false n).all t.frames.size [.symbol "x", .symbol "acc"])
      (t.enter e (["acc", "x"].zip [.list k items, x]))
      (.ok [x, .list k items] (t.enter e (["acc", "x"].zip [.list k items, x]))) :=
    ends_all_cons (finishes_symbol (hlookup "x"))
      (ends_all_cons (finishes_symbol (hlookup "acc")) ends_all_nil)
  have hcons' : ofName? Builtin.cons.name = none := by decide
  exact ⟨_, _, ends_apply_closure rfl (finishes_builtin hcons' hf hoperands rfl),
    hgrows.trans (Store.grows_bump _), _, rfl⟩

theorem gives_reverse (hlib : Provided lib) (hvalue : reverse.IsValue w) (hready : Ready lib t)
    (l : ObjectId) (xs : List Value) :
    Gives (IsListOf xs.reverse) (fun m => apply (evaluate false m) w [.list l xs]) t := by
  obtain ⟨id, i₁, i₂, i₃, i₄, i₅, hbody⟩ := isValue_reverse hvalue
  obtain ⟨r, hreduce, hr⟩ := hlib.function reduce (by simp [functions])
  rw [hbody]
  refine gives_apply hready rfl (by decide) (by decide) fun t' e hgrows hframe => ?_
  have hready' := hready.grow hgrows
  have hbump := t'.grows_bump
  have hgrows₂ := hbump.trans t'.bump.grows_bump
  have hlambda : Finishes false (.list i₂ [.symbol "lambda", .list i₃ [.symbol "acc", .symbol "x"],
      .list i₄ [.symbol "cons", .symbol "x", .symbol "acc"]]) e t'
      (.ok (.closure t'.nextId ["acc", "x"] [.list i₄ [.symbol "cons", .symbol "x", .symbol "acc"]] e
        "lambda") t'.bump) := ⟨⟨1, rfl⟩, fun h => h⟩
  have hempty : Finishes false (.list i₅ [.symbol "list"]) e t'.bump
      (.ok (.list t'.bump.nextId []) t'.bump.bump) := (hframe.grow hready' hbump).finishes_list hlib
  have hfold : Gives (IsListOf (xs.foldl (fun items x => x :: items) []))
      (fun m => apply (evaluate false m) r [.closure t'.nextId ["acc", "x"]
        [.list i₄ [.symbol "cons", .symbol "x", .symbol "acc"]] e "lambda",
        .list t'.bump.nextId [], .list l xs]) t'.bump.bump :=
    gives_reduce hlib hreduce hr rfl hready'
      (fun x hgrows hv => gives_consed hlib (hready'.grow hgrows) (hframe.grow hready' hgrows) _ _ x hv)
      xs l hgrows₂ ⟨_, rfl⟩
  rw [List.foldl_flip_cons_eq_append, List.append_nil, List.map_id'] at hfold
  obtain ⟨v, t'', hv, hgrows₃, hP⟩ := hfold
  exact ⟨v, t'', hframe.finishes_provided hready' (by decide +kernel) rfl hr hreduce.isFunction
    (ends_all_cons hlambda (ends_all_cons hempty
      ((hframe.grow hready' hgrows₂).ends_all_symbol rfl))) hv, hgrows₂.trans hgrows₃, hP⟩

/-! ### Applying them -/

/-- **Applying the name to operands with these values gives a value with the property** and changes no
binding; `s` is the store in which the operands have been evaluated. If the application is traced and
nothing is met that cannot be printed, it gives the value as well, with a trace. -/
def Answers (lib : Store) (name : String) (args : List Value) (s : Store) (P : Value → Prop) : Prop :=
  ∀ (env : FrameId) (s₀ : Store) (id : ObjectId) (operands : List Value),
    s₀.frames.lookup? env name = lib.frames.get? globalFrame name →
    Ends (fun n => (evaluate false n).all env operands) s₀ (.ok args s) →
    ∃ v s', Finishes false (.list id (.symbol name :: operands)) env s₀ (.ok v s') ∧ s.Grows s' ∧ P v ∧
      (Printable (.list id (.symbol name :: operands)) env s₀ →
        ∃ log, Finishes true (.list id (.symbol name :: operands)) env s₀ (.ok v (s₀.logged s' log)))

theorem answers_of_gives {name : String} {args : List Value} (hspecial : ofName? name = none)
    (hw : lib.frames.get? globalFrame name = some w) (hfun : w.isFunction = true)
    (h : Gives P (fun m => apply (evaluate false m) w args) t) : Answers lib name args t P := by
  intro env s₀ id operands hname hoperands
  obtain ⟨v, t', hv, hgrows, hP⟩ := h
  have hfinishes : Finishes false (.list id (.symbol name :: operands)) env s₀ (.ok v t') :=
    finishes_call hspecial (hname.trans hw) hfun hoperands hv
  exact ⟨v, t', hfinishes, hgrows, hP, fun hprint => exists_finishes_true hprint hfinishes⟩

/-- **The list functions of the library give what they should**, in every store whose global frame binds all
names as after loading: the number of elements, the elements backwards, the elements of both lists, and the
whole numbers from one to another, none if the first is above the second. They come to an end and change no
binding. The store is one of which all that is in it was made in it, as everything is that an interpreter
reaches (`Interpreter.sound_eval`, `Store.Sound.evaluate`). -/
theorem list_functions_answer {tracing : Bool} {clock : DateTime} {host : Host} {it : Interpreter}
    (hown : Settings.library host = .ok .own)
    (hload : (Interpreter.new tracing clock).loadLibrary host = (.ok (), it))
    {s : Store} (hsound : s.Sound) (hintact : Intact it.store s) :
    (∀ l xs, Answers it.store "length" [.list l xs] s (· = .int xs.length)) ∧
    (∀ l xs, Answers it.store "reverse" [.list l xs] s (IsListOf xs.reverse)) ∧
    (∀ k l xs ys, Answers it.store "merge" [.list k xs, .list l ys] s (IsListOf (xs ++ ys))) ∧
    (∀ m n, Answers it.store "range" [.int m, .int n] s (IsListOf (integers m n))) := by
  have hlib := provided_of_loadLibrary hown hload
  have hready := Ready.of_sound hlib hsound hintact
  refine ⟨fun l xs => ?length, fun l xs => ?reverse, fun k l xs ys => ?merge, fun m n => ?range⟩
  case length =>
    obtain ⟨w, hvalue, hw⟩ := hlib.function length (by simp [functions])
    exact answers_of_gives (by decide) hw hvalue.isFunction (gives_length hlib hvalue hw xs l hready)
  case reverse =>
    obtain ⟨w, hvalue, hw⟩ := hlib.function reverse (by simp [functions])
    exact answers_of_gives (by decide) hw hvalue.isFunction (gives_reverse hlib hvalue hready l xs)
  case merge =>
    obtain ⟨w, hvalue, hw⟩ := hlib.function merge (by simp [functions])
    exact answers_of_gives (by decide) hw hvalue.isFunction
      (gives_merge hlib hvalue hw xs ys k l hready)
  case range =>
    obtain ⟨w, hvalue, hw⟩ := hlib.function range (by simp [functions])
    exact answers_of_gives (by decide) hw hvalue.isFunction (gives_range hlib hvalue hw _ rfl hready)

/-- In a new interpreter: lists of nothing, of one value and of two, and numbers up and down. -/
theorem list_functions_answer_short : ∃ it,
    (Interpreter.new false newYear).loadLibrary bareHost = (.ok (), it) ∧ it.store.Sound ∧
    Intact it.store it.store ∧
    Answers it.store "length" [.list 0 []] it.store (· = .int 0) ∧
    Answers it.store "reverse" [.list 0 [.nil, .int 7]] it.store (IsListOf [.int 7, .nil]) ∧
    Answers it.store "merge" [.list 0 [.nil], .list 1 [.int 7]] it.store (IsListOf [.nil, .int 7]) ∧
    Answers it.store "range" [.int (-1), .int 1] it.store (IsListOf [.int (-1), .int 0, .int 1]) ∧
    Answers it.store "range" [.int 1, .int (-1)] it.store (IsListOf []) := by
  have hown : Settings.library bareHost = .ok .own := rfl
  obtain ⟨it, hload, hlib⟩ := exists_loadLibrary false newYear hown
  have hintact : Intact it.store it.store := fun _ _ => rfl
  obtain ⟨hlength, hreverse, hmerge, hrange⟩ := list_functions_answer hown hload hlib.sound hintact
  exact ⟨it, hload, hlib.sound, hintact, hlength 0 [], hreverse 0 [.nil, .int 7],
    hmerge 0 1 [.nil] [.int 7], hrange (-1) 1, hrange 1 (-1)⟩

end StandardLibrary

end MiniLisp
