import MiniLisp.Proofs.Eval.BigStep
import MiniLisp.Proofs.StandardLibrary.Loaded

/-! # Inside a call of a library function

The functions of the library that visit a list call another function in the middle of their own work. What
that function does is what it does by itself in a store `s` (`Within`): the store `t` in which it is called
has besides the frames of `s` those of the calls that are under way. In the frame of such a call
(`InFrame`) the forms of which the library functions are made end as they should (`finishes_empty` and so
on), and calling the function that was handed over has the effect that it has in `s`
(`Within.finishes_visit`, `Within.finishes_visit_error`). -/

namespace MiniLisp

open Run SpecialForm

theorem Store.Grows.refl (s : Store) : s.Grows s :=
  ⟨Nat.le_refl _, Nat.le_refl _, fun _ _ => rfl, rfl, rfl, rfl, rfl⟩

theorem Store.Grows.trans {s s' s'' : Store} (h : s.Grows s') (h' : s'.Grows s'') : s.Grows s'' where
  nextId_le := Nat.le_trans h.nextId_le h'.nextId_le
  size_le := Nat.le_trans h.size_le h'.size_le
  frames i hi := (h'.frames i (Nat.lt_of_lt_of_le hi h.size_le)).trans (h.frames i hi)
  output := h'.output.trans h.output
  trace := h'.trace.trans h.trace
  depth := h'.depth.trans h.depth
  clock := h'.clock.trans h.clock

/-- No binding changes when a store grows. -/
theorem Store.Grows.get? {s s' : Store} (h : s.Grows s') {i : FrameId} (hi : i < s.frames.size)
    (name : String) : s'.frames.get? i name = s.frames.get? i name := by
  rw [Frames.get?, Frames.vars, h.frames i hi, Frames.get?, Frames.vars]

/-- A store after an object was made. -/
def Store.bump (s : Store) : Store := { s with nextId := s.nextId + 1 }

theorem Store.grows_bump (s : Store) : s.Grows s.bump :=
  ⟨Nat.le_succ _, Nat.le_refl _, fun _ _ => rfl, rfl, rfl, rfl, rfl⟩

/-- Entering a frame adds a frame. -/
theorem Store.grows_enter (s : Store) (frame : FrameId) (bindings : Bindings) :
    s.Grows (s.enter frame bindings) where
  nextId_le := Nat.le_refl _
  size_le := by
    change s.frames.size ≤ ((s.frames.addChild frame).defineAll s.frames.size bindings).size
    rw [Frames.size_defineAll, Frames.size_addChild]
    exact Nat.le_succ _
  frames i hi := by
    change ((s.frames.addChild frame).defineAll s.frames.size bindings).all[i]? = _
    rw [Frames.getElem?_defineAll_of_ne (Nat.ne_of_gt hi), Frames.getElem?_addChild,
      if_neg (Nat.ne_of_lt hi)]
  output := rfl
  trace := rfl
  depth := rfl
  clock := rfl

/-- The frame that is entered has these bindings. -/
theorem Store.getElem?_enter (s : Store) (frame : FrameId) {bindings : Bindings}
    (hnodup : (Assoc.names bindings).Nodup) :
    (s.enter frame bindings).frames.all[s.frames.size]? = some ⟨bindings, s.frames.chain frame⟩ := by
  have hlt : s.frames.size < (s.frames.addChild frame).size := by
    rw [Frames.size_addChild]
    exact Nat.lt_succ_self _
  have hempty : (s.frames.addChild frame).vars s.frames.size = [] := by
    rw [Frames.vars_addChild, if_pos rfl]
  have hvars : ((s.frames.addChild frame).defineAll s.frames.size bindings).vars
      s.frames.size = bindings := by
    rw [Frames.vars_defineAll_self hlt (by rwa [hempty, List.nil_append]), hempty, List.nil_append]
  change ((s.frames.addChild frame).defineAll s.frames.size bindings).all[s.frames.size]? = _
  rw [Frames.getElem?_of_lt (by rwa [Frames.size_defineAll]), hvars, Frames.enclosing_defineAll,
    Frames.enclosing_addChild, if_pos rfl]

/-- A name is looked up in the frame that is entered and then from the frame around it. -/
theorem Store.lookup?_enter (s : Store) {frame : FrameId} (hframe : frame < s.frames.size)
    {bindings : Bindings} (hnodup : (Assoc.names bindings).Nodup) (name : String) :
    (s.enter frame bindings).frames.lookup? s.frames.size name =
      (Assoc.get? name bindings).or ((s.enter frame bindings).frames.lookup? frame name) := by
  have hentered := s.getElem?_enter frame hnodup
  have hgrows := s.grows_enter frame bindings
  generalize s.enter frame bindings = t at *
  have hchain : t.frames.chain frame = s.frames.chain frame := by
    rw [Frames.chain, Frames.enclosing, hgrows.frames frame hframe, Frames.chain, Frames.enclosing]
  have hself : t.frames.get? s.frames.size name = Assoc.get? name bindings := by
    rw [Frames.get?, Frames.vars, hentered]
  rw [Frames.lookup?, Frames.lookup?, hchain, Frames.chain, Frames.enclosing, hentered,
    List.findSome?_cons, hself]
  cases Assoc.get? name bindings <;> rfl

namespace StandardLibrary

/-! ### Frames of calls -/

/-- The names of the functions that `map`, `filter` and `reduce` call, themselves among them. -/
def visitNames : List String := ["empty?", "list", "car", "cdr", "cons", "map", "filter", "reduce"]

/-- The builtin functions among them. -/
def visitBuiltins : List Builtin := [.isEmpty, .makeList, .car, .cdr, .cons]

/-- **The store binds these names globally as the store `lib` does.** -/
def Original (lib s : Store) : Prop :=
  ∀ name ∈ visitNames, s.frames.get? globalFrame name = lib.frames.get? globalFrame name

/-- **The frame of a call** of a function that was made in the global frame. -/
structure InFrame (lib t : Store) (e : FrameId) (bindings : Bindings) : Prop where
  frame : t.frames.all[e]? = some ⟨bindings, [globalFrame]⟩
  names : ∀ name ∈ visitNames, name ∉ Assoc.names bindings
  original : Original lib t

namespace InFrame

variable {lib t t' : Store} {e : FrameId} {bindings : Bindings} {name : String}

theorem lt_size (h : InFrame lib t e bindings) : e < t.frames.size :=
  (Array.getElem?_eq_some_iff.1 h.frame).1

theorem get?_self (h : InFrame lib t e bindings) (name : String) :
    t.frames.get? e name = Assoc.get? name bindings := by
  rw [Frames.get?, Frames.vars, h.frame]

/-- A name is looked up in the frame and then in the global one. -/
theorem lookup? (h : InFrame lib t e bindings) (name : String) :
    t.frames.lookup? e name = (Assoc.get? name bindings).or (t.frames.get? globalFrame name) := by
  have hchain : t.frames.chain e = [e, globalFrame] := by
    rw [Frames.chain, Frames.enclosing, h.frame]
  rw [Frames.lookup?, hchain, List.findSome?_cons, h.get?_self, List.findSome?_singleton]
  cases Assoc.get? name bindings <;> rfl

theorem lookup?_local {v : Value} (h : InFrame lib t e bindings)
    (hname : Assoc.get? name bindings = some v) : t.frames.lookup? e name = some v := by
  rw [h.lookup?, hname]
  rfl

theorem lookup?_global (h : InFrame lib t e bindings) (hname : name ∈ visitNames) :
    t.frames.lookup? e name = lib.frames.get? globalFrame name := by
  rw [h.lookup?, Assoc.get?_of_notMem (h.names name hname), ← h.original name hname]
  rfl

/-! The builtin functions that the library uses, in the frame of a call that binds a list. -/

section Builtins

variable {i l : ObjectId} {x v : Value} {xs items args forms : List Value} {t'' : Store}

theorem finishes_builtin (hlib : Provided lib) (h : InFrame lib t e bindings) (b : Builtin)
    (hb : b ∈ visitBuiltins)
    (hargs : Ends (fun n => (evaluate false n).all e forms) t (.ok args t'))
    (hcall : b.call args t' = .ok v t'') :
    Finishes false (.list i (.symbol b.name :: forms)) e t (.ok v t'') := by
  have hused : ∀ b ∈ visitBuiltins, b ∈ Builtin.all ∧ b.name ∈ visitNames ∧
      ofName? b.name = none := by decide +kernel
  obtain ⟨hall, hname, hspecial⟩ := hused b hb
  obtain ⟨id, hid⟩ := hlib.builtin b hall
  rw [← h.lookup?_global hname] at hid
  exact MiniLisp.finishes_builtin hspecial hid hargs hcall

theorem ends_all_symbol (h : InFrame lib t e bindings) (hname : Assoc.get? name bindings = some v) :
    Ends (fun n => (evaluate false n).all e [.symbol name]) t (.ok [v] t) :=
  ends_all_cons (finishes_symbol (h.lookup?_local hname)) ends_all_nil

theorem finishes_list (hlib : Provided lib) (h : InFrame lib t e bindings) :
    Finishes false (.list i [.symbol "list"]) e t (.ok (.list t.nextId []) t.bump) :=
  finishes_builtin hlib h .makeList (by decide) ends_all_nil rfl

section Cons

variable {head tail : Value} {k : ObjectId} {err : Failure}

theorem finishes_cons (hlib : Provided lib) (h : InFrame lib t e bindings)
    (hhead : Finishes false head e t (.ok x t'))
    (htail : Finishes false tail e t' (.ok (.list k xs) t'')) :
    Finishes false (.list i [.symbol "cons", head, tail]) e t
      (.ok (.list t''.nextId (x :: xs)) t''.bump) :=
  finishes_builtin hlib h .cons (by decide) (ends_all_cons hhead (ends_all_cons htail ends_all_nil))
    rfl

theorem finishes_cons_of_error (hlib : Provided lib) (h : InFrame lib t e bindings)
    (hargs : Ends (fun n => (evaluate false n).all e [head, tail]) t (.error err t')) :
    Finishes false (.list i [.symbol "cons", head, tail]) e t (.error err t') := by
  obtain ⟨id, hid⟩ := hlib.builtin .cons (by decide)
  rw [← h.lookup?_global (by decide)] at hid
  exact finishes_call_of_error (by decide) hid rfl hargs

end Cons

variable {lst : String} (hlst : Assoc.get? lst bindings = some (.list l items))

include hlst

theorem finishes_empty (hlib : Provided lib) (h : InFrame lib t e bindings) :
    Finishes false (.list i [.symbol "empty?", .symbol lst]) e t (.ok (.bool items.isEmpty) t) :=
  finishes_builtin hlib h .isEmpty (by decide) (h.ends_all_symbol hlst) rfl

theorem finishes_if_empty {yes no : Value} {r : Ending} {j : ObjectId} (hlib : Provided lib)
    (h : InFrame lib t e bindings) (hitems : items = []) (hyes : Finishes false yes e t r) :
    Finishes false (.list i [.symbol "if", .list j [.symbol "empty?", .symbol lst], yes, no]) e t
      r := by
  subst hitems
  exact finishes_if (finishes_empty hlst hlib h) hyes

theorem finishes_if_cons {yes no : Value} {r : Ending} {j : ObjectId} (hlib : Provided lib)
    (h : InFrame lib t e bindings) (hitems : items = x :: xs) (hno : Finishes false no e t r) :
    Finishes false (.list i [.symbol "if", .list j [.symbol "empty?", .symbol lst], yes, no]) e t
      r := by
  subst hitems
  exact finishes_if (finishes_empty hlst hlib h) hno

theorem finishes_car (hlib : Provided lib) (h : InFrame lib t e bindings) (hitems : items = x :: xs) :
    Finishes false (.list i [.symbol "car", .symbol lst]) e t (.ok x t) := by
  subst hitems
  exact finishes_builtin hlib h .car (by decide) (h.ends_all_symbol hlst) rfl

theorem finishes_cdr (hlib : Provided lib) (h : InFrame lib t e bindings) (hitems : items = x :: xs) :
    Finishes false (.list i [.symbol "cdr", .symbol lst]) e t
      (.ok (.list t.nextId xs) t.bump) := by
  subst hitems
  exact finishes_builtin hlib h .cdr (by decide) (h.ends_all_symbol hlst) rfl

end Builtins

end InFrame

/-! ### Stores within stores -/

/-- **The store `s` is embedded in the store `t`**, and both bind the names of the library globally as the
store `lib` does. -/
structure Within (lib : Store) (f : Relabelling) (s t : Store) : Prop where
  sound : s.Sound
  size : globalFrame < s.frames.size
  original : Original lib s
  embeds : s.Embeds f t
  global : f.frame globalFrame = globalFrame
  fixed : ∀ name ∈ visitNames, ∀ v, lib.frames.get? globalFrame name = some v → v.relabel f = v

namespace Within

variable {lib : Store} {f g : Relabelling} {s s' t t' : Store} {bindings : Bindings}

theorem self (hs : s.Sound) (hsize : globalFrame < s.frames.size) (ho : Original lib s) :
    Within lib (.objects fun i => i) s s :=
  ⟨hs, hsize, ho, s.embeds_self, rfl, fun _ _ v _ => Value.relabel_identity v⟩

theorem grow (h : Within lib f s t) (hgrows : t.Grows t') : Within lib f s t' :=
  { h with embeds := h.embeds.grow hgrows }

theorem outer_original (h : Within lib f s t) : Original lib t := by
  intro name hname
  have hvars := h.embeds.vars globalFrame h.size
  rw [h.global] at hvars
  rw [Frames.get?, hvars, Bindings.get?_relabel, ← Frames.get?, h.original name hname]
  cases hv : lib.frames.get? globalFrame name with
  | none => rfl
  | some v => exact congrArg some (h.fixed name hname v hv)

theorem outer_chain (h : Within lib f s t) : t.frames.chain globalFrame = [globalFrame] := by
  have henclosing := h.embeds.enclosing globalFrame h.size
  have hnone : s.frames.enclosing globalFrame = [] := by
    refine List.eq_nil_iff_forall_not_mem.2 fun j hj => ?_
    have hpair := List.pairwise_cons.1 (h.sound.grounded.pairwise_chain globalFrame h.size)
    exact Nat.not_lt_zero j (hpair.1 j hj)
  rw [h.global, hnone] at henclosing
  rw [Frames.chain, henclosing]
  rfl

/-- **Entering a call** of a function of the library. -/
theorem enter {formals : List String} {args : List Value} (h : Within lib f s t)
    (hlength : args.length = formals.length) (hnodup : formals.Nodup)
    (hnew : ∀ name ∈ visitNames, name ∉ formals) :
    Within lib f s (t.enter globalFrame (formals.zip args)) ∧
      InFrame lib (t.enter globalFrame (formals.zip args)) t.frames.size (formals.zip args) := by
  have hnames : Assoc.names (formals.zip args) = formals := List.map_fst_zip (Nat.le_of_eq hlength.symm)
  have hwithin := h.grow (t.grows_enter globalFrame (formals.zip args))
  have hframe := t.getElem?_enter globalFrame (by rwa [hnames])
  rw [h.outer_chain] at hframe
  exact ⟨hwithin, hframe, by rwa [hnames], hwithin.outer_original⟩

/-- The frame of a call that has just been entered is none of the frames of the store within. -/
theorem frame_ne_size (h : Within lib f s t) (i : FrameId) (hi : i < s.frames.size) :
    f.frame i ≠ t.frames.size := Nat.ne_of_lt (h.embeds.frame_lt i hi)

/-! The function that was handed over is called in the frame of a call. -/

section Visit

variable {e : FrameId} {name : String} {id : ObjectId} {p v : Value} {args operands : List Value}
  {n : Nat} {err : Failure}

/-- **Its call ends as it does in the store within**, and leaves the frame of the call under way alone. -/
theorem finishes_visit (h : Within lib f s t) (hframe : InFrame lib t e bindings)
    (hown : ∀ i < s.frames.size, f.frame i ≠ e) (hspecial : ofName? name = none)
    (hname : Assoc.get? name bindings = some (p.relabel f)) (hfun : p.isFunction = true)
    (hp : s.Holds p) (hargs : ∀ v ∈ args, s.Holds v)
    (hoperands : Ends (fun n => (evaluate false n).all e operands) t
      (.ok (args.map (Value.relabel f)) t))
    (hx : apply (evaluate false n) p args s = .ok v s') (ho : Original lib s') :
    ∃ g t', Finishes false (.list id (.symbol name :: operands)) e t (.ok (v.relabel g) t') ∧
      f.Continues s g s' ∧ Within lib g s' t' ∧ InFrame lib t' e bindings ∧ s'.Holds v := by
  obtain ⟨hs', hv, hid, hsize⟩ := h.sound.apply hp hargs hx
  obtain ⟨g, t', hcall, hagrees, hembeds, hkept⟩ := h.embeds.apply h.sound hp hargs hx
  have hwithin : Within lib g s' t' := by
    refine ⟨hs', Nat.lt_of_lt_of_le h.size hsize, ho, hembeds, ?_, fun name hname v hv => ?_⟩
    · rw [hagrees.frame _ h.size, h.global]
    · have hbound : s.frames.get? globalFrame name = some v := (h.original name hname).trans hv
      rw [hagrees.value (h.sound.holds_of_mem (Assoc.mem_of_get? hbound)), h.fixed name hname v hv]
  refine ⟨g, t', ?_, ⟨hagrees, hid, hsize⟩, hwithin, ?_, hv⟩
  · exact finishes_call hspecial (hframe.lookup?_local hname) (by rwa [Value.isFunction_relabel])
      hoperands ⟨⟨n, hcall⟩, fun h => h⟩
  · exact ⟨(hkept e hframe.lt_size hown).trans hframe.frame, hframe.names,
      hwithin.outer_original⟩

theorem finishes_visit_error (h : Within lib f s t) (hframe : InFrame lib t e bindings)
    (hspecial : ofName? name = none) (hname : Assoc.get? name bindings = some (p.relabel f))
    (hfun : p.isFunction = true) (hp : s.Holds p) (hargs : ∀ v ∈ args, s.Holds v)
    (hoperands : Ends (fun n => (evaluate false n).all e operands) t
      (.ok (args.map (Value.relabel f)) t))
    (hx : apply (evaluate false n) p args s = .error err s') (hne : err ≠ .stackExhausted) :
    ∃ g t', Finishes false (.list id (.symbol name :: operands)) e t (.error err t') ∧
      f.AgreesOn s g ∧ s'.Embeds g t' := by
  obtain ⟨g, t', hcall, hagrees, hembeds⟩ := h.embeds.apply_error h.sound hp hargs hx
  refine ⟨g, t', ?_, hagrees, hembeds⟩
  exact finishes_call hspecial (hframe.lookup?_local hname) (by rwa [Value.isFunction_relabel])
    hoperands ⟨⟨n, hcall⟩, fun h => hne (exhausted_error_iff.1 h)⟩

end Visit

end Within

end StandardLibrary

end MiniLisp
