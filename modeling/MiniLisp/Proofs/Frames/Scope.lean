import MiniLisp.Eval.Run
import MiniLisp.Proofs.DateTime.Calendar
import MiniLisp.Proofs.Frames.Access

/-! # Which frames see a write

Frames that are built one after the other form a forest: what encloses a frame is the chain of an earlier
frame (`Linked`, `Built.linked`), so a chain goes on along the frames right outside one another
(`outer?`, `Linked.alongChain`).

A frame sees another for a name if the latter is on its chain and no nearer frame binds the name (`Sees`);
if the latter binds the name, it is the nearest that does (`Nearest`). A look-up gives what the nearest
frame binds (`lookup?_of_nearest`), also where that is `nil`. So a value that is written into a frame is
looked up by the frames that see that frame for that name, and every other look-up stays as it was
(`seenBy_define`). -/

namespace MiniLisp

namespace Frames

variable {fs fs' : Frames} {i j g : FrameId} {name other : String} {v w : Value}

/-! ### The frame outside a frame -/

/-- The frame right outside a frame. -/
def outer? (fs : Frames) (i : FrameId) : Option FrameId := (fs.enclosing i).head?

/-- **The frames form a forest**: a frame lies in nothing, or right inside an earlier frame. -/
def Linked (fs : Frames) : Prop :=
  ∀ i, fs.enclosing i = [] ∨ ∃ j, j < i ∧ i < fs.size ∧ fs.enclosing i = fs.chain j

theorem outer?_of_nil (h : fs.enclosing i = []) : fs.outer? i = none := by
  rw [outer?, h, List.head?_nil]

theorem outer?_of_chain (h : fs.enclosing i = fs.chain j) : fs.outer? i = some j := by
  rw [outer?, h, chain, List.head?_cons]

/-- **Induction along a chain**, from its outermost frame inwards. -/
@[elab_as_elim]
theorem Linked.alongChain (h : fs.Linked) {P : FrameId → Prop}
    (outermost : ∀ i, fs.outer? i = none → fs.chain i = [i] → P i)
    (inside : ∀ i j, fs.outer? i = some j → fs.chain i = i :: fs.chain j → P j → P i)
    (i : FrameId) : P i := by
  induction i using Nat.strongRecOn with
  | ind i ih =>
    rcases h i with hroot | ⟨j, hj, -, hinside⟩
    · exact outermost i (outer?_of_nil hroot) (by rw [chain, hroot])
    · exact inside i j (outer?_of_chain hinside) (by rw [chain, hinside]) (ih j hj)

theorem Linked.chain_of_outer? (h : fs.Linked) (houter : fs.outer? i = some j) :
    fs.chain i = i :: fs.chain j := by
  rcases h i with hroot | ⟨k, -, -, hinside⟩
  · rw [outer?_of_nil hroot] at houter
    cases houter
  · rw [outer?_of_chain hinside] at houter
    cases houter
    rw [chain, hinside]

/-! ### Building -/

/-- **Frames as a host builds them**: from none, by adding frames on their own and inside others, and by
defining, updating and setting variables. -/
inductive Built : Frames → Prop where
  | empty : Built empty
  | root {fs : Frames} : Built fs → Built fs.addRoot
  | child {fs : Frames} {i : FrameId} : Built fs → i < fs.size → Built (fs.addChild i)
  | define {fs : Frames} (i : FrameId) (key : Key) (v : Value) : Built fs →
      Built (fs.define i key.name v)
  | update {fs : Frames} (i : FrameId) (bindings : List (Key × Value)) : Built fs →
      Built (fs.defineAll i (bindings.map fun b => (b.1.name, b.2)))
  | set {fs fs' : Frames} {i : FrameId} {key : Key} {v : Value} : Built fs →
      fs.assign? i key.name v = some fs' → Built fs'

/-- What changes bindings only leaves the forest as it is. -/
theorem Linked.of_enclosing (h : fs.Linked) (hsize : fs'.size = fs.size)
    (henclosing : ∀ i, fs'.enclosing i = fs.enclosing i) : fs'.Linked := by
  intro i
  rw [henclosing, hsize]
  refine (h i).imp_right ?_
  rintro ⟨j, hj, hi, hinside⟩
  exact ⟨j, hj, hi, by rw [hinside, chain, chain, henclosing]⟩

theorem Linked.define (h : fs.Linked) (i : FrameId) (name : String) (v : Value) :
    (fs.define i name v).Linked :=
  h.of_enclosing (size_define ..) fun _ => enclosing_define ..

theorem Linked.addChild (h : fs.Linked) (hi : i < fs.size) : (fs.addChild i).Linked := by
  intro k
  rw [enclosing_addChild, size_addChild]
  split_ifs with hk
  · right
    subst hk
    exact ⟨i, hi, Nat.lt_succ_self _, (chain_addChild hi i).symm⟩
  · refine (h k).imp_right ?_
    rintro ⟨j, hj, hksize, hinside⟩
    refine ⟨j, hj, Nat.lt_succ_of_lt hksize, ?_⟩
    rw [chain_addChild (Nat.lt_trans hj hksize), hinside]

theorem size_addRoot (fs : Frames) : fs.addRoot.size = fs.size + 1 := by
  rw [addRoot, size, Array.size_push, size]

/-- A frame that is added on its own lies in nothing. -/
theorem enclosing_addRoot (fs : Frames) (i : FrameId) : fs.addRoot.enclosing i = fs.enclosing i := by
  unfold enclosing
  rw [addRoot, Array.getElem?_push]
  split_ifs with hi
  · rw [hi, Array.getElem?_eq_none (Nat.le_refl _)]
  · rfl

theorem Linked.addRoot (h : fs.Linked) : fs.addRoot.Linked := by
  intro k
  rw [enclosing_addRoot, size_addRoot]
  refine (h k).imp_right ?_
  rintro ⟨j, hj, hk, hinside⟩
  exact ⟨j, hj, Nat.lt_succ_of_lt hk, by rw [hinside, chain, chain, enclosing_addRoot]⟩

/-- **What is built is a forest.** -/
theorem Built.linked (h : fs.Built) : fs.Linked := by
  induction h with
  | empty => exact fun i => .inl (enclosing_of_size_le (Nat.zero_le i))
  | root _ ih => exact ih.addRoot
  | child _ hi ih => exact ih.addChild hi
  | define i key v _ ih => exact ih.define i key.name v
  | update i bindings _ ih =>
    exact ih.of_enclosing (size_defineAll ..) fun _ => enclosing_defineAll ..
  | set _ ha ih =>
    obtain ⟨j, -, rfl⟩ := exists_of_assign? ha
    exact ih.define j _ _

/-! ### Seeing a frame -/

/-- From `i` outwards, over frames that have the property, one comes to `g`. -/
inductive Outward (fs : Frames) (P : FrameId → Prop) (g : FrameId) : FrameId → Prop where
  | here : Outward fs P g g
  | outside {i j : FrameId} : P i → fs.outer? i = some j → Outward fs P g j → Outward fs P g i

/-- `g` is on the chain of `i`. -/
def OnChain (fs : Frames) (g i : FrameId) : Prop := fs.Outward (fun _ => True) g i

/-- **`i` sees `g` for a name**: `g` is on the chain of `i`, and no nearer frame binds the name. -/
def Sees (fs : Frames) (name : String) (g i : FrameId) : Prop :=
  fs.Outward (fun k => fs.get? k name = none) g i

/-- **`g` is the nearest frame** of the chain of `i` that binds the name. -/
structure Nearest (fs : Frames) (name : String) (g i : FrameId) : Prop where
  sees : fs.Sees name g i
  binds : (fs.get? g name).isSome = true

theorem outward_of_outermost {P : FrameId → Prop} (houter : fs.outer? i = none) :
    fs.Outward P g i ↔ i = g := by
  constructor
  · intro h
    cases h with
    | here => rfl
    | outside _ hj _ =>
      rw [houter] at hj
      cases hj
  · rintro rfl
    exact .here

theorem outward_of_inside {P : FrameId → Prop} (houter : fs.outer? i = some j) :
    fs.Outward P g i ↔ i = g ∨ P i ∧ fs.Outward P g j := by
  constructor
  · intro h
    cases h with
    | here => exact .inl rfl
    | outside hi hk h =>
      rw [houter] at hk
      cases hk
      exact .inr ⟨hi, h⟩
  · rintro (rfl | ⟨hi, h⟩)
    · exact .here
    · exact .outside hi houter h

theorem mem_chain_iff (h : fs.Linked) (g i : FrameId) : g ∈ fs.chain i ↔ fs.OnChain g i := by
  unfold OnChain
  induction i using h.alongChain with
  | outermost i houter hchain =>
    rw [hchain, List.mem_singleton, outward_of_outermost houter, eq_comm]
  | inside i j houter hchain ih =>
    rw [hchain, List.mem_cons, ih, outward_of_inside houter, true_and, eq_comm]

/-- **If a frame of the chain binds a name, there is a nearest one that does.** -/
theorem exists_nearest {k : FrameId} (h : fs.OnChain k i) (hk : (fs.get? k name).isSome = true) :
    ∃ g, fs.Nearest name g i := by
  induction h with
  | here => exact ⟨k, .here, hk⟩
  | @outside i j _ houter _ ih =>
    cases hi : fs.get? i name with
    | some w => exact ⟨i, .here, by rw [hi]; rfl⟩
    | none =>
      obtain ⟨g, hsees, hbinds⟩ := ih
      exact ⟨g, .outside hi houter hsees, hbinds⟩

/-- A frame of the chain binds the name, or none does. -/
theorem nearest_or_free (fs : Frames) (name : String) (i : FrameId) :
    (∃ g, fs.Nearest name g i) ∨ ∀ k, fs.OnChain k i → fs.get? k name = none := by
  by_cases h : ∃ g, fs.Nearest name g i
  · exact .inl h
  · refine .inr fun k hk => ?_
    rw [← Option.not_isSome_iff_eq_none]
    exact fun hbinds => h (exists_nearest hk hbinds)

/-! ### Looking up -/

theorem lookup?_of_get? (h : fs.get? i name = some v) : fs.lookup? i name = some v := by
  rw [lookup?, chain, List.findSome?_cons, h]

theorem lookup?_of_outermost (houter : fs.chain i = [i]) : fs.lookup? i name = fs.get? i name := by
  rw [lookup?, houter, List.findSome?_singleton]

/-- A frame that does not bind the name looks it up in the frame outside it. -/
theorem lookup?_of_inside (hchain : fs.chain i = i :: fs.chain j) (hi : fs.get? i name = none) :
    fs.lookup? i name = fs.lookup? j name := by
  rw [lookup?, hchain, List.findSome?_cons, hi, lookup?]

/-- **Looking up gives what the nearest frame binds.** -/
theorem lookup?_of_nearest (h : fs.Linked) (hn : fs.Nearest name g i) :
    fs.lookup? i name = fs.get? g name := by
  obtain ⟨hsees, hbinds⟩ := hn
  obtain ⟨w, hw⟩ := Option.isSome_iff_exists.1 hbinds
  induction hsees with
  | here => rw [lookup?_of_get? hw, hw]
  | outside hi houter _ ih => rw [lookup?_of_inside (h.chain_of_outer? houter) hi, ih]

/-- **Finding a name gives the nearest frame that binds it.** -/
theorem find?_of_nearest (h : fs.Linked) (hn : fs.Nearest name g i) :
    fs.find? i name = some g := by
  obtain ⟨hsees, hbinds⟩ := hn
  induction hsees with
  | here => rw [find?, chain, List.find?_cons, hbinds]
  | outside hi houter _ ih =>
    rw [find?, h.chain_of_outer? houter, List.find?_cons, hi]
    exact ih

/-- A name that no frame of the chain binds is not found. -/
theorem find?_of_free (h : fs.Linked) (hfree : ∀ k, fs.OnChain k i → fs.get? k name = none) :
    fs.find? i name = none := by
  refine List.find?_eq_none.2 fun k hk => ?_
  rw [hfree k ((mem_chain_iff h k i).1 hk)]
  exact Bool.false_ne_true

theorem lookup?_of_free (h : fs.Linked) (hfree : ∀ k, fs.OnChain k i → fs.get? k name = none) :
    fs.lookup? i name = none :=
  List.findSome?_eq_none_iff.2 fun k hk => hfree k ((mem_chain_iff h k i).1 hk)

/-! ### Writing -/

theorem get?_define (hg : g < fs.size) (k : FrameId) (other : String) :
    (fs.define g name v).get? k other =
      if k = g ∧ other = name then some v else fs.get? k other := by
  by_cases hk : k = g
  · subst hk
    simp only [get?_define_self hg, true_and]
  · rw [get?, vars_define_of_ne (Ne.symm hk), if_neg fun h => hk h.1, get?]

/-- **A write is seen** by a frame that sees the frame written to. -/
theorem lookup?_define_of_sees (h : fs.Linked) (hg : g < fs.size) (hs : fs.Sees name g i) :
    (fs.define g name v).lookup? i name = some v := by
  induction hs with
  | here => exact lookup?_of_get? (by rw [get?_define hg, if_pos ⟨rfl, rfl⟩])
  | @outside i j hi houter _ ih =>
    by_cases hig : i = g
    · exact lookup?_of_get? (by rw [get?_define hg, if_pos ⟨hig, rfl⟩])
    · have hchain := h.chain_of_outer? houter
      rw [← chain_define fs g i name v, ← chain_define fs g j name v] at hchain
      rw [lookup?_of_inside hchain, ih]
      rw [get?_define hg, if_neg fun h => hig h.1, hi]

/-- **A write is seen by no other frame**, and as no other name. -/
theorem lookup?_define_of_not (h : fs.Linked) (hg : g < fs.size) (i : FrameId) :
    ¬ (other = name ∧ fs.Sees name g i) →
      (fs.define g name v).lookup? i other = fs.lookup? i other := by
  -- the frame at hand binds what it bound before, for it would see itself
  have hsame : ∀ k, ¬ (other = name ∧ fs.Sees name g k) →
      (fs.define g name v).get? k other = fs.get? k other := fun k hk => by
    rw [get?_define hg, if_neg]
    rintro ⟨rfl, hname⟩
    exact hk ⟨hname, .here⟩
  induction i using h.alongChain with
  | outermost i _ hchain =>
    intro hi
    rw [lookup?_of_outermost hchain, ← hsame i hi]
    exact lookup?_of_outermost (by rw [chain_define, hchain])
  | inside i j houter hchain ih =>
    intro hi
    cases hget : fs.get? i other with
    | some w => rw [lookup?_of_get? hget, lookup?_of_get? ((hsame i hi).trans hget)]
    | none =>
      have hj : ¬ (other = name ∧ fs.Sees name g j) := by
        rintro ⟨rfl, hsees⟩
        exact hi ⟨rfl, .outside hget houter hsees⟩
      rw [lookup?_of_inside hchain hget, ← ih hj]
      refine lookup?_of_inside ?_ ((hsame i hi).trans hget)
      rw [chain_define, chain_define, hchain]

/-- **The write is seen by the observers**: for them the variable has the value, and every other look-up
gives what it gave before. A variable may be called by its symbol or by a string. -/
structure SeenBy (before after : Frames) (key : Key) (v : Value) (observer : FrameId → Prop) :
    Prop where
  seen : ∀ i, observer i → ∀ m : Key, m.name = key.name → after.lookup? i m.name = some v
  unseen : ∀ i (m : Key), ¬ (m.name = key.name ∧ observer i) →
    after.lookup? i m.name = before.lookup? i m.name

theorem seenBy_define (h : fs.Linked) (hg : g < fs.size) (key : Key) (v : Value) :
    SeenBy fs (fs.define g key.name v) key v (fs.Sees key.name g) where
  seen i hi m hm := by rw [hm, lookup?_define_of_sees h hg hi]
  unseen i m hm := lookup?_define_of_not h hg i hm

theorem lt_size_of_get? (h : (fs.get? g name).isSome = true) : g < fs.size := by
  refine Nat.lt_of_not_le fun hle => ?_
  rw [get?, vars_of_size_le hle] at h
  cases h

/-! ### What is seen of a write -/

/-- **A write is seen by exactly the right frames.** In frames that a host builds, let a variable be
set from a frame. If a frame of its chain binds it, the nearest such frame has the new value, which all
frames see whose nearest it is, and no frame binds other names than before; if none does, setting fails
and changes nothing. A variable that is defined in a frame is seen by all frames that see that frame for
its name. A variable is found, looked up and contained if a frame of the chain binds it, `nil` or not,
and otherwise it is not; and there are no other cases. -/
theorem writes_seen {s : Store} (hs : s.frames.Built) (i : FrameId) (key : Key) (v : Value) :
    (∀ g, s.frames.Nearest key.name g i →
      ∃ fs, Run.assign i key.name v s = .ok () { s with frames := fs } ∧
        SeenBy s.frames fs key v (s.frames.Nearest key.name g) ∧
        ∀ k, Assoc.names (fs.vars k) = Assoc.names (s.frames.vars k)) ∧
    ((∀ k, s.frames.OnChain k i → s.frames.get? k key.name = none) →
      Run.assign i key.name v s = .error (.undefinedVariable key.name) s) ∧
    (i < s.frames.size →
      ∃ fs, Run.define i key.name v s = .ok () { s with frames := fs } ∧
        SeenBy s.frames fs key v (s.frames.Sees key.name i)) ∧
    (∀ g w, s.frames.Nearest key.name g i → s.frames.get? g key.name = some w →
      s.frames.find? i key.name = some g ∧ s.frames.lookup? i key.name = some w ∧
        s.frames.contains i (.symbol key.name) = true ∧
        s.frames.contains i (.string key.name) = true) ∧
    ((∀ k, s.frames.OnChain k i → s.frames.get? k key.name = none) →
      s.frames.find? i key.name = none ∧ s.frames.lookup? i key.name = none ∧
        s.frames.contains i (.symbol key.name) = false ∧
        s.frames.contains i (.string key.name) = false) ∧
    ((∃ g, s.frames.Nearest key.name g i) ∨
      ∀ k, s.frames.OnChain k i → s.frames.get? k key.name = none) := by
  have hlinked := hs.linked
  refine ⟨fun g hg => ?_, fun hfree => ?_, fun hi => ?_, fun g w hg hw => ?_, fun hfree => ?_,
    nearest_or_free s.frames key.name i⟩
  · have hassign : s.frames.assign? i key.name v = some (s.frames.define g key.name v) := by
      rw [assign?, find?_of_nearest hlinked hg, Option.map_some]
    have hrun : Run.assign i key.name v s =
        .ok () { s with frames := s.frames.define g key.name v } := by
      rw [Run.assign, hassign]
    have hseen := seenBy_define hlinked (lt_size_of_get? hg.binds) key v
    refine ⟨_, hrun, ⟨fun k hk => hseen.seen k hk.sees, fun k m hm => hseen.unseen k m ?_⟩,
      names_vars_assign? hassign⟩
    rintro ⟨hname, hsees⟩
    exact hm ⟨hname, hsees, hg.binds⟩
  · rw [Run.assign, assign?, find?_of_free hlinked hfree, Option.map_none]
  · exact ⟨_, rfl, seenBy_define hlinked hi key v⟩
  · have hfind := find?_of_nearest hlinked hg
    refine ⟨hfind, (lookup?_of_nearest hlinked hg).trans hw, ?_, ?_⟩
    · exact congrArg Option.isSome hfind
    · exact congrArg Option.isSome hfind
  · have hfind := find?_of_free hlinked hfree
    refine ⟨hfind, lookup?_of_free hlinked hfree, ?_, ?_⟩
    · exact congrArg Option.isSome hfind
    · exact congrArg Option.isSome hfind

/-- A global frame that binds `x` to 1, a frame in it that binds `x` to `nil`, one frame in that, and
another one in the global frame. -/
def shadowing : Store where
  frames := ((((empty.addRoot.define 0 "x" (.int 1)).addChild 0).define 1 "x" .nil).addChild 1).addChild 0
  nextId := 0
  output := ""
  trace := #[]
  depth := 0
  clock := ⟨⟨2023, 3, 1, by decide, by decide⟩, 0, microsPerDay_pos⟩

theorem built_shadowing : shadowing.frames.Built := by
  refine .child (.child (.define 1 (.symbol "x") .nil (.child ?_ ?_)) ?_) ?_
  · exact .define 0 (.string "x") (.int 1) (.root .empty)
  all_goals decide

/-- Setting `x` from the innermost frame changes the `nil` of the frame outside it, and not what the frame
beside them sees. -/
theorem writes_seen_shadowing :
    ∃ fs, Run.assign 2 "x" (.int 5) shadowing = .ok () { shadowing with frames := fs } ∧
      fs.lookup? 1 "x" = some (.int 5) ∧ fs.lookup? 3 "x" = some (.int 1) := by
  have hnearest : shadowing.frames.Nearest "x" 1 1 := ⟨.here, rfl⟩
  have hinner : shadowing.frames.Nearest "x" 1 2 := ⟨.outside rfl rfl .here, rfl⟩
  have hbeside : ¬ shadowing.frames.Nearest "x" 1 3 := fun h => by
    have hfind := find?_of_nearest built_shadowing.linked h
    cases hfind
  obtain ⟨fs, hrun, hseen, -⟩ :=
    (writes_seen built_shadowing 2 (.symbol "x") (.int 5)).1 1 hinner
  refine ⟨fs, hrun, hseen.seen 1 hnearest (.string "x") rfl, ?_⟩
  exact hseen.unseen 3 (.string "x") fun h => hbeside h.2

end Frames

end MiniLisp
