import MiniLisp.Proofs.Frames.Access
import MiniLisp.Proofs.Value.Renaming

/-! # Renaming the objects and frames of a program

A `Renaming` gives every object another identity and every frame another number, different ones to
different ones, and new objects again in order. The frames `gs` are the renamed frames `fs` if every
frame of `fs` is found in `gs` under its other number, with the renamed bindings (`Frames.Renamed`). There
may be others besides, which no operation on the renamed frames touches. Looking up, defining, assigning
and adding a frame do on the renamed frames what they do on the frames.

If only objects are renamed, there are no other frames, and the renamed frames are a function of the
frames (`renamed_iff`). Frames without identities from a bound on are left alone by the renamings that
move only those (`rename_eq_self_iff`). -/

namespace MiniLisp

/-- **A renaming of objects and frames.** Between `start` and `stop` it keeps the order of creation: the
identity that is next is renamed to the identity that is next afterwards. The `others` are the frames
that are no renamed ones. -/
structure Renaming where
  map : Relabelling
  next : ObjectId → ObjectId
  start : ObjectId
  stop : ObjectId
  others : FrameId → Option Frame
  object_injective : ∀ {i j}, map.object i = map.object j → i = j
  frame_injective : ∀ {i j}, map.frame i = map.frame j → i = j
  object_eq : ∀ {i}, start ≤ i → i < stop → map.object i = next i
  next_succ : ∀ {i}, start ≤ i → i < stop → next (i + 1) = next i + 1

/-- Bindings with other identities. -/
def Bindings.rename (f : ObjectId → ObjectId) (t : Bindings) : Bindings :=
  t.map fun b => (b.1, b.2.rename f)

/-- A frame with other identities. -/
def Frame.rename (f : ObjectId → ObjectId) (fr : Frame) : Frame :=
  { fr with vars := fr.vars.rename f }

/-- Bindings with other identities that remember other frames. -/
def Bindings.relabel (f : Relabelling) (t : Bindings) : Bindings :=
  t.map fun b => (b.1, b.2.relabel f)

namespace Bindings

theorem rename_eq_relabel (f : ObjectId → ObjectId) (t : Bindings) :
    t.rename f = t.relabel (.objects f) := by
  simp only [rename, relabel, Value.rename_eq_relabel]

variable (f : Relabelling)

theorem get?_relabel (name : String) : ∀ t : Bindings,
    Assoc.get? name (t.relabel f) = (Assoc.get? name t).map (Value.relabel f)
  | [] => rfl
  | (n, w) :: t => by
    change (if n = name then some (w.relabel f) else Assoc.get? name (relabel f t)) =
      (if n = name then some w else Assoc.get? name t).map (Value.relabel f)
    rw [get?_relabel name t]
    split <;> rfl

theorem insert_relabel (name : String) (v : Value) : ∀ t : Bindings,
    Assoc.insert name (v.relabel f) (t.relabel f) = relabel f (Assoc.insert name v t)
  | [] => rfl
  | (n, w) :: t => by
    change (if n = name then (n, v.relabel f) :: relabel f t
      else (n, w.relabel f) :: Assoc.insert name (v.relabel f) (relabel f t)) =
        relabel f (if n = name then (n, v) :: t else (n, w) :: Assoc.insert name v t)
    rw [insert_relabel name v t]
    split <;> rfl

/-- Bindings without identities from `n` on are left alone by a renaming that moves only those. -/
theorem rename_eq_self_iff {f : ObjectId → ObjectId} {n : ObjectId} (hf : ∀ i, f i = i ↔ i < n) :
    ∀ t : Bindings, t.rename f = t ↔ ∀ b ∈ t, b.2.IdsBelow n
  | [] => iff_of_true rfl fun _ h => nomatch h
  | (name, v) :: t => by
    rw [List.forall_mem_cons, ← rename_eq_self_iff hf t, ← Value.relabel_eq_self_iff hf v]
    simp [rename, Value.rename_eq_relabel]

end Bindings

namespace Frames

variable (fs : Frames)

theorem getElem?_all (i : FrameId) :
    fs.all[i]? = if i < fs.size then some ⟨fs.vars i, fs.enclosing i⟩ else none := by
  unfold vars enclosing size
  split
  · next h => rw [Array.getElem?_eq_getElem h]
  · next h => rw [Array.getElem?_eq_none (Nat.le_of_not_lt h)]

/-! ### Renamed frames -/

/-- **The frames `gs` are the frames `fs`, renamed**, and others. -/
structure Renamed (ρ : Renaming) (fs gs : Frames) : Prop where
  vars : ∀ i, gs.vars (ρ.map.frame i) = (fs.vars i).relabel ρ.map
  enclosing : ∀ i, gs.enclosing (ρ.map.frame i) = (fs.enclosing i).map ρ.map.frame
  later : ∀ k, ρ.map.frame (fs.size + k) = gs.size + k
  others : ∀ j, (∀ i, ρ.map.frame i ≠ j) → gs.all[j]? = ρ.others j

namespace Renamed

variable {ρ : Renaming} {fs gs : Frames}

/-- The frame that is next is renamed to the frame that is next. -/
theorem frame_size (h : Renamed ρ fs gs) : ρ.map.frame fs.size = gs.size := h.later 0

theorem frame_lt_iff (h : Renamed ρ fs gs) (i : FrameId) :
    ρ.map.frame i < gs.size ↔ i < fs.size := by
  constructor
  · intro hi
    refine Nat.lt_of_not_le fun hle => ?_
    have hlater := h.later (i - fs.size)
    rw [Nat.add_sub_cancel' hle] at hlater
    exact Nat.not_lt.2 (Nat.le_add_right gs.size _) (hlater ▸ hi)
  · intro hi
    refine Nat.lt_of_not_le fun hle => ?_
    -- otherwise a later frame had the same number
    have hlater := h.later (ρ.map.frame i - gs.size)
    rw [Nat.add_sub_cancel' hle] at hlater
    have heq := ρ.frame_injective hlater
    exact Nat.not_lt.2 (Nat.le_add_right fs.size _) (heq ▸ hi)

theorem chain (h : Renamed ρ fs gs) (i : FrameId) :
    gs.chain (ρ.map.frame i) = (fs.chain i).map ρ.map.frame := by
  rw [Frames.chain, Frames.chain, h.enclosing, List.map_cons]

theorem get? (h : Renamed ρ fs gs) (i : FrameId) (name : String) :
    gs.get? (ρ.map.frame i) name = (fs.get? i name).map (Value.relabel ρ.map) := by
  rw [Frames.get?, Frames.get?, h.vars, Bindings.get?_relabel]

theorem find? (h : Renamed ρ fs gs) (i : FrameId) (name : String) :
    gs.find? (ρ.map.frame i) name = (fs.find? i name).map ρ.map.frame := by
  rw [Frames.find?, Frames.find?, h.chain, List.find?_map]
  simp only [Function.comp_def, h.get?, Option.isSome_map]

/-- **Looking up** gives the renamed value. -/
theorem lookup? (h : Renamed ρ fs gs) (i : FrameId) (name : String) :
    gs.lookup? (ρ.map.frame i) name = (fs.lookup? i name).map (Value.relabel ρ.map) := by
  rw [Frames.lookup?, Frames.lookup?, h.chain, List.findSome?_map, List.map_findSome?]
  simp only [Function.comp_def, h.get?]

/-- **Defining** in the frame of the other number. -/
theorem define (h : Renamed ρ fs gs) (i : FrameId) (name : String) (v : Value) :
    Renamed ρ (fs.define i name v) (gs.define (ρ.map.frame i) name (v.relabel ρ.map)) where
  vars j := by
    by_cases hij : i = j
    · subst hij
      by_cases hi : i < fs.size
      · rw [vars_define_self hi, vars_define_self ((h.frame_lt_iff i).2 hi), h.vars,
          Bindings.insert_relabel]
      · have hi' : ¬ ρ.map.frame i < gs.size := fun hlt => hi ((h.frame_lt_iff i).1 hlt)
        rw [vars_of_size_le (by rw [size_define]; exact Nat.le_of_not_lt hi'),
          vars_of_size_le (by rw [size_define]; exact Nat.le_of_not_lt hi)]
        rfl
    · have hne : ρ.map.frame i ≠ ρ.map.frame j := fun heq => hij (ρ.frame_injective heq)
      rw [vars_define_of_ne hij, vars_define_of_ne hne, h.vars]
  enclosing j := by rw [enclosing_define, enclosing_define, h.enclosing]
  later k := by rw [size_define, size_define, h.later]
  others j hj := by rw [getElem?_define_of_ne (hj i), h.others j hj]

theorem defineAll (i : FrameId) : ∀ (bindings : Bindings) {fs gs : Frames}, Renamed ρ fs gs →
    Renamed ρ (fs.defineAll i bindings)
      (gs.defineAll (ρ.map.frame i) (bindings.relabel ρ.map))
  | [], _, _, h => h
  | b :: bindings, _, _, h => defineAll i bindings (h.define i b.1 b.2)

/-- **Assigning** in the frame of the other number. -/
theorem assign? (h : Renamed ρ fs gs) (i : FrameId) (name : String) (v : Value) :
    Option.Rel (Renamed ρ) (fs.assign? i name v)
      (gs.assign? (ρ.map.frame i) name (v.relabel ρ.map)) := by
  rw [Frames.assign?, Frames.assign?, h.find?]
  cases fs.find? i name with
  | none => exact .none
  | some j => exact .some (h.define j name v)

/-- **Adding a frame** inside the frame of the other number. -/
theorem addChild (h : Renamed ρ fs gs) (i : FrameId) :
    Renamed ρ (fs.addChild i) (gs.addChild (ρ.map.frame i)) where
  vars j := by
    have hj : ρ.map.frame j = gs.size ↔ j = fs.size := by
      rw [← h.frame_size]
      exact ⟨ρ.frame_injective, congrArg ρ.map.frame⟩
    rw [vars_addChild, vars_addChild, h.vars]
    simp only [hj]
    split <;> rfl
  enclosing j := by
    have hj : ρ.map.frame j = gs.size ↔ j = fs.size := by
      rw [← h.frame_size]
      exact ⟨ρ.frame_injective, congrArg ρ.map.frame⟩
    rw [enclosing_addChild, enclosing_addChild, h.enclosing, h.chain]
    simp only [hj]
    split <;> rfl
  later k := by
    have hlater := h.later (1 + k)
    rw [size_addChild, size_addChild, Nat.add_assoc, hlater, Nat.add_assoc]
  others j hj := by
    have hne : j ≠ gs.size := fun heq => hj fs.size (by rw [h.frame_size, heq])
    rw [getElem?_addChild, if_neg hne, h.others j hj]

end Renamed

/-! ### Renaming objects only -/

variable (f : ObjectId → ObjectId)

/-- Frames with other identities. -/
def rename : Frames := ⟨fs.all.map (Frame.rename f)⟩

theorem getElem?_rename (i : FrameId) : (fs.rename f).all[i]? = fs.all[i]?.map (Frame.rename f) :=
  Array.getElem?_map

@[simp] theorem size_rename : (fs.rename f).size = fs.size := Array.size_map

theorem vars_rename (i : FrameId) : (fs.rename f).vars i = (fs.vars i).rename f := by
  unfold vars
  rw [getElem?_rename]
  cases fs.all[i]? <;> rfl

theorem enclosing_rename (i : FrameId) : (fs.rename f).enclosing i = fs.enclosing i := by
  unfold enclosing
  rw [getElem?_rename]
  cases fs.all[i]? <;> rfl

/-- **Where only objects are renamed**, the renamed frames are a function of the frames. -/
theorem renamed_iff {ρ : Renaming} {f : ObjectId → ObjectId} (hρ : ρ.map = .objects f)
    {fs gs : Frames} : Renamed ρ fs gs ↔ gs = fs.rename f := by
  have hframe : ∀ i, ρ.map.frame i = i := fun i => by rw [hρ]; rfl
  constructor
  · intro h
    have hsize : gs.size = fs.size := by rw [← h.frame_size, hframe]
    refine congrArg Frames.mk (Array.ext_getElem? fun i => ?_)
    have hvars := h.vars i
    have henclosing := h.enclosing i
    rw [hframe, hρ, ← Bindings.rename_eq_relabel, ← vars_rename] at hvars
    rw [hframe, (funext hframe : ρ.map.frame = id), List.map_id, ← enclosing_rename fs f]
      at henclosing
    have hget := getElem?_all gs i
    rw [hvars, henclosing, hsize, ← size_rename fs f, ← getElem?_all (fs.rename f) i] at hget
    exact hget
  · rintro rfl
    constructor
    · intro i
      rw [hframe, vars_rename, hρ, Bindings.rename_eq_relabel]
    · intro i
      rw [hframe, (funext hframe : ρ.map.frame = id), List.map_id, enclosing_rename]
    · intro k
      rw [hframe, size_rename]
    · intro j hj
      exact absurd (hframe j) (hj j)

/-! ### Identities below a bound -/

/-- All identities in the frames are below `n`. -/
def IdsBelow (n : ObjectId) : Prop := ∀ i, ∀ b ∈ fs.vars i, b.2.IdsBelow n

theorem rename_eq_self_iff_forall : fs.rename f = fs ↔ ∀ fr ∈ fs.all, fr.rename f = fr := by
  constructor
  · intro h fr hfr
    obtain ⟨i, hi, rfl⟩ := Array.getElem_of_mem hfr
    have hget := getElem?_rename fs f i
    rw [h, Array.getElem?_eq_getElem hi] at hget
    exact (Option.some.inj hget).symm
  · intro h
    refine congrArg Frames.mk ?_
    rw [Array.map_congr_left h, Array.map_id']

theorem rename_eq_self_iff {f : ObjectId → ObjectId} {n : ObjectId} (hf : ∀ i, f i = i ↔ i < n) :
    fs.rename f = fs ↔ fs.IdsBelow n := by
  have hbindings := Bindings.rename_eq_self_iff hf
  rw [rename_eq_self_iff_forall]
  constructor
  · intro h i
    rw [← hbindings, vars]
    cases hi : fs.all[i]? with
    | none => rfl
    | some fr => exact congrArg Frame.vars (h fr (Array.mem_of_getElem? hi))
  · intro h fr hfr
    obtain ⟨i, hi⟩ := Array.getElem?_of_mem hfr
    have hvars : fs.vars i = fr.vars := by rw [vars, hi]
    have heq := (hbindings _).2 (h i)
    rw [hvars] at heq
    exact congrArg (Frame.mk · fr.enclosing) heq

theorem rename_identity : fs.rename (fun i => i) = fs := by
  rw [rename_eq_self_iff_forall]
  intro fr _
  have h : fr.vars.rename (fun i => i) = fr.vars := by
    simp only [Bindings.rename, Value.rename_eq_relabel, Value.relabel_identity]
    exact List.map_id _
  exact congrArg (Frame.mk · fr.enclosing) h

end Frames

/-! ### Renamings -/

namespace Renaming

/-- Moves the identities from `n` on by one. -/
def shift (n i : Nat) : Nat := if i < n then i else i + 1

theorem shift_eq_self_iff (n i : Nat) : shift n i = i ↔ i < n := by
  unfold shift
  split <;> omega

theorem shift_injective (n : Nat) {i j : Nat} (h : shift n i = shift n j) : i = j := by
  unfold shift at h
  split at h <;> split at h <;> omega

/-- One identity fewer is left for objects made from `n` on. -/
def skipping (n stop : ObjectId) : Renaming where
  map := .objects (shift n)
  next i := i + 1
  start := n
  stop := stop
  others _ := none
  object_injective := shift_injective n
  frame_injective h := h
  object_eq hi _ := if_neg (Nat.not_lt.2 hi)
  next_succ _ _ := rfl

/-- Objects made before `stop` keep their identities. -/
def keeping (stop : ObjectId) : Renaming where
  map := .objects (shift stop)
  next i := i
  start := 0
  stop := stop
  others _ := none
  object_injective := shift_injective stop
  frame_injective h := h
  object_eq _ hi := if_pos hi
  next_succ _ _ := rfl

/-- Every object keeps its identity. -/
def identity (stop : ObjectId) : Renaming where
  map := .objects fun i => i
  next i := i
  start := 0
  stop := stop
  others _ := none
  object_injective h := h
  frame_injective h := h
  object_eq _ _ := rfl
  next_succ _ _ := rfl

end Renaming

end MiniLisp
