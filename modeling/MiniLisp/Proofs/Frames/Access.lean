import MiniLisp.Frames
import Mathlib.Tactic.SplitIfs

/-! # Reading and writing frames

What the writing operations do to each frame: defining and assigning change the bindings of one frame
(`getElem?_define`, `exists_of_assign?`), adding a frame changes no frame that was there
(`getElem?_addChild`), and no operation changes which frames enclose a frame. A value that is looked up
is bound in the chain (`exists_of_lookup?`). -/

namespace MiniLisp

namespace Assoc

variable {α : Type}

theorem mem_of_get? {name : String} {v : α} :
    ∀ {t : Assoc α}, get? name t = some v → (name, v) ∈ t
  | [], h => by cases h
  | (n, w) :: t, h => by
    unfold get? at h
    split at h
    · next hn => cases h; rw [hn]; exact List.mem_cons_self
    · exact List.mem_cons_of_mem _ (mem_of_get? h)

theorem mem_names_of_get? {name : String} {t : Assoc α} (h : (get? name t).isSome = true) :
    name ∈ names t := by
  obtain ⟨v, hv⟩ := Option.isSome_iff_exists.1 h
  exact List.mem_map.2 ⟨(name, v), mem_of_get? hv, rfl⟩

theorem get?_of_notMem {name : String} {t : Assoc α} (h : name ∉ names t) : get? name t = none :=
  Option.not_isSome_iff_eq_none.1 fun hsome => h (mem_names_of_get? hsome)

theorem names_prefix_insert (t : Assoc α) (name : String) (v : α) :
    names t <+: names (insert name v t) := by
  rw [names_insert]
  split
  · exact List.prefix_refl _
  · exact List.prefix_append _ _

theorem insert_of_notMem {name : String} {v : α} :
    ∀ {t : Assoc α}, name ∉ names t → insert name v t = t ++ [(name, v)]
  | [], _ => rfl
  | (n, w) :: t, h => by
    rw [names, List.map_cons, List.mem_cons, not_or] at h
    rw [insert, if_neg fun hn => h.1 hn.symm, insert_of_notMem h.2, List.cons_append]

/-- In a table with each name once, what is there is found. -/
theorem get?_of_mem {name : String} {v : α} :
    ∀ {t : Assoc α}, (names t).Nodup → (name, v) ∈ t → get? name t = some v
  | (n, w) :: t, hnames, h => by
    rw [names, List.map_cons, List.nodup_cons] at hnames
    rw [get?]
    rcases List.mem_cons.1 h with h | h
    · cases h
      rw [if_pos rfl]
    · have hne : n ≠ name := fun hn => hnames.1 (List.mem_map.2 ⟨_, h, hn.symm⟩)
      rw [if_neg hne, get?_of_mem hnames.2 h]

/-- What is bound after an insertion is the inserted value or was bound before. -/
theorem mem_insert {name : String} {v : α} {b : String × α} :
    ∀ {t : Assoc α}, b ∈ insert name v t → b = (name, v) ∨ b ∈ t
  | [], h => by
    rw [insert, List.mem_singleton] at h
    exact .inl h
  | (n, w) :: t, h => by
    unfold insert at h
    split at h
    · next hn =>
      rcases List.mem_cons.1 h with h | h
      · exact .inl (by rw [h, hn])
      · exact .inr (List.mem_cons_of_mem _ h)
    · rcases List.mem_cons.1 h with h | h
      · exact .inr (by rw [h]; exact List.mem_cons_self)
      · rcases mem_insert h with h | h
        · exact .inl h
        · exact .inr (List.mem_cons_of_mem _ h)

end Assoc

namespace Frames

variable {fs fs' : Frames} {i j : FrameId} {name : String} {v : Value} {bindings : Bindings}

/-! ### Frames that are not there -/

theorem vars_of_size_le (h : fs.size ≤ i) : fs.vars i = [] := by
  rw [vars, Array.getElem?_eq_none h]

theorem enclosing_of_size_le (h : fs.size ≤ i) : fs.enclosing i = [] := by
  rw [enclosing, Array.getElem?_eq_none h]

theorem getElem?_of_lt (h : i < fs.size) : fs.all[i]? = some ⟨fs.vars i, fs.enclosing i⟩ := by
  rw [vars, enclosing, Array.getElem?_eq_getElem h]

/-! ### Defining -/

theorem getElem?_define (fs : Frames) (i j : FrameId) (name : String) (v : Value) :
    (fs.define i name v).all[j]? =
      if i = j then fs.all[j]?.map fun f => { f with vars := Assoc.insert name v f.vars }
      else fs.all[j]? := by
  rw [define, Array.getElem?_modify]

@[simp] theorem size_define (fs : Frames) (i : FrameId) (name : String) (v : Value) :
    (fs.define i name v).size = fs.size := by
  rw [define, size, Array.size_modify, size]

theorem getElem?_define_of_ne (h : i ≠ j) : (fs.define i name v).all[j]? = fs.all[j]? := by
  rw [getElem?_define, if_neg h]

@[simp] theorem enclosing_define (fs : Frames) (i j : FrameId) (name : String) (v : Value) :
    (fs.define i name v).enclosing j = fs.enclosing j := by
  unfold enclosing
  rw [getElem?_define]
  split_ifs
  · cases fs.all[j]? <;> rfl
  · rfl

theorem chain_define (fs : Frames) (i j : FrameId) (name : String) (v : Value) :
    (fs.define i name v).chain j = fs.chain j := by
  rw [chain, enclosing_define, chain]

theorem vars_define_of_ne (h : i ≠ j) : (fs.define i name v).vars j = fs.vars j := by
  unfold vars
  rw [getElem?_define_of_ne h]

theorem vars_define_self (h : i < fs.size) :
    (fs.define i name v).vars i = Assoc.insert name v (fs.vars i) := by
  unfold vars
  rw [getElem?_define, if_pos rfl, Array.getElem?_eq_getElem h]
  rfl

theorem get?_define_self (h : i < fs.size) (other : String) :
    (fs.define i name v).get? i other = if other = name then some v else fs.get? i other := by
  rw [get?, vars_define_self h, Assoc.get?_insert, get?]

/-- Defining a name adds it to the names of the frame, unless it is there. -/
theorem names_vars_define (fs : Frames) (i j : FrameId) (name : String) (v : Value) :
    Assoc.names (fs.vars j) <+: Assoc.names ((fs.define i name v).vars j) := by
  by_cases hij : i = j
  · subst hij
    by_cases hi : i < fs.size
    · rw [vars_define_self hi]
      exact Assoc.names_prefix_insert _ _ _
    · rw [vars_of_size_le (Nat.le_of_not_lt hi)]
      exact List.nil_prefix
  · simp only [vars_define_of_ne hij, List.prefix_refl]

/-- What a frame binds after a definition is the new value or was bound before. -/
theorem mem_vars_define {b : String × Value} (h : b ∈ (fs.define i name v).vars j) :
    (i = j ∧ b = (name, v)) ∨ b ∈ fs.vars j := by
  by_cases hij : i = j
  · subst hij
    by_cases hi : i < fs.size
    · rw [vars_define_self hi] at h
      exact (Assoc.mem_insert h).imp_left fun h => ⟨rfl, h⟩
    · have hnone : fs.all[i]? = none := Array.getElem?_eq_none (Nat.le_of_not_lt hi)
      rw [vars, getElem?_define, if_pos rfl, hnone] at h
      cases h
  · rw [vars_define_of_ne hij] at h
    exact .inr h

/-! ### Defining several names -/

@[simp] theorem size_defineAll (i : FrameId) : ∀ (bindings : Bindings) (fs : Frames),
    (fs.defineAll i bindings).size = fs.size
  | [], _ => rfl
  | b :: bindings, fs => (size_defineAll i bindings (fs.define i b.1 b.2)).trans (size_define ..)

theorem getElem?_defineAll_of_ne (hij : i ≠ j) : ∀ (bindings : Bindings) (fs : Frames),
    (fs.defineAll i bindings).all[j]? = fs.all[j]?
  | [], _ => rfl
  | b :: bindings, fs =>
    (getElem?_defineAll_of_ne hij bindings (fs.define i b.1 b.2)).trans (getElem?_define_of_ne hij)

@[simp] theorem enclosing_defineAll (i j : FrameId) : ∀ (bindings : Bindings) (fs : Frames),
    (fs.defineAll i bindings).enclosing j = fs.enclosing j
  | [], _ => rfl
  | b :: bindings, fs =>
    (enclosing_defineAll i j bindings (fs.define i b.1 b.2)).trans (enclosing_define ..)

/-- Names that are new to a frame are bound behind the others, in order. -/
theorem vars_defineAll_self (hi : i < fs.size) (hnames : (Assoc.names (fs.vars i ++ bindings)).Nodup) :
    (fs.defineAll i bindings).vars i = fs.vars i ++ bindings := by
  induction bindings generalizing fs with
  | nil => exact (List.append_nil _).symm
  | cons b bindings ih =>
    have hnew : b.1 ∉ Assoc.names (fs.vars i) := fun hmem => by
      rw [Assoc.names, List.map_append, List.nodup_append] at hnames
      exact hnames.2.2 _ hmem _ (List.mem_map_of_mem List.mem_cons_self) rfl
    have hvars : (fs.define i b.1 b.2).vars i = fs.vars i ++ [b] := by
      rw [vars_define_self hi, Assoc.insert_of_notMem hnew]
    have happend : fs.vars i ++ b :: bindings = (fs.define i b.1 b.2).vars i ++ bindings := by
      rw [hvars, List.append_assoc, List.singleton_append]
    rw [happend] at hnames ⊢
    exact ih (by rwa [size_define]) hnames

/-! ### Looking up and assigning -/

theorem exists_of_lookup? (h : fs.lookup? i name = some v) :
    ∃ j ∈ fs.chain i, (name, v) ∈ fs.vars j := by
  obtain ⟨j, hj, hv⟩ := List.exists_of_findSome?_eq_some h
  exact ⟨j, hj, Assoc.mem_of_get? hv⟩

theorem exists_of_assign? (h : fs.assign? i name v = some fs') :
    ∃ j ∈ fs.chain i, fs' = fs.define j name v := by
  obtain ⟨j, hj, rfl⟩ := Option.map_eq_some_iff.1 h
  exact ⟨j, List.mem_of_find?_eq_some hj, rfl⟩

/-- Assigning changes no frame's names. -/
theorem names_vars_assign? (h : fs.assign? i name v = some fs') (j : FrameId) :
    Assoc.names (fs'.vars j) = Assoc.names (fs.vars j) := by
  obtain ⟨k, hk, rfl⟩ := Option.map_eq_some_iff.1 h
  by_cases hkj : k = j
  · subst hkj
    have hbound : (fs.get? k name).isSome = true :=
      List.find?_some (p := fun j => (fs.get? j name).isSome) hk
    have hname : name ∈ Assoc.names (fs.vars k) := Assoc.mem_names_of_get? hbound
    by_cases hsize : k < fs.size
    · rw [vars_define_self hsize, Assoc.names_insert, if_pos hname]
    · rw [vars_of_size_le (Nat.le_of_not_lt hsize)] at hname
      cases hname
  · rw [vars_define_of_ne hkj]

/-! ### Adding a frame -/

@[simp] theorem size_addChild (fs : Frames) (i : FrameId) : (fs.addChild i).size = fs.size + 1 := by
  rw [addChild, size, Array.size_push, size]

theorem getElem?_addChild (fs : Frames) (i j : FrameId) :
    (fs.addChild i).all[j]? = if j = fs.size then some ⟨[], fs.chain i⟩ else fs.all[j]? := by
  rw [addChild, Array.getElem?_push]
  rfl

theorem enclosing_addChild (fs : Frames) (i j : FrameId) :
    (fs.addChild i).enclosing j = if j = fs.size then fs.chain i else fs.enclosing j := by
  unfold enclosing
  rw [getElem?_addChild]
  split_ifs <;> rfl

/-- The chain of a frame that is there stays the same when a frame is added. -/
theorem chain_addChild (h : j < fs.size) (i : FrameId) :
    (fs.addChild i).chain j = fs.chain j := by
  rw [chain, enclosing_addChild, if_neg (Nat.ne_of_lt h), chain]

theorem vars_addChild (fs : Frames) (i j : FrameId) :
    (fs.addChild i).vars j = if j = fs.size then [] else fs.vars j := by
  unfold vars
  rw [getElem?_addChild]
  split_ifs <;> rfl

/-! ### What frames bind -/

/-- Every value that a frame binds has the property. -/
def Binds (P : Value → Prop) (fs : Frames) : Prop := ∀ i, ∀ b ∈ fs.vars i, P b.2

namespace Binds

variable {P : Value → Prop}

theorem lookup? (h : fs.Binds P) (hv : fs.lookup? i name = some v) : P v := by
  obtain ⟨k, -, hb⟩ := exists_of_lookup? hv
  exact h k _ hb

theorem define (h : fs.Binds P) (hv : P v) : (fs.define i name v).Binds P := by
  intro k b hb
  rcases mem_vars_define hb with ⟨-, rfl⟩ | hb
  · exact hv
  · exact h k b hb

theorem assign? (h : fs.Binds P) (hv : P v) (ha : fs.assign? i name v = some fs') :
    fs'.Binds P := by
  obtain ⟨j, -, rfl⟩ := exists_of_assign? ha
  exact h.define hv

theorem addChild (h : fs.Binds P) (i : FrameId) : (fs.addChild i).Binds P := by
  intro k b hb
  rw [vars_addChild] at hb
  split at hb
  · cases hb
  · exact h k b hb

end Binds

end Frames

end MiniLisp
