import MiniLisp.Proofs.Value.Induction
import MiniLisp.Value.Order
import MiniLisp.Value.Text

/-! # Renaming identities

Identities only tell objects apart, and numbers only tell frames apart. A `Relabelling` gives every object
another identity and every frame another number. What can be seen of a value, its type, its printed form
and how it compares, does not change when the value is relabelled (`type_relabel`, `print_relabel`,
`equal_relabel`, `less_relabel`). -/

namespace MiniLisp

/-- Other identities for objects and other numbers for frames. -/
structure Relabelling where
  object : ObjectId → ObjectId
  frame : FrameId → FrameId

/-- Other identities for objects; frames keep their numbers. -/
def Relabelling.objects (f : ObjectId → ObjectId) : Relabelling := ⟨f, fun i => i⟩

namespace Value

mutual

/-- A value with other identities. -/
def rename (f : ObjectId → ObjectId) : Value → Value
  | .atom a => .atom a
  | .list id items => .list (f id) (renameAll f items)
  | .closure id formals body frame name => .closure (f id) formals (renameAll f body) frame name
  | .builtin id b => .builtin (f id) b
  | .foreign id type text => .foreign (f id) type text

/-- Values with other identities. -/
def renameAll (f : ObjectId → ObjectId) : List Value → List Value
  | [] => []
  | v :: vs => v.rename f :: renameAll f vs

end

mutual

/-- A value with other identities that remembers other frames. -/
def relabel (f : Relabelling) : Value → Value
  | .atom a => .atom a
  | .list id items => .list (f.object id) (relabelAll f items)
  | .closure id formals body frame name =>
    .closure (f.object id) formals (relabelAll f body) (f.frame frame) name
  | .builtin id b => .builtin (f.object id) b
  | .foreign id type text => .foreign (f.object id) type text

/-- Values with other identities that remember other frames. -/
def relabelAll (f : Relabelling) : List Value → List Value
  | [] => []
  | v :: vs => v.relabel f :: relabelAll f vs

end

theorem renameAll_eq_relabelAll {f : ObjectId → ObjectId} : ∀ {vs : List Value},
    (∀ v ∈ vs, v.rename f = v.relabel (.objects f)) → renameAll f vs = relabelAll (.objects f) vs
  | [], _ => rfl
  | v :: vs, h => by
    rw [List.forall_mem_cons] at h
    rw [renameAll, relabelAll, h.1, renameAll_eq_relabelAll h.2]

/-- Renaming is relabelling that leaves the frames alone. -/
theorem rename_eq_relabel (f : ObjectId → ObjectId) (v : Value) :
    v.rename f = v.relabel (.objects f) := by
  induction v using Value.induction with
  | list id items ih => rw [rename, relabel, renameAll_eq_relabelAll ih]; rfl
  | closure id formals body frame name ih => rw [rename, relabel, renameAll_eq_relabelAll ih]; rfl
  | _ => rfl

variable (f : Relabelling)

@[simp] theorem relabelAll_eq_map : ∀ vs : List Value, relabelAll f vs = vs.map (relabel f)
  | [] => rfl
  | v :: vs => by rw [relabelAll, relabelAll_eq_map vs, List.map_cons]

@[simp] theorem relabel_atom (a : Atom) : (Value.atom a).relabel f = .atom a := rfl

@[simp] theorem relabel_list (id : ObjectId) (items : List Value) :
    (Value.list id items).relabel f = .list (f.object id) (items.map (relabel f)) := by
  rw [relabel, relabelAll_eq_map]

@[simp] theorem relabel_closure (id : ObjectId) (formals : List String) (body : List Value)
    (frame : FrameId) (name : String) : (Value.closure id formals body frame name).relabel f =
      .closure (f.object id) formals (body.map (relabel f)) (f.frame frame) name := by
  rw [relabel, relabelAll_eq_map]

@[simp] theorem relabel_builtin (id : ObjectId) (b : Builtin) :
    (Value.builtin id b).relabel f = .builtin (f.object id) b := rfl

@[simp] theorem relabel_foreign (id : ObjectId) (type text : String) :
    (Value.foreign id type text).relabel f = .foreign (f.object id) type text := rfl

/-! ### What can be seen of a value -/

@[simp] theorem symbolName?_relabel (v : Value) : (v.relabel f).symbolName? = v.symbolName? := by
  cases v <;> rfl

@[simp] theorem isTruthy_relabel (v : Value) : (v.relabel f).isTruthy = v.isTruthy := by
  cases v <;> rfl

@[simp] theorem isFunction_relabel (v : Value) : (v.relabel f).isFunction = v.isFunction := by
  cases v <;> rfl

@[simp] theorem isNumber_relabel (v : Value) : (v.relabel f).isNumber = v.isNumber := by
  cases v <;> rfl

@[simp] theorem isDecimal_relabel (v : Value) : (v.relabel f).isDecimal = v.isDecimal := by
  cases v <;> rfl

@[simp] theorem isList_relabel (v : Value) : (v.relabel f).isList = v.isList := by
  cases v <;> rfl

@[simp] theorem type_relabel (v : Value) : (v.relabel f).type = v.type := by
  cases v <;> rfl

theorem itemChars_map_relabel : ∀ {vs : List Value}, (∀ v ∈ vs, (v.relabel f).chars = v.chars) →
    itemChars (vs.map (relabel f)) = itemChars vs
  | [], _ => rfl
  | [v], h => h v List.mem_cons_self
  | v :: w :: vs, h => by
    rw [List.forall_mem_cons] at h
    change (v.relabel f).chars ++ ' ' :: itemChars ((w :: vs).map (relabel f)) =
      v.chars ++ ' ' :: itemChars (w :: vs)
    rw [h.1, itemChars_map_relabel h.2]

theorem chars_relabel (v : Value) : (v.relabel f).chars = v.chars := by
  induction v using Value.induction with
  | list id items ih => rw [relabel_list, chars, chars, itemChars_map_relabel f ih]
  | _ => rfl

theorem anyOverlong_map_relabel : ∀ {vs : List Value},
    (∀ v ∈ vs, (v.relabel f).isOverlong = v.isOverlong) →
      anyOverlong (vs.map (relabel f)) = anyOverlong vs
  | [], _ => rfl
  | v :: vs, h => by
    rw [List.forall_mem_cons] at h
    rw [List.map_cons, anyOverlong, anyOverlong, h.1, anyOverlong_map_relabel h.2]

theorem isOverlong_relabel (v : Value) : (v.relabel f).isOverlong = v.isOverlong := by
  induction v using Value.induction with
  | list id items ih => rw [relabel_list, isOverlong, isOverlong, anyOverlong_map_relabel f ih]
  | _ => rfl

/-- **Relabelling does not change the printed form.** -/
@[simp] theorem print_relabel (v : Value) : (v.relabel f).print = v.print := by
  rw [print, print, text, text, isOverlong_relabel, chars_relabel]

/-! ### Comparing -/

/-- **Relabelling does not change which values are equal.** -/
theorem equal_relabel {f : Relabelling} (hf : ∀ {i j}, f.object i = f.object j → i = j)
    (v w : Value) :
    (v.relabel f).equal (w.relabel f) = v.equal w := by
  have hid : ∀ i j, (some (f.object i) == some (f.object j)) = (some i == some j) := by
    intro i j
    rw [Bool.eq_iff_iff, beq_iff_eq, beq_iff_eq, Option.some.injEq, Option.some.injEq]
    exact ⟨hf, congrArg f.object⟩
  cases v <;> cases w <;> simp [equal, id?, hid]

/-- **Relabelling does not change how values are ordered.** -/
theorem less_relabel (v w : Value) : (v.relabel f).less (w.relabel f) = v.less w := by
  cases v with
  | atom a => cases w with
    | atom b => rfl
    | _ => cases a <;> rfl
  | _ => cases w with
    | atom b => cases b <;> rfl
    | _ => rfl

/-! ### Identities below a bound -/

mutual

/-- All identities in the value are below `n`. -/
def IdsBelow (n : ObjectId) : Value → Prop
  | .atom _ => True
  | .list id items => id < n ∧ AllIdsBelow n items
  | .closure id _ body _ _ => id < n ∧ AllIdsBelow n body
  | .builtin id _ => id < n
  | .foreign id .. => id < n

/-- All identities in the values are below `n`. -/
def AllIdsBelow (n : ObjectId) : List Value → Prop
  | [] => True
  | v :: vs => v.IdsBelow n ∧ AllIdsBelow n vs

end

theorem allIdsBelow_iff {n : ObjectId} : ∀ {vs : List Value},
    AllIdsBelow n vs ↔ ∀ v ∈ vs, v.IdsBelow n
  | [] => iff_of_true trivial fun _ h => nomatch h
  | v :: vs => by rw [AllIdsBelow, List.forall_mem_cons, allIdsBelow_iff]

theorem map_relabel_eq_self_iff {f : Relabelling} : ∀ {vs : List Value},
    vs.map (relabel f) = vs ↔ ∀ v ∈ vs, v.relabel f = v
  | [] => iff_of_true rfl fun _ h => nomatch h
  | v :: vs => by
    rw [List.map_cons, List.cons.injEq, List.forall_mem_cons, map_relabel_eq_self_iff]

/-- A relabelling that moves only the identities from `n` on leaves a value alone if it has none. -/
theorem relabel_eq_self_iff {f : ObjectId → ObjectId} {n : ObjectId} (hf : ∀ i, f i = i ↔ i < n)
    (v : Value) : v.relabel (.objects f) = v ↔ v.IdsBelow n := by
  have hobject : ∀ i, (Relabelling.objects f).object i = i ↔ i < n := hf
  have hframe : ∀ i, (Relabelling.objects f).frame i = i := fun _ => rfl
  have hall : ∀ {vs : List Value}, (∀ v ∈ vs, v.relabel (.objects f) = v ↔ v.IdsBelow n) →
      (vs.map (relabel (.objects f)) = vs ↔ AllIdsBelow n vs) := by
    intro vs h
    rw [map_relabel_eq_self_iff, allIdsBelow_iff]
    exact forall₂_congr h
  induction v using Value.induction with
  | atom a => exact iff_of_true rfl trivial
  | list id items ih => rw [relabel_list, list.injEq, hobject, hall ih, IdsBelow]
  | closure id formals body frame name ih =>
    rw [relabel_closure, closure.injEq, hobject, hall ih, hframe, IdsBelow]
    simp only [true_and, and_true]
  | builtin id b =>
    rw [relabel_builtin, builtin.injEq, hobject, IdsBelow]
    exact and_iff_left rfl
  | foreign id type text =>
    rw [relabel_foreign, foreign.injEq, hobject, IdsBelow]
    exact and_iff_left ⟨rfl, rfl⟩

theorem AllIdsBelow.mono_of_forall {m n : ObjectId} {vs : List Value}
    (h : ∀ v ∈ vs, v.IdsBelow m → v.IdsBelow n) (hvs : AllIdsBelow m vs) : AllIdsBelow n vs :=
  allIdsBelow_iff.2 fun v hv => h v hv (allIdsBelow_iff.1 hvs v hv)

theorem IdsBelow.mono {m n : ObjectId} (h : m ≤ n) {v : Value} : v.IdsBelow m → v.IdsBelow n := by
  induction v using Value.induction with
  | atom a => exact id
  | list id items ih =>
    exact fun hv => ⟨Nat.lt_of_lt_of_le hv.1 h, AllIdsBelow.mono_of_forall ih hv.2⟩
  | closure id formals body frame name ih =>
    exact fun hv => ⟨Nat.lt_of_lt_of_le hv.1 h, AllIdsBelow.mono_of_forall ih hv.2⟩
  | builtin id b => exact fun hv => Nat.lt_of_lt_of_le hv h
  | foreign id type text => exact fun hv => Nat.lt_of_lt_of_le hv h

theorem relabel_identity (v : Value) : v.relabel (.objects fun i => i) = v := by
  induction v using Value.induction with
  | list id items ih => rw [relabel_list, map_relabel_eq_self_iff.2 ih]; rfl
  | closure id formals body frame name ih => rw [relabel_closure, map_relabel_eq_self_iff.2 ih]; rfl
  | _ => rfl

end Value

end MiniLisp
