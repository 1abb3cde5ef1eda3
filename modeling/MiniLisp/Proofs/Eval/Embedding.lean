import MiniLisp.Proofs.Eval.Freshness
import MiniLisp.Proofs.Eval.Names

/-! # Stores inside stores

A store `s` is embedded in a store `t` if `t` has the frames of `s` under other numbers, with objects of
other identities in them, and besides them any frames of its own (`Store.Embeds`). A store of which all
that is in it was made in it (`Store.Sound`) stays embedded when `t` gains frames and objects
(`Embeds.grow`), and what a call does in `s` it does in `t`, without touching the frames of its own that
`t` has (`Embeds.apply`). So calls that are made one after the other in `s` can be followed in a store
where other things happen in between. -/

namespace MiniLisp

open Run

/-! ### Values of a store -/

/-- **The value is one of the store**: its objects were made, and the frames that its functions remember
are there. -/
def Store.Holds (s : Store) (v : Value) : Prop :=
  v.IdsBelow s.nextId ∧ ∀ i ∈ v.remembered true, i < s.frames.size

/-- **All that is in the store was made in it.** -/
structure Store.Sound (s : Store) : Prop where
  fresh : s.Fresh
  grounded : s.frames.Grounded

theorem Store.Holds.mono {s s' : Store} {v : Value} (h : s.Holds v) (hid : s.nextId ≤ s'.nextId)
    (hsize : s.frames.size ≤ s'.frames.size) : s'.Holds v :=
  ⟨h.1.mono hid, fun i hi => Nat.lt_of_lt_of_le (h.2 i hi) hsize⟩

theorem Store.holds_list_iff {s : Store} {id : ObjectId} {items : List Value} :
    s.Holds (.list id items) ↔ id < s.nextId ∧ ∀ v ∈ items, s.Holds v := by
  rw [Holds, Value.IdsBelow, Value.allIdsBelow_iff, Value.forall_remembered_list, and_assoc]
  refine and_congr_right fun _ => ?_
  exact ⟨fun h v hv => ⟨h.1 v hv, h.2 v hv⟩, fun h => ⟨fun v hv => (h v hv).1, fun v hv => (h v hv).2⟩⟩

/-- What a frame of a sound store binds is of the store. -/
theorem Store.Sound.holds_of_mem {s : Store} (hs : s.Sound) {i : FrameId} {b : String × Value}
    (hb : b ∈ s.frames.vars i) : s.Holds b.2 :=
  ⟨hs.fresh i b hb, hs.grounded.remembered i b hb⟩

/-- The frames around a frame of a sound store are there. -/
theorem Frames.Grounded.lt_of_mem_enclosing {fs : Frames} (h : fs.Grounded) {i j : FrameId}
    (hi : i < fs.size) (hj : j ∈ fs.enclosing i) : j < fs.size :=
  Nat.lt_trans ((List.pairwise_cons.1 (h.pairwise_chain i hi)).1 j hj) hi

/-- Relabellings that agree on what is in a value give the same value. -/
theorem Value.relabel_congr {f g : Relabelling} {m : ObjectId} {n : FrameId}
    (hobject : ∀ i < m, f.object i = g.object i) (hframe : ∀ i < n, f.frame i = g.frame i)
    (v : Value) : v.IdsBelow m → (∀ i ∈ v.remembered true, i < n) → v.relabel f = v.relabel g := by
  have hall : ∀ {vs : List Value}, (∀ v ∈ vs, v.IdsBelow m → (∀ i ∈ v.remembered true, i < n) →
      v.relabel f = v.relabel g) → AllIdsBelow m vs →
        (∀ v ∈ vs, ∀ i ∈ v.remembered true, i < n) → vs.map (relabel f) = vs.map (relabel g) := by
    intro vs ih hids hframes
    exact List.map_congr_left fun v hv => ih v hv (allIdsBelow_iff.1 hids v hv) (hframes v hv)
  induction v using Value.induction with
  | atom a => exact fun _ _ => rfl
  | list id items ih =>
    intro hids hframes
    rw [relabel_list, relabel_list, hobject id hids.1,
      hall ih hids.2 (forall_remembered_list.1 hframes)]
  | closure id formals body frame name ih =>
    intro hids hframes
    obtain ⟨hhere, hbody⟩ := forall_remembered_closure.1 hframes
    rw [relabel_closure, relabel_closure, hobject id hids.1, hframe frame hhere,
      hall ih hids.2 hbody]
  | builtin id b =>
    intro hid _
    rw [relabel_builtin, relabel_builtin, hobject id hid]
  | foreign id type text =>
    intro hid _
    rw [relabel_foreign, relabel_foreign, hobject id hid]

/-! ### Embedding -/

/-- **The store `t` has the frames of the store `s`**, under other numbers and with other objects in them,
and frames of its own. -/
structure Store.Embeds (f : Relabelling) (s t : Store) : Prop where
  object_lt : ∀ i < s.nextId, f.object i < t.nextId
  object_injective : ∀ i < s.nextId, ∀ j < s.nextId, f.object i = f.object j → i = j
  frame_lt : ∀ i < s.frames.size, f.frame i < t.frames.size
  frame_injective : ∀ i < s.frames.size, ∀ j < s.frames.size, f.frame i = f.frame j → i = j
  vars : ∀ i < s.frames.size, t.frames.vars (f.frame i) = (s.frames.vars i).relabel f
  enclosing : ∀ i < s.frames.size, t.frames.enclosing (f.frame i) = (s.frames.enclosing i).map f.frame
  output : t.output = s.output
  trace : t.trace = s.trace
  depth : t.depth = s.depth
  clock : t.clock = s.clock

/-- The store `t'` is the store `t` with further frames, after further objects were made. -/
structure Store.Grows (t t' : Store) : Prop where
  nextId_le : t.nextId ≤ t'.nextId
  size_le : t.frames.size ≤ t'.frames.size
  frames : ∀ i < t.frames.size, t'.frames.all[i]? = t.frames.all[i]?
  output : t'.output = t.output
  trace : t'.trace = t.trace
  depth : t'.depth = t.depth
  clock : t'.clock = t.clock

/-- The relabellings agree on what there is in the store. -/
structure Relabelling.AgreesOn (s : Store) (f g : Relabelling) : Prop where
  object : ∀ i < s.nextId, g.object i = f.object i
  frame : ∀ i < s.frames.size, g.frame i = f.frame i

theorem Relabelling.AgreesOn.refl (f : Relabelling) (s : Store) : f.AgreesOn s f :=
  ⟨fun _ _ => rfl, fun _ _ => rfl⟩

theorem Relabelling.AgreesOn.value {s : Store} {f g : Relabelling} (h : f.AgreesOn s g) {v : Value}
    (hv : s.Holds v) : v.relabel g = v.relabel f :=
  Value.relabel_congr h.object h.frame v hv.1 hv.2

theorem Relabelling.AgreesOn.values {s : Store} {f g : Relabelling} (h : f.AgreesOn s g)
    {vs : List Value} (hvs : ∀ v ∈ vs, s.Holds v) :
    vs.map (Value.relabel g) = vs.map (Value.relabel f) :=
  List.map_congr_left fun v hv => h.value (hvs v hv)

/-- **The relabelling `g` of a later store `s'` goes on from the relabelling `f`** of the store `s`. -/
structure Relabelling.Continues (f : Relabelling) (s : Store) (g : Relabelling) (s' : Store) :
    Prop where
  agrees : f.AgreesOn s g
  nextId_le : s.nextId ≤ s'.nextId
  size_le : s.frames.size ≤ s'.frames.size

theorem Relabelling.Continues.holds {s s' : Store} {f g : Relabelling} {v : Value}
    (h : f.Continues s g s') (hv : s.Holds v) : s'.Holds v := hv.mono h.nextId_le h.size_le

theorem Relabelling.Continues.agreesOn {s s' : Store} {f g k : Relabelling}
    (h : f.Continues s g s') (hk : g.AgreesOn s' k) : f.AgreesOn s k where
  object i hi := (hk.object i (Nat.lt_of_lt_of_le hi h.nextId_le)).trans (h.agrees.object i hi)
  frame i hi := (hk.frame i (Nat.lt_of_lt_of_le hi h.size_le)).trans (h.agrees.frame i hi)

namespace Store.Embeds

variable {f : Relabelling} {s t t' : Store}

/-- Nothing happens to the embedded store when the store around it grows. -/
theorem grow (h : s.Embeds f t) (hgrows : t.Grows t') : s.Embeds f t' where
  object_lt i hi := Nat.lt_of_lt_of_le (h.object_lt i hi) hgrows.nextId_le
  object_injective := h.object_injective
  frame_lt i hi := Nat.lt_of_lt_of_le (h.frame_lt i hi) hgrows.size_le
  frame_injective := h.frame_injective
  vars i hi := by
    rw [← h.vars i hi, Frames.vars, hgrows.frames _ (h.frame_lt i hi), Frames.vars]
  enclosing i hi := by
    rw [← h.enclosing i hi, Frames.enclosing, hgrows.frames _ (h.frame_lt i hi), Frames.enclosing]
  output := hgrows.output.trans h.output
  trace := hgrows.trace.trans h.trace
  depth := hgrows.depth.trans h.depth
  clock := hgrows.clock.trans h.clock

end Store.Embeds

/-- The store is embedded in itself. -/
theorem Store.embeds_self (s : Store) : s.Embeds (.objects fun i => i) s where
  object_lt _ hi := hi
  object_injective _ _ _ _ h := h
  frame_lt _ hi := hi
  frame_injective _ _ _ _ h := h
  vars i _ := by
    have hself : ∀ b : String × Value, (b.1, b.2.relabel (.objects fun i => i)) = b := fun b => by
      rw [Value.relabel_identity]
    rw [Bindings.relabel, List.map_congr_left fun b _ => hself b, List.map_id']
    rfl
  enclosing i _ := (List.map_id _).symm
  output := rfl
  trace := rfl
  depth := rfl
  clock := rfl

/-! ### Renaming along an embedding -/

/-- The map `f` below `n`, and from there on the numbers from `m` on in order. -/
def glue (n m : Nat) (f : Nat → Nat) (i : Nat) : Nat := if i < n then f i else i - n + m

section Glue

variable {n m : Nat} {f : Nat → Nat}

theorem glue_of_lt {i : Nat} (hi : i < n) : glue n m f i = f i := if_pos hi

theorem glue_of_le {i : Nat} (hi : n ≤ i) : glue n m f i = i - n + m := if_neg (Nat.not_lt.2 hi)

theorem le_glue {i : Nat} (hi : n ≤ i) : m ≤ glue n m f i := by
  rw [glue_of_le hi]
  exact Nat.le_add_left m _

theorem glue_add (k : Nat) : glue n m f (n + k) = m + k := by
  rw [glue_of_le (Nat.le_add_right n k), Nat.add_sub_cancel_left, Nat.add_comm]

theorem succ_sub_add {i : Nat} (hi : n ≤ i) : i + 1 - n + m = i - n + m + 1 := by
  omega

theorem glue_lt (hlt : ∀ i < n, f i < m) {i k : Nat} (hi : i < k) (hk : n ≤ k) :
    glue n m f i < k - n + m := by
  unfold glue
  split
  · next h =>
    have := hlt i h
    omega
  · omega

theorem glue_injective (hlt : ∀ i < n, f i < m) (hinj : ∀ i < n, ∀ j < n, f i = f j → i = j)
    {i j : Nat} (h : glue n m f i = glue n m f j) : i = j := by
  unfold glue at h
  split at h <;> split at h
  · next hi hj => exact hinj i hi j hj h
  · next hi hj =>
    have := hlt i hi
    omega
  · next hi hj =>
    have := hlt j hj
    omega
  · omega

end Glue

namespace Store.Embeds

variable {f : Relabelling} {s t : Store}

/-- What is made from now on follows in order what was made so far. -/
def toRenaming (h : s.Embeds f t) (stop : ObjectId) : Renaming where
  map := ⟨glue s.nextId t.nextId f.object, glue s.frames.size t.frames.size f.frame⟩
  next i := i - s.nextId + t.nextId
  start := s.nextId
  stop := stop
  others j := t.frames.all[j]?
  object_injective := glue_injective h.object_lt h.object_injective
  frame_injective := glue_injective h.frame_lt h.frame_injective
  object_eq hi _ := glue_of_le hi
  next_succ hi _ := succ_sub_add hi

variable (h : s.Embeds f t) (stop : ObjectId)

theorem agreesOn_toRenaming : f.AgreesOn s (h.toRenaming stop).map :=
  ⟨fun _ hi => glue_of_lt hi, fun _ hi => glue_of_lt hi⟩

/-- **The store around is the embedded one, renamed**, and its own frames. -/
theorem renamed (hs : s.Sound) : s.Renamed (h.toRenaming stop) t := by
  have hframe : ∀ {i}, i < s.frames.size → (h.toRenaming stop).map.frame i = f.frame i :=
    fun hi => glue_of_lt hi
  have hout : ∀ {i}, s.frames.size ≤ i → t.frames.size ≤ (h.toRenaming stop).map.frame i :=
    fun hi => le_glue hi
  have hnext : t.nextId = s.nextId - s.nextId + t.nextId := by rw [Nat.sub_self, Nat.zero_add]
  refine ⟨⟨fun i => ?_, fun i => ?_, fun k => glue_add k, fun j _ => rfl⟩, hnext, h.output, h.trace,
    h.depth, h.clock⟩
  · by_cases hi : i < s.frames.size
    · rw [hframe hi, h.vars i hi]
      refine List.map_congr_left fun b hb => ?_
      rw [(h.agreesOn_toRenaming stop).value (hs.holds_of_mem hb)]
    · have hle := Nat.le_of_not_lt hi
      rw [Frames.vars_of_size_le hle, Frames.vars_of_size_le (hout hle)]
      rfl
  · by_cases hi : i < s.frames.size
    · rw [hframe hi, h.enclosing i hi]
      refine List.map_congr_left fun j hj => ?_
      exact (hframe (hs.grounded.lt_of_mem_enclosing hi hj)).symm
    · have hle := Nat.le_of_not_lt hi
      rw [Frames.enclosing_of_size_le hle, Frames.enclosing_of_size_le (hout hle)]
      rfl

variable {h stop} in
/-- What has been renamed along the embedding is embedded. -/
theorem embeds_of_renamed {s' t' : Store} (hle : s.nextId ≤ s'.nextId)
    (ht : s'.Renamed (h.toRenaming stop) t') : s'.Embeds (h.toRenaming stop).map t' where
  object_lt i hi := by
    have hlt : (h.toRenaming stop).map.object i < s'.nextId - s.nextId + t.nextId :=
      glue_lt h.object_lt hi hle
    rw [ht.nextId]
    exact hlt
  object_injective _ _ _ _ heq := (h.toRenaming stop).object_injective heq
  frame_lt i hi := (ht.frames.frame_lt_iff i).2 hi
  frame_injective _ _ _ _ heq := (h.toRenaming stop).frame_injective heq
  vars i _ := ht.frames.vars i
  enclosing i _ := ht.frames.enclosing i
  output := ht.output
  trace := ht.trace
  depth := ht.depth
  clock := ht.clock

variable {h stop} in
/-- The frames of its own are left alone. -/
theorem getElem?_of_renamed {s' t' : Store} (ht : s'.Renamed (h.toRenaming stop) t') {j : FrameId}
    (hj : j < t.frames.size) (hown : ∀ i < s.frames.size, f.frame i ≠ j) :
    t'.frames.all[j]? = t.frames.all[j]? := by
  refine ht.frames.others j fun i heq => ?_
  by_cases hi : i < s.frames.size
  · exact hown i hi ((glue_of_lt hi).symm.trans heq)
  · have hle : t.frames.size ≤ (h.toRenaming stop).map.frame i := le_glue (Nat.le_of_not_lt hi)
    rw [heq] at hle
    exact Nat.not_lt.2 hle hj

end Store.Embeds

/-! ### Calls -/

section Calls

variable {tracing : Bool} {fuel : Nat} {p v : Value} {args : List Value} {f : Relabelling}
  {s s' t : Store} {e : Failure}

/-- **A call of values of a sound store** ends in a sound store, with a value of it. -/
theorem Store.Sound.apply (hs : s.Sound) (hp : s.Holds p) (hargs : ∀ v ∈ args, s.Holds v)
    (hx : MiniLisp.apply (evaluate tracing fuel) p args s = .ok v s') :
    s'.Sound ∧ s'.Holds v ∧ s.nextId ≤ s'.nextId ∧ s.frames.size ≤ s'.frames.size := by
  have hfresh := fresh_apply tracing fuel hs.fresh hp.1 fun v hv => (hargs v hv).1
  have hgrown := Invariant.apply ((grounding s.frames).evaluate tracing fuel) hp.2
    (fun v hv => (hargs v hv).2) s (Grown.refl hs.grounded) (Nat.le_refl _)
  rw [hx] at hfresh hgrown
  obtain ⟨hnext, hfresh', hbelow⟩ := hfresh
  obtain ⟨hgrown', hsize, hframes⟩ := hgrown
  exact ⟨⟨hfresh', hgrown'.toGrounded⟩, ⟨hbelow, hframes⟩, hnext, hsize⟩

/-- **An evaluation in a frame of a sound store** ends in a sound store, with a value of it. -/
theorem Store.Sound.evaluate {form : Value} {env : FrameId} (hs : s.Sound)
    (henv : env < s.frames.size) (hform : s.Holds form)
    (hx : MiniLisp.evaluate tracing fuel form env s = .ok v s') :
    s'.Sound ∧ s'.Holds v ∧ s.nextId ≤ s'.nextId ∧ s.frames.size ≤ s'.frames.size := by
  have hfresh := fresh_evaluate tracing fuel env hs.fresh hform.1
  have hgrown := (grounding s.frames).evaluate tracing fuel s.frames.size form env hform.2 henv s
    (Grown.refl hs.grounded) (Nat.le_refl _)
  rw [hx] at hfresh hgrown
  obtain ⟨hnext, hfresh', hbelow⟩ := hfresh
  obtain ⟨hgrown', hsize, hframes⟩ := hgrown
  exact ⟨⟨hfresh', hgrown'.toGrounded⟩, ⟨hbelow, hframes⟩, hnext, hsize⟩

namespace Store.Embeds

/-- **A call in the embedded store is made in the store around it** with the same effect, and leaves the
frames that the store has of its own alone. -/
theorem apply (h : s.Embeds f t) (hs : s.Sound) (hp : s.Holds p) (hargs : ∀ v ∈ args, s.Holds v)
    (hx : MiniLisp.apply (evaluate tracing fuel) p args s = .ok v s') :
    ∃ g t', MiniLisp.apply (evaluate tracing fuel) (p.relabel f) (args.map (Value.relabel f)) t =
        .ok (v.relabel g) t' ∧ f.AgreesOn s g ∧ s'.Embeds g t' ∧
      ∀ j < t.frames.size, (∀ i < s.frames.size, f.frame i ≠ j) →
        t'.frames.all[j]? = t.frames.all[j]? := by
  have hagrees := h.agreesOn_toRenaming s'.nextId
  have hfollows := follows_apply (follows_evaluate (h.toRenaming s'.nextId) tracing fuel) p args s
    (Nat.le_refl _)
  rw [hx, hagrees.value hp, hagrees.values hargs] at hfollows
  obtain ⟨hle, hrun⟩ := hfollows
  obtain ⟨t', hrun', ht'⟩ := hrun (Nat.le_refl _) t (h.renamed s'.nextId hs)
  exact ⟨_, t', hrun', hagrees, embeds_of_renamed hle ht', fun j => getElem?_of_renamed ht'⟩

theorem apply_error (h : s.Embeds f t) (hs : s.Sound) (hp : s.Holds p)
    (hargs : ∀ v ∈ args, s.Holds v)
    (hx : MiniLisp.apply (evaluate tracing fuel) p args s = .error e s') :
    ∃ g t', MiniLisp.apply (evaluate tracing fuel) (p.relabel f) (args.map (Value.relabel f)) t =
        .error e t' ∧ f.AgreesOn s g ∧ s'.Embeds g t' := by
  have hagrees := h.agreesOn_toRenaming s'.nextId
  have hfollows := follows_apply (follows_evaluate (h.toRenaming s'.nextId) tracing fuel) p args s
    (Nat.le_refl _)
  rw [hx, hagrees.value hp, hagrees.values hargs] at hfollows
  obtain ⟨hle, hrun⟩ := hfollows
  obtain ⟨t', hrun', ht'⟩ := hrun trivial (Nat.le_refl _) t (h.renamed s'.nextId hs)
  exact ⟨_, t', hrun', hagrees, embeds_of_renamed hle ht'⟩

end Store.Embeds

end Calls

/-- **The store of an interpreter stays sound**, whatever texts it evaluates. -/
theorem Interpreter.sound_eval (it : Interpreter) (source : String) (h : it.store.Sound)
    (hsize : 0 < it.store.frames.size) :
    (it.eval source).2.store.Sound ∧ 0 < (it.eval source).2.store.frames.size := by
  have hfresh := fresh_eval it source h.fresh
  obtain ⟨hgrounded, hsize'⟩ := grounded_eval it source ⟨h.grounded, hsize⟩
  exact ⟨⟨hfresh, hgrounded⟩, hsize'⟩

end MiniLisp
