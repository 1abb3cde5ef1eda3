import MiniLisp.Proofs.Value.Induction

/-! # Functions in values

A function that is held in a value remembers a frame (`remembered`). Functions stand alone, in lists,
and in the bodies of functions where a host has put them there. What is read from a text is code: it
holds no functions at all (`isCode_ofDatum`). A value is plain if the bodies of its functions are code;
the frames of a plain value are the same with and without a look into bodies
(`remembered_of_isPlain`). -/

namespace MiniLisp.Value

mutual

/-- The frames that the functions in a value remember, with `deep` also those of functions in the
bodies of functions. -/
def remembered (deep : Bool) : Value → List FrameId
  | .atom _ => []
  | .list _ items => rememberedByAll deep items
  | .closure _ _ body frame _ => frame :: if deep then rememberedByAll deep body else []
  | .builtin .. => []
  | .foreign .. => []

/-- The frames that the functions in some values remember. -/
def rememberedByAll (deep : Bool) : List Value → List FrameId
  | [] => []
  | v :: vs => v.remembered deep ++ rememberedByAll deep vs

end

mutual

/-- Whether a value holds no functions, as everything that is read from a text. -/
def isCode : Value → Bool
  | .atom _ => true
  | .list _ items => areCode items
  | .closure .. => false
  | .builtin .. => false
  | .foreign .. => false

/-- Whether some values hold no functions. -/
def areCode : List Value → Bool
  | [] => true
  | v :: vs => v.isCode && areCode vs

end

mutual

/-- Whether the bodies of the functions in a value hold no functions. -/
def isPlain : Value → Bool
  | .atom _ => true
  | .list _ items => arePlain items
  | .closure _ _ body _ _ => areCode body
  | .builtin .. => true
  | .foreign .. => true

/-- Whether the bodies of the functions in some values hold no functions. -/
def arePlain : List Value → Bool
  | [] => true
  | v :: vs => v.isPlain && arePlain vs

end

theorem mem_rememberedByAll {deep : Bool} {i : FrameId} :
    ∀ {vs : List Value}, i ∈ rememberedByAll deep vs ↔ ∃ v ∈ vs, i ∈ v.remembered deep
  | [] => by simp [rememberedByAll]
  | v :: vs => by
    rw [rememberedByAll, List.mem_append, mem_rememberedByAll]
    simp

theorem forall_remembered_list {deep : Bool} {S : FrameId → Prop} {id : ObjectId}
    {items : List Value} : (∀ i ∈ (list id items).remembered deep, S i) ↔
      ∀ v ∈ items, ∀ i ∈ v.remembered deep, S i := by
  simp only [remembered, mem_rememberedByAll]
  refine ⟨fun h v hv i hi => h i ⟨v, hv, hi⟩, ?_⟩
  rintro h i ⟨v, hv, hi⟩
  exact h v hv i hi

theorem forall_remembered_closure {S : FrameId → Prop} {id : ObjectId} {formals : List String}
    {body : List Value} {f : FrameId} {name : String} :
    (∀ i ∈ (closure id formals body f name).remembered true, S i) ↔
      S f ∧ ∀ v ∈ body, ∀ i ∈ v.remembered true, S i := by
  simp only [remembered, if_true, List.forall_mem_cons]
  exact and_congr_right fun _ => @forall_remembered_list true S id body

theorem areCode_iff : ∀ {vs : List Value}, areCode vs = true ↔ ∀ v ∈ vs, v.isCode = true
  | [] => by simp [areCode]
  | v :: vs => by rw [areCode, Bool.and_eq_true, areCode_iff, List.forall_mem_cons]

theorem arePlain_iff : ∀ {vs : List Value}, arePlain vs = true ↔ ∀ v ∈ vs, v.isPlain = true
  | [] => by simp [arePlain]
  | v :: vs => by rw [arePlain, Bool.and_eq_true, arePlain_iff, List.forall_mem_cons]

theorem rememberedByAll_congr {deep deep' : Bool} : ∀ {vs : List Value},
    (∀ v ∈ vs, v.remembered deep = v.remembered deep') →
      rememberedByAll deep vs = rememberedByAll deep' vs
  | [], _ => rfl
  | v :: vs, h => by
    rw [List.forall_mem_cons] at h
    rw [rememberedByAll, rememberedByAll, h.1, rememberedByAll_congr h.2]

theorem rememberedByAll_eq_nil {deep : Bool} {vs : List Value}
    (h : ∀ v ∈ vs, v.remembered deep = []) : rememberedByAll deep vs = [] := by
  refine List.eq_nil_iff_forall_not_mem.2 fun i hi => ?_
  obtain ⟨v, hv, hiv⟩ := mem_rememberedByAll.1 hi
  rw [h v hv] at hiv
  cases hiv

theorem remembered_of_isCode (deep : Bool) {v : Value} :
    v.isCode = true → v.remembered deep = [] := by
  induction v using Value.induction with
  | list id items ih =>
    exact fun h => rememberedByAll_eq_nil fun v hv => ih v hv (areCode_iff.1 h v hv)
  | closure => exact nofun
  | _ => exact fun _ => rfl

theorem rememberedByAll_of_areCode (deep : Bool) {vs : List Value} (h : areCode vs = true) :
    rememberedByAll deep vs = [] :=
  rememberedByAll_eq_nil fun v hv => remembered_of_isCode deep (areCode_iff.1 h v hv)

theorem isPlain_of_isCode {v : Value} : v.isCode = true → v.isPlain = true := by
  induction v using Value.induction with
  | list id items ih =>
    exact fun h => arePlain_iff.2 fun v hv => ih v hv (areCode_iff.1 h v hv)
  | closure => exact nofun
  | _ => exact fun _ => rfl

/-- Where bodies hold no functions, the two depths remember the same. -/
theorem remembered_of_isPlain {v : Value} :
    v.isPlain = true → v.remembered true = v.remembered false := by
  induction v using Value.induction with
  | list id items ih =>
    exact fun h => rememberedByAll_congr fun v hv => ih v hv (arePlain_iff.1 h v hv)
  | closure id formals body frame name =>
    intro h
    rw [isPlain] at h
    simp only [remembered, if_true]
    rw [rememberedByAll_of_areCode true h]
    rfl
  | _ => exact fun _ => rfl

mutual

/-- What is read from a text holds no functions. -/
theorem isCode_ofDatum (next : ObjectId) : ∀ d : Datum, (ofDatum next d).1.isCode = true
  | .atom _ => rfl
  | .list items => areCode_ofData (next + 1) items

theorem areCode_ofData (next : ObjectId) : ∀ ds : List Datum, areCode (ofData next ds).1 = true
  | [] => rfl
  | d :: ds => by
    rw [ofData, areCode, isCode_ofDatum next d, areCode_ofData _ ds]
    rfl

end

end MiniLisp.Value
