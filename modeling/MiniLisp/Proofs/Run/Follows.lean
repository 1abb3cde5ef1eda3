import MiniLisp.Eval.Run
import MiniLisp.Proofs.Frames.Renaming

/-! # Runs that follow other runs

A store is another one renamed if its frames are (`Store.Renamed`). A run follows another one if it does on
a renamed store what the other does on the store, with a renamed result. `Follows ρ E φ r r'` says that
`r'` follows `r`, where `ρ` renames the store, `φ` renames results, and failures count only as far as `E`
holds of them; it says so as long as the objects made stay within the bounds of the renaming. Runs that
are put together in the same way of runs that follow each other follow each other (`Follows.bind`). -/

namespace MiniLisp

/-- **The store `t` is the store `s`, renamed**, and other frames. -/
structure Store.Renamed (ρ : Renaming) (s t : Store) : Prop where
  frames : Frames.Renamed ρ s.frames t.frames
  nextId : t.nextId = ρ.next s.nextId
  output : t.output = s.output
  trace : t.trace = s.trace
  depth : t.depth = s.depth
  clock : t.clock = s.clock

namespace Run

variable {α β : Type} {ρ : Renaming} {E : Failure → Prop} {φ : α → α}

/-- **The run `r'` follows the run `r`.** -/
def Follows (ρ : Renaming) (E : Failure → Prop) (φ : α → α) (r r' : Run α) : Prop :=
  ∀ s, ρ.start ≤ s.nextId →
    match r s with
    | .ok a s' => s.nextId ≤ s'.nextId ∧
        (s'.nextId ≤ ρ.stop → ∀ t, s.Renamed ρ t → ∃ t', r' t = .ok (φ a) t' ∧ s'.Renamed ρ t')
    | .error e s' => s.nextId ≤ s'.nextId ∧
        (E e → s'.nextId ≤ ρ.stop →
          ∀ t, s.Renamed ρ t → ∃ t', r' t = .error e t' ∧ s'.Renamed ρ t')

/-! ### Putting runs together -/

theorem follows_pure {a a' : α} (h : φ a = a') : Follows ρ E φ (pure a : Run α) (pure a') :=
  fun _ _ => ⟨Nat.le_refl _, fun _ t ht => ⟨t, by rw [h]; rfl, ht⟩⟩

theorem follows_throw (e : Failure) : Follows ρ E φ (throw e : Run α) (throw e) :=
  fun _ _ => ⟨Nat.le_refl _, fun _ _ t ht => ⟨t, rfl, ht⟩⟩

/-- Nothing is claimed about a failure that does not count. -/
theorem follows_throw_of_not {e : Failure} (h : ¬ E e) (r' : Run α) :
    Follows ρ E φ (throw e : Run α) r' :=
  fun _ _ => ⟨Nat.le_refl _, fun he => absurd he h⟩

theorem bind_apply (r : Run α) (f : α → Run β) (s : Store) : (r >>= f) s =
    match r s with
    | .ok a s' => f a s'
    | .error e s' => .error e s' := by
  change EStateM.bind r f s = _
  unfold EStateM.bind
  cases r s <;> rfl

theorem Follows.bind {ψ : β → β} {r r' : Run α} {f f' : α → Run β} (hr : Follows ρ E φ r r')
    (hf : ∀ a, Follows ρ E ψ (f a) (f' (φ a))) : Follows ρ E ψ (r >>= f) (r' >>= f') := by
  intro s hs
  have h := hr s hs
  rw [bind_apply]
  cases hrs : r s with
  | error e s₁ =>
    rw [hrs] at h
    refine ⟨h.1, fun he hstop t ht => ?_⟩
    obtain ⟨t₁, hrt, ht₁⟩ := h.2 he hstop t ht
    exact ⟨t₁, by rw [bind_apply, hrt], ht₁⟩
  | ok a s₁ =>
    rw [hrs] at h
    have h' := hf a s₁ (Nat.le_trans hs h.1)
    change match f a s₁ with
      | .ok b s₂ => s.nextId ≤ s₂.nextId ∧ _
      | .error e s₂ => s.nextId ≤ s₂.nextId ∧ _
    cases hfs : f a s₁ with
    | ok b s₂ =>
      rw [hfs] at h'
      refine ⟨Nat.le_trans h.1 h'.1, fun hstop t ht => ?_⟩
      obtain ⟨t₁, hrt, ht₁⟩ := h.2 (Nat.le_trans h'.1 hstop) t ht
      rw [bind_apply, hrt]
      exact h'.2 hstop t₁ ht₁
    | error e s₂ =>
      rw [hfs] at h'
      refine ⟨Nat.le_trans h.1 h'.1, fun he hstop t ht => ?_⟩
      obtain ⟨t₁, hrt, ht₁⟩ := h.2 (Nat.le_trans h'.1 hstop) t ht
      rw [bind_apply, hrt]
      exact h'.2 he hstop t₁ ht₁

theorem follows_ite {c : Prop} [Decidable c] {r r' t t' : Run α} (hr : Follows ρ E φ r r')
    (ht : Follows ρ E φ t t') : Follows ρ E φ (if c then r else t) (if c then r' else t') := by
  split
  · exact hr
  · exact ht

theorem follows_ofExcept {x x' : Except Failure α} (h : x' = x.map φ) :
    Follows ρ E φ (ofExcept x) (ofExcept x') := by
  subst h
  cases x with
  | ok a => exact follows_pure rfl
  | error e => exact follows_throw e

theorem deeper_eq_ok {r : Run α} {a : α} {s s' : Store}
    (h : r { s with depth := s.depth + 1 } = .ok a s') :
    deeper r s = .ok a { s' with depth := s'.depth - 1 } := by
  rw [deeper, h]

theorem deeper_eq_error {r : Run α} {e : Failure} {s s' : Store}
    (h : r { s with depth := s.depth + 1 } = .error e s') :
    deeper r s = .error e { s' with depth := s'.depth - 1 } := by
  rw [deeper, h]

theorem Follows.deeper {r r' : Run α} (hr : Follows ρ E φ r r') :
    Follows ρ E φ (deeper r) (deeper r') := by
  intro s hs
  have h := hr { s with depth := s.depth + 1 } hs
  have hin : ∀ {t : Store}, s.Renamed ρ t → Store.Renamed ρ { s with depth := s.depth + 1 }
      { t with depth := t.depth + 1 } := fun ht => { ht with depth := congrArg (· + 1) ht.depth }
  have hout : ∀ {s' t' : Store}, s'.Renamed ρ t' → Store.Renamed ρ
      { s' with depth := s'.depth - 1 } { t' with depth := t'.depth - 1 } :=
    fun ht => { ht with depth := congrArg (· - 1) ht.depth }
  cases hrs : r { s with depth := s.depth + 1 } with
  | ok a s' =>
    rw [hrs] at h
    rw [deeper_eq_ok hrs]
    refine ⟨h.1, fun hstop t ht => ?_⟩
    obtain ⟨t', hrt, ht'⟩ := h.2 hstop _ (hin ht)
    exact ⟨_, deeper_eq_ok hrt, hout ht'⟩
  | error e s' =>
    rw [hrs] at h
    rw [deeper_eq_error hrs]
    refine ⟨h.1, fun he hstop t ht => ?_⟩
    obtain ⟨t', hrt, ht'⟩ := h.2 he hstop _ (hin ht)
    exact ⟨_, deeper_eq_error hrt, hout ht'⟩

/-! ### Single steps -/

/-- A step that cannot fail and makes no object follows another one if the two keep stores renamed. -/
theorem follows_of_nextId {r r' : Run α} (h : ∀ s, ∃ a s', r s = .ok a s' ∧ s'.nextId = s.nextId ∧
    ∀ t, s.Renamed ρ t → ∃ t', r' t = .ok (φ a) t' ∧ s'.Renamed ρ t') : Follows ρ E φ r r' := by
  intro s _
  obtain ⟨a, s', hr, hid, hr'⟩ := h s
  rw [hr]
  exact ⟨Nat.le_of_eq hid.symm, fun _ => hr'⟩

/-- **Making an identity**: the next one is renamed to the next one. -/
theorem follows_newId : Follows ρ E ρ.map.object newId newId := by
  intro s hs
  refine ⟨Nat.le_succ _, fun hstop t ht => ?_⟩
  refine ⟨{ t with nextId := t.nextId + 1 }, ?_, { ht with nextId := ?_ }⟩
  · rw [ρ.object_eq hs hstop, ← ht.nextId]
    rfl
  · rw [ρ.next_succ hs hstop, ← ht.nextId]

theorem follows_newList (items : List Value) :
    Follows ρ E (Value.relabel ρ.map) (newList items) (newList (items.map (Value.relabel ρ.map))) :=
  follows_newId.bind fun _ => follows_pure (Value.relabel_list ..)

theorem follows_write (text : String) : Follows ρ E id (write text) (write text) :=
  follows_of_nextId fun _ => ⟨_, _, rfl, rfl, fun _ ht =>
    ⟨_, rfl, { ht with output := congrArg (· ++ text) ht.output }⟩⟩

theorem follows_record (entry : TraceEntry) : Follows ρ E id (record entry) (record entry) :=
  follows_of_nextId fun _ => ⟨_, _, rfl, rfl, fun _ ht =>
    ⟨_, rfl, { ht with trace := congrArg (Array.push · entry) ht.trace }⟩⟩

theorem follows_depth : Follows ρ E id depth depth :=
  follows_of_nextId fun _ => ⟨_, _, rfl, rfl, fun t ht =>
    ⟨t, congrArg (EStateM.Result.ok · t) ht.depth, ht⟩⟩

theorem follows_readClock : Follows ρ E id readClock readClock := by
  refine follows_of_nextId fun s => ⟨_, _, rfl, rfl, fun t ht => ?_⟩
  refine ⟨{ t with clock := t.clock.tick }, ?_, { ht with clock := ?_ }⟩
  · rw [id, ← ht.clock]
    rfl
  · exact congrArg DateTime.tick ht.clock

theorem follows_lookup? (env : FrameId) (name : String) :
    Follows ρ E (Option.map (Value.relabel ρ.map)) (lookup? env name)
      (lookup? (ρ.map.frame env) name) :=
  follows_of_nextId fun _ => ⟨_, _, rfl, rfl, fun t ht =>
    ⟨t, congrArg (EStateM.Result.ok · t) (ht.frames.lookup? env name), ht⟩⟩

theorem follows_define (env : FrameId) (name : String) (v : Value) :
    Follows ρ E id (define env name v) (define (ρ.map.frame env) name (v.relabel ρ.map)) :=
  follows_of_nextId fun _ => ⟨_, _, rfl, rfl, fun _ ht =>
    ⟨_, rfl, { ht with frames := ht.frames.define env name v }⟩⟩

theorem follows_defineAll (env : FrameId) (bindings : Bindings) :
    Follows ρ E id (defineAll env bindings)
      (defineAll (ρ.map.frame env) (bindings.relabel ρ.map)) :=
  follows_of_nextId fun _ => ⟨_, _, rfl, rfl, fun _ ht =>
    ⟨_, rfl, { ht with frames := .defineAll env bindings ht.frames }⟩⟩

theorem follows_newFrame (env : FrameId) :
    Follows ρ E ρ.map.frame (newFrame env) (newFrame (ρ.map.frame env)) :=
  follows_of_nextId fun _ => ⟨_, _, rfl, rfl, fun t ht =>
    ⟨{ t with frames := t.frames.addChild (ρ.map.frame env) },
      congrArg (EStateM.Result.ok · _) ht.frames.frame_size.symm,
      { ht with frames := ht.frames.addChild env }⟩⟩

theorem assign_of_some {env : FrameId} {name : String} {v : Value} {s : Store} {frames : Frames}
    (h : s.frames.assign? env name v = some frames) :
    assign env name v s = .ok () { s with frames } := by
  rw [assign, h]

theorem assign_of_none {env : FrameId} {name : String} {v : Value} {s : Store}
    (h : s.frames.assign? env name v = none) :
    assign env name v s = .error (.undefinedVariable name) s := by
  rw [assign, h]

theorem follows_assign (env : FrameId) (name : String) (v : Value) :
    Follows ρ E id (assign env name v) (assign (ρ.map.frame env) name (v.relabel ρ.map)) := by
  intro s _
  cases hassign : s.frames.assign? env name v with
  | some frames =>
    rw [assign_of_some hassign]
    refine ⟨Nat.le_refl _, fun _ t ht => ?_⟩
    have h := ht.frames.assign? env name v
    rw [hassign] at h
    cases hassign' : t.frames.assign? (ρ.map.frame env) name (v.relabel ρ.map) with
    | none => rw [hassign'] at h; cases h
    | some frames' =>
      rw [hassign'] at h
      cases h with
      | some h => exact ⟨_, assign_of_some hassign', { ht with frames := h }⟩
  | none =>
    rw [assign_of_none hassign]
    refine ⟨Nat.le_refl _, fun _ _ t ht => ?_⟩
    have h := ht.frames.assign? env name v
    rw [hassign] at h
    cases hassign' : t.frames.assign? (ρ.map.frame env) name (v.relabel ρ.map) with
    | none => exact ⟨t, assign_of_none hassign', ht⟩
    | some frames' => rw [hassign'] at h; cases h

end Run

end MiniLisp
