import MiniLisp.Eval.Run
import MiniLisp.Proofs.Frames.Access

/-! # What a run keeps

A run keeps an invariant of the frames if it ends where the invariant holds whenever it starts there,
also when it fails. Frames are never removed, so their number tells how far a program has come: what is
known of a value may speak of the frames that are there, and it stays true while frames are added.

`Keeps J Q E n r` says that the run `r`, started with at least `n` frames and the invariant `J`, removes no
frame and ends with the invariant, and with a value that `Q` holds of for the number of frames then, or
with a failure that `E` holds of. Runs that are put together of runs that keep the invariant keep it
(`Keeps.bind`), and a run that leaves the frames alone keeps every invariant (`keeps_of_frames`). -/

namespace MiniLisp

/-- The failures that evaluation ends in by itself, whatever its functions compute. -/
def Failure.isEvaluation : Failure → Bool
  | .undefinedSymbol _ | .undefinedVariable _ | .typeError _ | .arityError _ | .overlongInteger
  | .stackExhausted => true
  | _ => false

theorem Value.isEvaluation_of_print {v : Value} {e : Failure} (h : v.print = .error e) :
    e.isEvaluation = true := by
  unfold Value.print at h
  split at h <;> cases h
  rfl

namespace Run

variable {α β : Type} {J : Frames → Prop} {Q : Nat → α → Prop} {E : Failure → Prop} {m n : Nat}

/-- **The invariant is kept**, and the run ends in a value or a failure of the given kinds. -/
def Keeps (J : Frames → Prop) (Q : Nat → α → Prop) (E : Failure → Prop) (n : Nat) (r : Run α) : Prop :=
  ∀ s, J s.frames → n ≤ s.frames.size →
    match r s with
    | .ok a s' => J s'.frames ∧ s.frames.size ≤ s'.frames.size ∧ Q s'.frames.size a
    | .error e s' => J s'.frames ∧ E e

/-- Nothing is said of the value. -/
abbrev anything : Nat → α → Prop := fun _ _ => True

/-- The store after a run, whatever its outcome. -/
def after (r : Run α) (s : Store) : Store :=
  match r s with
  | .ok _ s' => s'
  | .error _ s' => s'

theorem Keeps.after {r : Run α} {s : Store} (hr : Keeps J Q E s.frames.size r) (hs : J s.frames) :
    J (r.after s).frames := by
  have h := hr s hs (Nat.le_refl _)
  unfold Run.after
  cases hrs : r s with
  | ok a s' => rw [hrs] at h; exact h.1
  | error e s' => rw [hrs] at h; exact h.1

theorem Keeps.mono {r : Run α} (hr : Keeps J Q E m r) (hmn : m ≤ n) : Keeps J Q E n r :=
  fun s hs hn => hr s hs (Nat.le_trans hmn hn)

theorem keeps_pure {a : α} (h : ∀ m, n ≤ m → Q m a) : Keeps J Q E n (pure a : Run α) :=
  fun s hs hn => ⟨hs, Nat.le_refl _, h s.frames.size hn⟩

theorem keeps_throw {e : Failure} (h : E e) : Keeps J Q E n (throw e : Run α) := fun _ hs _ => ⟨hs, h⟩

theorem Keeps.bind {R : Nat → β → Prop} {r : Run α} {f : α → Run β} (hr : Keeps J Q E n r)
    (hf : ∀ m, n ≤ m → ∀ a, Q m a → Keeps J R E m (f a)) : Keeps J R E n (r >>= f) := by
  intro s hs hn
  have h := hr s hs hn
  change match EStateM.bind r f s with
    | .ok a s' => J s'.frames ∧ s.frames.size ≤ s'.frames.size ∧ R s'.frames.size a
    | .error e s' => J s'.frames ∧ E e
  unfold EStateM.bind
  cases hrs : r s with
  | error e s' => rw [hrs] at h; exact h
  | ok a s' =>
    rw [hrs] at h
    obtain ⟨hs', hsize, ha⟩ := h
    have hrest := hf s'.frames.size (Nat.le_trans hn hsize) a ha s' hs' (Nat.le_refl _)
    dsimp only
    cases hfs : f a s' with
    | error e s'' => rw [hfs] at hrest; exact hrest
    | ok b s'' => rw [hfs] at hrest; exact ⟨hrest.1, Nat.le_trans hsize hrest.2.1, hrest.2.2⟩

theorem keeps_ite {c : Prop} [Decidable c] {r t : Run α} (hr : c → Keeps J Q E n r)
    (ht : ¬ c → Keeps J Q E n t) : Keeps J Q E n (if c then r else t) := by
  split
  · next h => exact hr h
  · next h => exact ht h

theorem keeps_ofExcept {x : Except Failure α} (hok : ∀ a, x = .ok a → ∀ m, n ≤ m → Q m a)
    (herr : ∀ e, x = .error e → E e) : Keeps J Q E n (ofExcept x) := by
  cases x with
  | ok a => exact keeps_pure (hok a rfl)
  | error e => exact keeps_throw (herr e rfl)

/-- A run that changes no frame and does not fail keeps every invariant. -/
theorem keeps_of_frames {r : Run α}
    (h : ∀ s, n ≤ s.frames.size →
      ∃ a s', r s = .ok a s' ∧ s'.frames = s.frames ∧ Q s.frames.size a) :
    Keeps J Q E n r := by
  intro s hs hn
  obtain ⟨a, s', hr, hf, hq⟩ := h s hn
  rw [hr]
  exact ⟨by rw [hf]; exact hs, Nat.le_of_eq (by rw [hf]), by rw [hf]; exact hq⟩

theorem keeps_newList {Q : Nat → Value → Prop} {items : List Value}
    (h : ∀ m, n ≤ m → ∀ id, Q m (.list id items)) : Keeps J Q E n (newList items) :=
  keeps_of_frames fun s hn => ⟨_, _, rfl, rfl, h s.frames.size hn s.nextId⟩

theorem keeps_write (text : String) : Keeps J anything E n (write text) :=
  keeps_of_frames fun _ _ => ⟨_, _, rfl, rfl, trivial⟩

theorem keeps_record (entry : TraceEntry) : Keeps J anything E n (record entry) :=
  keeps_of_frames fun _ _ => ⟨_, _, rfl, rfl, trivial⟩

theorem keeps_depth : Keeps J anything E n depth :=
  keeps_of_frames fun _ _ => ⟨_, _, rfl, rfl, trivial⟩

theorem keeps_newId : Keeps J anything E n newId :=
  keeps_of_frames fun _ _ => ⟨_, _, rfl, rfl, trivial⟩

theorem keeps_readClock : Keeps J anything E n readClock :=
  keeps_of_frames fun _ _ => ⟨_, _, rfl, rfl, trivial⟩

theorem Keeps.deeper {r : Run α} (hr : Keeps J Q E n r) : Keeps J Q E n (deeper r) := by
  intro s hs hn
  have h := hr { s with depth := s.depth + 1 } hs hn
  unfold Run.deeper
  cases hrs : r { s with depth := s.depth + 1 } with
  | ok a s' => rw [hrs] at h; exact h
  | error e s' => rw [hrs] at h; exact h

theorem keeps_lookup? {Q : Nat → Option Value → Prop} {env : FrameId} {name : String}
    (h : ∀ fs, J fs → n ≤ fs.size → Q fs.size (fs.lookup? env name)) :
    Keeps J Q E n (lookup? env name) :=
  fun s hs hn => ⟨hs, Nat.le_refl _, h s.frames hs hn⟩

theorem keeps_define {env : FrameId} {name : String} {v : Value}
    (h : ∀ fs, J fs → n ≤ fs.size → J (fs.define env name v)) :
    Keeps J anything E n (define env name v) :=
  fun s hs hn => ⟨h s.frames hs hn, Nat.le_of_eq (Frames.size_define _ _ _ _).symm, trivial⟩

theorem keeps_defineAll {env : FrameId} {bindings : List (String × Value)}
    (h : ∀ fs, ∀ b ∈ bindings, J fs → n ≤ fs.size → J (fs.define env b.1 b.2)) :
    Keeps J anything E n (defineAll env bindings) := by
  intro s hs hn
  have hall : J (s.frames.defineAll env bindings) ∧
      s.frames.size ≤ (s.frames.defineAll env bindings).size := by
    refine List.foldlRecOn (motive := fun fs => J fs ∧ s.frames.size ≤ fs.size) bindings _
      ⟨hs, Nat.le_refl _⟩ fun fs hfs b hb => ?_
    exact ⟨h fs b hb hfs.1 (Nat.le_trans hn hfs.2), by rw [Frames.size_define]; exact hfs.2⟩
  exact ⟨hall.1, hall.2, trivial⟩

theorem keeps_assign {env : FrameId} {name : String} {v : Value}
    (h : ∀ fs fs', J fs → n ≤ fs.size → fs.assign? env name v = some fs' → J fs')
    (herr : E (.undefinedVariable name)) : Keeps J anything E n (assign env name v) := by
  intro s hs hn
  unfold assign
  cases ha : s.frames.assign? env name v with
  | none => exact ⟨hs, herr⟩
  | some fs =>
    obtain ⟨j, -, hfs⟩ := Frames.exists_of_assign? ha
    exact ⟨h _ _ hs hn ha, Nat.le_of_eq (by rw [hfs, Frames.size_define]), trivial⟩

theorem keeps_newFrame {Q : Nat → FrameId → Prop} {env : FrameId}
    (h : ∀ fs, J fs → n ≤ fs.size → J (fs.addChild env) ∧ Q (fs.size + 1) fs.size) :
    Keeps J Q E n (newFrame env) := by
  intro s hs hn
  obtain ⟨hchild, hnew⟩ := h s.frames hs hn
  have hsize := Frames.size_addChild s.frames env
  exact ⟨hchild, by rw [hsize]; exact Nat.le_succ _, by rw [hsize]; exact hnew⟩

end Run

end MiniLisp
