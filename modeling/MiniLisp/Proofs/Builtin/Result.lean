import MiniLisp.Builtin.Call
import MiniLisp.Proofs.Except
import MiniLisp.Proofs.Run.Keeps

/-! # What builtin functions give

A function that only computes gives an atom or an item of a list that it was given
(`pureCall_eq_ok`); the other functions give an atom or a new list of what they were given. So a
property of values that lists share with their items passes from the arguments to the result
(`keeps_call`). -/

namespace MiniLisp.Builtin

open Run

/-! ### Counting arguments -/

section
variable {α : Type} {name : String} {args : List Value} {a : α} {e : Failure}

theorem one_eq_ok {f : Value → Except Failure α} (h : one name f args = .ok a) :
    ∃ v, args = [v] ∧ f v = .ok a := by
  unfold one at h
  split at h
  · exact ⟨_, rfl, h⟩
  · cases h

theorem one_eq_error {f : Value → Except Failure α} (h : one name f args = .error e) :
    e.isEvaluation = true ∨ ∃ v, args = [v] ∧ f v = .error e := by
  unfold one at h
  split at h
  · exact .inr ⟨_, rfl, h⟩
  · cases h
    exact .inl rfl

theorem two_eq_ok {f : Value → Value → Except Failure α} (h : two name f args = .ok a) :
    ∃ v w, args = [v, w] ∧ f v w = .ok a := by
  unfold two at h
  split at h
  · exact ⟨_, _, rfl, h⟩
  · cases h

theorem two_eq_error {f : Value → Value → Except Failure α} (h : two name f args = .error e) :
    e.isEvaluation = true ∨ ∃ v w, args = [v, w] ∧ f v w = .error e := by
  unfold two at h
  split at h
  · exact .inr ⟨_, _, rfl, h⟩
  · cases h
    exact .inl rfl

theorem three_eq_ok {f : Value → Value → Value → Except Failure α}
    (h : three name f args = .ok a) : ∃ u v w, args = [u, v, w] ∧ f u v w = .ok a := by
  unfold three at h
  split at h
  · exact ⟨_, _, _, rfl, h⟩
  · cases h

end

theorem expectList_eq_ok {name : String} {v : Value} {items : List Value}
    (h : expectList name v = .ok items) : ∃ id, v = .list id items := by
  unfold expectList at h
  split at h <;> cases h
  exact ⟨_, rfl⟩

theorem isEvaluation_of_expectList {name : String} {v : Value} {e : Failure}
    (h : expectList name v = .error e) : e.isEvaluation = true := by
  unfold expectList at h
  split at h <;> cases h
  rfl

theorem item_eq (items : List Value) (i : Int) : item items i = .nil ∨ item items i ∈ items := by
  unfold item
  split
  · exact .inl rfl
  · cases h : items[i.toNat]? with
    | none => exact .inl rfl
    | some v => exact .inr (List.mem_of_getElem? h)

theorem headD_eq (items : List Value) : items.headD .nil = .nil ∨ items.headD .nil ∈ items := by
  cases items with
  | nil => exact .inl rfl
  | cons v items => exact .inr List.mem_cons_self

/-! ### Results -/

/-- **The result of a computing function** is an atom or an item of an argument. -/
theorem pureCall_eq_ok {b : Builtin} {args : List Value} {v : Value}
    (h : pureCall b args = .ok v) :
    (∃ a, v = .atom a) ∨ ∃ id items, .list id items ∈ args ∧ v ∈ items := by
  have ofMap : ∀ {β : Type} {g : β → Atom} {x : Except Failure β},
      (fun y => Value.atom (g y)) <$> x = .ok v → ∃ a, v = .atom a := by
    intro β g x h
    obtain ⟨y, -, rfl⟩ := Except.map_eq_ok.1 h
    exact ⟨g y, rfl⟩
  cases b with
  | car =>
    obtain ⟨w, rfl, hf⟩ := one_eq_ok h
    obtain ⟨items, hw, hv⟩ := Except.bind_eq_ok.1 hf
    obtain ⟨id, rfl⟩ := expectList_eq_ok hw
    cases hv
    rcases headD_eq items with h | h
    · exact .inl ⟨.nil, h⟩
    · exact .inr ⟨id, items, List.mem_cons_self, h⟩
  | nth =>
    obtain ⟨w, i, rfl, hf⟩ := two_eq_ok h
    obtain ⟨items, hw, hn⟩ := Except.bind_eq_ok.1 hf
    obtain ⟨id, rfl⟩ := expectList_eq_ok hw
    obtain ⟨n, -, hv⟩ := Except.bind_eq_ok.1 hn
    cases hv
    rcases item_eq items n with h | h
    · exact .inl ⟨.nil, h⟩
    · exact .inr ⟨id, items, List.mem_cons_self, h⟩
  | makeList | cdr | cons | now | print => cases h; exact .inl ⟨.nil, rfl⟩
  | stringLength | toLower | dateYear | dateMonth | dateDay =>
    obtain ⟨w, rfl, hf⟩ := one_eq_ok h
    obtain ⟨x, -, hf⟩ := Except.bind_eq_ok.1 hf
    cases hf
    exact .inl ⟨_, rfl⟩
  | isEmpty | isList | isNumber | not =>
    obtain ⟨w, rfl, hf⟩ := one_eq_ok h
    cases hf
    exact .inl ⟨_, rfl⟩
  | xor =>
    obtain ⟨w, x, rfl, hf⟩ := two_eq_ok h
    cases hf
    exact .inl ⟨_, rfl⟩
  | indexOf =>
    obtain ⟨w, x, rfl, hf⟩ := two_eq_ok h
    obtain ⟨s, -, hf⟩ := Except.bind_eq_ok.1 hf
    obtain ⟨t, -, hf⟩ := Except.bind_eq_ok.1 hf
    cases hf
    exact .inl ⟨_, rfl⟩
  | substring =>
    obtain ⟨w, x, y, rfl, hf⟩ := three_eq_ok h
    obtain ⟨s, -, hf⟩ := Except.bind_eq_ok.1 hf
    obtain ⟨i, -, hf⟩ := Except.bind_eq_ok.1 hf
    obtain ⟨n, -, hf⟩ := Except.bind_eq_ok.1 hf
    cases hf
    exact .inl ⟨_, rfl⟩
  | toNumber =>
    obtain ⟨w, rfl, hf⟩ := one_eq_ok h
    split at hf
    · cases hf; exact .inl ⟨_, rfl⟩
    · obtain ⟨s, -, hf⟩ := Except.bind_eq_ok.1 hf
      exact .inl (ofMap hf)
  | toSymbol =>
    obtain ⟨w, rfl, hf⟩ := one_eq_ok h
    split at hf
    · cases hf; exact .inl ⟨_, rfl⟩
    · obtain ⟨s, -, hf⟩ := Except.bind_eq_ok.1 hf
      cases hf
      exact .inl ⟨_, rfl⟩
  | _ => exact .inl (ofMap h)

theorem rest?_eq_ok {v : Value} {items? : Option (List Value)} (h : rest? v = .ok items?) :
    ∃ id items, v = .list id items ∧ ∀ rest, items? = some rest → rest ⊆ items := by
  obtain ⟨items, hv, h⟩ := Except.bind_eq_ok.1 h
  obtain ⟨id, rfl⟩ := expectList_eq_ok hv
  refine ⟨id, items, rfl, ?_⟩
  cases items with
  | nil => cases h; simp
  | cons w items =>
    cases h
    rintro rest ⟨⟩
    exact List.subset_cons_self w items

theorem mem_consItems {head tail v : Value} (h : v ∈ consItems head tail) :
    v = head ∨ v = tail ∨ ∃ id items, tail = .list id items ∧ v ∈ items := by
  unfold consItems at h
  split at h
  · rcases List.mem_cons.1 h with h | h
    · exact .inl h
    · exact .inr (.inr ⟨_, _, rfl, h⟩)
  · simp only [List.mem_cons, List.not_mem_nil, or_false] at h
    exact h.imp_right .inl

theorem isEvaluation_of_rest? {v : Value} {e : Failure} (h : rest? v = .error e) :
    e.isEvaluation = true := by
  rcases Except.bind_eq_error.1 h with h | ⟨items, -, h⟩
  · exact isEvaluation_of_expectList h
  · cases items <;> cases h

theorem isEvaluation_of_printAll {e : Failure} : ∀ {vs : List Value}, printAll vs = .error e →
    e.isEvaluation = true
  | [], h => by cases h
  | v :: vs, h => by
    rcases Except.bind_eq_error.1 h with h | ⟨s, -, h⟩
    · exact Value.isEvaluation_of_print h
    rcases Except.bind_eq_error.1 h with h | ⟨rest, -, h⟩
    · exact isEvaluation_of_printAll h
    · cases h

/-- **A property that lists share with their items passes to the result**, as far as it holds of the
atoms that the function gives; and the function fails as it computes, or as evaluation does. -/
theorem keeps_call {J : Frames → Prop} {P : Nat → Value → Prop} {E : Failure → Prop} {n : Nat}
    (b : Builtin) (args : List Value) (hmono : ∀ {m v}, n ≤ m → P n v → P m v)
    (hlist : ∀ {m id items}, P m (.list id items) ↔ ∀ v ∈ items, P m v)
    (hatom : ∀ m a, (a = .nil ∨ (∃ d, a = .date d) ∨ pureCall b args = .ok (.atom a)) →
      P m (.atom a))
    (hfailure : ∀ e, (e.isEvaluation = true ∨ pureCall b args = .error e) → E e)
    (hargs : ∀ v ∈ args, P n v) : Keeps J P E n (b.call args) := by
  have hnil : ∀ {m}, n ≤ m → Keeps J P E m (pure .nil) := fun _ =>
    keeps_pure fun k _ => hatom k .nil (.inl rfl)
  have hnew : ∀ {m}, n ≤ m → ∀ {items : List Value}, (∀ v ∈ items, P n v) →
      Keeps J P E m (newList items) := fun hm _ hitems =>
    keeps_newList fun k hk _ => hlist.2 fun v hv => hmono (Nat.le_trans hm hk) (hitems v hv)
  have hpure : Keeps J P E n (Run.ofExcept (pureCall b args)) := by
    refine keeps_ofExcept (fun v hv m hm => ?_) fun e he => hfailure e (.inr he)
    rcases pureCall_eq_ok hv with ⟨a, rfl⟩ | ⟨id, items, hmem, hv'⟩
    · exact hatom m a (.inr (.inr hv))
    · exact hmono hm (hlist.1 (hargs _ hmem) v hv')
  cases b with
  | makeList => exact hnew (Nat.le_refl n) hargs
  | cdr =>
    refine Keeps.bind (Q := fun _ items? => ∀ items, items? = some items → ∀ v ∈ items, P n v) ?_
      fun m hm items? hitems => ?_
    · refine keeps_ofExcept (fun items? h _ _ => ?_) fun e he => ?_
      · obtain ⟨v, rfl, h⟩ := one_eq_ok h
        obtain ⟨id, items, rfl, hsub⟩ := rest?_eq_ok h
        have hall := hlist.1 (hargs _ List.mem_cons_self)
        exact fun rest hrest v hv => hall v (hsub rest hrest hv)
      · refine hfailure e (.inl ?_)
        rcases one_eq_error he with he | ⟨v, -, he⟩
        · exact he
        · exact isEvaluation_of_rest? he
    · split
      · exact hnew hm (hitems _ rfl)
      · exact hnil hm
  | cons =>
    refine Keeps.bind (Q := fun _ items => ∀ v ∈ items, P n v) ?_ fun m hm items hitems =>
      hnew hm hitems
    refine keeps_ofExcept (fun items h _ _ => ?_) fun e he => ?_
    · obtain ⟨head, tail, rfl, h⟩ := two_eq_ok h
      cases h
      intro v hv
      rcases mem_consItems hv with rfl | rfl | ⟨id, items, rfl, hmem⟩
      · exact hargs _ (by simp)
      · exact hargs _ (by simp)
      · exact hlist.1 (hargs (.list id items) (by simp)) v hmem
    · rcases two_eq_error he with he | ⟨v, w, -, he⟩
      · exact hfailure e (.inl he)
      · cases he
  | print =>
    refine Keeps.bind (Q := anything) ?_ fun m hm text _ => ?_
    · exact keeps_ofExcept (fun _ _ _ _ => trivial) fun e he =>
        hfailure e (.inl (isEvaluation_of_printAll he))
    · exact (keeps_write _).bind fun k hk _ _ => hnil (Nat.le_trans hm hk)
  | now =>
    cases args with
    | nil =>
      refine keeps_readClock.bind fun m _ d _ => keeps_pure fun k _ => ?_
      exact hatom k (.date d) (.inr (.inl ⟨d, rfl⟩))
    | cons v args => exact keeps_throw (hfailure _ (.inl rfl))
  | _ => exact hpure

end MiniLisp.Builtin
