import MiniLisp.Proofs.StandardLibrary.Within

/-! # Calling a function on the elements of a list

What `map`, `filter` and `reduce` are to do: call a function on the elements of a list from the left, once
each (`mapped`, `filtered`, `reduced`). Each of these runs is a call for the first element and the same run
for the others (`mapped_cons_of_ok` and so on). As long as the calls leave the global names alone that the
library uses (`Leaves`), the library can go on after each of them. -/

namespace MiniLisp

open Run

/-! ### Filtering with effects -/

section Filter

variable {m : Type → Type} [Monad m] [LawfulMonad m] {α : Type} (p : α → m Bool)

theorem filterAuxM_append : ∀ xs acc acc' : List α, List.filterAuxM p xs (acc ++ acc') =
    (· ++ acc') <$> List.filterAuxM p xs acc
  | [], acc, acc' => by rw [List.filterAuxM, List.filterAuxM, map_pure]
  | x :: xs, acc, acc' => by
    rw [List.filterAuxM, List.filterAuxM, map_bind]
    refine bind_congr fun c => ?_
    cases c
    · exact filterAuxM_append xs acc acc'
    · exact filterAuxM_append xs (x :: acc) acc'

theorem filterM_cons (x : α) (xs : List α) : (x :: xs).filterM p = (do
    let c ← p x
    let ys ← xs.filterM p
    return if c then x :: ys else ys) := by
  have hfilter : ∀ ys, List.filterM p ys = List.reverse <$> List.filterAuxM p ys [] := fun ys => by
    rw [List.filterM, bind_pure_comp]
  rw [hfilter, List.filterAuxM, map_bind]
  refine bind_congr fun c => ?_
  cases c
  · simp [hfilter]
  · have happend : List.filterAuxM p xs [x] = (· ++ [x]) <$> List.filterAuxM p xs [] :=
      filterAuxM_append p xs [] [x]
    simp [hfilter, happend]

end Filter

namespace StandardLibrary

/-! ### Calling a function on the elements -/

section Runs

variable (n : Nat) (p : Value)

/-- Calls the function on the elements in order, for the results. -/
def mapped (xs : List Value) : Run (List Value) :=
  xs.mapM fun x => apply (evaluate false n) p [x]

/-- Calls the function on the elements in order, for the elements for which it is true. -/
def filtered (xs : List Value) : Run (List Value) :=
  xs.filterM fun x => Value.isTruthy <$> apply (evaluate false n) p [x]

/-- Calls the function on what it gave so far and the elements in order. -/
def reduced (acc : Value) (xs : List Value) : Run Value :=
  xs.foldlM (fun acc x => apply (evaluate false n) p [acc, x]) acc

variable {n p} {acc v : Value} {s s' : Store} {e : Failure} (x : Value) (xs : List Value)

theorem mapped_cons_of_ok (h : apply (evaluate false n) p [x] s = .ok v s') :
    mapped n p (x :: xs) s = ((v :: ·) <$> mapped n p xs) s' := by
  rw [mapped, List.mapM_cons, bind_apply, h, mapped, map_eq_pure_bind]

theorem mapped_cons_of_error (h : apply (evaluate false n) p [x] s = .error e s') :
    mapped n p (x :: xs) s = .error e s' := by
  rw [mapped, List.mapM_cons, bind_apply, h]

theorem filtered_cons_of_ok (h : apply (evaluate false n) p [x] s = .ok v s') :
    filtered n p (x :: xs) s =
      ((fun ys => if v.isTruthy then x :: ys else ys) <$> filtered n p xs) s' := by
  rw [filtered, filterM_cons, bind_map_left, bind_apply, h, filtered, map_eq_pure_bind]

theorem filtered_cons_of_error (h : apply (evaluate false n) p [x] s = .error e s') :
    filtered n p (x :: xs) s = .error e s' := by
  rw [filtered, filterM_cons, bind_map_left, bind_apply, h]

theorem reduced_cons_of_ok (h : apply (evaluate false n) p [acc, x] s = .ok v s') :
    reduced n p acc (x :: xs) s = reduced n p v xs s' := by
  rw [reduced, List.foldlM_cons, bind_apply, h, reduced]

theorem reduced_cons_of_error (h : apply (evaluate false n) p [acc, x] s = .error e s') :
    reduced n p acc (x :: xs) s = .error e s' := by
  rw [reduced, List.foldlM_cons, bind_apply, h]

end Runs

/-! ### Calls that leave the names alone -/

/-- **The calls leave the names of the library bound as the store `lib` binds them.** -/
def Leaves {α : Type} (lib : Store) (visit : List Value → Run α) (xs : List Value) (s : Store) : Prop :=
  ∀ ys, ys <+: xs → ∀ a s', visit ys s = .ok a s' → Original lib s'

section Preserves

variable {α β : Type} {P : Store → Prop} {n : Nat} {p : Value}

/-- The run keeps a property of the store, if it does not fail. -/
def Preserves (P : Store → Prop) (r : Run α) : Prop := ∀ s, P s → ∀ a s', r s = .ok a s' → P s'

theorem preserves_pure (a : α) : Preserves P (pure a : Run α) := by
  intro s hs b s' h
  cases h
  exact hs

theorem Preserves.bind {r : Run α} {f : α → Run β} (hr : Preserves P r)
    (hf : ∀ a, Preserves P (f a)) : Preserves P (r >>= f) := by
  intro s hs b s'' h
  rw [bind_apply] at h
  cases hrs : r s with
  | ok a s' =>
    rw [hrs] at h
    exact hf a s' (hr s hs a s' hrs) b s'' h
  | error e s' =>
    rw [hrs] at h
    cases h

variable (hp : ∀ args, Preserves P (apply (evaluate false n) p args))

include hp

theorem preserves_mapped : ∀ xs, Preserves P (mapped n p xs)
  | [] => preserves_pure _
  | x :: xs => by
    rw [mapped, List.mapM_cons]
    exact (hp [x]).bind fun _ => (preserves_mapped xs).bind fun _ => preserves_pure _

theorem preserves_filtered : ∀ xs, Preserves P (filtered n p xs)
  | [] => preserves_pure _
  | x :: xs => by
    rw [filtered, filterM_cons, bind_map_left]
    exact (hp [x]).bind fun _ => (preserves_filtered xs).bind fun _ => preserves_pure _

theorem preserves_reduced : ∀ (acc : Value) (xs), Preserves P (reduced n p acc xs)
  | acc, [] => preserves_pure _
  | acc, x :: xs => by
    rw [reduced, List.foldlM_cons]
    exact (hp [acc, x]).bind fun acc => preserves_reduced acc xs

end Preserves

/-- Where no call rebinds the names, they are left. -/
theorem Preserves.leaves {α : Type} {lib s : Store} {visit : List Value → Run α}
    (h : ∀ xs, Preserves (Original lib) (visit xs)) (hs : Original lib s) (xs : List Value) :
    Leaves lib visit xs s := fun ys _ a s' hrun => h ys s hs a s' hrun

section Steps

variable {α β : Type} {lib : Store} {visit : List Value → Run α} {visit' : List Value → Run β}
  {post : β → α} {x : Value} {xs : List Value} {s s' : Store}

theorem map_apply (post : β → α) (r : Run β) (s : Store) : (post <$> r) s =
    match r s with
    | .ok b s' => .ok (post b) s'
    | .error e s' => .error e s' := by
  rw [map_eq_pure_bind, bind_apply]
  cases r s <;> rfl

theorem exhausted_map_iff (post : β → α) (r : Run β) (s : Store) :
    Exhausted ((post <$> r) s) ↔ Exhausted (r s) := by
  rw [map_apply]
  cases r s with
  | ok b s' => exact Iff.rfl
  | error e s' => rw [exhausted_error_iff, exhausted_error_iff]

theorem Leaves.original {a : α} (h : Leaves lib visit xs s) (hnil : visit [] s = .ok a s) :
    Original lib s := h [] (List.nil_prefix) a s hnil

/-- What is left to do after the first call leaves the names bound as well. -/
theorem Leaves.tail (h : Leaves lib visit (x :: xs) s)
    (hcons : ∀ ys, visit (x :: ys) s = (post <$> visit' ys) s') : Leaves lib visit' xs s' := by
  intro ys hys b s'' hrun
  refine h (x :: ys) (List.cons_prefix_cons.2 ⟨rfl, hys⟩) (post b) s'' ?_
  rw [hcons, map_apply, hrun]

end Steps

end StandardLibrary

end MiniLisp
