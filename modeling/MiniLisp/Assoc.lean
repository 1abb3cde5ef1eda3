/-!
# Tables in order of insertion

A table from names to values that remembers the order in which its names were first inserted. Inserting
a name again changes its value and not its place.
-/

namespace MiniLisp

/-- Names with their values, each name once, oldest first. -/
abbrev Assoc (α : Type) := List (String × α)

namespace Assoc

variable {α : Type}

/-- Gives a name a value, in its old place if it has one. -/
def insert (name : String) (v : α) : Assoc α → Assoc α
  | [] => [(name, v)]
  | (n, w) :: t => if n = name then (n, v) :: t else (n, w) :: insert name v t

/-- The value of a name. -/
def get? (name : String) : Assoc α → Option α
  | [] => none
  | (n, w) :: t => if n = name then some w else get? name t

/-- Removes a name. -/
def erase (name : String) (t : Assoc α) : Assoc α := t.filter (·.1 != name)

/-- The names in order. -/
def names (t : Assoc α) : List String := t.map (·.1)

theorem get?_insert (t : Assoc α) (name other : String) (v : α) :
    get? other (insert name v t) = if other = name then some v else get? other t := by
  induction t with
  | nil => by_cases h : name = other <;> simp [insert, get?, h, eq_comm]
  | cons b t ih =>
    obtain ⟨n, w⟩ := b
    by_cases h1 : n = name <;> by_cases h2 : n = other <;> by_cases h3 : other = name <;>
      simp_all [insert, get?]

theorem get?_erase (t : Assoc α) (name other : String) :
    get? other (erase name t) = if other = name then none else get? other t := by
  induction t with
  | nil => simp [erase, get?]
  | cons b t ih =>
    obtain ⟨n, w⟩ := b
    by_cases h1 : n = name <;> by_cases h2 : n = other <;> by_cases h3 : other = name <;>
      simp_all [erase, get?]

theorem names_insert (t : Assoc α) (name : String) (v : α) :
    names (insert name v t) = if name ∈ names t then names t else names t ++ [name] := by
  induction t with
  | nil => simp [insert, names]
  | cons b t ih =>
    obtain ⟨n, w⟩ := b
    by_cases h : n = name
    · simp [insert, names, h]
    · have h' : ¬ name = n := fun e => h e.symm
      simp only [names] at ih
      by_cases hm : name ∈ t.map (·.1) <;> simp_all [insert, names]

end Assoc

end MiniLisp
