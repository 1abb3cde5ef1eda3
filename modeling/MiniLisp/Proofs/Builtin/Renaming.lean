import MiniLisp.Builtin.Call
import MiniLisp.Proofs.Value.Renaming

/-! # Builtin functions and identities

Builtin functions do not see identities, apart from telling objects apart: on relabelled arguments a
function that computes numbers, strings or truth values gives the same result, and one that takes a list
apart gives the relabelled result (`pureCall_relabel`). -/

namespace MiniLisp

variable (f : Relabelling)

/-! ### Numbers -/

namespace Value

@[simp] theorem toInteger_relabel (name : String) (v : Value) :
    (v.relabel f).toInteger name = v.toInteger name := by
  cases v <;> rfl

@[simp] theorem toDecimal_relabel (name : String) (v : Value) :
    (v.relabel f).toDecimal name = v.toDecimal name := by
  cases v <;> rfl

end Value

namespace Arithmetic

theorem anyDecimal_relabel (args : List Value) :
    anyDecimal (args.map (Value.relabel f)) = anyDecimal args := by
  simp only [anyDecimal, List.any_map, Function.comp_def, Value.isDecimal_relabel]

theorem foldDecimal_relabel (name operation : String)
    (step : Decimal → Decimal → Except Decimal.RangeFault Decimal) :
    ∀ (args : List Value) (total : Decimal),
      foldDecimal name operation step total (args.map (Value.relabel f)) =
        foldDecimal name operation step total args
  | [], _ => rfl
  | v :: args, total => by
    simp only [List.map_cons, foldDecimal, Value.toDecimal_relabel,
      foldDecimal_relabel name operation step args]

theorem foldInteger_relabel (name : String) (step : Int → Int → Int) :
    ∀ (args : List Value) (total : Int),
      foldInteger name step total (args.map (Value.relabel f)) = foldInteger name step total args
  | [], _ => rfl
  | v :: args, total => by
    simp only [List.map_cons, foldInteger, Value.toInteger_relabel, foldInteger_relabel name step args]

theorem add_relabel (args : List Value) : add (args.map (Value.relabel f)) = add args := by
  simp only [add, anyDecimal_relabel, foldDecimal_relabel, foldInteger_relabel]

theorem multiply_relabel (args : List Value) :
    multiply (args.map (Value.relabel f)) = multiply args := by
  simp only [multiply, anyDecimal_relabel, foldDecimal_relabel, foldInteger_relabel]

theorem subtract_relabel : ∀ args : List Value,
    subtract (args.map (Value.relabel f)) = subtract args
  | [] => rfl
  | [v] => by
    have h := anyDecimal_relabel f [v]
    simp only [List.map_cons, List.map_nil] at h ⊢
    simp only [subtract, h, Value.toDecimal_relabel, Value.toInteger_relabel]
  | v :: w :: args => by
    have h := anyDecimal_relabel f (v :: w :: args)
    have hdecimal := foldDecimal_relabel f "-" "sub" Decimal.sub (w :: args)
    have hinteger := foldInteger_relabel f "-" (· - ·) (w :: args)
    simp only [List.map_cons] at h hdecimal hinteger ⊢
    simp only [subtract, h, hdecimal, hinteger, Value.toDecimal_relabel, Value.toInteger_relabel]

theorem toDecimals_relabel (name : String) : ∀ args : List Value,
    toDecimals name (args.map (Value.relabel f)) = toDecimals name args
  | [] => rfl
  | v :: args => by
    simp only [List.map_cons, toDecimals, Value.toDecimal_relabel, toDecimals_relabel name args]

theorem divide_relabel (args : List Value) : divide (args.map (Value.relabel f)) = divide args := by
  simp only [divide, List.isEmpty_map, toDecimals_relabel]

theorem toKind_relabel (decimal : Bool) (name : String) (v : Value) :
    toKind decimal name (v.relabel f) = toKind decimal name v := by
  simp only [toKind, Value.toDecimal_relabel, Value.toInteger_relabel]

theorem bestOf_relabel (greatest decimal : Bool) (name : String) :
    ∀ (args : List Value) (best : Number),
      bestOf greatest decimal name best (args.map (Value.relabel f)) =
        bestOf greatest decimal name best args
  | [], _ => rfl
  | v :: args, best => by
    simp only [List.map_cons, bestOf, toKind_relabel, bestOf_relabel greatest decimal name args]

theorem extremum_relabel (greatest : Bool) (name : String) : ∀ args : List Value,
    extremum greatest name (args.map (Value.relabel f)) = extremum greatest name args
  | [] => rfl
  | v :: args => by
    have h := anyDecimal_relabel f (v :: args)
    simp only [List.map_cons] at h ⊢
    simp only [extremum, h, toKind_relabel, bestOf_relabel]

end Arithmetic

namespace MathLibrary

theorem unary_relabel (name : String) (g : Float → Float) (canOverflow : Bool) :
    ∀ args : List Value,
      unary name g canOverflow (args.map (Value.relabel f)) = unary name g canOverflow args
  | [] => rfl
  | [v] => by simp only [List.map_cons, List.map_nil, unary, Value.toDecimal_relabel]
  | _ :: _ :: _ => rfl

theorem squareRoot_relabel : ∀ args : List Value,
    squareRoot (args.map (Value.relabel f)) = squareRoot args
  | [] => rfl
  | [v] => by simp only [List.map_cons, List.map_nil, squareRoot, Value.toDecimal_relabel]
  | _ :: _ :: _ => rfl

theorem logarithm_relabel : ∀ args : List Value,
    logarithm (args.map (Value.relabel f)) = logarithm args
  | [] => rfl
  | [v] => by simp only [List.map_cons, List.map_nil, logarithm, Value.toDecimal_relabel]
  | [v, w] => by simp only [List.map_cons, List.map_nil, logarithm, Value.toDecimal_relabel]
  | _ :: _ :: _ :: _ => rfl

end MathLibrary

/-! ### Comparisons and strings -/

namespace Comparison

theorem neighbours_relabel {test : Value → Value → Except Failure Bool}
    (h : ∀ v w : Value, test (v.relabel f) (w.relabel f) = test v w) : ∀ args : List Value,
      neighbours test (args.map (Value.relabel f)) = neighbours test args
  | [] => rfl
  | [_] => rfl
  | v :: w :: args => by
    have ih := neighbours_relabel h (w :: args)
    simp only [List.map_cons] at ih ⊢
    simp only [neighbours, h, ih]

theorem withTwo_relabel (name : String) {test : List Value → Except Failure Bool}
    (h : ∀ args : List Value, test (args.map (Value.relabel f)) = test args) (args : List Value) :
    withTwo name test (args.map (Value.relabel f)) = withTwo name test args := by
  simp only [withTwo, List.length_map, h]

variable {f} (hf : ∀ {i j}, f.object i = f.object j → i = j)

include hf

theorem allEqual_relabel : ∀ args : List Value, allEqual (args.map (Value.relabel f)) = allEqual args
  | [] => rfl
  | v :: args => by
    simp only [List.map_cons, allEqual, List.all_map, Function.comp_def, Value.equal_relabel hf]

theorem atMost_relabel (v w : Value) : atMost (v.relabel f) (w.relabel f) = atMost v w := by
  simp only [atMost, Value.equal_relabel hf, Value.less_relabel]

theorem atLeast_relabel (v w : Value) : atLeast (v.relabel f) (w.relabel f) = atLeast v w := by
  simp only [atLeast, Value.equal_relabel hf, Value.less_relabel]

end Comparison

namespace Strings

theorem concat_cons {v : Value} (h : ∀ s, v ≠ .string s) (args : List Value) :
    concat (v :: args) = (do
      let s ← v.print
      let rest ← concat args
      return s ++ rest) := by
  rw [concat]
  exact h

theorem concat_relabel : ∀ args : List Value, concat (args.map (Value.relabel f)) = concat args
  | [] => rfl
  | v :: args => by
    by_cases h : ∃ s, v = .string s
    · obtain ⟨s, rfl⟩ := h
      rw [List.map_cons, Value.relabel_atom, concat, concat, concat_relabel args]
    · have hne : ∀ s, v ≠ .string s := fun s hs => h ⟨s, hs⟩
      have hne' : ∀ s, v.relabel f ≠ .string s := by
        intro s hs
        cases v with
        | atom a => exact hne s hs
        | _ => cases hs
      rw [List.map_cons, concat_cons hne', concat_cons hne, Value.print_relabel, concat_relabel args]

end Strings

/-! ### Calling -/

namespace Builtin

theorem printAll_relabel : ∀ args : List Value, printAll (args.map (Value.relabel f)) = printAll args
  | [] => rfl
  | v :: args => by simp only [List.map_cons, printAll, Value.print_relabel, printAll_relabel args]

@[simp] theorem expectString_relabel (name : String) (v : Value) :
    expectString name (v.relabel f) = expectString name v := by
  cases v <;> rfl

@[simp] theorem expectDate_relabel (name : String) (v : Value) :
    expectDate name (v.relabel f) = expectDate name v := by
  cases v <;> rfl

@[simp] theorem expectIndex_relabel (name : String) (v : Value) :
    expectIndex name (v.relabel f) = expectIndex name v := by
  cases v <;> rfl

theorem expectList_relabel (name : String) (v : Value) :
    expectList name (v.relabel f) = (expectList name v).map (List.map (Value.relabel f)) := by
  cases v with
  | list id items => rw [Value.relabel_list]; rfl
  | _ => rfl

theorem item_relabel (items : List Value) (i : Int) :
    item (items.map (Value.relabel f)) i = (item items i).relabel f := by
  unfold item
  split
  · rfl
  · rw [List.getElem?_map]
    cases items[i.toNat]? <;> rfl

theorem rest?_relabel (v : Value) :
    rest? (v.relabel f) = (rest? v).map (Option.map (List.map (Value.relabel f))) := by
  simp only [rest?, expectList_relabel]
  rcases expectList "cdr" v with e | _ | ⟨w, items⟩ <;> rfl

theorem consItems_relabel (v w : Value) :
    consItems (v.relabel f) (w.relabel f) = (consItems v w).map (Value.relabel f) := by
  cases w with
  | list id items => rw [Value.relabel_list]; rfl
  | _ => rfl

section Arguments

variable {α : Type} {φ : α → α}

/-- A function of one argument on relabelled arguments. -/
theorem one_relabel {name : String} {g : Value → Except Failure α}
    (h : ∀ v, g (v.relabel f) = (g v).map φ) : ∀ args : List Value,
      one name g (args.map (Value.relabel f)) = (one name g args).map φ
  | [] => rfl
  | [v] => h v
  | _ :: _ :: args => by simp only [List.map_cons, one, List.length_cons, List.length_map]; rfl

theorem two_relabel {name : String} {g : Value → Value → Except Failure α}
    (h : ∀ v w, g (v.relabel f) (w.relabel f) = (g v w).map φ) : ∀ args : List Value,
      two name g (args.map (Value.relabel f)) = (two name g args).map φ
  | [] => rfl
  | [_] => rfl
  | [v, w] => h v w
  | _ :: _ :: _ :: args => by simp only [List.map_cons, two, List.length_cons, List.length_map]; rfl

theorem three_relabel {name : String} {g : Value → Value → Value → Except Failure α}
    (h : ∀ u v w, g (u.relabel f) (v.relabel f) (w.relabel f) = (g u v w).map φ) :
    ∀ args : List Value, three name g (args.map (Value.relabel f)) = (three name g args).map φ
  | [] => rfl
  | [_] => rfl
  | [_, _] => rfl
  | [u, v, w] => h u v w
  | _ :: _ :: _ :: _ :: args => by
    simp only [List.map_cons, three, List.length_cons, List.length_map]; rfl

end Arguments

/-- A result without objects is not changed by relabelling. -/
theorem map_relabel_of_atoms {α : Type} (g : α → Atom) (r : Except Failure α) :
    ((fun a => Value.atom (g a)) <$> r).map (Value.relabel f) = (fun a => Value.atom (g a)) <$> r := by
  cases r <;> rfl

theorem bind_relabel_of_atoms {α : Type} (r : Except Failure α) (g : α → Atom) :
    (r >>= fun a => Except.ok (Value.atom (g a))).map (Value.relabel f) =
      r >>= fun a => Except.ok (Value.atom (g a)) := by
  cases r <;> rfl

/-- **Computing a value commutes with relabelling.** -/
theorem pureCall_relabel (hf : ∀ {i j}, f.object i = f.object j → i = j) (b : Builtin) (args : List Value) :
    pureCall b (args.map (Value.relabel f)) = (pureCall b args).map (Value.relabel f) := by
  have hnumber : ∀ r : Except Failure Number,
      (Value.number <$> r).map (Value.relabel f) = Value.number <$> r :=
    map_relabel_of_atoms f Atom.number
  have hbool : ∀ r : Except Failure Bool,
      (Value.bool <$> r).map (Value.relabel f) = Value.bool <$> r := map_relabel_of_atoms f Atom.bool
  have hstring : ∀ r : Except Failure String,
      (Value.string <$> r).map (Value.relabel f) = Value.string <$> r :=
    map_relabel_of_atoms f Atom.string
  cases b with
  | add => rw [pureCall, pureCall, Arithmetic.add_relabel, hnumber]
  | subtract => rw [pureCall, pureCall, Arithmetic.subtract_relabel, hnumber]
  | multiply => rw [pureCall, pureCall, Arithmetic.multiply_relabel, hnumber]
  | divide => rw [pureCall, pureCall, Arithmetic.divide_relabel, hnumber]
  | minimum | maximum => rw [pureCall, pureCall, Arithmetic.extremum_relabel, hnumber]
  | sine | cosine | tangent | exponential =>
    rw [pureCall, pureCall, MathLibrary.unary_relabel, hnumber]
  | squareRoot => rw [pureCall, pureCall, MathLibrary.squareRoot_relabel, hnumber]
  | logarithm => rw [pureCall, pureCall, MathLibrary.logarithm_relabel, hnumber]
  | equal =>
    rw [pureCall, pureCall, Comparison.withTwo_relabel f _ (Comparison.allEqual_relabel hf), hbool]
  | less =>
    rw [pureCall, pureCall, Comparison.withTwo_relabel f _
      (Comparison.neighbours_relabel f (Value.less_relabel f)), hbool]
  | greater =>
    rw [pureCall, pureCall, Comparison.withTwo_relabel f _
      (Comparison.neighbours_relabel f fun v w => Value.less_relabel f w v), hbool]
  | atMost =>
    rw [pureCall, pureCall, Comparison.withTwo_relabel f _
      (Comparison.neighbours_relabel f (Comparison.atMost_relabel hf)), hbool]
  | atLeast =>
    rw [pureCall, pureCall, Comparison.withTwo_relabel f _
      (Comparison.neighbours_relabel f (Comparison.atLeast_relabel hf)), hbool]
  | concat => rw [pureCall, pureCall, Strings.concat_relabel, hstring]
  | stringLength | toLower =>
    refine one_relabel f (fun v => ?_) args
    rw [expectString_relabel]
    exact (bind_relabel_of_atoms f _ _).symm
  | substring =>
    refine three_relabel f (fun u v w => ?_) args
    rw [expectString_relabel, expectIndex_relabel, expectIndex_relabel]
    cases expectString "substr" u <;> cases expectIndex "substr" v <;>
      cases expectIndex "substr" w <;> rfl
  | indexOf =>
    refine two_relabel f (fun v w => ?_) args
    rw [expectString_relabel, expectString_relabel]
    cases expectString "index-of" v <;> cases expectString "index-of" w <;> rfl
  | dateYear | dateMonth | dateDay =>
    refine one_relabel f (fun v => ?_) args
    rw [expectDate_relabel]
    exact (bind_relabel_of_atoms f _ _).symm
  | car =>
    refine one_relabel f (fun v => ?_) args
    rw [expectList_relabel]
    rcases expectList "car" v with e | _ | ⟨w, items⟩ <;> rfl
  | nth =>
    refine two_relabel f (fun v w => ?_) args
    rw [expectList_relabel, expectIndex_relabel]
    cases expectList "nth" v with
    | error e => rfl
    | ok items => cases expectIndex "nth" w with
      | error e => rfl
      | ok i => exact congrArg Except.ok (item_relabel f items i)
  | isEmpty =>
    refine one_relabel f (fun v => ?_) args
    cases v with
    | list id items => rw [Value.relabel_list]; cases items <;> rfl
    | atom a => cases a <;> rfl
    | _ => rfl
  | isList => exact one_relabel f (fun v => by rw [Value.isList_relabel]; rfl) args
  | isNumber => exact one_relabel f (fun v => by rw [Value.isNumber_relabel]; rfl) args
  | not => exact one_relabel f (fun v => by rw [Value.isTruthy_relabel]; rfl) args
  | xor =>
    exact two_relabel f (fun v w => by rw [Value.isTruthy_relabel, Value.isTruthy_relabel]; rfl) args
  | toNumber =>
    refine one_relabel f (fun v => ?_) args
    cases v with
    | atom a =>
      cases a with
      | string s =>
        change Value.number <$> Strings.toNumber s =
          (Value.number <$> Strings.toNumber s).map (Value.relabel f)
        rw [hnumber]
      | _ => rfl
    | _ => rfl
  | toSymbol =>
    refine one_relabel f (fun v => ?_) args
    cases v with
    | atom a => cases a <;> rfl
    | _ => rfl
  | makeList | cdr | cons | now | print => rfl

end Builtin

end MiniLisp
