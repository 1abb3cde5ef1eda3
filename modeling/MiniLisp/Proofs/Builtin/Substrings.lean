import Mathlib.Data.List.Infix
import Mathlib.Data.Nat.Find
import Mathlib.Order.Bounds.Basic
import MiniLisp.Builtin.Call

/-! # Searching a string and cutting it

A search goes through the positions from the first on and stops where the needle begins
(`findFrom_eq_some_iff`), so it finds the least position at which a part of the needle's length is the
needle (`isLeast_indexOf`). A part is as long as the string and the number that is asked for allow
(`longestPrefix_part`), whatever the numbers are; so a string can be cut at every position and put
together again (`parts_fit`). -/

namespace MiniLisp.Strings

/-! ### Positions of a needle -/

/-- **Where a search stops**: at the first position from which the characters continue with the needle. -/
theorem findFrom_eq_some_iff {needle cs : List Char} {i k : Nat} : findFrom needle i cs = some k ↔
    ∃ n, k = i + n ∧ needle <+: cs.drop n ∧ ∀ m < n, ¬ needle <+: cs.drop m := by
  induction cs generalizing i with
  | nil =>
    simp only [findFrom, List.isEmpty_iff, Option.ite_none_right_eq_some, Option.some.injEq,
      List.drop_nil, List.prefix_nil]
    constructor
    · rintro ⟨hnil, rfl⟩
      exact ⟨0, rfl, hnil, nofun⟩
    · rintro ⟨n, rfl, hnil, hleast⟩
      have hn : n = 0 := Nat.eq_zero_of_not_pos fun hpos => hleast 0 hpos hnil
      rw [hn]
      exact ⟨hnil, rfl⟩
  | cons c cs ih =>
    rw [findFrom]
    by_cases hhere : needle <+: c :: cs
    · rw [if_pos (List.isPrefixOf_iff_prefix.mpr hhere), Option.some.injEq]
      constructor
      · rintro rfl
        exact ⟨0, rfl, hhere, nofun⟩
      · rintro ⟨n, rfl, -, hleast⟩
        have hn : n = 0 := Nat.eq_zero_of_not_pos fun hpos => hleast 0 hpos hhere
        rw [hn]
        rfl
    · rw [if_neg (mt List.isPrefixOf_iff_prefix.mp hhere), ih]
      constructor
      · rintro ⟨n, rfl, hn, hleast⟩
        refine ⟨n + 1, by omega, hn, fun m hm => ?_⟩
        cases m with
        | zero => exact hhere
        | succ m => exact hleast m (by omega)
      · rintro ⟨n, rfl, hn, hleast⟩
        cases n with
        | zero => exact absurd hn hhere
        | succ n => exact ⟨n, by omega, hn, fun m hm => hleast (m + 1) (by omega)⟩

/-- A search finds nothing only where the needle begins nowhere. -/
theorem findFrom_eq_none_iff {needle cs : List Char} {i : Nat} : findFrom needle i cs = none ↔
    ∀ n, ¬ needle <+: cs.drop n := by
  constructor
  · intro hnone n hn
    have hex : ∃ n, needle <+: cs.drop n := ⟨n, hn⟩
    rw [findFrom_eq_some_iff.mpr ⟨_, rfl, Nat.find_spec hex, fun _ => Nat.find_min hex⟩] at hnone
    cases hnone
  · intro h
    cases hfind : findFrom needle i cs with
    | none => rfl
    | some k =>
      obtain ⟨n, -, hn, -⟩ := findFrom_eq_some_iff.mp hfind
      exact absurd hn (h n)

/-- Past the end of a text only the empty needle is found, and that one at its start as well. -/
theorem prefix_drop_min {needle cs : List Char} {n : Nat} (h : needle <+: cs.drop n) :
    needle <+: cs.drop (min n cs.length) := by
  rcases Nat.le_total n cs.length with hn | hn
  · rwa [Nat.min_eq_left hn]
  · rw [Nat.min_eq_right hn, List.drop_length]
    rwa [List.drop_of_length_le hn] at h

/-! ### Parts -/

/-- **The longest beginning** of a text with at most so many characters. -/
structure LongestPrefix (cs : List Char) (length : Int) (p : List Char) : Prop where
  isPrefix : p <+: cs
  length_le : (p.length : Int) ≤ length
  longest : ∀ q : List Char, q <+: cs → (q.length : Int) ≤ length → q <+: p

theorem part_of_outside {cs : List Char} {start length : Int}
    (h : start < 0 ∨ length < 0 ∨ (cs.length : Int) < start) : part cs start length = [] :=
  if_pos h

theorem part_of_inside {cs : List Char} {start length : Int} (hstart : 0 ≤ start)
    (hlength : 0 ≤ length) (hend : start ≤ cs.length) :
    part cs start length = (cs.drop start.toNat).take length.toNat :=
  if_neg (by omega)

/-- **A part goes as far as it may.** -/
theorem longestPrefix_part {cs : List Char} {start length : Int} (hstart : 0 ≤ start)
    (hlength : 0 ≤ length) (hend : start ≤ cs.length) :
    LongestPrefix (cs.drop start.toNat) length (part cs start length) := by
  rw [part_of_inside hstart hlength hend]
  refine ⟨List.take_prefix _ _, ?_, fun q hq hle => ?_⟩
  · rw [List.length_take]
    omega
  · refine List.prefix_take_iff.mpr ⟨hq, ?_⟩
    omega

/-- A part as long as the needle is the needle where the text continues with it. -/
theorem part_eq_iff {needle cs : List Char} {n : Nat} :
    part cs n needle.length = needle ↔ needle <+: cs.drop n := by
  rcases Nat.lt_or_ge cs.length n with hn | hn
  · rw [part_of_outside (by omega), List.drop_of_length_le (by omega), List.prefix_nil, eq_comm]
  · rw [part_of_inside (by omega) (by omega) (by omega), Int.toNat_natCast, Int.toNat_natCast,
      List.prefix_iff_eq_take, eq_comm]

/-! ### The calls -/

theorem pureCall_stringLength (s : String) :
    Builtin.pureCall .stringLength [.string s] = .ok (.int s.length) := rfl

theorem pureCall_substring (s : String) (start length : Int) :
    Builtin.pureCall .substring [.string s, .int start, .int length] =
      .ok (.string (String.ofList (part s.toList start length))) := rfl

theorem pureCall_indexOf (s needle : String) :
    Builtin.pureCall .indexOf [.string s, .string needle] =
      .ok (.int (indexOf needle.toList s.toList)) := rfl

theorem pureCall_concat (s t : String) :
    Builtin.pureCall .concat [.string s, .string t] = .ok (.string (s ++ t)) := by
  change Except.ok (Value.string (s ++ (t ++ ""))) = _
  rw [String.append_empty]

/-- **The needle stands at a position** of a string: the part from there that is as long as the needle is
the needle. -/
def StandsAt (needle s : String) (i : Int) : Prop :=
  ∃ length, Builtin.pureCall .stringLength [.string needle] = .ok (.int length) ∧
    Builtin.pureCall .substring [.string s, .int i, .int length] = .ok (.string needle)

theorem standsAt_iff {needle s : String} {n : Nat} :
    StandsAt needle s n ↔ needle.toList <+: s.toList.drop n := by
  rw [← part_eq_iff, String.length_toList, ← String.ofList_inj, String.ofList_toList]
  constructor
  · rintro ⟨_, ⟨⟩, h⟩
    rw [pureCall_substring] at h
    simpa using h
  · intro h
    exact ⟨needle.length, rfl, by rw [pureCall_substring, h]⟩

/-- **What a search gives**: the least position at which the needle stands, or -1. -/
theorem indexOf_outcome (needle s : String) :
    (∃ n : Nat, indexOf needle.toList s.toList = n ∧ StandsAt needle s n ∧
      ∀ m < n, ¬ StandsAt needle s m) ∨
    indexOf needle.toList s.toList = -1 ∧ ∀ n : Nat, ¬ StandsAt needle s n := by
  simp only [standsAt_iff, indexOf]
  cases hfind : findFrom needle.toList 0 s.toList with
  | none => exact .inr ⟨rfl, findFrom_eq_none_iff.mp hfind⟩
  | some k =>
    obtain ⟨n, rfl, hn, hleast⟩ := findFrom_eq_some_iff.mp hfind
    exact .inl ⟨n, by rw [Nat.zero_add], hn, hleast⟩

/-- A string cut at a position and put together again. -/
theorem parts_append (s : String) {k : Int} (hk : 0 ≤ k) (hend : k ≤ s.length) :
    String.ofList (part s.toList 0 k) ++ String.ofList (part s.toList k s.length) = s := by
  rw [← String.length_toList] at hend ⊢
  have hrest : s.toList.length ≤ (s.toList.length : Int).toNat := Nat.le_of_eq rfl
  rw [part_of_inside (Int.le_refl 0) hk (by omega), part_of_inside hk (by omega) hend,
    Int.toNat_zero, List.drop_zero,
    List.take_of_length_le (Nat.le_trans (List.drop_sublist _ _).length_le hrest),
    ← String.ofList_append, List.take_append_drop, String.ofList_toList]

/-- **Searching and cutting fit together.** A search gives the least position at which the needle stands,
or -1 where it stands nowhere in the string. A part is empty where the numbers make no sense, and otherwise
the longest beginning of what comes after its start; so a string is what it is cut into. -/
theorem search_fits_parts (s needle : String) :
    Builtin.pureCall .stringLength [.string s] = .ok (.int s.length) ∧
    (∃ i : Int, Builtin.pureCall .indexOf [.string s, .string needle] = .ok (.int i) ∧
      (IsLeast {j : Int | 0 ≤ j ∧ StandsAt needle s j} i ∨ i = -1) ∧
      (i = -1 ↔ ∀ j : Int, 0 ≤ j → j ≤ s.length → ¬ StandsAt needle s j)) ∧
    (∀ start length : Int, ∃ t,
      Builtin.pureCall .substring [.string s, .int start, .int length] = .ok (.string t) ∧
      if start < 0 ∨ length < 0 ∨ (s.length : Int) < start then t = ""
      else LongestPrefix (s.toList.drop start.toNat) length t.toList) ∧
    ∀ k : Int, 0 ≤ k → k ≤ s.length → ∃ before after,
      Builtin.pureCall .substring [.string s, .int 0, .int k] = .ok (.string before) ∧
      Builtin.pureCall .substring [.string s, .int k, .int s.length] = .ok (.string after) ∧
      Builtin.pureCall .concat [.string before, .string after] = .ok (.string s) := by
  refine ⟨pureCall_stringLength s, ⟨_, pureCall_indexOf s needle, ?_⟩, fun start length => ?_,
    fun k hk hend => ?_⟩
  · rcases indexOf_outcome needle s with ⟨n, hn, hstands, hleast⟩ | ⟨hn, hnowhere⟩
    · rw [hn]
      refine ⟨.inl ⟨⟨by omega, hstands⟩, ?_⟩, by omega, fun h => ?_⟩
      · rintro j ⟨hj, hthere⟩
        obtain ⟨m, rfl⟩ := Int.eq_ofNat_of_zero_le hj
        exact Int.ofNat_le.mpr (Nat.le_of_not_lt fun hm => hleast m hm hthere)
      · have hinside := standsAt_iff.mpr (prefix_drop_min (standsAt_iff.mp hstands))
        rw [String.length_toList] at hinside
        exact absurd hinside (h _ (by omega) (by omega))
    · refine ⟨.inr hn, fun _ j hj _ => ?_, fun _ => hn⟩
      obtain ⟨m, rfl⟩ := Int.eq_ofNat_of_zero_le hj
      exact hnowhere m
  · refine ⟨_, pureCall_substring s start length, ?_⟩
    rw [← String.length_toList]
    split
    · next houtside => rw [part_of_outside houtside]
    · next hinside =>
      rw [String.toList_ofList]
      exact longestPrefix_part (by omega) (by omega) (by omega)
  · refine ⟨_, _, pureCall_substring s 0 k, pureCall_substring s k s.length, ?_⟩
    rw [pureCall_concat, parts_append s hk hend]

/-- A needle that seems to begin one position before it stands, and a cut in its middle. -/
theorem search_fits_parts_overlapping :
    Builtin.pureCall .indexOf [.string "aaab", .string "aab"] = .ok (.int 1) ∧
    IsLeast {j : Int | 0 ≤ j ∧ StandsAt "aab" "aaab" j} 1 ∧
    ∃ before after, Builtin.pureCall .substring [.string "aaab", .int 0, .int 2] = .ok (.string before) ∧
      Builtin.pureCall .substring [.string "aaab", .int 2, .int 4] = .ok (.string after) ∧
      Builtin.pureCall .concat [.string before, .string after] = .ok (.string "aaab") := by
  obtain ⟨-, ⟨i, hcall, hleast, -⟩, -, hparts⟩ := search_fits_parts "aaab" "aab"
  have hfound : Builtin.pureCall .indexOf [.string "aaab", .string "aab"] = .ok (.int 1) :=
    rfl
  have hi : i = 1 := by
    rw [hfound] at hcall
    cases hcall
    rfl
  subst hi
  exact ⟨hcall, hleast.resolve_right (by decide), hparts 2 (by decide) (by decide)⟩

end MiniLisp.Strings
