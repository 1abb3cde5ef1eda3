import Mathlib.Data.List.TakeWhile
import MiniLisp.Editor.Features
import MiniLisp.Proofs.Text.Pieces

/-! # The call that is typed

Signature help goes by what follows the last parenthesis that opens, whether its list is still open or not:
its name is the first word there, without closing parentheses at its end (`calleeOf?_append_open`). While a
call is typed (`Typing`) this is the call itself as long as no list has been opened in it, and otherwise the
list in it that was opened last (`calleeOf?_openedLast`), which is complete by then. -/

namespace MiniLisp.Editor

/-! ### Lines of calls -/

/-- A character that a symbol can have, apart from quotes. -/
def IsNameChar (c : Char) : Prop := Token.inSymbol c = true ∧ c ≠ '\x27' ∧ c ≠ '"'

instance : DecidablePred IsNameChar := fun _ => inferInstanceAs (Decidable (_ ∧ _))

/-- Every list that is opened is closed again, and nothing else is closed. -/
inductive Complete : List Char → Prop where
  | nil : Complete []
  | other {c : Char} {cs : List Char} (hopen : c ≠ '(') (hclose : c ≠ ')') (h : Complete cs) :
      Complete (c :: cs)
  | list {items cs : List Char} (hitems : Complete items) (h : Complete cs) :
      Complete ('(' :: (items ++ ')' :: cs))

theorem Complete.of_notMem : ∀ {cs : List Char}, '(' ∉ cs → ')' ∉ cs → Complete cs
  | [], _, _ => .nil
  | c :: cs, hopen, hclose => by
    rw [List.mem_cons, not_or] at hopen hclose
    exact .other (Ne.symm hopen.1) (Ne.symm hclose.1) (.of_notMem hopen.2 hclose.2)

/-- A name: characters of a symbol, at least one. -/
def IsName (cs : List Char) : Prop := cs ≠ [] ∧ ∀ c ∈ cs, IsNameChar c

instance (cs : List Char) : Decidable (IsName cs) :=
  @instDecidableAnd _ _ (inferInstanceAs (Decidable (cs ≠ []))) (List.decidableBAll _ cs)

/-- A line of parentheses, spaces and names. -/
def IsCallLine (cs : List Char) : Prop := ∀ c ∈ cs, c = '(' ∨ c = ')' ∨ c = ' ' ∨ IsNameChar c

instance (cs : List Char) : Decidable (IsCallLine cs) := List.decidableBAll _ cs

/-- **A call is typed** at the end of such a line: what follows the innermost parenthesis that is still open is a
name, a space, and operands in which every list is complete. -/
structure Typing (line before name operands : List Char) : Prop where
  line_eq : line = before ++ '(' :: (name ++ ' ' :: operands)
  isCallLine : IsCallLine line
  isName : IsName name
  complete : Complete operands

/-- The first word of a text is this name, but for closing parentheses after it. The word ends with a space
or with the text. -/
def FirstName (text name : List Char) : Prop :=
  ∃ spaces closers rest, text = spaces ++ (name ++ closers ++ rest) ∧ name ++ closers ≠ [] ∧
    (∀ c ∈ spaces, c = ' ') ∧ ' ' ∉ name ∧ name.getLast? ≠ some ')' ∧ (∀ c ∈ closers, c = ')') ∧
    ∀ c ∈ rest.head?, c = ' '

/-! ### The list that was opened last -/

theorem Complete.exists_openedLast {cs : List Char} (h : Complete cs) (hopen : '(' ∈ cs) :
    ∃ front last, cs = front ++ '(' :: last ∧ '(' ∉ last ∧ ')' ∈ last := by
  induction h with
  | nil => cases hopen
  | @other c cs hc _ _ ih =>
    rcases List.mem_cons.mp hopen with rfl | hopen
    · exact absurd rfl hc
    · obtain ⟨front, last, rfl, hlast⟩ := ih hopen
      exact ⟨c :: front, last, rfl, hlast⟩
  | @list items cs _ _ ihitems ih =>
    by_cases hcs : '(' ∈ cs
    · obtain ⟨front, last, rfl, hlast⟩ := ih hcs
      exact ⟨'(' :: (items ++ ')' :: front), last, by simp, hlast⟩
    by_cases hitems : '(' ∈ items
    · obtain ⟨front, last, rfl, hlast⟩ := ihitems hitems
      refine ⟨'(' :: front, last ++ ')' :: cs, by simp, ?_, by simp⟩
      simpa [hlast.1] using hcs
    · exact ⟨[], items ++ ')' :: cs, rfl, by simpa [hitems] using hcs, by simp⟩

theorem afterLastOpen?_append {last : List Char} (hlast : '(' ∉ last) (front : List Char) :
    afterLastOpen? (front ++ '(' :: last) = some last := by
  have hopen : (front ++ '(' :: last).contains '(' = true := by simp
  have hrun : (last.reverse ++ '(' :: front.reverse).takeWhile (· != '(') = last.reverse := by
    rw [List.takeWhile_append_of_pos, List.takeWhile_cons_of_neg (by decide), List.append_nil]
    intro c hc
    simpa using ne_of_mem_of_not_mem (List.mem_reverse.mp hc) hlast
  rw [afterLastOpen?, if_pos hopen, List.reverse_append, List.reverse_cons, List.append_assoc,
    List.singleton_append, hrun, List.reverse_reverse]

theorem dropClosers_append {name closers : List Char} (hname : name.getLast? ≠ some ')')
    (hclosers : ∀ c ∈ closers, c = ')') : dropClosers (name ++ closers) = name := by
  have hrun : name.reverse.dropWhile (· == ')') = name.reverse := by
    rw [← List.head?_reverse] at hname
    cases hreverse : name.reverse with
    | nil => rfl
    | cons c cs =>
      rw [hreverse, List.head?_cons] at hname
      exact List.dropWhile_cons_of_neg (by simpa using hname)
  rw [dropClosers, List.reverse_append, List.dropWhile_append_of_pos, hrun, List.reverse_reverse]
  intro c hc
  simpa using hclosers c (List.mem_reverse.mp hc)

/-- What `dropClosers` takes away from a word. -/
theorem exists_closers (word : List Char) : ∃ name closers, name ++ closers = word ∧
    name.getLast? ≠ some ')' ∧ ∀ c ∈ closers, c = ')' := by
  refine ⟨dropClosers word, (word.reverse.takeWhile (· == ')')).reverse, ?_, fun hlast => ?_, fun c hc => ?_⟩
  · rw [dropClosers, ← List.reverse_append, List.takeWhile_append_dropWhile, List.reverse_reverse]
  · have hhead := List.head?_dropWhile_not (· == ')') word.reverse
    rw [dropClosers, List.getLast?_reverse] at hlast
    rw [hlast] at hhead
    simp at hhead
  · simpa using List.mem_takeWhile_imp (List.mem_reverse.mp hc)

/-- A text that is not only spaces has a first word. -/
theorem exists_firstName {text : List Char} {c : Char} (hc : c ∈ text) (hne : c ≠ ' ') :
    ∃ name, FirstName text name := by
  let tail := text.dropWhile (· == ' ')
  let word := tail.takeWhile (· != ' ')
  have htext : text = text.takeWhile (· == ' ') ++ (word ++ tail.dropWhile (· != ' ')) := by
    rw [List.takeWhile_append_dropWhile, List.takeWhile_append_dropWhile]
  have hword_ne : word ≠ [] := by
    have hhead := List.head?_dropWhile_not (· == ' ') text
    cases htail : tail with
    | nil => exact absurd (List.dropWhile_eq_nil_iff.mp htail c hc) (by simpa using hne)
    | cons d ds =>
      rw [show text.dropWhile (· == ' ') = d :: ds from htail] at hhead
      simp only [word, htail]
      rw [List.takeWhile_cons_of_pos (by simpa using hhead)]
      exact List.cons_ne_nil _ _
  obtain ⟨name, closers, hword, hlast, hclosers⟩ := exists_closers word
  refine ⟨name, _, closers, _, by rwa [hword], by rwa [hword], fun c hc => ?_, fun hspace => ?_, hlast,
    hclosers, fun c hc => ?_⟩
  · simpa using List.mem_takeWhile_imp hc
  · have hmem : ' ' ∈ word := hword ▸ List.mem_append_left _ hspace
    simpa using List.mem_takeWhile_imp hmem
  · have hhead := List.head?_dropWhile_not (· != ' ') tail
    rw [Option.mem_def.mp hc] at hhead
    simpa using hhead

/-- **The callee of a line** is the first name after its last parenthesis that opens. -/
theorem calleeOf?_append_open {last name : List Char} (hopen : '(' ∉ last)
    (hblank : ∀ c ∈ last, Text.isBlank c = true → c = ' ') (hname : FirstName last name)
    (front : List Char) : calleeOf? (front ++ '(' :: last) =
      if name = [] then none else some (String.ofList name) := by
  obtain ⟨spaces, closers, rest, rfl, hne, hspaces, hspace, hlast, hclosers, hrest⟩ := hname
  have hblanks : ∀ c, c = ' ' → Text.isBlank c = true := by
    rintro c rfl
    decide
  have hword : (Text.words (spaces ++ (name ++ closers ++ rest))).head? = some (name ++ closers) := by
    refine Text.head?_words hne (fun c hc => ?_) (fun c hc => hblanks c (hrest c hc))
      (fun c hc => hblanks c (hspaces c hc))
    refine Bool.eq_false_iff.mpr fun hc' => ?_
    have heq : c = ' ' := hblank c (List.mem_append_right _ (List.mem_append_left _ hc)) hc'
    rcases List.mem_append.mp hc with hc | hc
    · exact hspace (heq ▸ hc)
    · exact absurd (hclosers c hc) (by rw [heq]; decide)
  rw [calleeOf?, afterLastOpen?_append hopen]
  simp only [Option.bind_eq_bind, Option.bind_some, hword, dropClosers_append hlast hclosers,
    List.isEmpty_iff]

/-! ### While a call is typed -/

theorem IsNameChar.ne {c : Char} (h : IsNameChar c) : c ≠ '(' ∧ c ≠ ')' ∧ c ≠ ' ' := by
  refine ⟨?_, ?_, ?_⟩ <;> rintro rfl <;> exact absurd h.1 (by decide)

theorem IsNameChar.isBlank {c : Char} (h : IsNameChar c) : Text.isBlank c = false := by
  have hc := h.1
  simp only [Token.inSymbol, Bool.not_eq_true', Bool.or_eq_false_iff] at hc
  exact hc.1.1.1

/-- The only blanks of the line are spaces. -/
theorem Typing.eq_of_isBlank {line before name operands : List Char} (h : Typing line before name operands)
    {c : Char} (hc : c ∈ line) (hblank : Text.isBlank c = true) : c = ' ' := by
  rcases h.isCallLine c hc with rfl | rfl | rfl | hc
  · exact absurd hblank (by decide)
  · exact absurd hblank (by decide)
  · rfl
  · rw [hc.isBlank] at hblank
    cases hblank

/-- The call that is typed has its name first. -/
theorem Typing.firstName {line before name operands : List Char} (h : Typing line before name operands) :
    FirstName (name ++ ' ' :: operands) name := by
  refine ⟨[], [], ' ' :: operands, by simp, by simpa using h.isName.1, by simp,
    fun hspace => (h.isName.2 _ hspace).ne.2.2 rfl, fun hlast => ?_, by simp, by simp⟩
  exact (h.isName.2 _ (List.mem_of_getLast? hlast)).ne.2.1 rfl

/-- **The callee is the name of the list that was opened last.** While a call is typed, that is the call itself
if no list has been opened in it. Otherwise it is the last list that has been opened among the operands, and the
callee is the first word there without closing parentheses at its end, if that leaves any. -/
theorem calleeOf?_openedLast {line before name operands : List Char}
    (h : Typing line before name operands) :
    ('(' ∉ operands → calleeOf? line = some (String.ofList name)) ∧
    ('(' ∈ operands →
      ∃ front last callee, operands = front ++ '(' :: last ∧ '(' ∉ last ∧ FirstName last callee) ∧
    ∀ front last callee, operands = front ++ '(' :: last → '(' ∉ last → FirstName last callee →
      calleeOf? line = if callee = [] then none else some (String.ofList callee) := by
  refine ⟨fun hopen => ?_, fun hopen => ?_, fun front last callee hoperands hlast hcallee => ?_⟩
  · have hlast : '(' ∉ name ++ ' ' :: operands := by
      simpa [hopen] using fun hname => (h.isName.2 _ hname).ne.1 rfl
    have hcallee := calleeOf?_append_open hlast
      (fun c hc => h.eq_of_isBlank (by rw [h.line_eq]; simp_all)) h.firstName before
    rwa [← h.line_eq, if_neg h.isName.1] at hcallee
  · obtain ⟨front, last, hoperands, hlast, hclose⟩ := h.complete.exists_openedLast hopen
    obtain ⟨callee, hcallee⟩ := exists_firstName hclose (by decide)
    exact ⟨front, last, callee, hoperands, hlast, hcallee⟩
  · have hline : line = before ++ '(' :: (name ++ ' ' :: front) ++ '(' :: last := by
      rw [h.line_eq, hoperands]
      simp
    rw [hline]
    exact calleeOf?_append_open hlast (fun c hc => h.eq_of_isBlank (by rw [hline]; simp_all)) hcallee _

/-- A call in which a complete call has been typed as an operand. -/
def completeOperand : List Char := "(substr (car xs) ".toList

theorem typing_completeOperand : Typing completeOperand [] "substr".toList "(car xs) ".toList where
  line_eq := rfl
  isCallLine := by decide
  isName := by decide
  complete := @Complete.list "car xs".toList [' '] (.of_notMem (by decide) (by decide))
    (.of_notMem (by decide) (by decide))

/-- Its callee is the one of the complete call. -/
theorem calleeOf?_openedLast_completeOperand : Typing completeOperand [] "substr".toList "(car xs) ".toList ∧
    calleeOf? completeOperand = some "car" := by
  have hfirst : FirstName "car xs) ".toList "car".toList :=
    ⟨[], [], " xs) ".toList, rfl, by decide, by simp, by decide, by decide, by simp, by rintro c ⟨⟩; rfl⟩
  have hcallee := (calleeOf?_openedLast typing_completeOperand).2.2 [] "car xs) ".toList "car".toList
    rfl (by decide) hfirst
  exact ⟨typing_completeOperand, hcallee⟩

/-- **It is not the callee of the call that is typed.** -/
theorem calleeOf?_ne_typed : Typing completeOperand [] "substr".toList "(car xs) ".toList ∧
    calleeOf? completeOperand ≠ some "substr" :=
  ⟨typing_completeOperand, by decide⟩

end MiniLisp.Editor
