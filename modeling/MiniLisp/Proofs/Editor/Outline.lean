import MiniLisp.Editor.Features
import MiniLisp.Proofs.Except
import MiniLisp.Proofs.Frames.Access
import MiniLisp.Proofs.Token.Spans

/-! # The outline points at names

The outline of a document gives every name that the index lists with a range of its text. Whatever the text,
even one that cannot be read, an entry of the index comes from a parenthesis, `define` and the name after them
(`exists_of_definitionAt?`). The name is a symbol token, so it covers characters that are the name itself, and
its place counts the line breaks before it and the characters since the last of these (`getElem?_splitOn_count`).
So the range cuts the name out of its line (`documentSymbols_names`). -/

namespace MiniLisp

/-! ### Lines -/

namespace Place

/-- The first line of a text. -/
theorem head?_splitOn (cs : List Char) : (cs.splitOn '\n').head? = some (cs.takeWhile (· ≠ '\n')) := by
  induction cs with
  | nil => rfl
  | cons c cs ih =>
    rw [List.splitOn_cons_eq_if_modifyHead]
    by_cases hc : c = '\n'
    · simp [hc]
    · simp [hc, List.head?_modifyHead, ih]

theorem length_splitOn (cs : List Char) : (cs.splitOn '\n').length = cs.count '\n' + 1 := by
  induction cs with
  | nil => rfl
  | cons c cs ih =>
    rw [List.splitOn_cons_eq_if_modifyHead]
    by_cases hc : c = '\n'
    · simp [hc, ih]
    · simp [hc, ih]

/-- What follows the last line break of a text. -/
def lastLine (cs : List Char) : List Char := (cs.reverse.takeWhile (· ≠ '\n')).reverse

/-- The column counts the characters of the line before the place. -/
theorem column_after (cs : List Char) : (after cs).column = 1 + (lastLine cs).length := by
  rw [lastLine, List.length_reverse]
  rfl

theorem newline_notMem_lastLine (cs : List Char) : '\n' ∉ lastLine cs := fun h => by
  have hne := List.mem_takeWhile_imp (List.mem_reverse.mp h)
  exact absurd hne (by decide)

/-- A text is its last line, or a line break is before that. -/
theorem eq_lastLine_or (cs : List Char) :
    cs = lastLine cs ∨ ∃ front, cs = front ++ '\n' :: lastLine cs := by
  have hcs : cs = (cs.reverse.dropWhile (· ≠ '\n')).reverse ++ lastLine cs := by
    rw [lastLine, ← List.reverse_append, List.takeWhile_append_dropWhile, List.reverse_reverse]
  cases hfront : cs.reverse.dropWhile (· ≠ '\n') with
  | nil =>
    rw [hfront] at hcs
    exact .inl hcs
  | cons c front =>
    have hc : c = '\n' := by
      have hhead := List.head?_dropWhile_not (· ≠ '\n') cs.reverse
      rw [hfront] at hhead
      simpa using hhead
    rw [hfront, List.reverse_cons, List.append_assoc, hc] at hcs
    exact .inr ⟨front.reverse, hcs⟩

/-- **The line that a place is in** goes from the last line before the place up to the next line break. -/
theorem getElem?_splitOn_count (before rest : List Char) :
    ((before ++ rest).splitOn '\n')[before.count '\n']? =
      some (lastLine before ++ rest.takeWhile (· ≠ '\n')) := by
  have hnone : (lastLine before).count '\n' = 0 :=
    List.count_eq_zero.mpr (newline_notMem_lastLine before)
  have hline : ((lastLine before ++ rest).splitOn '\n').head? =
      some (lastLine before ++ rest.takeWhile (· ≠ '\n')) := by
    rw [head?_splitOn, List.takeWhile_append_of_pos]
    simpa using fun c hc => ne_of_mem_of_not_mem hc (newline_notMem_lastLine before)
  rcases eq_lastLine_or before with h | ⟨front, h⟩
  · have hcount : before.count '\n' = 0 := by rw [h, hnone]
    rw [hcount, ← List.head?_eq_getElem?]
    rwa [← h] at hline ⊢
  · have hcount : before.count '\n' = (front.splitOn '\n').length := by
      rw [h, length_splitOn, List.count_append, List.count_cons_self, hnone]
    have hsplit : (before ++ rest).splitOn '\n' =
        front.splitOn '\n' ++ (lastLine before ++ rest).splitOn '\n' := by
      rw [h, List.append_assoc, List.cons_append, List.splitOn_append_cons_self, ← h]
    rw [hsplit, hcount, List.getElem?_append_right (Nat.le_refl _), Nat.sub_self,
      ← List.head?_eq_getElem?, hline]

end Place

namespace Token

/-- A symbol token covers its own name, on one line. -/
theorem symbol_occurs {source : String} {t : Token} (ht : t ∈ ofText source)
    (hkind : t.kind = .symbol) : ∃ before rest, source.toList = before ++ (t.value.toList ++ rest) ∧
      t.place = .after before ∧ '\n' ∉ t.value.toList := by
  obtain ⟨before, span, rest, htext, hplace, hspells⟩ := exists_spells ht (by simp [isEnd, hkind])
  rw [hkind] at hspells
  generalize t.value.toList = value at hspells
  cases hspells with
  | symbol _ hsymbol _ =>
    refine ⟨before, rest, by rw [htext, List.append_assoc], hplace, fun h => ?_⟩
    exact absurd (hsymbol _ h) (by decide)

end Token

namespace Editor

/-! ### What the index enters -/

section

variable {all : List Token} {found : Assoc Definition} {b : String × Definition}

/-- Every entry of the index comes from a parenthesis. -/
theorem mem_definitionsFrom {ts : List Token} {depth i : Nat} (hts : all.drop i = ts)
    (h : b ∈ definitionsFrom all found depth i ts) :
    b ∈ found ∨ ∃ j opener rest, all.drop j = opener :: rest ∧ opener.kind = .leftParen ∧
      definitionAt? all j = some b := by
  induction ts generalizing found depth i with
  | nil => exact .inl h
  | cons t ts ih =>
    have hnext : all.drop (i + 1) = ts := by
      rw [← List.drop_drop, hts, List.drop_succ_cons, List.drop_zero]
    rw [definitionsFrom] at h
    split at h
    · next hkind =>
      rcases ih hnext h with h | h
      · split at h
        · cases hat : definitionAt? all i with
          | none => rw [hat] at h; exact .inl h
          | some entry =>
            rw [hat] at h
            rcases Assoc.mem_insert h with rfl | h
            · exact .inr ⟨i, t, ts, hts, hkind, hat⟩
            · exact .inl h
        · exact .inl h
      · exact .inr h
    · exact ih hnext h
    · exact ih hnext h

/-- The first element of a list is its first token. A symbol is all of an element. -/
theorem elementStarts_eq_cons {ts : List Token} {i j : Nat} {js : List Nat}
    (h : (elementStarts 0 false i ts).1 = j :: js) : ∃ t rest, ts = t :: rest ∧ j = i ∧
      (t.kind = .symbol → (elementStarts 0 false (i + 1) rest).1 = js) := by
  cases ts with
  | nil => cases h
  | cons t rest =>
    rw [elementStarts] at h
    split at h
    · cases h
    split at h
    · cases h
    · next hend hclose =>
      have hclose' : (t.kind != .rightParen) = true := by simpa using hclose
      simp only [hclose', beq_self_eq_true, Bool.not_false, Bool.and_true, if_true] at h
      obtain ⟨rfl, hjs⟩ := List.cons.inj h
      refine ⟨t, rest, rfl, rfl, fun hkind => ?_⟩
      rw [← hjs, hkind]
      rfl

/-- **The name that a definition defines**, among the tokens after `define`: the next token, or the one after
another parenthesis. -/
inductive Names (name : Token) : List Token → Prop
  | variable (rest : List Token) : Names name (name :: rest)
  | function {opener : Token} (rest : List Token) (h : opener.kind = .leftParen) :
    Names name (opener :: name :: rest)

theorem names_of_definedName? {target : Nat} {further : List Nat} {name : Token} {kind : DefinitionKind}
    (h : definedName? all target further = some (name, kind)) :
    name.kind = .symbol ∧ Names name (all.drop target) := by
  have hdrop : ∀ {i : Nat} {t : Token}, all[i]? = some t → all.drop i = t :: all.drop (i + 1) :=
    fun {i t} hi => by
      obtain ⟨hlt, rfl⟩ := List.getElem?_eq_some_iff.mp hi
      exact List.drop_eq_getElem_cons hlt
  obtain ⟨t, ht, h⟩ := Option.bind_eq_some_iff.mp h
  rw [hdrop ht]
  split at h
  · next hopen =>
    obtain ⟨name', hname, h⟩ := Option.bind_eq_some_iff.mp h
    obtain ⟨hkind, heq⟩ := Option.ite_none_right_eq_some.mp h
    cases heq
    rw [hdrop hname]
    exact ⟨hkind, .function _ hopen⟩
  · next hkind =>
    have hname : name = t := by
      split at h
      · obtain ⟨p, -, heq⟩ := Option.bind_eq_some_iff.mp h
        cases heq
        rfl
      · cases h
        rfl
    exact ⟨hname ▸ hkind, hname ▸ .variable _⟩
  · cases h

/-- **A definition in the index is the list of a parenthesis, `define` and a name**, and the entry has the name
and where it stands. -/
theorem exists_of_definitionAt? {i : Nat} {opener : Token} {rest : List Token}
    (hopen : all.drop i = opener :: rest) (h : definitionAt? all i = some b) :
    ∃ head name kind more, rest = head :: more ∧ (head.kind = .symbol ∧ head.value = "define") ∧
      (name.kind = .symbol ∧ Names name more) ∧
      b = (name.value, ⟨kind, name.place.line - 1, name.place.column - 1⟩) := by
  have hrest : all.drop (i + 1) = rest := by
    rw [← List.drop_drop, hopen, List.drop_succ_cons, List.drop_zero]
  unfold definitionAt? at h
  split at h
  · next hd target further helements =>
    rw [elementsAt, hrest] at helements
    obtain ⟨head, more, rfl, rfl, hmore⟩ := elementStarts_eq_cons helements
    have hhead : all[i + 1]? = some head := by
      rw [← List.head?_drop, hrest]
      rfl
    have hmore' : all.drop (i + 2) = more := by
      rw [← List.drop_drop, hopen, List.drop_succ_cons, List.drop_succ_cons, List.drop_zero]
    rw [hhead] at h
    obtain ⟨hdefine, h⟩ := Option.ite_none_right_eq_some.mp h
    obtain ⟨⟨name, kind⟩, hname, heq⟩ := Option.bind_eq_some_iff.mp h
    cases heq
    obtain ⟨_, _, -, rfl, -⟩ := elementStarts_eq_cons (hmore hdefine.1)
    have hnames := names_of_definedName? hname
    rw [hmore'] at hnames
    exact ⟨head, name, kind, more, rfl, hdefine, hnames, rfl⟩
  · cases h

end

/-! ### The outline -/

/-- **Every symbol of the outline points at its name.** Of the line that its range is in, the range cuts out
the name, and the range to go to is the same. A symbol token with this name stands there, and it is the
name of a list that a parenthesis and `define` open. -/
theorem documentSymbols_names {source : String} {idx : Index} (h : Index.ofText source = .ok idx) :
    ∀ s ∈ documentSymbols idx,
      (s.selection = s.range ∧ s.range.endLine = s.range.startLine ∧
        ∃ line, (source.toList.splitOn '\n')[s.range.startLine]? = some line ∧
          line.extract s.range.startColumn s.range.endColumn = s.name.toList) ∧
      ∃ before opener head name rest, Token.ofText source = before ++ opener :: head :: rest ∧
        opener.kind = .leftParen ∧ (head.kind = .symbol ∧ head.value = "define") ∧ Names name rest ∧
        name.kind = .symbol ∧ name.value = s.name ∧
        name.place.line = s.range.startLine + 1 ∧ name.place.column = s.range.startColumn + 1 := by
  intro s hs
  obtain ⟨b, hb, rfl⟩ := List.mem_map.mp hs
  have hsymbols : idx.symbols = definitionsFrom (Token.ofText source) [] 0 0 (Token.ofText source) := by
    obtain ⟨issue, -, heq⟩ := Except.bind_eq_ok.mp h
    cases heq
    rfl
  rw [hsymbols] at hb
  rcases mem_definitionsFrom List.drop_zero hb with hb | ⟨i, opener, rest, hdrop, hopen, hat⟩
  · cases hb
  · obtain ⟨head, name, kind, more, rfl, hdefine, ⟨hkind, hname⟩, rfl⟩ := exists_of_definitionAt? hdrop hat
    have htokens : Token.ofText source = (Token.ofText source).take i ++ opener :: head :: more := by
      rw [← hdrop, List.take_append_drop]
    have hmem : name ∈ Token.ofText source := by
      rw [htokens]
      cases hname <;> simp
    obtain ⟨before, after, htext, hplace, hnewline⟩ := Token.symbol_occurs hmem hkind
    have hline : name.place.line = before.count '\n' + 1 := by rw [hplace]; exact Nat.add_comm 1 _
    have hcolumn : name.place.column = (Place.lastLine before).length + 1 := by
      rw [hplace, Place.column_after, Nat.add_comm]
    refine ⟨⟨rfl, rfl, Place.lastLine before ++ name.value.toList ++ after.takeWhile (· ≠ '\n'), ?_, ?_⟩,
      _, opener, head, name, more, htokens, hopen, hdefine, hname, hkind, rfl, ?_, ?_⟩
    · have hfound := Place.getElem?_splitOn_count before (name.value.toList ++ after)
      rw [← htext, List.takeWhile_append_of_pos, ← List.append_assoc] at hfound
      · simp only [Range.onLine, hline, Nat.add_sub_cancel]
        exact hfound
      · simpa using fun c hc => ne_of_mem_of_not_mem hc hnewline
    · simp only [Range.onLine, hcolumn, Nat.add_sub_cancel]
      rw [← String.length_toList, ← List.length_append]
      exact Token.extract_append _ _ _
    · simp only [Range.onLine, hline, Nat.add_sub_cancel]
    · simp only [Range.onLine, hcolumn, Nat.add_sub_cancel]

/-- A text that ends inside two definitions, after a string of two lines, a name with a character of four bytes
and a comment. -/
def unbalanced : String := "\"a\nb\" (define 𝑥y 1) ; é\n (define (g y"

/-- The second name in it is found in its third line. -/
theorem documentSymbols_names_unbalanced : ∃ idx, Index.ofText unbalanced = .ok idx ∧ idx.balance = 2 ∧
    ⟨"g", .function, .onLine 2 10 1, .onLine 2 10 1⟩ ∈ documentSymbols idx ∧
    (∃ line, (unbalanced.toList.splitOn '\n')[2]? = some line ∧ line.extract 10 11 = ['g']) ∧
    ∃ before opener head name rest, Token.ofText unbalanced = before ++ opener :: head :: rest ∧
      opener.kind = .leftParen ∧ (head.kind = .symbol ∧ head.value = "define") ∧ Names name rest ∧
      name.kind = .symbol ∧ name.value = "g" ∧ name.place.line = 3 ∧ name.place.column = 11 := by
  have hindex : Index.ofText unbalanced = .ok ⟨[("𝑥y", ⟨.variable_, 1, 11⟩), ("g", ⟨.function, 2, 10⟩)], 2,
      some ⟨"Expected ')' at end of list", 2, 13⟩⟩ := by with_unfolding_all rfl
  have hmem : ⟨"g", .function, .onLine 2 10 1, .onLine 2 10 1⟩ ∈ documentSymbols
      ⟨[("𝑥y", ⟨.variable_, 1, 11⟩), ("g", ⟨.function, 2, 10⟩)], 2,
        some ⟨"Expected ')' at end of list", 2, 13⟩⟩ := by decide
  obtain ⟨⟨-, -, hline⟩, htoken⟩ := documentSymbols_names hindex _ hmem
  exact ⟨_, hindex, rfl, hmem, hline, htoken⟩

end Editor

end MiniLisp
