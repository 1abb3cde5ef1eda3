import MiniLisp.Token.Lexer

/-! # How a text is cut

Cutting a text skips blanks and comments, cuts off one token, and goes on with the rest; `cutting` is the
induction along these steps. So the tokens of a text are tokens of the text itself and then, at the place
after its last character, the end (`exists_scanFrom_eq`); and where a text starts moves the places of its
tokens but changes neither their kinds nor their values (`content_scanFrom`). -/

namespace MiniLisp.Token

/-! ### One step -/

theorem scanFrom_of_skip_nil {p : Place} {cs : List Char} (h : (skip false cs).2 = []) :
    scanFrom p cs = [.atEnd (p.advanceAll (skip false cs).1)] := by
  unfold scanFrom
  split
  · rfl
  · next h' =>
    rw [h] at h'
    cases h'

theorem scanFrom_of_skip_cons {p : Place} {c : Char} {cs rest : List Char}
    (h : (skip false cs).2 = c :: rest) :
    scanFrom p cs =
      ⟨(scan c rest).kind, String.ofList (scan c rest).value, p.advanceAll (skip false cs).1⟩ ::
        scanFrom ((p.advanceAll (skip false cs).1).advanceAll (scan c rest).span)
          (scan c rest).rest := by
  rw [scanFrom]
  split
  · next h' =>
    rw [h] at h'
    cases h'
  · next h' =>
    rw [h] at h'
    cases h'
    rfl

theorem cut_append {c : Char} {cs rest : List Char} (h : (skip false cs).2 = c :: rest) :
    (skip false cs).1 ++ (scan c rest).span ++ (scan c rest).rest = cs := by
  rw [List.append_assoc, scan_append, ← h, skip_append]

/-- **Induction on a text as it is cut**: nothing but blanks and comments is left, or a token is cut off
after them. -/
@[elab_as_elim]
theorem cutting {P : List Char → Prop} (blank : ∀ cs, (skip false cs).2 = [] → P cs)
    (token : ∀ cs c rest, (skip false cs).2 = c :: rest → P (scan c rest).rest → P cs)
    (cs : List Char) : P cs := by
  cases h : (skip false cs).2 with
  | nil => exact blank cs h
  | cons c rest => exact token cs c rest h (cutting blank token (scan c rest).rest)
termination_by cs.length
decreasing_by
  have hskip := congrArg List.length (skip_append false cs)
  have hscan := length_scan_rest_lt c rest
  simp only [List.length_append, h] at hskip
  omega

theorem stringBody_cons {c : Char} (hslash : c ≠ '\\') (hquote : c ≠ '"') (cs : List Char) :
    stringBody (c :: cs) = (c :: (stringBody cs).1, (stringBody cs).2) := by
  rw [stringBody]
  · exact hquote
  · exact fun _ _ h _ => hslash h

theorem dateText?_append_of_some {c : Char} {cs text : List Char} (h : dateText? c cs = some text)
    (rest : List Char) : dateText? c (cs ++ rest) = some (text ++ rest) := by
  obtain ⟨rfl, rfl⟩ := List.cons.inj (eq_of_dateText? h)
  rfl

/-- What follows does not complete the mark of a date, unless it starts with a character of the mark. -/
theorem dateText?_append_of_none {c : Char} {cs rest : List Char} (h : dateText? c cs = none)
    (hrest : ∀ r ∈ rest.head?, r ≠ 'd' ∧ r ≠ '"') : dateText? c (cs ++ rest) = none := by
  cases ht : dateText? c (cs ++ rest) with
  | none => rfl
  | some text =>
    obtain ⟨rfl, heq⟩ := List.cons.inj (eq_of_dateText? ht)
    match cs, h, heq with
    | [], _, heq =>
      have hrest' : rest = 'd' :: '"' :: text := heq
      exact absurd rfl (hrest 'd' (by rw [hrest']; rfl)).1
    | [d], _, heq =>
      have hrest' : rest = '"' :: text := (List.cons.inj heq).2
      exact absurd rfl (hrest '"' (by rw [hrest']; rfl)).2
    | d :: q :: cs, h, heq =>
      simp only [List.cons_append, List.cons.injEq] at heq
      obtain ⟨rfl, rfl, -⟩ := heq
      cases h

/-! ### All tokens -/

theorem scan_kind_ne_endOfInput (c : Char) (cs : List Char) : (scan c cs).kind ≠ .endOfInput := by
  unfold scan
  repeat' split
  all_goals exact Kind.noConfusion

/-- **The tokens of a text** come before its end, which stands after its last character. -/
theorem exists_scanFrom_eq (cs : List Char) : ∀ p : Place,
    ∃ ts, scanFrom p cs = ts ++ [.atEnd (p.advanceAll cs)] ∧ ∀ t ∈ ts, t.isEnd = false := by
  induction cs using cutting with
  | blank cs h =>
    intro p
    have hall := skip_append false cs
    rw [h, List.append_nil] at hall
    refine ⟨[], ?_, by simp⟩
    rw [scanFrom_of_skip_nil h, hall, List.nil_append]
  | token cs c rest h ih =>
    intro p
    obtain ⟨ts, hts, hend⟩ := ih ((p.advanceAll (skip false cs).1).advanceAll (scan c rest).span)
    let t : Token :=
      ⟨(scan c rest).kind, String.ofList (scan c rest).value, p.advanceAll (skip false cs).1⟩
    have ht : t.isEnd = false := by simpa [t, isEnd] using scan_kind_ne_endOfInput c rest
    refine ⟨t :: ts, ?_, List.forall_mem_cons.2 ⟨ht, hend⟩⟩
    rw [scanFrom_of_skip_cons h, hts, ← Place.advanceAll_append, ← Place.advanceAll_append,
      ← List.append_assoc, cut_append h, List.cons_append]

/-- What a token is, wherever it stands. -/
def content (t : Token) : Kind × String := (t.kind, t.value)

/-- **Tokens do not depend on where the text starts.** -/
theorem content_scanFrom (cs : List Char) : ∀ p q : Place,
    (scanFrom p cs).map content = (scanFrom q cs).map content := by
  induction cs using cutting with
  | blank cs h =>
    intro p q
    rw [scanFrom_of_skip_nil h, scanFrom_of_skip_nil h]
    rfl
  | token cs c rest h ih =>
    intro p q
    rw [scanFrom_of_skip_cons h, scanFrom_of_skip_cons h, List.map_cons, List.map_cons, ih]
    rfl

end MiniLisp.Token
