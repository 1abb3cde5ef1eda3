import MiniLisp.Proofs.Token.Cutting

/-! # Texts on lines of their own

A line break between two texts ends whatever the first one leaves open: a comment, a number, a symbol, or a
mark that could have started something longer. Only a string or a date takes line breaks along. So a text
whose strings and dates have their ends is cut as if nothing followed (`scanFrom_seam`). -/

namespace MiniLisp.Token

/-- Whether a string ends in the text after its quotation mark. -/
def stringEnds : List Char → Bool
  | [] => false
  | '"' :: _ => true
  | '\\' :: _ :: cs => stringEnds cs
  | _ :: cs => stringEnds cs

/-- Whether the token that starts with a character has its end, if it is one that needs one. -/
def ends (c : Char) (cs : List Char) : Bool :=
  if c = '"' then stringEnds cs
  else match dateText? c cs with
    | some text => text.contains '"'
    | none => true

/-- **Every string and every date has its end.** -/
inductive Terminated : List Char → Prop where
  | blank {cs : List Char} (h : (skip false cs).2 = []) : Terminated cs
  | token {cs rest : List Char} {c : Char} (h : (skip false cs).2 = c :: rest)
      (hends : ends c rest = true) (hrest : Terminated (scan c rest).rest) : Terminated cs

/-- Without quotation marks there is no string and no date. -/
theorem terminated_of_notMem {cs : List Char} : '"' ∉ cs → Terminated cs := by
  induction cs using cutting with
  | blank cs h => exact fun _ => .blank h
  | token cs c rest h ih =>
    intro hcs
    have hskip := skip_append false cs
    rw [h] at hskip
    have hstart : '"' ∉ c :: rest := fun hmem => hcs (by
      rw [← hskip]
      exact List.mem_append_right _ hmem)
    have hleft : '"' ∉ (scan c rest).rest := fun hmem => hcs (by
      rw [← cut_append h]
      exact List.mem_append_right _ hmem)
    refine .token h ?_ (ih hleft)
    have hquote : c ≠ '"' := fun hc => hstart (by rw [hc]; exact List.mem_cons_self)
    rw [ends, if_neg hquote]
    cases hdate : dateText? c rest with
    | none => rfl
    | some text => exact absurd (by rw [eq_of_dateText? hdate]; simp) hstart

/-! ### What is cut off before a line break -/

variable (ds : List Char)

theorem skip_seam_of_nil {comment : Bool} {cs : List Char} (h : (skip comment cs).2 = []) :
    skip comment (cs ++ '\n' :: ds) = (cs ++ '\n' :: (skip false ds).1, (skip false ds).2) := by
  have hblank : Text.isBlank '\n' = true := by decide
  fun_induction skip comment cs with
  | case1 comment => cases comment <;> simp [skip, hblank]
  | case2 c cs skipped rest hrec ih =>
    rw [hrec] at ih
    simp [skip, ih h]
  | case3 comment c cs hcomment hc skipped rest hrec ih =>
    rw [hrec] at ih
    simp [skip, hcomment, hc, ih h]
  | case4 comment cs hcomment skipped rest hrec hc ih =>
    rw [hrec] at ih
    simp [skip, hcomment, hc, ih h]
  | case5 => cases h

theorem skip_seam_of_cons {comment : Bool} {cs rest : List Char} {c : Char}
    (h : (skip comment cs).2 = c :: rest) :
    skip comment (cs ++ '\n' :: ds) = ((skip comment cs).1, c :: (rest ++ '\n' :: ds)) := by
  fun_induction skip comment cs with
  | case1 => cases h
  | case2 d cs skipped left hrec ih =>
    rw [hrec] at ih
    simp [skip, ih h]
  | case3 comment d cs hcomment hd skipped left hrec ih =>
    rw [hrec] at ih
    simp [skip, hcomment, hd, ih h]
  | case4 comment cs hcomment skipped left hrec hd ih =>
    rw [hrec] at ih
    simp [skip, hcomment, hd, ih h]
  | case5 comment d cs hcomment hd hsemicolon =>
    cases h
    simp [skip, hcomment, hd, hsemicolon]

theorem stringBody_append_of_ends {cs : List Char} (h : stringEnds cs = true) :
    stringBody (cs ++ ds) = ((stringBody cs).1, (stringBody cs).2 ++ ds) := by
  fun_induction stringEnds cs with
  | case1 => cases h
  | case2 => rfl
  | case3 d cs ih => simp [stringBody, ih h]
  | case4 d cs hquote hslash ih =>
    have hd : d ≠ '\\' := by
      rintro rfl
      cases cs with
      | nil => cases h
      | cons e cs => exact hslash e cs rfl rfl
    rw [List.cons_append, stringBody_cons hd hquote, stringBody_cons hd hquote, ih h]

theorem dateBody_append_of_mem {cs : List Char} (h : '"' ∈ cs) :
    dateBody (cs ++ ds) = ((dateBody cs).1, (dateBody cs).2 ++ ds) := by
  induction cs with
  | nil => cases h
  | cons c cs ih =>
    rw [List.cons_append, dateBody, dateBody]
    split
    · rfl
    · next hc => rw [ih ((List.mem_cons.1 h).resolve_left (Ne.symm hc))]

theorem numberBody_seam (point : Bool) (cs : List Char) :
    numberBody point (cs ++ '\n' :: ds) =
      ((numberBody point cs).1, (numberBody point cs).2 ++ '\n' :: ds) := by
  have hdigit : Text.isDigit '\n' = false := by decide
  fun_induction numberBody point cs <;> simp_all [numberBody]

theorem startsNumber_seam (c : Char) (cs : List Char) :
    startsNumber c (cs ++ '\n' :: ds) = startsNumber c cs := by
  have hdigit : Text.isDigit '\n' = false := by decide
  cases cs with
  | nil => simp [startsNumber, hdigit]
  | cons d cs => rfl

theorem takeWhile_inSymbol_seam (cs : List Char) :
    (cs ++ '\n' :: ds).takeWhile inSymbol = cs.takeWhile inSymbol := by
  have hbreak : inSymbol '\n' = false := by decide
  induction cs with
  | nil => simp [hbreak]
  | cons c cs ih => simp only [List.cons_append, List.takeWhile_cons, ih]

theorem dropWhile_inSymbol_seam (cs : List Char) :
    (cs ++ '\n' :: ds).dropWhile inSymbol = cs.dropWhile inSymbol ++ '\n' :: ds := by
  have hbreak : inSymbol '\n' = false := by decide
  induction cs with
  | nil => simp [hbreak]
  | cons c cs ih =>
    simp only [List.cons_append, List.dropWhile_cons, ih]
    split <;> rfl

/-- **A token that has its end** is cut off before a line break as it is at the end of the text. -/
theorem scan_seam {c : Char} {cs : List Char} (h : ends c cs = true) :
    scan c (cs ++ '\n' :: ds) = { scan c cs with rest := (scan c cs).rest ++ '\n' :: ds } := by
  unfold ends at h
  unfold scan
  split; · rfl
  split; · rfl
  split; · rfl
  split
  · next hc =>
    rw [if_pos hc] at h
    rw [stringBody_append_of_ends _ h]
  · next hquote =>
    rw [if_neg hquote] at h
    cases hdate : dateText? c cs with
    | some text =>
      rw [hdate] at h
      rw [dateText?_append_of_some hdate]
      simp only [dateBody_append_of_mem _ (List.contains_iff_mem.1 h)]
    | none =>
      rw [dateText?_append_of_none hdate (by simp), startsNumber_seam]
      dsimp only
      split
      · rw [numberBody_seam]
      · rw [takeWhile_inSymbol_seam, dropWhile_inSymbol_seam]

/-! ### All tokens -/

theorem scanFrom_ne_nil (p : Place) (cs : List Char) : scanFrom p cs ≠ [] := by
  obtain ⟨ts, hts, -⟩ := exists_scanFrom_eq cs p
  rw [hts]
  exact List.append_ne_nil_of_right_ne_nil _ (List.cons_ne_nil _ _)

/-- **Cutting two texts with a line break between them** cuts the one, and then the other. -/
theorem scanFrom_seam {cs : List Char} (h : Terminated cs) : ∀ p : Place,
    scanFrom p (cs ++ '\n' :: ds) =
      (scanFrom p cs).dropLast ++ scanFrom (p.advanceAll (cs ++ ['\n'])) ds := by
  -- token by token; the place is generalised because every token moves it
  induction h with
  | @blank cs h =>
    intro p
    -- nothing is left to cut, so what is skipped before the break and after it is skipped at once
    have hskip := skip_seam_of_nil ds h
    have hplace : p.advanceAll (cs ++ '\n' :: (skip false ds).1) =
        (p.advanceAll (cs ++ ['\n'])).advanceAll (skip false ds).1 := by
      rw [← Place.advanceAll_append, List.append_assoc, List.singleton_append]
    rw [scanFrom_of_skip_nil h, List.dropLast_singleton, List.nil_append]
    cases hds : (skip false ds).2 with
    | nil => rw [scanFrom_of_skip_nil hds, scanFrom_of_skip_nil (by rw [hskip, hds]), hskip, hplace]
    | cons c rest =>
      rw [scanFrom_of_skip_cons hds, scanFrom_of_skip_cons (by rw [hskip, hds]), hskip, hplace]
  | @token cs rest c h hends _ ih =>
    intro p
    have hskip := skip_seam_of_cons ds h
    rw [scanFrom_of_skip_cons (by rw [hskip]), scanFrom_of_skip_cons h, hskip, scan_seam ds hends,
      List.dropLast_cons_of_ne_nil (scanFrom_ne_nil _ _), List.cons_append]
    dsimp only
    rw [ih, ← Place.advanceAll_append, ← Place.advanceAll_append, ← List.append_assoc, cut_append h]

end MiniLisp.Token
