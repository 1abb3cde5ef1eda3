import Mathlib.Data.List.Basic
import MiniLisp.Text.Blank

/-! # Pieces and words

A text without separators is part of one piece together with the start of what follows (`pieces_append`).
So the first word of a text is the first run of characters that are not blank (`head?_words`). -/

namespace MiniLisp.Text

theorem pieces_append {separates : Char → Bool} {rest piece : List Char} {more : List (List Char)}
    (hrest : pieces separates rest = piece :: more) : ∀ {cs : List Char},
      (∀ c ∈ cs, separates c = false) → pieces separates (cs ++ rest) = (cs ++ piece) :: more
  | [], _ => hrest
  | c :: cs, hcs => by
    rw [List.forall_mem_cons] at hcs
    simp [pieces, hcs.1, pieces_append hrest hcs.2]

theorem pieces_eq_singleton {separates : Char → Bool} {cs : List Char}
    (hcs : ∀ c ∈ cs, separates c = false) : pieces separates cs = [cs] := by
  have hnil : pieces separates [] = [[]] := rfl
  have h := pieces_append hnil hcs
  rwa [List.append_nil] at h

theorem words_cons_of_isBlank {c : Char} (hc : isBlank c = true) (cs : List Char) :
    words (c :: cs) = words cs := by
  simp [words, pieces, hc]

/-- **The first word** has nothing but blanks in front of it, and the end or a blank after it. -/
theorem head?_words {word rest : List Char} (hne : word ≠ []) (hword : ∀ c ∈ word, isBlank c = false)
    (hrest : ∀ c ∈ rest.head?, isBlank c = true) : ∀ {blanks : List Char},
      (∀ c ∈ blanks, isBlank c = true) → (words (blanks ++ (word ++ rest))).head? = some word
  | c :: blanks, hblanks => by
    rw [List.forall_mem_cons] at hblanks
    rw [List.cons_append, words_cons_of_isBlank hblanks.1, head?_words hne hword hrest hblanks.2]
  | [], _ => by
    have hpieces : ∃ more, pieces isBlank rest = [] :: more := by
      cases rest with
      | nil => exact ⟨[], rfl⟩
      | cons c cs => exact ⟨pieces isBlank cs, by simp [pieces, hrest c rfl]⟩
    obtain ⟨more, hpieces⟩ := hpieces
    have hfirst : word.isEmpty = false := by simpa using hne
    rw [List.nil_append, words, pieces_append hpieces hword, List.append_nil,
      List.filter_cons_of_pos (by simp [hfirst]), List.head?_cons]

end MiniLisp.Text
