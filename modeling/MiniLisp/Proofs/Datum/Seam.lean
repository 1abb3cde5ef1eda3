import MiniLisp.Proofs.Datum.Grammar
import MiniLisp.Proofs.Token.Seam

/-! # Reading texts one after the other

What tokens read as does not depend on where they stand (`ofTokens_of_content`). So two texts on lines of
their own read as the data of the one and then the data of the other (`readAll_seam`). -/

namespace MiniLisp

open Token

namespace Reading

theorem step_of_content {r r' : Reading} {t u : Token} (h : content t = content u)
    (ht : r.step t = .ok r') : r.step u = .ok r' := by
  obtain ⟨hkind, hvalue⟩ := Prod.mk.inj h
  unfold step at ht ⊢
  rw [← hkind, ← hvalue]
  split at ht
  · split at ht <;> simp_all
  · exact ht
  · exact ht
  · split at ht <;> simp_all
  · exact ht
  · exact ht
  · split at ht <;> simp_all
  · exact ht

theorem steps_of_content : ∀ {ts us : List Token} {r r' : Reading},
    ts.map content = us.map content → r.steps ts = .ok r' → r.steps us = .ok r'
  | [], [], _, _, _, hts => hts
  | t :: ts, u :: us, r, r', h, hts => by
    obtain ⟨htu, hrest⟩ := List.cons.inj h
    rw [steps] at hts
    split at hts
    · next r₁ ht =>
      rw [steps, step_of_content htu ht]
      exact steps_of_content hrest hts
    · cases hts

end Reading

namespace Datum

open MiniLisp.Derivation

theorem map_content_beforeEnd (ts : List Token) :
    (beforeEnd ts).map content = (ts.map content).takeWhile (fun k => !(k.1 == .endOfInput)) := by
  rw [List.takeWhile_map]
  rfl

/-- **What tokens read as does not depend on where they stand.** -/
theorem ofTokens_of_content {ts us : List Token} {ds : List Datum}
    (h : ts.map content = us.map content) (hts : ofTokens ts = .ok ds) : ofTokens us = .ok ds := by
  have hbefore : (beforeEnd ts).map content = (beforeEnd us).map content := by
    rw [map_content_beforeEnd, map_content_beforeEnd, h]
  unfold ofTokens at hts
  split at hts
  · next r hr =>
    rw [ofTokens, Reading.steps_of_content hbefore hr]
    unfold Reading.finish at hts
    split at hts
    · next hopened =>
      cases hts
      simp only [Reading.finish, hopened]
    · cases hts
    · cases hts
  · cases hts

/-- Tokens before an end and then others read as the data of both. -/
theorem ofTokens_append {ts us : List Token} {p : Place} {ds es : List Datum}
    (hend : ∀ t ∈ ts, t.isEnd = false) (hts : ofTokens (ts ++ [.atEnd p]) = .ok ds)
    (hus : ofTokens us = .ok es) : ofTokens (ts ++ us) = .ok (ds ++ es) := by
  obtain ⟨ps, hps, rfl⟩ := ofTokens_eq_ok_iff.1 hts
  obtain ⟨qs, hqs, rfl⟩ := ofTokens_eq_ok_iff.1 hus
  have hbefore : beforeEnd (ts ++ [.atEnd p]) = ts := beforeEnd_append_cons hend rfl []
  refine ofTokens_eq_ok_iff.2 ⟨ps ++ qs, ?_, by simp only [data_eq_map, List.map_append]⟩
  rw [tokensOfAll_append, hps, hqs, hbefore, beforeEnd_append hend]

/-- **Texts on lines of their own are read one after the other.** -/
theorem readAll_seam {a b : String} {ds es : List Datum} (hends : Terminated a.toList)
    (ha : readAll a = .ok ds) (hb : readAll b = .ok es) :
    readAll (a ++ "\n" ++ b) = .ok (ds ++ es) := by
  obtain ⟨ts, hts, hend⟩ := exists_scanFrom_eq a.toList .start
  have htokens : ofText (a ++ "\n" ++ b) =
      ts ++ scanFrom (Place.start.advanceAll (a.toList ++ ['\n'])) b.toList := by
    have hseam := scanFrom_seam b.toList hends .start
    rw [hts, List.dropLast_concat] at hseam
    rw [ofText, String.toList_append, String.toList_append, List.append_assoc]
    exact hseam
  rw [readAll, ofText, hts] at ha
  rw [readAll, htokens]
  exact ofTokens_append hend ha (ofTokens_of_content (content_scanFrom _ _ _) hb)

/-- Texts without quotation marks that read as one datum each read, on lines of their own, as their
data. -/
theorem readAll_intercalate : ∀ {parts : List (String × Datum)},
    (∀ p ∈ parts, '"' ∉ p.1.toList ∧ readAll p.1 = .ok [p.2]) →
      readAll ("\n".intercalate (parts.map (·.1))) = .ok (parts.map (·.2))
  | [], _ => by with_unfolding_all rfl
  | [p], h => by
    rw [List.map_singleton, String.intercalate_singleton, (h p List.mem_cons_self).2]
    rfl
  | p :: q :: parts, h => by
    rw [List.forall_mem_cons] at h
    rw [List.map_cons, List.map_cons, String.intercalate_cons_cons]
    exact readAll_seam (terminated_of_notMem h.1.1) h.1.2 (readAll_intercalate h.2)

end Datum

end MiniLisp
