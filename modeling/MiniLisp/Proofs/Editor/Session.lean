import Mathlib.Data.List.Forall2
import MiniLisp.Editor.Server

/-! # Sessions of the editor's server

What the server holds of a document is decided by the last notification about that document: its text and
the index of this text, or nothing if there was none or it was that the document was closed
(`document?_receiveAll`). So a session publishes the marks of every text that it is told, and answers for
each document from its latest text alone, whatever it is told about others (`session_documents`). -/

namespace MiniLisp.Editor

/-! ### Notifications -/

namespace Notification

/-- The document that the notification is about. -/
def uri : Notification → String
  | opened uri _ => uri
  | changed uri _ => uri
  | closed uri => uri

/-- The text that the document has from now on, none if it is closed. -/
def text? : Notification → Option String
  | opened _ text => some text
  | changed _ text => some text
  | closed _ => none

/-- The text has an index. -/
def Indexed (n : Notification) : Prop := ∀ text ∈ n.text?, ∃ idx, Index.ofText text = .ok idx

/-- The last notification about a document. -/
def last? (uri : String) (ns : List Notification) : Option Notification :=
  (ns.filter (·.uri == uri)).getLast?

/-- The latest text of a document, none if it has been closed since then or has never had one. -/
def latestText? (uri : String) (ns : List Notification) : Option String := (last? uri ns).bind text?

theorem last?_cons (uri : String) (n : Notification) (ns : List Notification) :
    last? uri (n :: ns) = (last? uri ns).or (if n.uri = uri then some n else none) := by
  unfold last?
  by_cases h : n.uri = uri
  · have hfilter : (n :: ns).filter (·.uri == uri) = n :: ns.filter (·.uri == uri) := by simp [h]
    rw [hfilter, List.getLast?_cons, if_pos h]
    cases (ns.filter (·.uri == uri)).getLast? <;> rfl
  · have hfilter : (n :: ns).filter (·.uri == uri) = ns.filter (·.uri == uri) := by simp [h]
    rw [hfilter, if_neg h, Option.or_none]

end Notification

/-- A text with its index. -/
def Document.ofText? (text : String) : Option Document :=
  (Index.ofText text).toOption.map (Document.mk text)

theorem Document.ofText?_eq_some {text : String} {idx : Index} (h : Index.ofText text = .ok idx) :
    ofText? text = some ⟨text, idx⟩ := by
  rw [ofText?, h]
  rfl

/-- **The publication that a notification asks for**: the marks of the new text, and none for a document
that is closed. -/
structure Publishes (n : Notification) (p : Publication) : Prop where
  uri : p.uri = n.uri
  marks : match n.text? with
    | some text => ∃ idx, Index.ofText text = .ok idx ∧ p.marks = diagnostics idx
    | none => p.marks = []

namespace Server

variable {s s' : Server} {n : Notification}

theorem document?_insert (s : Server) (uri uri' : String) (d : Document) :
    document? ⟨Assoc.insert uri d s.documents⟩ uri' =
      if uri = uri' then some d else s.document? uri' := by
  rw [document?, Assoc.get?_insert]
  by_cases h : uri = uri'
  · rw [if_pos h, if_pos h.symm]
  · rw [if_neg h, if_neg (Ne.symm h), document?]

theorem document?_close (s : Server) (uri uri' : String) :
    (s.close uri).document? uri' = if uri = uri' then none else s.document? uri' := by
  rw [document?, close, Assoc.get?_erase]
  by_cases h : uri = uri'
  · rw [if_pos h, if_pos h.symm]
  · rw [if_neg h, if_neg (Ne.symm h), document?]

/-! ### One notification -/

theorem update_eq {text : String} {idx : Index} (h : Index.ofText text = .ok idx) (s : Server)
    (uri : String) :
    s.update uri text = .ok (diagnostics idx, ⟨Assoc.insert uri ⟨text, idx⟩ s.documents⟩) := by
  rw [update, h]

/-- **One notification** about a text with an index is taken: its document is what it says from then
on, and the others are as before. -/
theorem exists_receive (s : Server) (hn : n.Indexed) :
    ∃ p s', s.receive n = .ok (p, s') ∧ Publishes n p ∧ ∀ uri, s'.document? uri =
      if n.uri = uri then n.text?.bind Document.ofText? else s.document? uri := by
  have htext : ∀ uri text, n.uri = uri → n.text? = some text →
      (∀ {marks s'}, s.update uri text = .ok (marks, s') → s.receive n = .ok (⟨uri, marks⟩, s')) →
      ∃ p s', s.receive n = .ok (p, s') ∧ Publishes n p ∧ ∀ uri, s'.document? uri =
        if n.uri = uri then n.text?.bind Document.ofText? else s.document? uri := by
    intro uri text huri htext hr
    obtain ⟨idx, hidx⟩ := hn text htext
    refine ⟨_, _, hr (update_eq hidx s uri), ⟨huri.symm, ?_⟩, fun uri' => ?_⟩
    · rw [htext]
      exact ⟨idx, hidx, rfl⟩
    · rw [document?_insert, huri, htext, Option.bind_some, Document.ofText?_eq_some hidx]
  cases n with
  | opened uri text => exact htext uri text rfl rfl fun h => by rw [receive, h]; rfl
  | changed uri text => exact htext uri text rfl rfl fun h => by rw [receive, h]; rfl
  | closed uri => exact ⟨_, _, rfl, ⟨rfl, rfl⟩, document?_close s uri⟩

/-! ### All notifications -/

/-- **After some notifications** every document is what the last notification about it says, or what it
was before if there was none. -/
theorem exists_receiveAll {ns : List Notification} (hns : ∀ n ∈ ns, n.Indexed) (s : Server) :
    ∃ ps s', s.receiveAll ns = .ok (ps, s') ∧ List.Forall₂ Publishes ns ps ∧
      ∀ uri, s'.document? uri =
        match Notification.last? uri ns with
        | some n => n.text?.bind Document.ofText?
        | none => s.document? uri := by
  induction ns generalizing s with
  | nil => exact ⟨[], s, rfl, .nil, fun uri => rfl⟩
  | cons n ns ih =>
    rw [List.forall_mem_cons] at hns
    obtain ⟨p, s₁, hr, hp, hone⟩ := exists_receive s hns.1
    obtain ⟨ps, s', hrs, hps, hall⟩ := ih hns.2 s₁
    refine ⟨p :: ps, s', ?_, .cons hp hps, fun uri => ?_⟩
    · rw [receiveAll, hr]
      change (s₁.receiveAll ns >>= fun r => _) = _
      rw [hrs]
      rfl
    · rw [hall uri, Notification.last?_cons]
      cases Notification.last? uri ns with
      | some n' => rfl
      | none =>
        rw [Option.none_or, hone uri]
        by_cases h : n.uri = uri
        · rw [if_pos h, if_pos h]
        · rw [if_neg h, if_neg h]

/-- A new server holds the latest text of each document, with its index. -/
theorem exists_receiveAll_empty {ns : List Notification} (hns : ∀ n ∈ ns, n.Indexed) :
    ∃ ps s, empty.receiveAll ns = .ok (ps, s) ∧ List.Forall₂ Publishes ns ps ∧
      ∀ uri, s.document? uri = (Notification.latestText? uri ns).bind Document.ofText? := by
  obtain ⟨ps, s, hr, hps, hs⟩ := exists_receiveAll hns empty
  refine ⟨ps, s, hr, hps, fun uri => ?_⟩
  rw [hs uri, Notification.latestText?]
  cases Notification.last? uri ns with
  | none => rfl
  | some n => rfl

/-- A latest text is that of one of the notifications. -/
theorem exists_index_of_latestText? {ns : List Notification} (hns : ∀ n ∈ ns, n.Indexed)
    {uri text : String} (h : Notification.latestText? uri ns = some text) :
    ∃ idx, Index.ofText text = .ok idx := by
  obtain ⟨n, hlast, htext⟩ := Option.bind_eq_some_iff.1 h
  have hmem : n ∈ ns := (List.mem_filter.1 (List.mem_of_getLast? hlast)).1
  exact hns n hmem text htext

/-- **A session answers for each document from its latest text alone.** Notifications about texts that
have an index are all taken. Each publishes the marks of its text, or none if it closes the document.
Afterwards the server holds the latest text of each document with the index of exactly that text, and
nothing of a document that is not open. Another session that is told the same about a document gives the
same answers for it, whatever the two are told about other documents. -/
theorem session_documents (ns : List Notification) (hns : ∀ n ∈ ns, n.Indexed) :
    ∃ ps s, empty.receiveAll ns = .ok (ps, s) ∧ List.Forall₂ Publishes ns ps ∧
      (∀ uri, match Notification.latestText? uri ns with
        | some text => ∃ idx, Index.ofText text = .ok idx ∧ s.document? uri = some ⟨text, idx⟩
        | none => s.document? uri = none) ∧
      ∀ uri ns', (∀ n ∈ ns', n.Indexed) →
        ns'.filter (·.uri == uri) = ns.filter (·.uri == uri) →
        ∃ ps' s', empty.receiveAll ns' = .ok (ps', s') ∧
          (∀ p, s'.hover? uri p = s.hover? uri p ∧
            s'.signatureHelp? uri p = s.signatureHelp? uri p) ∧
          s'.completions uri = s.completions uri ∧
          s'.documentSymbols? uri = s.documentSymbols? uri := by
  obtain ⟨ps, s, hr, hps, hs⟩ := exists_receiveAll_empty hns
  refine ⟨ps, s, hr, hps, fun uri => ?_, fun uri ns' hns' hsame => ?_⟩
  · have hdocument := hs uri
    cases hlatest : Notification.latestText? uri ns with
    | none => rwa [hlatest] at hdocument
    | some text =>
      obtain ⟨idx, hidx⟩ := exists_index_of_latestText? hns hlatest
      rw [hlatest, Option.bind_some, Document.ofText?_eq_some hidx] at hdocument
      exact ⟨idx, hidx, hdocument⟩
  · obtain ⟨ps', s', hr', -, hs'⟩ := exists_receiveAll_empty hns'
    have hlatest : Notification.latestText? uri ns' = Notification.latestText? uri ns := by
      rw [Notification.latestText?, Notification.last?, hsame, Notification.latestText?,
        Notification.last?]
    have hdocument : s'.document? uri = s.document? uri := by rw [hs' uri, hs uri, hlatest]
    refine ⟨ps', s', hr', fun p => ⟨?_, ?_⟩, ?_, ?_⟩
    · rw [hover?, hover?, hdocument]
    · rw [signatureHelp?, signatureHelp?, hdocument]
    · rw [completions, completions, hdocument]
    · rw [documentSymbols?, documentSymbols?, hdocument]

/-- A session in which one document changes while another one is opened and closed. -/
def interleaved : List Notification :=
  [.opened "a" "(define f", .opened "b" "(define x 1)", .changed "a" "(define f 2)", .closed "b"]

/-- The first document has its second text, the second one is gone, and for the first one the server
answers as if it were alone. -/
theorem session_documents_interleaved : (∀ n ∈ interleaved, n.Indexed) ∧
    ∃ ps s, empty.receiveAll interleaved = .ok (ps, s) ∧ List.Forall₂ Publishes interleaved ps ∧
      s.document? "a" = some ⟨"(define f 2)", ⟨[("f", ⟨.variable_, 0, 8⟩)], 0, none⟩⟩ ∧
      s.document? "b" = none ∧
      ∃ ps' s', empty.receiveAll [.opened "a" "(define f", .changed "a" "(define f 2)"] =
          .ok (ps', s') ∧
        s'.hover? "a" ⟨0, 9⟩ = s.hover? "a" ⟨0, 9⟩ := by
  have hopened : ∃ idx, Index.ofText "(define f" = .ok idx :=
    ⟨⟨[("f", ⟨.variable_, 0, 8⟩)], 1, some ⟨"Expected ')' at end of list", 0, 9⟩⟩, by
      with_unfolding_all rfl⟩
  have hother : ∃ idx, Index.ofText "(define x 1)" = .ok idx :=
    ⟨⟨[("x", ⟨.variable_, 0, 8⟩)], 0, none⟩, by with_unfolding_all rfl⟩
  have hchanged : Index.ofText "(define f 2)" = .ok ⟨[("f", ⟨.variable_, 0, 8⟩)], 0, none⟩ := by
    with_unfolding_all rfl
  have hns : ∀ n ∈ interleaved, n.Indexed := by
    simp [interleaved, Notification.Indexed, Notification.text?, hopened, hother, hchanged]
  have hns' : ∀ n ∈ [.opened "a" "(define f", .changed "a" "(define f 2)"],
      Notification.Indexed n := by
    simp [Notification.Indexed, Notification.text?, hopened, hchanged]
  obtain ⟨ps, s, hr, hps, hs, hanswers⟩ := session_documents interleaved hns
  obtain ⟨idx, hidx, hdocument⟩ := hs "a"
  cases hchanged.symm.trans hidx
  obtain ⟨ps', s', hr', hplaces, -⟩ := hanswers "a" _ hns' (by simp [interleaved, Notification.uri])
  exact ⟨hns, ps, s, hr, hps, hdocument, hs "b", ps', s', hr', (hplaces ⟨0, 9⟩).1⟩

end Server

end MiniLisp.Editor
