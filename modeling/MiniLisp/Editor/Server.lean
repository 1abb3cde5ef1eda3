import MiniLisp.Editor.Features

/-!
# The editor's server

The server keeps, for every document that is open, its latest text and the index of that text. Opening
and changing a document publish its diagnostics; closing publishes that there are none.
-/

namespace MiniLisp.Editor

/-- A document: its text and the index of it. -/
structure Document where
  text : String
  index : Index

/-- The documents by their names. -/
structure Server where
  documents : Assoc Document

/-- What an editor tells the server about a document: that it was opened with a text, that its text is
another one now, or that it was closed. -/
inductive Notification where
  | opened (uri text : String)
  | changed (uri text : String)
  | closed (uri : String)
  deriving DecidableEq, Repr

/-- What the server tells an editor: the marks in a document, in place of all that it told before. -/
structure Publication where
  uri : String
  marks : List Diagnostic
  deriving DecidableEq, Repr

namespace Server

def empty : Server := ⟨[]⟩

/-- Takes a document's new text; gives its diagnostics. -/
def update (s : Server) (uri text : String) : Except Failure (List Diagnostic × Server) :=
  match Index.ofText text with
  | .ok index =>
    .ok (diagnostics index, { s with documents := Assoc.insert uri ⟨text, index⟩ s.documents })
  | .error e => .error e

/-- Forgets a document. -/
def close (s : Server) (uri : String) : Server :=
  { s with documents := Assoc.erase uri s.documents }

def document? (s : Server) (uri : String) : Option Document := Assoc.get? uri s.documents

/-- Takes a notification; gives what is published. -/
def receive (s : Server) : Notification → Except Failure (Publication × Server)
  | .opened uri text | .changed uri text => do
    let (marks, s) ← s.update uri text
    return (⟨uri, marks⟩, s)
  | .closed uri => return (⟨uri, []⟩, s.close uri)

/-- Takes notifications one after the other; gives all that is published. -/
def receiveAll (s : Server) : List Notification → Except Failure (List Publication × Server)
  | [] => .ok ([], s)
  | n :: ns => do
    let (p, s) ← s.receive n
    let (ps, s) ← s.receiveAll ns
    return (p :: ps, s)

/-- What is shown at a position. -/
def hover? (s : Server) (uri : String) (p : Position) : Option String :=
  (s.document? uri).bind fun d => Editor.hover? d.text d.index p

/-- The names that may be completed. -/
def completions (s : Server) (uri : String) : List Completion :=
  Editor.completions (((s.document? uri).map (·.index)).getD .empty)

/-- The signature of the call that is typed before a position. -/
def signatureHelp? (s : Server) (uri : String) (p : Position) : Option SignatureHelp :=
  (s.document? uri).bind fun d => Editor.signatureHelp? d.text p

/-- The outline of a document. -/
def documentSymbols? (s : Server) (uri : String) : Option (List DocumentSymbol) :=
  (s.document? uri).map fun d => Editor.documentSymbols d.index

end Server

end MiniLisp.Editor
