import MiniLisp.Editor.Server
import MiniLisp.Frames.Text
import MiniLisp.Host.Tree
import MiniLisp.Main
import MiniLisp.Token.Text
import MiniLisp.Proofs.Builtin.Comparison
import MiniLisp.Proofs.Builtin.Extremum
import MiniLisp.Proofs.Builtin.Rounded
import MiniLisp.Proofs.Datum.Failures
import MiniLisp.Proofs.Datum.Layout
import MiniLisp.Proofs.Datum.Prefix
import MiniLisp.Proofs.Editor.Agreement
import MiniLisp.Proofs.Editor.Diagnostics
import MiniLisp.Proofs.Editor.Session
import MiniLisp.Proofs.Eval.Encapsulation
import MiniLisp.Proofs.Eval.Finite
import MiniLisp.Proofs.Eval.Names
import MiniLisp.Proofs.Eval.ShortCircuit
import MiniLisp.Proofs.Frames.Scope
import MiniLisp.Proofs.Number.Recognisers
import MiniLisp.Proofs.Program
import MiniLisp.Proofs.Repl
import MiniLisp.Proofs.StandardLibrary.Lists
import MiniLisp.Proofs.Token.Spans
import MiniLisp.Proofs.Value.Dates
import MiniLisp.Proofs.Value.Order
import MiniLisp.Proofs.Builtin.Substrings
import MiniLisp.Proofs.DateTime.Instants
import MiniLisp.Proofs.DateTime.Notations
import MiniLisp.Proofs.Editor.Outline
import MiniLisp.Proofs.Editor.Words
import MiniLisp.Proofs.Editor.Callee
import MiniLisp.Proofs.Editor.Nested
import MiniLisp.Proofs.Scripts
