import MiniLisp.Host.Path
import MiniLisp.Text.Utf8

/-!
# The host

What a program asks the machine that it runs on: which file or directory a path leads to, and what an
environment variable is set to. Asking changes nothing.
-/

namespace MiniLisp

/-- What a path leads to. It is blocked by a file that stands where the path needs a directory; one that
is overlong or invalid is past the limits of paths and leads nowhere. The host forbids nothing: every path
may be looked up, and every file may be read. -/
inductive FileStatus where
  | missing
  | blocked
  | overlong
  | invalid
  | directory
  | file (bytes : List UInt8)

/-- The files and the environment variables. -/
structure Host where
  look : Path → FileStatus
  var? : String → Option String

namespace Host

/-- Whether a path leads to a file. An overlong path has no answer. -/
def isFile (h : Host) (p : Path) : Except Failure Bool :=
  match h.look p with
  | .file _ => .ok true
  | .overlong => .error (.unreadableFile (.overlong p.text))
  | _ => .ok false

/-- Whether a path leads to a directory. An overlong path has no answer. -/
def isDirectory (h : Host) (p : Path) : Except Failure Bool :=
  match h.look p with
  | .directory => .ok true
  | .overlong => .error (.unreadableFile (.overlong p.text))
  | _ => .ok false

/-- The text of a file. -/
def readText (h : Host) (p : Path) : Except Failure String :=
  match h.look p with
  | .missing => .error (.unreadableFile (.missing p.text))
  | .blocked => .error (.unreadableFile (.blocked p.text))
  | .overlong => .error (.unreadableFile (.overlong p.text))
  | .invalid => .error .invalidPath
  | .directory => .error (.unreadableFile (.directory p.text))
  | .file bytes =>
    match Text.decode bytes with
    | .ok cs => .ok (String.ofList (Text.unifyLineEnds cs))
    | .error fault => .error (.badEncoding fault)

end Host

end MiniLisp
