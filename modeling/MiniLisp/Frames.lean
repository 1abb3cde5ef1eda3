import MiniLisp.Assoc
import MiniLisp.Value.Basic

/-!
# Frames of variables

The frames of a program form a forest. A frame binds names to values, in the order in which the names
were first bound, and knows the frames that enclose it, nearest first; this never changes. A frame and
those that enclose it are its chain. A name is looked up in the nearest frame of the chain that binds
it (`find?`), assigning changes the binding there (`assign?`), and defining binds the name in the frame
itself (`define`).

A host may call a variable by its symbol or by the symbol's name as a string (`Frames.Key`); only the name
counts. It may also ask of any value whether it names a variable that is bound (`contains`).
-/

namespace MiniLisp

/-- The bindings of one frame. -/
abbrev Bindings := Assoc Value

/-- A frame: its bindings and the frames that enclose it, nearest first. -/
structure Frame where
  vars : Bindings
  enclosing : List FrameId
  deriving Inhabited

/-- The frames of a program, by number. -/
structure Frames where
  all : Array Frame

namespace Frames

/-- No frames. -/
def empty : Frames := ⟨#[]⟩

/-- The number of frames, which is the number of the next one. -/
def size (fs : Frames) : Nat := fs.all.size

/-- The bindings of a frame, none if there is no such frame. -/
def vars (fs : Frames) (i : FrameId) : Bindings :=
  match fs.all[i]? with
  | some f => f.vars
  | none => []

/-- The frames that enclose a frame, nearest first. -/
def enclosing (fs : Frames) (i : FrameId) : List FrameId :=
  match fs.all[i]? with
  | some f => f.enclosing
  | none => []

/-- A frame and the frames that enclose it. -/
def chain (fs : Frames) (i : FrameId) : List FrameId := i :: fs.enclosing i

/-- The value of a name in one frame. -/
def get? (fs : Frames) (i : FrameId) (name : String) : Option Value := Assoc.get? name (fs.vars i)

/-- The nearest frame of a chain that binds a name. -/
def find? (fs : Frames) (i : FrameId) (name : String) : Option FrameId :=
  (fs.chain i).find? fun j => (fs.get? j name).isSome

/-- The value of a name in the nearest frame of a chain that binds it. -/
def lookup? (fs : Frames) (i : FrameId) (name : String) : Option Value :=
  (fs.chain i).findSome? fun j => fs.get? j name

/-- Binds a name in a frame. -/
def define (fs : Frames) (i : FrameId) (name : String) (v : Value) : Frames :=
  ⟨fs.all.modify i fun f => { f with vars := Assoc.insert name v f.vars }⟩

/-- Binds some names in a frame, in order. -/
def defineAll (fs : Frames) (i : FrameId) (bindings : List (String × Value)) : Frames :=
  bindings.foldl (fun fs b => fs.define i b.1 b.2) fs

/-- Changes a name's binding in the nearest frame that has one. -/
def assign? (fs : Frames) (i : FrameId) (name : String) (v : Value) : Option Frames :=
  (fs.find? i name).map fun j => fs.define j name v

/-- Adds a frame that nothing encloses. -/
def addRoot (fs : Frames) : Frames := ⟨fs.all.push ⟨[], []⟩⟩

/-- Adds a frame that a frame encloses; its number is the number of frames before. -/
def addChild (fs : Frames) (i : FrameId) : Frames := ⟨fs.all.push ⟨[], fs.chain i⟩⟩

/-! ### What a host calls a variable by -/

/-- A symbol, or a string. -/
inductive Key where
  | symbol (name : String)
  | string (name : String)

namespace Key

/-- The name of the variable. -/
def name : Key → String
  | .symbol name => name
  | .string name => name

/-- The key that a value is; only symbols and strings are keys. -/
def ofValue? : Value → Option Key
  | .symbol name => some (.symbol name)
  | .string name => some (.string name)
  | _ => none

end Key

/-- Whether a value names a variable that some frame of a chain binds. -/
def contains (fs : Frames) (i : FrameId) (v : Value) : Bool :=
  match Key.ofValue? v with
  | some key => (fs.find? i key.name).isSome
  | none => false

end Frames

end MiniLisp
