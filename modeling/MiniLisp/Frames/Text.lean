import MiniLisp.Frames
import MiniLisp.Value.Text

/-!
# Frames for the inspector

How a frame is shown: by its bindings in order, alone with a mark if something encloses it
(`inspectFrame`), or with its whole chain, of which the outermost frame is only counted (`inspectChain`).
-/

namespace MiniLisp.Frames

/-- A binding for the inspector. -/
def inspectBinding (b : String × Value) : Except Failure String := do
  return b.1 ++ ": " ++ (← b.2.inspect)

/-- The bindings of a frame. -/
def inspectVars (vars : Bindings) : Except Failure String := do
  return "\x7b" ++ ", ".intercalate (← vars.mapM inspectBinding) ++ "\x7d"

/-- A frame without those that enclose it. -/
def inspectFrame (fs : Frames) (i : FrameId) : Except Failure String := do
  return (← inspectVars (fs.vars i)) ++ if (fs.enclosing i).isEmpty then "" else " -> ..."

/-- A frame of a chain. -/
def inspectLink (fs : Frames) (i : FrameId) : Except Failure String :=
  if (fs.enclosing i).isEmpty then
    .ok ("<global: " ++ toString (fs.vars i).length ++ " bindings>")
  else inspectVars (fs.vars i)

/-- A frame with those that enclose it, innermost first. -/
def inspectChain (fs : Frames) (i : FrameId) : Except Failure String := do
  return "<Environment chain: " ++ " -> ".intercalate (← (fs.chain i).mapM (fs.inspectLink ·)) ++ ">"

end MiniLisp.Frames
