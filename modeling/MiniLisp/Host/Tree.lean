import MiniLisp.Host.Basic

/-!
# A directory tree

A host's files given as a list: paths below the current directory with what they lead to. A directory
is there if it is listed or if something in it is. A path is followed name by name, and every name but
the last must lead to a directory that is there, also before two dots, which lead back. Of what is
outside the current directory only the directories around it are known, up to the root.
-/

namespace MiniLisp

/-- The files below the current directory. -/
abbrev Tree := List (List String × FileStatus)

namespace Tree

/-- What some names lead to from the current directory on, without dots. -/
def status (t : Tree) (names : List String) : FileStatus :=
  if names.isEmpty then .directory
  else match t.find? (·.1 == names) with
    | some (_, s) => s
    | none => if t.any fun e => names.isPrefixOf e.1 then .directory else .missing

/-- What some names lead to from a directory outside the tree. -/
def statusOutside : List String → FileStatus
  | [] => .directory
  | name :: names =>
    if name = ".." then statusOutside names
    else if Path.isOverlongName name then .overlong
    else .missing

/-- Follows names from a place, given as its names from the innermost on. -/
def follow (t : Tree) : List String → List String → FileStatus
  | place, [] => t.status place.reverse
  | place, name :: names =>
    match t.status place.reverse with
    | .directory =>
      if name = ".." then
        match place with
        | [] => statusOutside names
        | _ :: outer => follow t outer names
      else if Path.isOverlongName name then .overlong
      else follow t (name :: place) names
    | .file _ => .blocked
    | other => other

/-- What a path leads to. -/
def look (t : Tree) (p : Path) : FileStatus :=
  if !p.isValid then .invalid
  else if p.isOverlong then .overlong
  else if p.root = "" then t.follow [] p.names
  else statusOutside p.names

end Tree

end MiniLisp
