import CueGraph.Text.Pieces

/-!
# Paths

A path is a list of names, from the root of the files or from the present folder. Empty names and
single dots mean nothing and are left out; two dots are kept, since a folder need not lead back to
where it was entered.
-/

namespace CueGraph

/-- A path. The number of slashes in front is 0 for the present folder, and 1 or 2 for a root. -/
structure Path where
  slashes : Nat
  names : List String
  deriving DecidableEq

namespace Path

/-- The path that a text names. More than two slashes in front are one. -/
def ofString (s : String) : Path :=
  let slashes := (s.toList.takeWhile (· == '/')).length
  { slashes := if slashes ≤ 2 then slashes else 1
    names := ((Text.pieces '/' s.toList).map String.ofList).filter fun name =>
      name != "" && name != "." }

/-- The text of a path; the present folder is a dot. -/
def toString (p : Path) : String :=
  if p.slashes = 0 ∧ p.names = [] then "."
  else String.ofList (List.replicate p.slashes '/') ++ "/".intercalate p.names

/-- The folder that holds what the path names. -/
def parent (p : Path) : Path := { p with names := p.names.dropLast }

end Path

end CueGraph
