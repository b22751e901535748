/-!
# Classes of characters given by ranges

A class of characters is a list of ranges of code points, each with its first and its last member.
`Ranges.contains` is membership. The classes that the library needs are tables of such ranges, one
module for each property.
-/

namespace CueGraph.Text

abbrev Ranges := List (Nat × Nat)

/-- A character belongs to a class when some range of the class holds its code point. -/
def Ranges.contains (ranges : Ranges) (c : Char) : Bool :=
  ranges.any fun range => range.1 ≤ c.toNat && c.toNat ≤ range.2

theorem Ranges.contains_iff {ranges : Ranges} {c : Char} :
    ranges.contains c = true ↔ ∃ range ∈ ranges, range.1 ≤ c.toNat ∧ c.toNat ≤ range.2 := by
  simp [Ranges.contains]

end CueGraph.Text
