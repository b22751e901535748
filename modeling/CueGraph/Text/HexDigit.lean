/-!
# Hexadecimal digits

The digits from 0 to 9, and the letters from A to F in either case.
-/

namespace CueGraph.Text

/-- The value of a hexadecimal digit, and nothing for any other character. -/
def hexValue? (c : Char) : Option Nat :=
  if c.isDigit then some (c.toNat - '0'.toNat)
  else if 'a' ≤ c ∧ c ≤ 'f' then some (c.toNat - 'a'.toNat + 10)
  else if 'A' ≤ c ∧ c ≤ 'F' then some (c.toNat - 'A'.toNat + 10)
  else none

end CueGraph.Text
