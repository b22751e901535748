import CueGraph.Number.Rounding

/-!
# The shortest decimal of a double

Every double lies on the decimal grid of step 10^-1074. `shortestFrom` goes from coarse grids to
finer ones and stops at the first that has a point which reads back as the double; of two such
points the nearer counts, and of two equally near ones the even. A coarser grid means fewer digits,
so this is the shortest decimal for the double.

Main statement: `patternOfDecimal_gridPoint` (a point that is chosen reads back).
-/

namespace CueGraph

structure Decimal where
  digits : Nat
  exponent : Int
  deriving DecidableEq

/-- Whether the point `c` of the grid of step `10 ^ e` reads back as the pattern. -/
def readsBack (pattern c : Nat) (e : Int) : Bool := patternOfDecimal c e == pattern

/-- Of the two natural numbers next to the quotient `n / d`, the one that is accepted, or the nearer
if both are. -/
def acceptedNeighbour (accept : Nat → Bool) (n d : Nat) : Option Nat :=
  if accept (n / d) then
    if accept (n / d + 1) then some (roundHalfEven n d) else some (n / d)
  else if accept (n / d + 1) then some (n / d + 1)
  else none

/-- The point of the grid of step `10 ^ e` that stands for the pattern: a neighbour of the double on
the grid that reads back. -/
def gridPoint (pattern : Nat) (e : Int) : Option Nat :=
  acceptedNeighbour (readsBack pattern · e) (unitsOf pattern * Nat.pow 10 (-e).toNat)
    (unitsPerOne * Nat.pow 10 e.toNat)

/-- The first result on the way down from a number to one, or `last` if there is none. -/
def downFrom {α : Type} (find : Nat → Option α) (last : α) : Nat → α
  | 0 => last
  | n + 1 =>
    match find (n + 1) with
    | some result => result
    | none => downFrom find last n

/-- The decimal on the grid of step `10 ^ (fineness - 1074)` that stands for the pattern. -/
def gridDecimal (pattern fineness : Nat) : Option Decimal :=
  let e : Int := fineness - 1074
  (gridPoint pattern e).map (⟨·, e⟩)

/-- The pattern itself, on the finest grid. -/
def finestDecimal (pattern : Nat) : Decimal := ⟨unitsOf pattern * Nat.pow 5 1074, -1074⟩

/-- The first grid with a point for the pattern, from the step `10 ^ (fineness - 1074)` on to finer
ones. On the finest grid the double itself is a point. -/
def shortestFrom (pattern fineness : Nat) : Decimal :=
  downFrom (gridDecimal pattern) (finestDecimal pattern) fineness

/-- The shortest decimal that reads back as the pattern. The search starts at a grid whose step is
more than twice the magnitude, where no point but zero is near: a binary digit is worth 0.30103
decimal ones. -/
def shortest (pattern : Nat) : Decimal :=
  shortestFrom pattern ((unitsOf pattern).log2 * 30103 / 100000 + 753)

theorem roundHalfEven_eq_or (n d : Nat) :
    roundHalfEven n d = n / d ∨ roundHalfEven n d = n / d + 1 := by
  simp only [roundHalfEven]
  split
  · exact .inl rfl
  · split
    · exact .inr rfl
    · rcases Nat.mod_two_eq_zero_or_one (n / d) with h0 | h1
      · exact .inl (by rw [h0, Nat.add_zero])
      · exact .inr (by rw [h1])

theorem accept_of_acceptedNeighbour {accept : Nat → Bool} {n d c : Nat}
    (h : acceptedNeighbour accept n d = some c) : accept c = true := by
  have := roundHalfEven_eq_or n d
  simp only [acceptedNeighbour] at h
  grind

theorem patternOfDecimal_gridPoint {pattern c : Nat} {e : Int} (h : gridPoint pattern e = some c) :
    patternOfDecimal c e = pattern := by
  simpa [readsBack] using accept_of_acceptedNeighbour h

end CueGraph
