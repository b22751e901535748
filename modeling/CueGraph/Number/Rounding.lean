import CueGraph.Number.Double

/-!
# Rounding to a double

`Finite.ofRatio` is the double nearest to a quotient of naturals, a tie going to the even pattern,
and nothing when that is beyond the finite doubles. `Finite.ofInt` rounds an integer and
`Finite.ofDecimal` a decimal in scientific form.

Main statements: `two_mul_roundHalfEven_le` and `le_two_mul_roundHalfEven` (the rounded quotient is
within a half).
-/

namespace CueGraph

/-- The quotient rounded to the nearest natural number, a half to the even one. -/
def roundHalfEven (n d : Nat) : Nat :=
  let quotient := n / d
  let rest := n % d
  if 2 * rest < d then quotient
  else if d < 2 * rest then quotient + 1
  else quotient + quotient % 2

/-- The pattern nearest to the magnitude `n / d`. Where the magnitude has more than 53 binary digits
before the unit, the last `shift` of them are rounded away; a carry out of the fraction is a carry
into the exponent. -/
def patternOfRatio (n d : Nat) : Nat :=
  let scaled := n * unitsPerOne
  let shift := (scaled / d).log2 - 52
  shift * Nat.pow 2 52 + roundHalfEven scaled (d * Nat.pow 2 shift)

/-- The pattern nearest to the magnitude `digits * 10 ^ exponent`. -/
def patternOfDecimal (digits : Nat) (exponent : Int) : Nat :=
  patternOfRatio (digits * Nat.pow 10 exponent.toNat) (Nat.pow 10 (-exponent).toNat)

namespace Finite

/-- The double with this sign and pattern, when the pattern is that of a finite double. -/
def ofPattern? (negative : Bool) (pattern : Nat) : Option Finite :=
  if h : pattern < patternLimit then some ⟨negative, pattern, h⟩ else none

/-- The double nearest to a quotient, when it is finite. -/
def ofRatio (negative : Bool) (n d : Nat) : Option Finite :=
  ofPattern? negative (patternOfRatio n d)

def ofInt (i : Int) : Option Finite := ofRatio (i < 0) i.natAbs 1

/-- The double nearest to `digits * 10 ^ exponent`, when it is finite. Exponents far outside the
range of the doubles are settled by their size alone. -/
def ofDecimal (negative : Bool) (digits : Nat) (exponent : Int) : Option Finite :=
  if digits = 0 then some { zero with negative }
  -- beyond the largest double, or far below half of the smallest
  else if 309 < exponent then none
  else if exponent + digits.log2 < -330 then some { zero with negative }
  else ofPattern? negative (patternOfDecimal digits exponent)

end Finite

theorem two_mul_roundHalfEven_le (n d : Nat) (h : 0 < d) :
    2 * d * roundHalfEven n d ≤ 2 * n + d := by
  have hn := Nat.div_add_mod n d
  have hr := Nat.mod_lt n h
  have he : 2 * d * (n / d) = 2 * (d * (n / d)) := Nat.mul_assoc ..
  have hm : 2 * d * (n / d + 1) = 2 * d * (n / d) + 2 * d := Nat.mul_succ ..
  simp only [roundHalfEven]
  split
  · omega
  · split
    · omega
    · rcases Nat.mod_two_eq_zero_or_one (n / d) with h0 | h1
      · rw [h0, Nat.add_zero]; omega
      · rw [h1]; omega

theorem le_two_mul_roundHalfEven (n d : Nat) (h : 0 < d) :
    2 * n ≤ 2 * d * roundHalfEven n d + d := by
  have hn := Nat.div_add_mod n d
  have hr := Nat.mod_lt n h
  have he : 2 * d * (n / d) = 2 * (d * (n / d)) := Nat.mul_assoc ..
  have hm : 2 * d * (n / d + 1) = 2 * d * (n / d) + 2 * d := Nat.mul_succ ..
  simp only [roundHalfEven]
  split
  · omega
  · split
    · omega
    · rcases Nat.mod_two_eq_zero_or_one (n / d) with h0 | h1
      · rw [h0, Nat.add_zero]; omega
      · rw [h1]; omega

end CueGraph
