/-!
# Doubles

A finite double is a sign and the pattern of its magnitude: the lower 63 bits of its binary form,
read as a natural number. Patterns are ordered as the magnitudes are, so comparing doubles is
comparing integers (`Finite.rank`), and every magnitude is a whole number of units of 2^-1074
(`unitsOf`).

Main statement: `unitsOf_lt_unitsOf` (a larger pattern is a larger magnitude).
-/

namespace CueGraph

/-- The first pattern beyond the finite doubles. -/
def patternLimit : Nat := 2047 * Nat.pow 2 52

/-- The number of units in one: a magnitude is a whole number of units of 2^-1074. -/
def unitsPerOne : Nat := Nat.pow 2 1074

/-- The magnitude of a pattern in units of 2^-1074: the fraction of 52 bits, completed by a leading
one and moved left when the exponent is not the lowest. -/
def unitsOf (pattern : Nat) : Nat :=
  let exponent := pattern / Nat.pow 2 52
  let fraction := pattern % Nat.pow 2 52
  if exponent = 0 then fraction else (Nat.pow 2 52 + fraction) * Nat.pow 2 (exponent - 1)

/-- A finite double. Zero has two forms, which differ in the sign. -/
structure Finite where
  negative : Bool
  pattern : Nat
  pattern_lt : pattern < patternLimit
  deriving DecidableEq

/-- A double: finite, infinite, or not a number. -/
inductive Double where
  | finite (x : Finite)
  | infinite (negative : Bool)
  | notANumber
  deriving DecidableEq

namespace Finite

def zero : Finite := ⟨false, 0, by decide⟩

/-- Minus zero, equal to zero in every comparison. -/
def negativeZero : Finite := ⟨true, 0, by decide⟩

def one : Finite := ⟨false, 1023 * Nat.pow 2 52, by decide⟩

def half : Finite := ⟨false, 1022 * Nat.pow 2 52, by decide⟩

instance : Inhabited Finite := ⟨zero⟩

/-- The place of a double among all doubles in ascending order; both zeros are at zero. -/
def rank (x : Finite) : Int := if x.negative then -(x.pattern : Int) else x.pattern

instance : LT Finite := ⟨fun x y => x.rank < y.rank⟩

instance : LE Finite := ⟨fun x y => x.rank ≤ y.rank⟩

instance (x y : Finite) : Decidable (x < y) := inferInstanceAs (Decidable (x.rank < y.rank))

instance (x y : Finite) : Decidable (x ≤ y) := inferInstanceAs (Decidable (x.rank ≤ y.rank))

/-- Equal in value: the two zeros are. -/
def Same (x y : Finite) : Prop := x.rank = y.rank

instance (x y : Finite) : Decidable (Same x y) := inferInstanceAs (Decidable (x.rank = y.rank))

def isZero (x : Finite) : Bool := x.pattern == 0

def isPositive (x : Finite) : Bool := zero < x

def units (x : Finite) : Nat := unitsOf x.pattern

/-- The value as an integer, when it is whole. -/
def toInt? (x : Finite) : Option Int :=
  if x.units % unitsPerOne = 0 then
    let magnitude : Int := (x.units / unitsPerOne : Nat)
    some (if x.negative then -magnitude else magnitude)
  else none

/-- The 64 bits of the double as a natural number. -/
def bits (x : Finite) : Nat := (if x.negative then Nat.pow 2 63 else 0) + x.pattern

theorem lt_iff_rank_lt {x y : Finite} : x < y ↔ x.rank < y.rank := Iff.rfl

theorem le_iff_rank_le {x y : Finite} : x ≤ y ↔ x.rank ≤ y.rank := Iff.rfl

theorem isZero_iff_rank {x : Finite} : x.isZero = true ↔ x.rank = 0 := by
  simp only [isZero, rank, beq_iff_eq]; split <;> omega

end Finite

theorem unitsOf_lt_unitsOf {p q : Nat} (h : p < q) : unitsOf p < unitsOf q := by
  have hp : p % 2 ^ 52 < 2 ^ 52 := Nat.mod_lt _ (by decide)
  have hq : q % 2 ^ 52 < 2 ^ 52 := Nat.mod_lt _ (by decide)
  have hdp := Nat.div_add_mod p (2 ^ 52)
  have hdq := Nat.div_add_mod q (2 ^ 52)
  have hle : p / 2 ^ 52 ≤ q / 2 ^ 52 := Nat.div_le_div_right (Nat.le_of_lt h)
  simp only [unitsOf, Nat.pow_eq]
  by_cases hp0 : p / 2 ^ 52 = 0
  · by_cases hq0 : q / 2 ^ 52 = 0
    · simp only [hp0, hq0, ↓reduceIte] at *; omega
    · simp only [hp0, hq0, ↓reduceIte]
      have := Nat.one_le_two_pow (n := q / 2 ^ 52 - 1)
      calc p % 2 ^ 52 < 2 ^ 52 + q % 2 ^ 52 := by omega
        _ ≤ (2 ^ 52 + q % 2 ^ 52) * 2 ^ (q / 2 ^ 52 - 1) := Nat.le_mul_of_pos_right _ this
  · have hq0 : q / 2 ^ 52 ≠ 0 := by omega
    simp only [hp0, hq0, ↓reduceIte]
    rcases Nat.eq_or_lt_of_le hle with he | hl
    · rw [he]
      exact Nat.mul_lt_mul_of_pos_right (by rw [he] at hdp; omega) (Nat.two_pow_pos _)
    · calc (2 ^ 52 + p % 2 ^ 52) * 2 ^ (p / 2 ^ 52 - 1)
          < 2 ^ 52 * 2 * 2 ^ (p / 2 ^ 52 - 1) :=
            Nat.mul_lt_mul_of_pos_right (by omega) (Nat.two_pow_pos _)
        _ = 2 ^ 52 * 2 ^ (p / 2 ^ 52 - 1 + 1) := by
            rw [Nat.mul_assoc, Nat.mul_comm 2, ← Nat.pow_succ]
        _ ≤ 2 ^ 52 * 2 ^ (q / 2 ^ 52 - 1) :=
            Nat.mul_le_mul_left _ (Nat.pow_le_pow_right (by decide) (by omega))
        _ ≤ (2 ^ 52 + q % 2 ^ 52) * 2 ^ (q / 2 ^ 52 - 1) :=
            Nat.mul_le_mul_right _ (by omega)

end CueGraph
