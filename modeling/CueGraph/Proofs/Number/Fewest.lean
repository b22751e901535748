import Mathlib.Tactic.FieldSimp
import CueGraph.Number.Layout
import CueGraph.Proofs.Number.Nearest

/-!
# Shortest decimals

A decimal is shortest for a double when it is read as the double, has as few digits as any other
such decimal, and of those with as many digits lies nearest to the double, an even one first
(`IsShortest`). The search of `shortest` goes from coarse grids to finer ones, so what it finds is
on the coarsest grid with a point that is read as the double (`IsCoarsest`). A decimal with fewer
digits would be on a coarser grid, and one with as many digits on a finer grid is further away.

Main statements: `isCoarsest_shortest` (the search stops at the coarsest grid, at the nearest point)
and `isShortest_iff` (a double other than zero has one shortest decimal, the one that is found).
-/

namespace CueGraph

/-- How far a decimal is from a pattern, in units. -/
def Decimal.distance (d : Decimal) (p : ℕ) : ℚ := |d.units - unitsOf p|

/-- A decimal is nearer to a pattern than another one, or as near and even. -/
def Decimal.Beats (d d' : Decimal) (p : ℕ) : Prop :=
  d.distance p < d'.distance p ∨ d.distance p = d'.distance p ∧ (d' = d ∨ Even d.digits)

theorem Decimal.beats_self (d : Decimal) (p : ℕ) : d.Beats d p := .inr ⟨rfl, .inl rfl⟩

theorem Decimal.beats_of_even {d d' : Decimal} {p : ℕ} (h : d.distance p ≤ d'.distance p)
    (heven : Even d.digits) : d.Beats d' p := h.lt_or_eq.imp_right fun h => ⟨h, .inr heven⟩

theorem Decimal.distance_lt_of_below {d d' : Decimal} {p : ℕ} (h : d'.units < d.units)
    (hle : d.units ≤ unitsOf p) : d.distance p < d'.distance p := by
  rw [distance, distance, abs_of_nonpos (by linarith), abs_of_nonpos (by linarith)]
  linarith

theorem Decimal.distance_lt_of_above {d d' : Decimal} {p : ℕ} (h : d.units < d'.units)
    (hle : unitsOf p ≤ d.units) : d.distance p < d'.distance p := by
  rw [distance, distance, abs_of_nonneg (by linarith), abs_of_nonneg (by linarith)]
  linarith

/-! ## The finest grid -/

theorem cast_mul_five_pow (c k : ℕ) :
    ((c * Nat.pow 5 k : ℕ) : ℚ) * 10 ^ (-(k : ℤ)) * (Nat.pow 2 k : ℕ) = c := by
  have hten : (10 : ℚ) ^ k = 5 ^ k * 2 ^ k := by rw [← mul_pow]; norm_num
  rw [zpow_neg, zpow_natCast, hten]
  push_cast [Nat.pow_eq]
  field_simp

/-- The finest grid holds every number of units. -/
theorem units_finest (c : ℕ) : Decimal.units ⟨c * Nat.pow 5 1074, -1074⟩ = c := by
  obtain ⟨k, hk, hone⟩ := unitsPerOne_eq
  have hexponent : (-1074 : ℤ) = -(k : ℤ) := by rw [hk, Nat.cast_ofNat]
  rw [Decimal.units, hone, hexponent, ← hk]
  exact cast_mul_five_pow c k

/-! ## The points of a grid -/

section Grid

variable {p c c' : ℕ} {e : ℤ}

/-- The last point of a grid up to a pattern. -/
def gridFloor (p : ℕ) (e : ℤ) : ℕ :=
  unitsOf p * Nat.pow 10 (-e).toNat / (unitsPerOne * Nat.pow 10 e.toNat)

theorem units_eq_mul (c : ℕ) (e : ℤ) : Decimal.units ⟨c, e⟩ = c * Decimal.units ⟨1, e⟩ := by
  simp only [Decimal.units]
  push_cast
  ring

theorem units_one_pos (e : ℤ) : 0 < Decimal.units ⟨1, e⟩ := by
  rw [Decimal.units, Nat.cast_one, one_mul]
  exact mul_pos (ten_zpow_pos e) unitsPerOne_pos

theorem gridStep_pos (e : ℤ) : 0 < unitsPerOne * Nat.pow 10 e.toNat :=
  Nat.mul_pos zero_lt_unitsPerOne (Nat.pow_pos (by decide))

/-- The quotient of `gridPoint` is that of the units and the step of the grid. -/
theorem cast_gridStep (e : ℤ) : ((unitsPerOne * Nat.pow 10 e.toNat : ℕ) : ℚ) =
    Decimal.units ⟨1, e⟩ * (Nat.pow 10 (-e).toNat : ℕ) := by
  have hdown : (10 : ℚ) ^ (-e).toNat ≠ 0 := by positivity
  simp only [Decimal.units, ten_zpow e]
  push_cast [Nat.pow_eq]
  generalize (unitsPerOne : ℚ) = one
  field_simp

theorem units_lt_units (h : c < c') : Decimal.units ⟨c, e⟩ < Decimal.units ⟨c', e⟩ := by
  rw [units_eq_mul c, units_eq_mul c']
  exact mul_lt_mul_of_pos_right (by exact_mod_cast h) (units_one_pos e)

theorem units_le_iff : Decimal.units ⟨c, e⟩ ≤ unitsOf p ↔ c ≤ gridFloor p e := by
  have hdown : (0 : ℚ) < (Nat.pow 10 (-e).toNat : ℕ) := by
    exact_mod_cast Nat.pow_pos (by decide)
  rw [gridFloor, Nat.le_div_iff_mul_le (gridStep_pos e), ← Nat.cast_le (α := ℚ), Nat.cast_mul,
    cast_gridStep, Nat.cast_mul, ← mul_assoc, ← units_eq_mul, mul_le_mul_iff_left₀ hdown]

theorem readsBack_iff : readsBack p c e = true ↔ RoundsTo (Decimal.units ⟨c, e⟩) p := by
  rw [readsBack, beq_iff_eq]
  exact patternOfDecimal_eq_iff (d := ⟨c, e⟩)

/-- A point of a grid that is half a step away at most, and even where it is that far, is beaten by
no other point of the grid. -/
theorem beats_of_nearestCount (h : NearestCount (unitsOf p) (Decimal.units ⟨1, e⟩) c) (c' : ℕ) :
    Decimal.Beats ⟨c, e⟩ ⟨c', e⟩ p := by
  have hstep := units_one_pos e
  have hdist : ∀ c : ℕ, Decimal.distance ⟨c, e⟩ p = |c * Decimal.units ⟨1, e⟩ - unitsOf p| :=
    fun c => by rw [Decimal.distance, units_eq_mul]
  generalize Decimal.units ⟨1, e⟩ = step at h hstep hdist
  rcases Nat.lt_trichotomy c' c with hlt | rfl | hgt
  · -- the other point is a step below at least
    have hother : (unitsOf p : ℚ) - c * step + step ≤ Decimal.distance ⟨c', e⟩ p := by
      have hmul : ((c' : ℚ) + 1) * step ≤ c * step :=
        mul_le_mul_of_nonneg_right (by exact_mod_cast hlt) hstep.le
      have habs := neg_le_abs ((c' : ℚ) * step - unitsOf p)
      rw [hdist]
      linarith
    rcases h.low with hlow | ⟨hlow, heven⟩
    · refine .inl (lt_of_lt_of_le ?_ hother)
      rw [hdist, abs_lt]
      constructor <;> linarith
    · refine Decimal.beats_of_even (le_trans ?_ hother) heven
      rw [hdist, abs_le]
      constructor <;> linarith
  · exact Decimal.beats_self _ p
  · have hother : c * step + step - (unitsOf p : ℚ) ≤ Decimal.distance ⟨c', e⟩ p := by
      have hmul : ((c : ℚ) + 1) * step ≤ c' * step :=
        mul_le_mul_of_nonneg_right (by exact_mod_cast hgt) hstep.le
      have habs := le_abs_self ((c' : ℚ) * step - unitsOf p)
      rw [hdist]
      linarith
    rcases h.up with hup | ⟨hup, heven⟩
    · refine .inl (lt_of_lt_of_le ?_ hother)
      rw [hdist, abs_lt]
      constructor <;> linarith
    · refine Decimal.beats_of_even (le_trans ?_ hother) heven
      rw [hdist, abs_le]
      constructor <;> linarith

/-- The pattern itself, if it is a point of a grid, is beaten by no other point of the grid. -/
theorem beats_of_units_eq (h : Decimal.units ⟨c, e⟩ = unitsOf p) (c' : ℕ) :
    Decimal.Beats ⟨c, e⟩ ⟨c', e⟩ p := by
  rcases Nat.lt_trichotomy c' c with hlt | rfl | hgt
  · exact .inl (Decimal.distance_lt_of_below (units_lt_units hlt) h.le)
  · exact Decimal.beats_self _ p
  · exact .inl (Decimal.distance_lt_of_above (units_lt_units hgt) h.ge)

/-- Where a neighbour of a pattern on a grid does not read back, no point beyond it does. -/
theorem le_gridFloor_of_not (h : ¬readsBack p (gridFloor p e + 1) e = true)
    (hc : RoundsTo (Decimal.units ⟨c, e⟩) p) : c ≤ gridFloor p e := by
  by_contra hlt
  have hbeyond : (unitsOf p : ℚ) ≤ Decimal.units ⟨gridFloor p e + 1, e⟩ :=
    (not_le.1 (mt units_le_iff.1 (Nat.not_succ_le_self _))).le
  exact h (readsBack_iff.2 ((RoundsTo.units p).between hc hbeyond
    (Decimal.units_le_units (by omega) le_rfl)))

theorem gridFloor_lt_of_not (h : ¬readsBack p (gridFloor p e) e = true)
    (hc : RoundsTo (Decimal.units ⟨c, e⟩) p) : gridFloor p e < c := by
  by_contra hle
  exact h (readsBack_iff.2 (hc.between (RoundsTo.units p)
    (Decimal.units_le_units (by omega) le_rfl) (units_le_iff.2 le_rfl)))

theorem gridPoint_eq (p : ℕ) (e : ℤ) : gridPoint p e =
    if readsBack p (gridFloor p e) e then
      if readsBack p (gridFloor p e + 1) e then
        some (roundHalfEven (unitsOf p * Nat.pow 10 (-e).toNat)
          (unitsPerOne * Nat.pow 10 e.toNat))
      else some (gridFloor p e)
    else if readsBack p (gridFloor p e + 1) e then some (gridFloor p e + 1)
    else none := rfl

/-- Where no neighbour of a pattern on a grid reads back, no point of the grid does. -/
theorem not_roundsTo_of_gridPoint (h : gridPoint p e = none) (c : ℕ) :
    ¬RoundsTo (Decimal.units ⟨c, e⟩) p := by
  intro hc
  rw [gridPoint_eq] at h
  split at h
  · split at h <;> cases h
  · next hfloor =>
    split at h
    · cases h
    · next hnext =>
      exact (gridFloor_lt_of_not hfloor hc).not_ge (le_gridFloor_of_not hnext hc)

/-- The nearest point of a grid is beaten by none. -/
theorem beats_of_roundHalfEven (c' : ℕ) :
    Decimal.Beats ⟨roundHalfEven (unitsOf p * Nat.pow 10 (-e).toNat)
      (unitsPerOne * Nat.pow 10 e.toNat), e⟩ ⟨c', e⟩ p := by
  have hdown : (0 : ℚ) < (Nat.pow 10 (-e).toNat : ℕ) := by
    exact_mod_cast Nat.pow_pos (by decide)
  have hnear := nearestCount_roundHalfEven (unitsOf p * Nat.pow 10 (-e).toNat) _ (gridStep_pos e)
  rw [cast_gridStep, Nat.cast_mul] at hnear
  exact beats_of_nearestCount (hnear.of_mul hdown) c'

/-- The point of a grid that stands for a pattern is beaten by no point that reads back. -/
theorem beats_of_gridPoint (h : gridPoint p e = some c)
    (h' : RoundsTo (Decimal.units ⟨c', e⟩) p) : Decimal.Beats ⟨c, e⟩ ⟨c', e⟩ p := by
  rw [gridPoint_eq] at h
  split at h
  · split at h
    · obtain rfl := Option.some.inj h
      exact beats_of_roundHalfEven c'
    · next hnext =>
      obtain rfl := Option.some.inj h
      rcases Nat.eq_or_lt_of_le (le_gridFloor_of_not hnext h') with rfl | hlt
      · exact Decimal.beats_self _ p
      · exact .inl (Decimal.distance_lt_of_below (units_lt_units hlt) (units_le_iff.2 le_rfl))
  · next hfloor =>
    split at h
    · obtain rfl := Option.some.inj h
      have hnext := not_le.1 (mt units_le_iff.1 (Nat.not_succ_le_self (gridFloor p e)))
      rcases Nat.eq_or_lt_of_le (gridFloor_lt_of_not hfloor h') with rfl | hlt
      · exact Decimal.beats_self _ p
      · exact .inl (Decimal.distance_lt_of_above (units_lt_units hlt) hnext.le)
    · cases h

end Grid

/-! ## The search -/

/-- A decimal that reads back as a pattern, where no coarser grid up to some step has one and no
other on the same grid beats it. -/
structure IsFirst (p : ℕ) (coarsest : ℤ) (d : Decimal) : Prop where
  reads : RoundsTo d.units p
  first : ∀ c e, d.exponent < e → e ≤ coarsest → ¬RoundsTo (Decimal.units ⟨c, e⟩) p
  beats : ∀ c, RoundsTo (Decimal.units ⟨c, d.exponent⟩) p → d.Beats ⟨c, d.exponent⟩ p

theorem isFirst_finestDecimal (p : ℕ) : IsFirst p (-1074) (finestDecimal p) where
  reads := by
    have hunits : (finestDecimal p).units = unitsOf p := units_finest _
    rw [hunits]
    exact .units p
  first c e hlt hle := absurd hle hlt.not_ge
  beats c _ := beats_of_units_eq (units_finest _) c

theorem isFirst_gridPoint {p c : ℕ} {e : ℤ} (h : gridPoint p e = some c) : IsFirst p e ⟨c, e⟩ where
  reads := (patternOfDecimal_eq_iff (d := ⟨c, e⟩)).1 (patternOfDecimal_gridPoint h)
  first _ _ hlt hle := absurd hle hlt.not_ge
  beats _ := beats_of_gridPoint h

/-- A grid without a point that reads back does not change what comes first. -/
theorem IsFirst.coarser {p : ℕ} {e : ℤ} {d : Decimal} (h : IsFirst p e d)
    (hnone : gridPoint p (e + 1) = none) : IsFirst p (e + 1) d where
  reads := h.reads
  first c e' hlt hle := by
    rcases Int.lt_or_eq_of_le hle with hlt' | rfl
    · exact h.first c e' hlt (by omega)
    · exact not_roundsTo_of_gridPoint hnone c
  beats := h.beats

theorem isFirst_shortestFrom (p fineness : ℕ) :
    IsFirst p (fineness - 1074) (shortestFrom p fineness) := by
  induction fineness with
  | zero => exact isFirst_finestDecimal p
  | succ fineness ih =>
    have hnext : ((fineness + 1 : ℕ) : ℤ) - 1074 = fineness - 1074 + 1 := by omega
    rw [shortestFrom, downFrom, gridDecimal, hnext]
    cases hpoint : gridPoint p (fineness - 1074 + 1) with
    | some c => exact isFirst_gridPoint hpoint
    | none => exact ih.coarser hpoint

theorem two_pow_le_ten_pow {a b : ℕ} (ha : a ≠ 0) (h : 2 ^ a ≤ 10 ^ b) (n : ℕ) :
    2 ^ n ≤ 10 ^ (n * b / a + 1) := by
  refine (Nat.pow_le_pow_iff_left ha).1 ?_
  calc (2 ^ n) ^ a = (2 ^ a) ^ n := Nat.pow_right_comm 2 n a
    _ ≤ (10 ^ b) ^ n := Nat.pow_le_pow_left h n
    _ = 10 ^ (n * b) := by rw [← Nat.pow_mul, Nat.mul_comm]
    _ ≤ 10 ^ ((n * b / a + 1) * a) :=
        Nat.pow_le_pow_right (by decide) (Nat.lt_div_mul_add (Nat.pos_of_ne_zero ha) |>.le.trans
          (Nat.succ_mul _ a).ge)
    _ = (10 ^ (n * b / a + 1)) ^ a := Nat.pow_mul 10 _ a

/-- A binary digit is worth less than 0.30103 decimal ones. -/
theorem two_pow_mul_five_pow_le (n : ℕ) :
    2 ^ (n + 2) * Nat.pow 5 1074 ≤ 10 ^ (n * 30103 / 100000 + 754) := by
  obtain ⟨k, hk⟩ : ∃ k, k = 751 := ⟨_, rfl⟩
  have hfive : Nat.pow 5 1074 ≤ 10 ^ k := by rw [hk]; decide +kernel
  have htwo : 2 ^ n ≤ 10 ^ (n * 30103 / 100000 + 1) :=
    two_pow_le_ten_pow (by decide) (by decide +kernel) n
  generalize Nat.pow 5 1074 = five at hfive ⊢
  generalize n * 30103 / 100000 = m at htwo ⊢
  calc 2 ^ (n + 2) * five = 2 ^ n * 4 * five := by rw [Nat.pow_add]
    _ ≤ 10 ^ (m + 1) * 10 ^ 2 * 10 ^ k :=
        Nat.mul_le_mul (Nat.mul_le_mul htwo (by decide)) hfive
    _ = 10 ^ (m + 754) := by
        rw [← Nat.pow_add, ← Nat.pow_add]
        congr 1
        omega

theorem unitsOf_succ_le {p : ℕ} (hp : 0 < p) : unitsOf (p + 1) ≤ 2 * unitsOf p := by
  obtain ⟨shift, fraction, rfl, hlt, hfull⟩ := exists_split p
  have hpos : 1 ≤ fraction := by omega
  rw [unitsOf_split hlt.le hfull, Nat.add_assoc, unitsOf_split hlt (by omega), ← Nat.mul_assoc]
  exact Nat.mul_le_mul_right _ (by omega)

theorem digits_pos_of_roundsTo {p : ℕ} {d : Decimal} (hp : 0 < p) (h : RoundsTo d.units p) :
    0 < d.digits := by
  by_contra h0
  have hread := patternOfDecimal_eq_iff.2 h
  rw [show d.digits = 0 by omega, patternOfDecimal_zero] at hread
  omega

/-- On a grid whose step is more than twice the magnitude no point reads back. -/
theorem exponent_le_of_roundsTo {p : ℕ} {d : Decimal} (hp : 0 < p) (h : RoundsTo d.units p) :
    d.exponent ≤ ((unitsOf p).log2 * 30103 / 100000 + 753 : ℕ) - 1074 := by
  by_contra hlt
  have hdigits : 1 ≤ d.digits := digits_pos_of_roundsTo hp h
  have hsmall : d.units ≤ 2 * unitsOf p := by
    have hsucc : (unitsOf (p + 1) : ℚ) ≤ 2 * unitsOf p := by exact_mod_cast unitsOf_succ_le hp
    have htwice := two_mul_halfway p
    have hle := h.le_halfway
    have hnonneg : (0 : ℚ) ≤ unitsOf p := Nat.cast_nonneg _
    linarith
  have hlog : 2 * unitsOf p < 2 ^ ((unitsOf p).log2 + 2) := by
    have hlt := Nat.lt_log2_self (n := unitsOf p)
    rw [Nat.pow_succ]
    omega
  generalize (unitsOf p).log2 = n at hlt hlog
  have hlarge : (2 ^ (n + 2) : ℕ) ≤ d.units :=
    calc ((2 ^ (n + 2) : ℕ) : ℚ) = Decimal.units ⟨2 ^ (n + 2) * Nat.pow 5 1074, -1074⟩ :=
          (units_finest _).symm
      _ ≤ Decimal.units ⟨1 * 10 ^ (n * 30103 / 100000 + 754), -1074⟩ :=
          Decimal.units_le_units ((two_pow_mul_five_pow_le n).trans_eq (Nat.one_mul _).symm) le_rfl
      _ = Decimal.units ⟨1, -1074 + (n * 30103 / 100000 + 754 : ℕ)⟩ := Decimal.units_mul_pow ..
      _ ≤ d.units := Decimal.units_le_units hdigits (by omega)
  have hcast : (2 * unitsOf p : ℚ) < (2 ^ (n + 2) : ℕ) := by exact_mod_cast hlog
  linarith

/-- A decimal that reads back as a pattern, where none on a coarser grid does, and none on the same
grid beats it. -/
structure IsCoarsest (p : ℕ) (s : Decimal) : Prop where
  reads : RoundsTo s.units p
  coarsest : ∀ d : Decimal, RoundsTo d.units p → d.exponent ≤ s.exponent
  beats : ∀ c, RoundsTo (Decimal.units ⟨c, s.exponent⟩) p → s.Beats ⟨c, s.exponent⟩ p

theorem isCoarsest_shortest {p : ℕ} (hp : 0 < p) : IsCoarsest p (shortest p) := by
  obtain ⟨hreads, hfirst, hbeats⟩ :=
    isFirst_shortestFrom p ((unitsOf p).log2 * 30103 / 100000 + 753)
  refine ⟨hreads, fun d hd => ?_, hbeats⟩
  by_contra hlt
  exact hfirst d.digits d.exponent (not_le.1 hlt) (exponent_le_of_roundsTo hp hd) hd

/-! ## One digit -/

/-- Two patterns further on there are three steps more at most. -/
theorem unitsOf_add_two_le {shift fraction : ℕ} (hlt : fraction < 2 ^ 53)
    (hfull : shift = 0 ∨ 2 ^ 52 ≤ fraction) :
    unitsOf (shift * 2 ^ 52 + fraction + 2) ≤ (fraction + 3) * 2 ^ shift := by
  rcases Nat.lt_or_ge (fraction + 1) (2 ^ 53) with hlt' | hge
  · rw [Nat.add_assoc, unitsOf_split hlt' (by omega)]
    exact Nat.mul_le_mul_right _ (by omega)
  · have hcarry : shift * 2 ^ 52 + fraction + 2 = (shift + 1) * 2 ^ 52 + (2 ^ 52 + 1) := by omega
    have hpow : 2 ^ (shift + 1) = 2 ^ shift * 2 := Nat.pow_succ 2 shift
    rw [hcarry, unitsOf_split (by decide) (.inr (by decide)), hpow]
    obtain rfl : fraction = 2 ^ 53 - 1 := by omega
    omega

theorem Decimal.units_ten (c : ℕ) (e : ℤ) : units ⟨c * 10, e⟩ = units ⟨c, e + 1⟩ :=
  units_mul_pow c 1 e

theorem units_one_succ (e : ℤ) : Decimal.units ⟨1, e + 1⟩ = 10 * Decimal.units ⟨1, e⟩ := by
  rw [← Decimal.units_ten, units_eq_mul]
  rfl

/-- Nine and ten steps are read alike among the least doubles only. -/
theorem pattern_le_of_nine_ten {p : ℕ} {e : ℤ} (hp : 0 < p)
    (hnine : RoundsTo (Decimal.units ⟨9, e⟩) p) (hten : RoundsTo (Decimal.units ⟨10, e⟩) p) :
    p ≤ 27 := by
  obtain ⟨q, rfl⟩ : ∃ q, p = q + 1 := ⟨p - 1, by omega⟩
  have hlow := (unitsOf_lt_halfway q).trans_le hnine.halfway_le
  have hhigh := hten.le_halfway.trans_lt (halfway_lt_unitsOf (q + 1))
  rw [units_eq_mul 9] at hlow
  rw [units_eq_mul 10] at hhigh
  have hratio : 10 * unitsOf q < 9 * unitsOf (q + 2) := by
    have hcast : 10 * (unitsOf q : ℚ) < 9 * unitsOf (q + 2) := by
      push_cast at hlow hhigh
      linarith
    exact_mod_cast hcast
  obtain ⟨shift, fraction, rfl, hlt, hfull⟩ := exists_split q
  have hnext := unitsOf_add_two_le hlt hfull
  rw [unitsOf_split hlt.le hfull] at hratio
  have hfraction : fraction < 27 := by
    by_contra hge
    have hmul : 10 * fraction * 2 ^ shift ≥ 9 * (fraction + 3) * 2 ^ shift :=
      Nat.mul_le_mul_right _ (by omega)
    rw [Nat.mul_assoc, Nat.mul_assoc] at hmul
    omega
  omega

/-- The only power of ten that is read as a pattern below it, as nine tenths of it are, is
10^-323. -/
theorem eq_two_of_nine_ten {p : ℕ} {e : ℤ} (hp : 0 < p)
    (hnine : RoundsTo (Decimal.units ⟨9, e⟩) p) (hten : RoundsTo (Decimal.units ⟨1, e + 1⟩) p) :
    e = -324 ∧ p = 2 := by
  have hle : p ≤ 27 := by
    refine pattern_le_of_nine_ten hp hnine ?_
    rw [← Decimal.units_ten] at hten
    exact hten
  have hread : patternOfDecimal 1 (e + 1) = p := (patternOfDecimal_eq_iff (d := ⟨1, e + 1⟩)).2 hten
  have hread' : patternOfDecimal 9 e = p := (patternOfDecimal_eq_iff (d := ⟨9, e⟩)).2 hnine
  have hlow : -324 ≤ e := by
    by_contra hlt
    have hzero : patternOfDecimal 1 (-324) = 0 := by decide +kernel
    have hmono := hten.mono (roundsTo_patternOfDecimal ⟨1, -324⟩)
      (Decimal.units_le_units le_rfl (by omega))
    dsimp only at hmono
    omega
  have hhigh : e ≤ -323 := by
    by_contra hlt
    have hlarge : 27 < patternOfDecimal 1 (-321) := by decide +kernel
    have hmono := (roundsTo_patternOfDecimal ⟨1, -321⟩).mono hten
      (Decimal.units_le_units le_rfl (by omega))
    dsimp only at hmono
    omega
  obtain rfl | rfl : e = -324 ∨ e = -323 := by omega
  · exact ⟨rfl, hread.symm.trans (by decide +kernel)⟩
  · have hne : patternOfDecimal 1 (-323 + 1) ≠ patternOfDecimal 9 (-323) := by decide +kernel
    exact absurd (hread.trans hread'.symm) hne

/-- A power of ten is nearer to a pattern than a decimal of one digit on a finer grid. -/
theorem distance_lt_of_one_digit {p : ℕ} {e : ℤ} {d : Decimal} (hp : 0 < p)
    (hpower : RoundsTo (Decimal.units ⟨1, e + 1⟩) p) (hd : RoundsTo d.units p)
    (hdigits : d.digits ≤ 9) (he : d.exponent ≤ e) :
    Decimal.distance ⟨1, e + 1⟩ p < d.distance p := by
  have hstep := units_one_pos e
  have hten := units_one_succ e
  have hnine := units_eq_mul 9 e
  have hle : d.units ≤ Decimal.units ⟨9, e⟩ := Decimal.units_le_units hdigits he
  push_cast at hnine
  rcases le_or_gt (Decimal.units ⟨1, e + 1⟩) (unitsOf p) with hbelow | habove
  · exact Decimal.distance_lt_of_below (by linarith) hbelow
  · obtain ⟨rfl, rfl⟩ := eq_two_of_nine_ten hp (hd.between hpower hle (by linarith)) hpower
    -- nineteen steps and a half are less than four units
    have htight : Decimal.units ⟨195, -325⟩ ≤ unitsOf 4 := by
      rw [units_le_iff]
      decide +kernel
    have hfine := units_one_succ (-325)
    have htwo : (unitsOf 2 : ℚ) = 2 := by exact_mod_cast (rfl : unitsOf 2 = 2)
    have hfour : (unitsOf 4 : ℚ) = 4 := by exact_mod_cast (rfl : unitsOf 4 = 4)
    have hother := neg_le_abs (d.units - unitsOf 2)
    rw [units_eq_mul] at htight
    push_cast at htight
    rw [Decimal.distance, Decimal.distance, abs_of_nonneg (by linarith)]
    norm_num at hfine
    linarith

/-! ## The shortest decimal -/

/-- The number of digits. -/
def Decimal.length (d : Decimal) : ℕ := (digitsOf d.digits).length

theorem Decimal.length_pos (d : Decimal) : 0 < d.length := Nat.length_toDigits_pos

theorem Decimal.lt_ten_pow_length (d : Decimal) : d.digits < 10 ^ d.length :=
  (Nat.length_toDigits_le_iff (by decide) d.length_pos).1 le_rfl

theorem Decimal.ten_pow_le {d : Decimal} {k : ℕ} (h0 : 0 < d.digits) (h : d.length = k + 1) :
    10 ^ k ≤ d.digits := by
  rcases Nat.eq_zero_or_pos k with rfl | hk
  · exact h0
  · by_contra hlt
    have hle := (Nat.length_toDigits_le_iff (by decide) hk).2 (not_le.1 hlt)
    have heq : (Nat.toDigits 10 d.digits).length = k + 1 := h
    omega

namespace IsCoarsest

variable {p k : ℕ} {s d : Decimal}

/-- What reads back and lies below all decimals of as many digits on the coarsest grid shows that
there is only one digit. -/
theorem one_digit (h : IsCoarsest p s) (hp : 0 < p) (hd : RoundsTo d.units p)
    (hlength : s.length = k + 1) (hle : d.units ≤ Decimal.units ⟨10 ^ k, s.exponent⟩) :
    k = 0 ∧ RoundsTo (Decimal.units ⟨1, s.exponent⟩) p := by
  have hpow := Decimal.ten_pow_le (digits_pos_of_roundsTo hp h.reads) hlength
  have hpower := hd.between h.reads hle (Decimal.units_le_units hpow le_rfl)
  have hshift := Decimal.units_mul_pow 1 k s.exponent
  rw [Nat.one_mul] at hshift
  have hcoarse := h.coarsest ⟨1, s.exponent + k⟩ (hshift ▸ hpower)
  dsimp only at hcoarse
  obtain rfl : k = 0 := by omega
  exact ⟨rfl, hpower⟩

/-- No decimal with fewer digits reads back. -/
theorem length_le (h : IsCoarsest p s) (hp : 0 < p) (hd : RoundsTo d.units p) :
    s.length ≤ d.length := by
  by_contra hlt
  obtain ⟨k, hk⟩ : ∃ k, s.length = k + 1 := ⟨s.length - 1, by omega⟩
  have hpow : d.digits ≤ 10 ^ k :=
    d.lt_ten_pow_length.le.trans (Nat.pow_le_pow_right (by decide) (by omega))
  have hone := (h.one_digit hp hd hk (Decimal.units_le_units hpow (h.coarsest d hd))).1
  have hpos := d.length_pos
  omega

/-- A decimal with as many digits that reads back, but on a finer grid, is further away. -/
theorem distance_lt (h : IsCoarsest p s) (hp : 0 < p) (hd : RoundsTo d.units p)
    (hlength : d.length = s.length) (he : d.exponent < s.exponent) :
    s.distance p < d.distance p := by
  obtain ⟨k, hk⟩ : ∃ k, s.length = k + 1 := ⟨s.length - 1, by have := s.length_pos; omega⟩
  have hdigits : d.digits < 10 ^ k * 10 := by
    have hlt := d.lt_ten_pow_length
    rwa [hlength, hk, Nat.pow_succ] at hlt
  have hle : d.units ≤ Decimal.units ⟨10 ^ k, s.exponent⟩ :=
    calc d.units ≤ Decimal.units ⟨10 ^ k * 10, d.exponent⟩ :=
          Decimal.units_le_units hdigits.le le_rfl
      _ = Decimal.units ⟨10 ^ k, d.exponent + 1⟩ := Decimal.units_ten ..
      _ ≤ Decimal.units ⟨10 ^ k, s.exponent⟩ := Decimal.units_le_units le_rfl (by omega)
  obtain ⟨rfl, hpower⟩ := h.one_digit hp hd hk hle
  have hlt : Decimal.distance ⟨1, s.exponent⟩ p < d.distance p := by
    have hexponent : s.exponent = s.exponent - 1 + 1 := by omega
    rw [hexponent] at hpower ⊢
    exact distance_lt_of_one_digit hp hpower hd (by omega) (by omega)
  rcases h.beats 1 hpower with hnearer | ⟨heq, -⟩
  · exact hnearer.trans hlt
  · exact heq.trans_lt hlt

theorem beats_of_length_eq (h : IsCoarsest p s) (hp : 0 < p) (hd : RoundsTo d.units p)
    (hlength : d.length = s.length) : s.Beats d p := by
  rcases (h.coarsest d hd).lt_or_eq with hlt | heq
  · exact .inl (h.distance_lt hp hd hlength hlt)
  · obtain ⟨c, e⟩ := d
    obtain rfl : e = s.exponent := heq
    exact h.beats c hd

/-- Two even points of a grid are not equally near to what lies between them, for there is a point
in the middle. -/
theorem eq_of_even (h : IsCoarsest p s) {c : ℕ}
    (hdistance : s.distance p = Decimal.distance ⟨c, s.exponent⟩ p) (heven : Even s.digits)
    (heven' : Even c) : c = s.digits := by
  have hstep := (units_one_pos s.exponent).ne'
  have hunits : s.units = s.digits * Decimal.units ⟨1, s.exponent⟩ := units_eq_mul s.digits _
  have hcancel : ∀ a b : ℕ, a * Decimal.units ⟨1, s.exponent⟩ = b * Decimal.units ⟨1, s.exponent⟩ →
      a = b := fun a b hab => by exact_mod_cast mul_right_cancel₀ hstep hab
  rw [Decimal.distance, Decimal.distance, hunits, units_eq_mul c, abs_eq_abs] at hdistance
  rcases hdistance with hsame | hopposite
  · exact hcancel _ _ (by linarith)
  · obtain ⟨m, hm⟩ : ∃ m, s.digits + c = 2 * m := (heven.add heven').two_dvd
    have hsum : (s.digits : ℚ) + c = 2 * m := by exact_mod_cast hm
    have hmiddle : (m : ℚ) * Decimal.units ⟨1, s.exponent⟩ = unitsOf p := by
      have hmul := congrArg (· * Decimal.units ⟨1, s.exponent⟩) hsum
      linarith
    have hexact : Decimal.units ⟨m, s.exponent⟩ = unitsOf p := by rw [units_eq_mul, hmiddle]
    have hnone : Decimal.distance ⟨m, s.exponent⟩ p = 0 := by
      rw [Decimal.distance, hexact, sub_self, abs_zero]
    have hzero : s.distance p ≤ 0 := by
      rcases h.beats m (hexact ▸ .units p) with hlt | ⟨heq, -⟩
      · exact hlt.le.trans_eq hnone
      · exact heq.le.trans_eq hnone
    have hs : s.units = unitsOf p := sub_eq_zero.1 (abs_nonpos_iff.1 hzero)
    rw [hunits, ← hmiddle] at hs
    have hdigits := hcancel _ _ hs
    omega

/-- A decimal with as many digits that is not beaten is the same. -/
theorem eq_of_beats (h : IsCoarsest p s) (hp : 0 < p) (hd : RoundsTo d.units p)
    (hlength : d.length = s.length) (hbeats : d.Beats s p) : d = s := by
  have hle : d.distance p ≤ s.distance p := by
    rcases hbeats with hlt | ⟨heq, -⟩
    · exact hlt.le
    · exact heq.le
  have hgrid : d.exponent = s.exponent := by
    rcases (h.coarsest d hd).lt_or_eq with hlt | heq
    · exact absurd (h.distance_lt hp hd hlength hlt) hle.not_gt
    · exact heq
  obtain ⟨c, e⟩ := d
  obtain rfl : e = s.exponent := hgrid
  rcases h.beats c hd with hlt | ⟨heq, hsame | heven⟩
  · exact absurd hlt hle.not_gt
  · exact hsame
  · rcases hbeats with hlt | ⟨-, hsame | heven'⟩
    · exact absurd heq hlt.ne'
    · exact hsame.symm
    · rw [h.eq_of_even heq heven heven']

end IsCoarsest

/-- A decimal with the fewest digits that is read as the double, and beaten by no other with as many
digits. -/
structure IsShortest (x : Finite) (d : Decimal) : Prop where
  reads : Finite.ofDecimal x.negative d.digits d.exponent = some x
  fewest : ∀ d' : Decimal, Finite.ofDecimal x.negative d'.digits d'.exponent = some x →
    d.length ≤ d'.length
  beats : ∀ d' : Decimal, Finite.ofDecimal x.negative d'.digits d'.exponent = some x →
    d'.length = d.length → d.Beats d' x.pattern

/-- A double other than zero has one shortest decimal, the one that the search finds. -/
theorem isShortest_iff {x : Finite} (hx : 0 < x.pattern) {d : Decimal} :
    IsShortest x d ↔ d = shortest x.pattern := by
  have hs := isCoarsest_shortest hx
  generalize shortest x.pattern = s at hs ⊢
  constructor
  · rintro ⟨hd, hfewest, hbeats⟩
    rw [ofDecimal_eq_some_iff] at hd
    have hlength : d.length = s.length :=
      le_antisymm (hfewest _ (ofDecimal_eq_some_iff.2 hs.reads)) (hs.length_le hx hd)
    exact hs.eq_of_beats hx hd hlength
      (hbeats _ (ofDecimal_eq_some_iff.2 hs.reads) hlength.symm)
  · rintro rfl
    refine ⟨ofDecimal_eq_some_iff.2 hs.reads, fun d' hd' => ?_, fun d' hd' hlength => ?_⟩
    · exact hs.length_le hx (ofDecimal_eq_some_iff.1 hd')
    · exact hs.beats_of_length_eq hx (ofDecimal_eq_some_iff.1 hd') hlength

end CueGraph
