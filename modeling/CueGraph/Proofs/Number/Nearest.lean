import Mathlib.Algebra.Order.Field.Basic
import Mathlib.Algebra.Ring.Parity
import Mathlib.Data.Rat.Cast.Order
import Mathlib.Tactic.Linarith
import Mathlib.Tactic.Positivity
import Mathlib.Tactic.Ring
import CueGraph.Number.Shortest

/-!
# Rounding to the nearest double

Magnitudes are measured in units of 2^-1074, so that every pattern has a whole number of them. A
magnitude `RoundsTo` a pattern when it lies between the two places half way to the neighbours of the
pattern; half way counts for the even one. Rounding keeps the order (`RoundsTo.mono`), so a
magnitude rounds to one pattern only, and what lies between two magnitudes that round to a pattern
rounds to it as well (`RoundsTo.between`).

Main statements: `roundsTo_patternOfRatio` (the rounding of quotients is this one) and
`patternOfDecimal_eq_iff` (a decimal is read as the pattern that it rounds to).
-/

namespace CueGraph

/-! ## Magnitudes of patterns -/

/-- A pattern is an exponent and a fraction of at most 53 binary digits, which are all there unless
the exponent is the lowest. -/
theorem unitsOf_split {shift fraction : ℕ} (hle : fraction ≤ 2 ^ 53)
    (hfull : shift = 0 ∨ 2 ^ 52 ≤ fraction) :
    unitsOf (shift * 2 ^ 52 + fraction) = fraction * 2 ^ shift := by
  simp only [unitsOf, Nat.pow_eq]
  rcases Nat.lt_or_ge fraction (2 ^ 52) with hlow | hhigh
  · obtain rfl : shift = 0 := by omega
    rw [Nat.zero_mul, Nat.zero_add, Nat.div_eq_of_lt hlow, Nat.mod_eq_of_lt hlow]
    simp
  · rcases Nat.eq_or_lt_of_le hle with rfl | hlt
    · have hdiv : (shift * 2 ^ 52 + 2 ^ 53) / 2 ^ 52 = shift + 2 := by omega
      have hmod : (shift * 2 ^ 52 + 2 ^ 53) % 2 ^ 52 = 0 := by omega
      have hpow : 2 ^ (shift + 2 - 1) = 2 ^ shift * 2 := Nat.pow_succ 2 shift
      simp only [hdiv, hmod]
      rw [if_neg (by omega), hpow]
      omega
    · have hdiv : (shift * 2 ^ 52 + fraction) / 2 ^ 52 = shift + 1 := by omega
      have hmod : (shift * 2 ^ 52 + fraction) % 2 ^ 52 = fraction - 2 ^ 52 := by omega
      have hsum : 2 ^ 52 + (fraction - 2 ^ 52) = fraction := Nat.add_sub_cancel' hhigh
      simp only [hdiv, hmod, hsum, Nat.add_sub_cancel, if_neg (Nat.succ_ne_zero shift)]

theorem exists_split (p : ℕ) : ∃ shift fraction, p = shift * 2 ^ 52 + fraction ∧
    fraction < 2 ^ 53 ∧ (shift = 0 ∨ 2 ^ 52 ≤ fraction) := by
  refine ⟨p / 2 ^ 52 - 1, p - (p / 2 ^ 52 - 1) * 2 ^ 52, ?_, ?_, ?_⟩ <;> omega

/-- The number of units half way from a pattern to the next one. -/
def halfway (p : ℕ) : ℚ := (unitsOf p + unitsOf (p + 1)) / 2

theorem two_mul_halfway (p : ℕ) : 2 * halfway p = unitsOf p + unitsOf (p + 1) :=
  mul_div_cancel₀ _ two_ne_zero

theorem unitsOf_strictMono : StrictMono unitsOf := fun _ _ => unitsOf_lt_unitsOf

theorem cast_unitsOf_lt {p q : ℕ} (h : p < q) : (unitsOf p : ℚ) < unitsOf q := by
  exact_mod_cast unitsOf_lt_unitsOf h

theorem unitsOf_lt_halfway (p : ℕ) : (unitsOf p : ℚ) < halfway p := by
  have := cast_unitsOf_lt p.lt_succ_self
  rw [halfway]
  linarith

theorem halfway_lt_unitsOf (p : ℕ) : halfway p < unitsOf (p + 1) := by
  have := cast_unitsOf_lt p.lt_succ_self
  rw [halfway]
  linarith

theorem halfway_lt_halfway {p q : ℕ} (h : p < q) : halfway p < halfway q :=
  calc halfway p < unitsOf (p + 1) := halfway_lt_unitsOf p
    _ ≤ unitsOf q := by exact_mod_cast unitsOf_strictMono.monotone h
    _ < halfway q := unitsOf_lt_halfway q

/-! ## Rounding -/

/-- A number of units that is nearer to a pattern than to any other; half way between two patterns
counts for the even one. -/
structure RoundsTo (u : ℚ) (p : ℕ) : Prop where
  above : ∀ q, q + 1 = p → halfway q < u ∨ halfway q = u ∧ Even p
  below : u < halfway p ∨ u = halfway p ∧ Even p

namespace RoundsTo

variable {u v w : ℚ} {p q : ℕ}

theorem le_halfway (h : RoundsTo u p) : u ≤ halfway p := by
  rcases h.below with hlt | ⟨heq, -⟩
  · exact hlt.le
  · exact heq.le

theorem halfway_le (h : RoundsTo u (q + 1)) : halfway q ≤ u := by
  rcases h.above q rfl with hlt | ⟨heq, -⟩
  · exact hlt.le
  · exact heq.le

/-- A larger magnitude rounds to no lower pattern. -/
theorem mono (hu : RoundsTo u p) (hv : RoundsTo v q) (h : u ≤ v) : p ≤ q := by
  by_contra hlt
  obtain ⟨k, rfl⟩ : ∃ k, p = k + 1 := ⟨p - 1, by omega⟩
  have hmid : halfway q ≤ halfway k := by
    rcases Nat.eq_or_lt_of_le (show q ≤ k by omega) with rfl | hqk
    · rfl
    · exact (halfway_lt_halfway hqk).le
  -- both lie half way between two patterns next to each other, and one of these is odd
  have hchain := hu.halfway_le
  have hbelow := hv.le_halfway
  have hkq : halfway k = halfway q := by linarith
  have huv : halfway k = u := by linarith
  have hvv : v = halfway q := by linarith
  obtain rfl : k = q := by
    rcases Nat.lt_trichotomy k q with hlt' | heq | hgt
    · exact absurd hkq (halfway_lt_halfway hlt').ne
    · exact heq
    · exact absurd hkq (halfway_lt_halfway hgt).ne'
  have heven : Even (k + 1) := by
    rcases hu.above k rfl with hne | ⟨-, heven⟩
    · exact absurd huv hne.ne
    · exact heven
  have heven' : Even k := by
    rcases hv.below with hne | ⟨-, heven⟩
    · exact absurd hvv hne.ne
    · exact heven
  exact Nat.even_add_one.1 heven heven'

theorem unique (h : RoundsTo u p) (h' : RoundsTo u q) : p = q :=
  Nat.le_antisymm (h.mono h' le_rfl) (h'.mono h le_rfl)

/-- The units of a pattern round to it. -/
theorem units (p : ℕ) : RoundsTo (unitsOf p) p where
  above q hq := .inl (by rw [← hq]; exact halfway_lt_unitsOf q)
  below := .inl (unitsOf_lt_halfway p)

end RoundsTo

/-! ## Rounding a quotient -/

/-- A number of steps that is half a step away at most, and even where it is that far. -/
structure NearestCount (u step : ℚ) (count : ℕ) : Prop where
  up : 2 * u < (2 * count + 1) * step ∨ 2 * u = (2 * count + 1) * step ∧ Even count
  low : 2 * count * step < 2 * u + step ∨ 2 * count * step = 2 * u + step ∧ Even count

theorem NearestCount.of_mul {u step k : ℚ} {count : ℕ} (hk : 0 < k)
    (h : NearestCount (u * k) (step * k) count) : NearestCount u step count where
  up := by
    refine h.up.imp (fun h => ?_) fun ⟨h, heven⟩ => ⟨?_, heven⟩
    · refine lt_of_mul_lt_mul_right ?_ hk.le
      linarith
    · refine mul_right_cancel₀ hk.ne' ?_
      linarith
  low := by
    refine h.low.imp (fun h => ?_) fun ⟨h, heven⟩ => ⟨?_, heven⟩
    · refine lt_of_mul_lt_mul_right ?_ hk.le
      linarith
    · refine mul_right_cancel₀ hk.ne' ?_
      linarith

theorem nearestCount_roundHalfEven (n d : ℕ) (hd : 0 < d) :
    NearestCount n d (roundHalfEven n d) := by
  have hdiv : (d : ℚ) * (n / d : ℕ) + (n % d : ℕ) = n := by exact_mod_cast Nat.div_add_mod n d
  have hmod : ((n % d : ℕ) : ℚ) < d := by exact_mod_cast Nat.mod_lt n hd
  have hrest : (0 : ℚ) ≤ (n % d : ℕ) := Nat.cast_nonneg _
  rcases Nat.lt_trichotomy (2 * (n % d)) d with hlt | heq | hgt
  · have hr : roundHalfEven n d = n / d := if_pos hlt
    have hhalf : 2 * ((n % d : ℕ) : ℚ) < d := by exact_mod_cast hlt
    rw [hr]
    constructor
    · left
      linarith
    · left
      linarith
  · have hr : roundHalfEven n d = n / d + n / d % 2 := by
      rw [roundHalfEven, if_neg (by omega), if_neg (by omega)]
    have hhalf : 2 * ((n % d : ℕ) : ℚ) = d := by exact_mod_cast heq
    rcases Nat.mod_two_eq_zero_or_one (n / d) with heven | hodd
    · rw [hr, heven, Nat.add_zero]
      constructor
      · right
        exact ⟨by linarith, Nat.even_iff.2 heven⟩
      · left
        linarith
    · rw [hr, hodd]
      constructor
      · left
        push_cast
        linarith
      · right
        exact ⟨by push_cast; linarith, Nat.even_iff.2 (by omega)⟩
  · have hr : roundHalfEven n d = n / d + 1 := by
      rw [roundHalfEven, if_neg (by omega), if_pos hgt]
    have hhalf : (d : ℚ) < 2 * (n % d : ℕ) := by exact_mod_cast hgt
    rw [hr]
    constructor
    · left
      push_cast
      linarith
    · left
      push_cast
      linarith

theorem roundHalfEven_le {n d q : ℕ} (hd : 0 < d) (h : n ≤ q * d) : roundHalfEven n d ≤ q := by
  by_contra hlt
  have hmul : (q + 1) * d ≤ roundHalfEven n d * d := Nat.mul_le_mul_right d (by omega)
  have hnext : (q + 1) * d = q * d + d := by ring
  have hassoc : 2 * d * roundHalfEven n d = 2 * (roundHalfEven n d * d) := by ring
  have hnear := two_mul_roundHalfEven_le n d hd
  omega

theorem le_roundHalfEven {n d q : ℕ} (hd : 0 < d) (h : q * d ≤ n) : q ≤ roundHalfEven n d := by
  by_contra hlt
  have hmul : (roundHalfEven n d + 1) * d ≤ q * d := Nat.mul_le_mul_right d (by omega)
  have hnext : (roundHalfEven n d + 1) * d = roundHalfEven n d * d + d := by ring
  have hassoc : 2 * d * roundHalfEven n d = 2 * (roundHalfEven n d * d) := by ring
  have hnear := le_two_mul_roundHalfEven n d hd
  omega

/-- The shift of `patternOfRatio` leaves 53 binary digits, or fewer where there is none. -/
theorem shift_spec (n d : ℕ) (hd : 0 < d) :
    ((n / d).log2 - 52 = 0 ∨ 2 ^ 52 * (d * 2 ^ ((n / d).log2 - 52)) ≤ n) ∧
      n < 2 ^ 53 * (d * 2 ^ ((n / d).log2 - 52)) := by
  obtain ⟨shift, hshift⟩ : ∃ shift, shift = (n / d).log2 - 52 := ⟨_, rfl⟩
  rw [← hshift]
  constructor
  · rcases Nat.eq_zero_or_pos shift with h0 | hpos
    · exact .inl h0
    · right
      have hne : n / d ≠ 0 := by
        intro h0
        rw [h0, Nat.log2_zero] at hshift
        omega
      calc 2 ^ 52 * (d * 2 ^ shift) = d * 2 ^ (n / d).log2 := by
            rw [show (n / d).log2 = 52 + shift by omega, Nat.pow_add]
            ring
        _ ≤ d * (n / d) := Nat.mul_le_mul_left d (Nat.log2_self_le hne)
        _ ≤ n := Nat.mul_div_le n d
  · calc n < d * (n / d + 1) := Nat.lt_mul_div_succ n hd
      _ ≤ d * 2 ^ ((n / d).log2 + 1) := Nat.mul_le_mul_left d Nat.lt_log2_self
      _ ≤ d * 2 ^ (53 + shift) :=
          Nat.mul_le_mul_left d (Nat.pow_le_pow_right (by decide) (by omega))
      _ = 2 ^ 53 * (d * 2 ^ shift) := by
          rw [Nat.pow_add]
          ring

theorem le_unitsOf_succ {shift fraction : ℕ} (hle : fraction ≤ 2 ^ 53)
    (hfull : shift = 0 ∨ 2 ^ 52 ≤ fraction) :
    (fraction + 1) * 2 ^ shift ≤ unitsOf (shift * 2 ^ 52 + fraction + 1) := by
  rcases Nat.eq_or_lt_of_le hle with rfl | hlt
  · -- the carry into the exponent doubles the step
    have hcarry : shift * 2 ^ 52 + 2 ^ 53 + 1 = (shift + 1) * 2 ^ 52 + (2 ^ 52 + 1) := by omega
    have hpow : 2 ^ (shift + 1) = 2 ^ shift * 2 := Nat.pow_succ 2 shift
    rw [hcarry, unitsOf_split (by decide) (.inr (by decide)), hpow]
    omega
  · rw [Nat.add_assoc, unitsOf_split hlt (by omega)]

theorem halfway_split {shift fraction : ℕ} (hlt : fraction < 2 ^ 53)
    (hfull : shift = 0 ∨ 2 ^ 52 ≤ fraction) :
    halfway (shift * 2 ^ 52 + fraction) = (2 * fraction + 1) * 2 ^ shift / 2 := by
  have hunits : unitsOf (shift * 2 ^ 52 + fraction) = fraction * 2 ^ shift :=
    unitsOf_split hlt.le hfull
  have hnext : unitsOf (shift * 2 ^ 52 + (fraction + 1)) = (fraction + 1) * 2 ^ shift :=
    unitsOf_split hlt (by omega)
  rw [halfway, Nat.add_assoc, hunits, hnext]
  push_cast
  ring

/-- What a shift and rounding leave of a number of units is the pattern to which it rounds. -/
theorem roundsTo_split {u : ℚ} {shift fraction : ℕ} (hle : fraction ≤ 2 ^ 53)
    (hfull : shift = 0 ∨ 2 ^ 52 ≤ fraction) (hnear : NearestCount u (2 ^ shift) fraction)
    (hleast : shift = 0 ∨ 2 ^ 52 * 2 ^ shift ≤ u) :
    RoundsTo u (shift * 2 ^ 52 + fraction) := by
  have hunits : (unitsOf (shift * 2 ^ 52 + fraction) : ℚ) = fraction * 2 ^ shift := by
    exact_mod_cast unitsOf_split hle hfull
  have heven : Even fraction → Even (shift * 2 ^ 52 + fraction) := by
    simp only [Nat.even_iff]
    omega
  constructor
  · intro q hq
    by_cases hfirst : shift = 0 ∨ 2 ^ 52 < fraction
    · obtain ⟨rest, rfl⟩ : ∃ rest, fraction = rest + 1 := ⟨fraction - 1, by omega⟩
      obtain rfl : q = shift * 2 ^ 52 + rest := by omega
      rw [halfway_split (by omega) (by omega)]
      have hlow := hnear.low
      push_cast at hlow
      rcases hlow with hlow | ⟨hlow, htie⟩
      · left
        linarith
      · right
        exact ⟨by linarith, heven htie⟩
    · -- the pattern is the first of its exponent, and the step below it is half as wide
      have hexact : (fraction : ℚ) * 2 ^ shift ≤ u := by
        obtain rfl : fraction = 2 ^ 52 := by omega
        exact_mod_cast hleast.resolve_left (by omega)
      have hbelow := halfway_lt_unitsOf q
      rw [hq, hunits] at hbelow
      exact .inl (hbelow.trans_le hexact)
  · have hsucc : ((fraction : ℚ) + 1) * 2 ^ shift ≤ unitsOf (shift * 2 ^ 52 + fraction + 1) := by
      exact_mod_cast le_unitsOf_succ hle hfull
    have hmid : (2 * (fraction : ℚ) + 1) * 2 ^ shift ≤ 2 * halfway (shift * 2 ^ 52 + fraction) := by
      rw [two_mul_halfway, hunits]
      linarith
    rcases hnear.up with hup | ⟨hup, htie⟩
    · left
      linarith
    · rcases hmid.lt_or_eq with hlt | heq
      · left
        linarith
      · right
        exact ⟨by linarith, heven htie⟩

/-- The rounding of a quotient of naturals is the rounding of its units. -/
theorem roundsTo_patternOfRatio {n d : ℕ} (hd : 0 < d) :
    RoundsTo (n * unitsPerOne / d) (patternOfRatio n d) := by
  obtain ⟨scaled, hscaled⟩ : ∃ scaled, scaled = n * unitsPerOne := ⟨_, rfl⟩
  obtain ⟨u, hu⟩ : ∃ u : ℚ, u = n * unitsPerOne / d := ⟨_, rfl⟩
  have hd' : (0 : ℚ) < d := by exact_mod_cast hd
  have hud : (scaled : ℚ) = u * d := by
    rw [hu, div_mul_cancel₀ _ hd'.ne', hscaled, Nat.cast_mul]
  obtain ⟨hleast, hless⟩ := shift_spec scaled d hd
  simp only [patternOfRatio, Nat.pow_eq, ← hscaled, ← hu]
  generalize (scaled / d).log2 - 52 = shift at hleast hless ⊢
  have hstep : 0 < d * 2 ^ shift := Nat.mul_pos hd (Nat.two_pow_pos _)
  have hcast : ((d * 2 ^ shift : ℕ) : ℚ) = 2 ^ shift * d := by
    push_cast
    ring
  apply roundsTo_split
  · exact roundHalfEven_le hstep hless.le
  · exact hleast.imp_right (le_roundHalfEven hstep)
  · have hnear := nearestCount_roundHalfEven scaled _ hstep
    rw [hud, hcast] at hnear
    exact hnear.of_mul hd'
  · refine hleast.imp_right fun h => ?_
    have h' : 2 ^ 52 * (d * 2 ^ shift) ≤ (scaled : ℚ) := by exact_mod_cast h
    refine le_of_mul_le_mul_right ?_ hd'
    linarith

/-! ## Decimals -/

/-- The number of units of a decimal. -/
def Decimal.units (d : Decimal) : ℚ := d.digits * 10 ^ d.exponent * unitsPerOne

theorem zero_lt_unitsPerOne : 0 < unitsPerOne := by decide +kernel

theorem unitsPerOne_pos : (0 : ℚ) < unitsPerOne := Nat.cast_pos.2 zero_lt_unitsPerOne

/-- The exponent is kept apart, so that nothing evaluates the power. -/
theorem unitsPerOne_eq : ∃ k, k = 1074 ∧ unitsPerOne = Nat.pow 2 k :=
  ⟨1074, rfl, by decide +kernel⟩

theorem ten_zpow_pos (e : ℤ) : (0 : ℚ) < 10 ^ e := zpow_pos (by norm_num) e

theorem Decimal.units_le_units {c c' : ℕ} {e e' : ℤ} (hc : c ≤ c') (he : e ≤ e') :
    units ⟨c, e⟩ ≤ units ⟨c', e'⟩ := by
  have hc' : (c : ℚ) ≤ c' := by exact_mod_cast hc
  have he' : (10 : ℚ) ^ e ≤ 10 ^ e' := zpow_le_zpow_right₀ (by norm_num) he
  exact mul_le_mul_of_nonneg_right
    (mul_le_mul hc' he' (ten_zpow_pos e).le (Nat.cast_nonneg c')) unitsPerOne_pos.le

/-- Zeros at the end of the digits count as much as the exponent. -/
theorem Decimal.units_mul_pow (c k : ℕ) (e : ℤ) : units ⟨c * 10 ^ k, e⟩ = units ⟨c, e + k⟩ := by
  have hpow : (10 : ℚ) ^ (e + k : ℤ) = 10 ^ e * 10 ^ k := by
    rw [zpow_add₀ (by norm_num), zpow_natCast]
  simp only [units, hpow]
  push_cast
  ring

theorem ten_zpow (e : ℤ) : (10 : ℚ) ^ e = 10 ^ e.toNat / 10 ^ (-e).toNat := by
  rw [← zpow_natCast, ← zpow_natCast, ← zpow_sub₀ (by norm_num), Int.toNat_sub_toNat_neg]

/-- A decimal is read as the pattern to which its units round. -/
theorem roundsTo_patternOfDecimal (d : Decimal) :
    RoundsTo d.units (patternOfDecimal d.digits d.exponent) := by
  have hunits : d.units = (d.digits * Nat.pow 10 d.exponent.toNat : ℕ) * unitsPerOne /
      (Nat.pow 10 (-d.exponent).toNat : ℕ) := by
    rw [Decimal.units, ten_zpow]
    push_cast [Nat.pow_eq]
    ring
  rw [hunits]
  exact roundsTo_patternOfRatio (Nat.pow_pos (by decide))

theorem patternOfDecimal_eq_iff {d : Decimal} {p : ℕ} :
    patternOfDecimal d.digits d.exponent = p ↔ RoundsTo d.units p := by
  constructor
  · rintro rfl
    exact roundsTo_patternOfDecimal d
  · exact (roundsTo_patternOfDecimal d).unique

/-- A decimal between two numbers of units that round to a pattern rounds to it. -/
theorem RoundsTo.between {low high : ℚ} {d : Decimal} {p : ℕ} (hlow : RoundsTo low p)
    (hhigh : RoundsTo high p) (hle : low ≤ d.units) (hle' : d.units ≤ high) :
    RoundsTo d.units p := by
  have hd := roundsTo_patternOfDecimal d
  obtain rfl := Nat.le_antisymm (hlow.mono hd hle) (hd.mono hhigh hle')
  exact hd

theorem patternOfDecimal_zero (e : ℤ) : patternOfDecimal 0 e = 0 := by
  refine (patternOfDecimal_eq_iff (d := ⟨0, e⟩)).2 ?_
  have hzero : Decimal.units ⟨0, e⟩ = unitsOf 0 := by
    rw [Decimal.units, Nat.cast_zero, zero_mul, zero_mul]
    exact Nat.cast_zero.symm
  rw [hzero]
  exact .units 0

/-- Decimals from 10^309 on are beyond the finite doubles. -/
theorem patternLimit_le {c : ℕ} {e : ℤ} (hc : c ≠ 0) (he : 309 < e) :
    patternLimit ≤ patternOfDecimal c e := by
  have hleast : patternLimit ≤ patternOfDecimal 1 309 := by decide +kernel
  exact hleast.trans ((roundsTo_patternOfDecimal ⟨1, 309⟩).mono (roundsTo_patternOfDecimal ⟨c, e⟩)
    (Decimal.units_le_units (Nat.one_le_iff_ne_zero.2 hc) he.le))

/-- Decimals below 2 * 10^-331 are nearer to zero than to the least double. -/
theorem patternOfDecimal_eq_zero {c : ℕ} {e : ℤ} (h : e + c.log2 < -330) :
    patternOfDecimal c e = 0 := by
  have hgreatest : patternOfDecimal 2 (-331) = 0 := by decide +kernel
  have hdigits : c ≤ 2 * 10 ^ c.log2 :=
    calc c ≤ 2 ^ (c.log2 + 1) := Nat.lt_log2_self.le
      _ = 2 * 2 ^ c.log2 := Nat.pow_succ'
      _ ≤ 2 * 10 ^ c.log2 := Nat.mul_le_mul_left 2 (Nat.pow_le_pow_left (by decide) _)
  have hle : Decimal.units ⟨c, e⟩ ≤ Decimal.units ⟨2, -331⟩ :=
    calc Decimal.units ⟨c, e⟩ ≤ Decimal.units ⟨2 * 10 ^ c.log2, e⟩ :=
          Decimal.units_le_units hdigits le_rfl
      _ = Decimal.units ⟨2, e + c.log2⟩ := Decimal.units_mul_pow ..
      _ ≤ Decimal.units ⟨2, -331⟩ := Decimal.units_le_units le_rfl (by omega)
  have hmono := (roundsTo_patternOfDecimal ⟨c, e⟩).mono (roundsTo_patternOfDecimal ⟨2, -331⟩) hle
  exact Nat.le_zero.1 (hmono.trans_eq hgreatest)

/-- Settling decimals far outside the range of the doubles by their size is rounding them. -/
theorem ofDecimal_eq (negative : Bool) (digits : ℕ) (e : ℤ) :
    Finite.ofDecimal negative digits e =
      Finite.ofPattern? negative (patternOfDecimal digits e) := by
  have hzero : Finite.ofPattern? negative 0 = some { Finite.zero with negative } :=
    dif_pos (by decide)
  rw [Finite.ofDecimal]
  split
  · next h0 => rw [h0, patternOfDecimal_zero, hzero]
  · next h0 =>
    split
    · next he => rw [Finite.ofPattern?, dif_neg (Nat.not_lt.2 (patternLimit_le h0 he))]
    · split
      · next hlow => rw [patternOfDecimal_eq_zero hlow, hzero]
      · rfl

/-- A decimal is read as a double when its units round to the pattern. -/
theorem ofDecimal_eq_some_iff {d : Decimal} {x : Finite} :
    Finite.ofDecimal x.negative d.digits d.exponent = some x ↔ RoundsTo d.units x.pattern := by
  rw [ofDecimal_eq, ← patternOfDecimal_eq_iff, Finite.ofPattern?]
  constructor
  · intro h
    split at h
    · rw [← Option.some.inj h]
    · cases h
  · intro h
    simp only [h]
    exact dif_pos x.pattern_lt

end CueGraph
