import CueGraph.Proofs.Number.Layout

/-!
# Whole numbers in the layout of a script

Every whole number up to 2^53 is a double, so no other decimal on a grid of whole numbers is read as
the same double. The shortest decimal of such a number has its digits, without the zeros at their
end, and the layout puts these zeros back.

Main statement: `render_of_toInt?` (a whole number below 2^53 is laid out with its own digits).
-/

namespace CueGraph

open Numeral

/-- A whole number up to 2^53 is moved left until it has 53 binary digits, or is 2^53. -/
theorem exists_shift {n : ℕ} (h0 : 0 < n) (h : n ≤ 2 ^ 53) :
    ∃ k ≤ 52, 2 ^ 52 ≤ n * 2 ^ k ∧ n * 2 ^ k ≤ 2 ^ 53 := by
  have hlog : 2 ^ n.log2 ≤ n := Nat.log2_self_le h0.ne'
  have hlog' : n < 2 ^ (n.log2 + 1) := Nat.lt_log2_self
  rcases Nat.lt_or_ge 52 n.log2 with hlt | hle
  · have hpow : 2 ^ 53 ≤ 2 ^ n.log2 := Nat.pow_le_pow_right (by decide) hlt
    exact ⟨0, by omega, by omega, by omega⟩
  · refine ⟨52 - n.log2, by omega, ?_, ?_⟩
    · calc 2 ^ 52 = 2 ^ n.log2 * 2 ^ (52 - n.log2) := by rw [← Nat.pow_add, Nat.add_sub_cancel' hle]
        _ ≤ n * 2 ^ (52 - n.log2) := Nat.mul_le_mul_right _ hlog
    · calc n * 2 ^ (52 - n.log2) ≤ 2 ^ (n.log2 + 1) * 2 ^ (52 - n.log2) :=
            Nat.mul_le_mul_right _ hlog'.le
        _ = 2 ^ 53 := by rw [← Nat.pow_add]; congr 1; omega

/-- Up to 2^53, every whole number is a double. -/
theorem exists_unitsOf_eq {n : ℕ} (h : n ≤ 2 ^ 53) : ∃ p, unitsOf p = n * unitsPerOne := by
  rcases Nat.eq_zero_or_pos n with rfl | h0
  · exact ⟨0, by rw [Nat.zero_mul]; rfl⟩
  · obtain ⟨k, hk, hlow, hhigh⟩ := exists_shift h0 h
    obtain ⟨total, htotal, hone⟩ := unitsPerOne_eq
    refine ⟨(1074 - k) * 2 ^ 52 + n * 2 ^ k, ?_⟩
    rw [unitsOf_split hhigh (.inr hlow), Nat.mul_assoc, ← Nat.pow_add, hone, ← htotal,
      Nat.add_sub_cancel' (by omega), Nat.pow_eq]

theorem roundsTo_of_unitsOf_eq {n p : ℕ} (hp : unitsOf p = n * unitsPerOne) :
    RoundsTo (Decimal.units ⟨n, 0⟩) p := by
  have hunits : Decimal.units ⟨n, 0⟩ = unitsOf p := by
    rw [Decimal.units, hp]
    push_cast
    rw [mul_one]
  rw [hunits]
  exact .units p

/-- A whole number that rounds to another one below 2^53 is the same. -/
theorem eq_of_roundsTo {n m p : ℕ} (h : n < 2 ^ 53) (hp : unitsOf p = n * unitsPerOne)
    (hm : RoundsTo (Decimal.units ⟨m, 0⟩) p) : m = n := by
  rcases Nat.lt_or_ge (2 ^ 53) m with hgt | hle
  · -- then 2^53 would not be above the number, for rounding keeps the order
    obtain ⟨q, hq⟩ := exists_unitsOf_eq (Nat.le_refl (2 ^ 53))
    have hqp : q ≤ p :=
      (roundsTo_of_unitsOf_eq hq).mono hm (Decimal.units_le_units hgt.le le_rfl)
    have hpq : unitsOf p < unitsOf q := by
      rw [hp, hq]
      exact Nat.mul_lt_mul_of_pos_right h zero_lt_unitsPerOne
    exact absurd (unitsOf_strictMono.lt_iff_lt.1 hpq) (by omega)
  · obtain ⟨q, hq⟩ := exists_unitsOf_eq hle
    obtain rfl := (roundsTo_of_unitsOf_eq hq).unique hm
    exact Nat.eq_of_mul_eq_mul_right zero_lt_unitsPerOne (hq.symm.trans hp)

theorem digitsOf_mul_pow {c : ℕ} (hc : 0 < c) (k : ℕ) :
    digitsOf (c * 10 ^ k) = digitsOf c ++ zeros k := by
  induction k with
  | zero => simp [zeros]
  | succ k ih =>
    have hpos : 0 < c * 10 ^ k := Nat.mul_pos hc (Nat.pow_pos (by decide))
    have hlast := Nat.toDigits_append_toDigits (b := 10) (d := 0) (by decide) hpos (by decide)
    unfold digitsOf at *
    rw [Nat.pow_succ, ← Nat.mul_assoc, Nat.mul_comm, ← Nat.add_zero (10 * _), ← hlast, ih,
      Nat.toDigits_zero, List.append_assoc, zeros, zeros, List.replicate_succ']

/-- The shortest decimal of a whole number below 2^53 is the number, without the zeros at its end. -/
theorem whole_of_isCoarsest {n p : ℕ} {d : Decimal} (h : n < 2 ^ 53)
    (hp : unitsOf p = n * unitsPerOne) (hd : IsCoarsest p d) :
    ∃ k : ℕ, d.exponent = k ∧ d.digits * 10 ^ k = n := by
  obtain ⟨k, hk⟩ := Int.eq_ofNat_of_zero_le (hd.coarsest _ (roundsTo_of_unitsOf_eq hp))
  refine ⟨k, hk, eq_of_roundsTo h hp ?_⟩
  have hunits : d.units = Decimal.units ⟨d.digits, 0 + k⟩ := by rw [Int.zero_add, ← hk]
  rw [Decimal.units_mul_pow, ← hunits]
  exact hd.reads

/-- An integer is written with the digits of its magnitude. -/
theorem toList_toString (i : ℤ) :
    (toString i).toList = (if i < 0 then ['-'] else []) ++ digitsOf i.natAbs := by
  cases i with
  | ofNat n => exact Nat.toList_repr
  | negSucc n =>
    have hneg : toString (Int.negSucc n) = "-" ++ (n + 1).repr := rfl
    rw [if_pos (Int.negSucc_lt_zero n), hneg, String.toList_append, Nat.toList_repr]
    rfl

/-- Digits in front of the point are written with the zeros up to the point. -/
theorem text_scriptParts_whole {digits : List Char} {k : ℕ} (h : digits.length + k ≤ 21) :
    (scriptParts digits (digits.length + k)).text = digits ++ zeros k := by
  have hscale : ((digits.length : ℤ) + k - digits.length).toNat = k := by omega
  rw [scriptParts, if_pos ⟨by omega, by omega⟩, hscale]
  simp [Parts.text, Parts.fractionText, Parts.exponentText]

namespace Finite

theorem exists_units_of_toInt? {x : Finite} {i : ℤ} (h : x.toInt? = some i) :
    ∃ n : ℕ, x.units = n * unitsPerOne ∧ i = if x.negative then -(n : ℤ) else n := by
  unfold toInt? at h
  split at h
  · next hmod =>
    exact ⟨x.units / unitsPerOne, (Nat.div_mul_cancel (Nat.dvd_of_mod_eq_zero hmod)).symm,
      (Option.some.inj h).symm⟩
  · cases h

/-- A whole number below 2^53 is laid out with its own digits. -/
theorem render_of_toInt? {x : Finite} {i : ℤ} (hx : x.toInt? = some i)
    (h : i.natAbs < 2 ^ 53) : scriptNumeral.render x = toString i := by
  obtain ⟨n, hn, rfl⟩ := exists_units_of_toInt? hx
  have hlt : n < 2 ^ 53 := by
    split at h <;> omega
  cases hzero : x.isZero with
  | true =>
    have hunits : x.units = 0 := by
      rw [units, show x.pattern = 0 by simpa [isZero] using hzero]
      rfl
    obtain rfl : n = 0 := by
      rcases Nat.mul_eq_zero.1 (hn.symm.trans hunits) with h0 | h0
      · exact h0
      · exact absurd h0 zero_lt_unitsPerOne.ne'
    rw [render_of_isZero hzero]
    cases x.negative <;> rfl
  | false =>
    have hpattern : 0 < x.pattern := pattern_pos hzero
    have hd := isCoarsest_shortest hpattern
    have hshort := (isShortest_iff hpattern).2 rfl
    generalize shortest x.pattern = d at hd hshort
    obtain ⟨k, hk, hdigits⟩ := whole_of_isCoarsest hlt hn hd
    have hc := digits_pos_of_roundsTo hpattern hd.reads
    have hpos : 0 < n := by
      rw [← hdigits]
      exact Nat.mul_pos hc (Nat.pow_pos (by decide))
    have hchars : digitsOf n = digitsOf d.digits ++ zeros k := by
      rw [← hdigits, digitsOf_mul_pow hc]
    have hlength : (digitsOf d.digits).length + k ≤ 16 := by
      have hle := (Nat.length_toDigits_le_iff (b := 10) (k := 16) (by decide) (by decide)).2
        (hlt.trans (by decide))
      rwa [← digitsOf, hchars, List.length_append, length_zeros] at hle
    have hsign : (if x.negative then -(n : ℤ) else n) < 0 ↔ x.negative = true := by
      split <;> simp_all
    have habs : (if x.negative then -(n : ℤ) else n).natAbs = n := by
      split <;> simp
    apply String.toList_injective
    rw [toList_toString, toList_render_of_isShortest hzero hshort, hk, habs, hchars,
      Decimal.length, text_scriptParts_whole (by omega)]
    simp only [hsign]

end Finite

end CueGraph
