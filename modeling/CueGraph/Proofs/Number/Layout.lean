import CueGraph.Proofs.Number.Fewest
import CueGraph.Proofs.Number.Parts

/-!
# The layout of the numbers of a script

`scriptNumeral` is the layout in which a script knows numbers, and `scriptParts` the same layout by
cases on the place of the point.

Main statement: `toList_render_of_isShortest` (a double is laid out from the digits of its shortest
decimal).
-/

namespace CueGraph

open Numeral

/-! ## Digits -/

theorem head?_digitsOf {n : Nat} (h : 0 < n) : (digitsOf n).head? ≠ some '0' := by
  induction n using Nat.strongRecOn with
  | ind n ih =>
    unfold digitsOf at *
    rcases Nat.lt_or_ge n 10 with hlt | hge
    · rw [Nat.toDigits_of_lt_base hlt]
      simp only [List.head?_cons, ne_eq, Option.some.injEq, Nat.digitChar_eq_zero]
      omega
    · rw [Nat.toDigits_of_base_le (by decide) hge,
        List.head?_append_of_ne_nil _ Nat.toDigits_ne_nil]
      exact ih (n / 10) (Nat.div_lt_self h (by decide)) (by omega)

/-- Digits of a number in front of a point: there are some, and the first is no zero. -/
structure AreDigits (digits : List Char) : Prop where
  ne_nil : digits ≠ []
  isDigit : ∀ c ∈ digits, c.isDigit = true
  leading : digits.head? ≠ some '0'

theorem areDigits_digitsOf {n : Nat} (h : 0 < n) : AreDigits (digitsOf n) where
  ne_nil := Nat.toDigits_ne_nil
  isDigit := isDigit_toDigits n
  leading := head?_digitsOf h

theorem isDigit_zeros (count : Nat) : ∀ c ∈ zeros count, c.isDigit = true := by
  intro c hc
  rw [List.eq_of_mem_replicate hc]
  rfl

theorem length_zeros (count : Nat) : (zeros count).length = count := List.length_replicate

theorem ofDigitChars_append_zeros (digits : List Char) (count : Nat) :
    Nat.ofDigitChars 10 (digits ++ zeros count) 0 = Nat.ofDigitChars 10 digits 0 * 10 ^ count := by
  rw [Nat.ofDigitChars_append, zeros, Nat.ofDigitChars_replicate_zero, Nat.mul_comm]

theorem ofDigitChars_zeros_append (count : Nat) (digits : List Char) :
    Nat.ofDigitChars 10 (zeros count ++ digits) 0 = Nat.ofDigitChars 10 digits 0 := by
  rw [Nat.ofDigitChars_append, zeros, Nat.ofDigitChars_replicate_zero, Nat.mul_zero]

/-! ## The layout -/

/-- Numbers of a script are positional with up to 21 digits before the point or up to five zeros
after it, a whole number has no point, and the exponent has as few digits as it needs. -/
def scriptNumeral : Layout := ⟨-5, 21, "", 1, false⟩

/-- The parts of the number `0.d₁…dₖ * 10 ^ point` with the digits `d₁` to `dₖ`, as a script writes
them. -/
def scriptParts (digits : List Char) (point : Int) : Parts :=
  if digits.length ≤ point ∧ point ≤ 21 then
    { whole := digits ++ zeros (point - digits.length).toNat }
  else if 0 < point ∧ point ≤ 21 then
    { whole := digits.take point.toNat, fraction := digits.drop point.toNat }
  else if -6 < point ∧ point ≤ 0 then
    { whole := ['0'], fraction := zeros (-point).toNat ++ digits }
  else { whole := digits.take 1, fraction := digits.drop 1, exponent := point - 1 }

section Layout

variable {digits : List Char} {point : Int}

theorem exponentText_eq {e : Int} (h : e ≠ 0) :
    scriptNumeral.exponentText e = Parts.exponentText e := by
  -- a number has a digit at least, so nothing is left to fill up with zeros
  have hone : 1 - (digitsOf e.natAbs).length = 0 := Nat.sub_eq_zero_of_le Nat.length_toDigits_pos
  simp only [Layout.exponentText, Parts.exponentText, h, ↓reduceIte, scriptNumeral, hone]
  rfl

/-- The numerals of a script are laid out by `scriptParts`. -/
theorem place_eq_text (h : digits ≠ []) :
    scriptNumeral.place digits point = (scriptParts digits point).text := by
  have hpos : 0 < digits.length := List.length_pos_iff.2 h
  unfold Layout.place scriptParts
  split
  · next hrange =>
    obtain ⟨hleast, hgreatest⟩ : -5 ≤ point ∧ point ≤ 21 := hrange
    unfold positional
    split
    · rw [if_neg (by omega), if_neg (by omega), if_pos (by omega)]
      simp [Parts.text, Parts.fractionText, Parts.exponentText, h]
    · split
      · rw [if_pos (by omega), Int.toNat_sub']
        simp [Parts.text, Parts.fractionText, Parts.exponentText, scriptNumeral]
      · next hlt =>
        have hdrop : digits.drop point.toNat ≠ [] := by
          rw [ne_eq, List.drop_eq_nil_iff]
          omega
        rw [if_neg (by omega), if_pos (by omega)]
        simp [Parts.text, Parts.fractionText, Parts.exponentText, hdrop]
  · next hrange =>
    have hout : ¬(-5 ≤ point ∧ point ≤ 21) := hrange
    rw [if_neg (by omega), if_neg (by omega), if_neg (by omega)]
    have hexponent := exponentText_eq (show point - 1 ≠ 0 by omega)
    split
    · exact absurd rfl h
    · simp [Parts.text, Parts.fractionText, hexponent]
    · next rest hne =>
      have hrest : rest ≠ [] := hne
      simp [Parts.text, Parts.fractionText, hexponent, hrest]

theorem wellFormed_scriptParts (h : AreDigits digits) : (scriptParts digits point).WellFormed := by
  obtain ⟨d, rest, rfl⟩ := List.exists_cons_of_ne_nil h.ne_nil
  have hd : d ≠ '0' := fun hd => h.leading (by rw [hd]; rfl)
  unfold scriptParts
  split
  · refine ⟨by simp, ?_, by simp [hd]⟩
    rw [List.append_nil, List.forall_mem_append]
    exact ⟨h.isDigit, isDigit_zeros _⟩
  · split
    · obtain ⟨k, hk⟩ : ∃ k, point.toNat = k + 1 := ⟨point.toNat - 1, by omega⟩
      refine ⟨by simp [hk], ?_, by simp [hk, hd]⟩
      rw [List.take_append_drop]
      exact h.isDigit
    · split
      · refine ⟨by simp, ?_, by simp⟩
        rw [List.forall_mem_append, List.forall_mem_append]
        exact ⟨by simp, isDigit_zeros _, h.isDigit⟩
      · refine ⟨by simp, ?_, by simp [hd]⟩
        rw [List.take_append_drop]
        exact h.isDigit

/-- The parts stand for the number whose digits are laid out. -/
theorem units_scriptParts (h : digits ≠ []) :
    (scriptParts digits point).decimal.units =
      Decimal.units ⟨Nat.ofDigitChars 10 digits 0, point - digits.length⟩ := by
  have hpos : 0 < digits.length := List.length_pos_iff.2 h
  unfold scriptParts
  split
  · next hle =>
    obtain ⟨k, hk⟩ : ∃ k : ℕ, point - digits.length = k :=
      ⟨_, (Int.toNat_of_nonneg (by omega)).symm⟩
    simp only [Parts.decimal, List.append_nil, hk, Int.toNat_natCast, ofDigitChars_append_zeros,
      Decimal.units_mul_pow]
    simp
  · next hle =>
    split
    · have hscale : (0 : ℤ) - (digits.drop point.toNat).length = point - digits.length := by
        rw [List.length_drop]
        omega
      simp only [Parts.decimal, List.take_append_drop, hscale]
    · split
      · have hscale :
            (0 : ℤ) - (zeros (-point).toNat ++ digits).length = point - digits.length := by
          rw [List.length_append, length_zeros]
          omega
        have hwhole : ['0'] ++ (zeros (-point).toNat ++ digits) =
            zeros ((-point).toNat + 1) ++ digits := rfl
        simp only [Parts.decimal, hscale, hwhole, ofDigitChars_zeros_append]
      · have hscale : point - 1 - (digits.drop 1).length = point - digits.length := by
          rw [List.length_drop]
          omega
        simp only [Parts.decimal, List.take_append_drop, hscale]

end Layout

/-! ## Doubles in the layout -/

namespace Finite

variable {x : Finite}

theorem pattern_pos (hx : x.isZero = false) : 0 < x.pattern := by
  simpa [isZero, Nat.pos_iff_ne_zero] using hx

theorem areDigits_shortest (hx : x.isZero = false) :
    AreDigits (digitsOf (shortest x.pattern).digits) := by
  have hpos : 0 < x.pattern := pattern_pos hx
  exact areDigits_digitsOf (digits_pos_of_roundsTo hpos (isCoarsest_shortest hpos).reads)

/-- Any layout places the digits of the shortest decimal behind the sign. -/
theorem toList_render (layout : Layout) (hx : x.isZero = false) :
    (layout.render x).toList = (if x.negative then ['-'] else []) ++
      layout.place (digitsOf (shortest x.pattern).digits)
        ((shortest x.pattern).length + (shortest x.pattern).exponent) := by
  have hpattern : x.pattern ≠ 0 := (pattern_pos hx).ne'
  rw [Layout.render, String.toList_ofList, Layout.magnitude, if_neg hpattern, hx, Bool.not_false,
    Bool.or_true, Bool.and_true]
  rfl

theorem toList_render_of_isShortest {d : Decimal} (hx : x.isZero = false)
    (hd : IsShortest x d) : (scriptNumeral.render x).toList =
      (if x.negative then ['-'] else []) ++
        (scriptParts (digitsOf d.digits) (d.length + d.exponent)).text := by
  obtain rfl := (isShortest_iff (pattern_pos hx)).1 hd
  rw [toList_render scriptNumeral hx]
  exact congrArg _ (place_eq_text Nat.toDigits_ne_nil)

theorem render_of_isZero (hx : x.isZero = true) : scriptNumeral.render x = "0" := by
  have hpattern : x.pattern = 0 := by simpa [isZero] using hx
  have hsigned : (x.negative && (scriptNumeral.signedZero || !x.isZero)) = false := by
    rw [hx]
    exact Bool.and_false _
  rw [Layout.render, hsigned, Layout.magnitude, if_pos hpattern]
  rfl

end Finite

end CueGraph
