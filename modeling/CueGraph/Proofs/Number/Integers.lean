import CueGraph.Proofs.Number.Numerals
import CueGraph.Proofs.Text.Case

/-!
# Integers in every notation

An integer is spelled in decimal, and one that is not negative also in one of the marked bases, its
letters in either case. All spellings are read as the same double as the integer itself, whatever
blank is around them (`Numeral.Spells.read?`). This double is the nearest one, told by distances
(`roundsTo_iff_isNearest`), and it is missing exactly where the nearest magnitude is beyond the
finite doubles (`patternLimit_le_iff`).

Main statement: `Value.integer_spellings`.
-/

namespace CueGraph

/-! ## The nearest pattern, by distance -/

/-- No pattern is nearer to a number of units, and of two equally near ones it is the even one. -/
structure IsNearest (u : ℚ) (p : ℕ) : Prop where
  nearest : ∀ q, |u - unitsOf p| ≤ |u - unitsOf q|
  even : ∀ q ≠ p, |u - unitsOf p| = |u - unitsOf q| → Even p

section Distance

variable {u a b : ℚ} {p : ℕ}

/-- Nearer to the lower of two places is what lies below their middle. -/
theorem abs_sub_le_iff_of_lt (h : a < b) : |u - a| ≤ |u - b| ↔ 2 * u ≤ a + b := by
  have hdiff : (u - b) ^ 2 - (u - a) ^ 2 = (b - a) * (a + b - 2 * u) := by ring
  rw [← sq_le_sq, ← sub_nonneg, hdiff, mul_nonneg_iff_of_pos_left (sub_pos.2 h), sub_nonneg]

theorem abs_sub_le_iff_of_gt (h : a < b) : |u - b| ≤ |u - a| ↔ a + b ≤ 2 * u := by
  have hdiff : (u - a) ^ 2 - (u - b) ^ 2 = (b - a) * (2 * u - (a + b)) := by ring
  rw [← sq_le_sq, ← sub_nonneg, hdiff, mul_nonneg_iff_of_pos_left (sub_pos.2 h), sub_nonneg]

theorem abs_sub_eq_iff_of_lt (h : a < b) : |u - a| = |u - b| ↔ 2 * u = a + b := by
  rw [le_antisymm_iff, abs_sub_le_iff_of_lt h, abs_sub_le_iff_of_gt h, ← le_antisymm_iff]

theorem RoundsTo.below_middle {q : ℕ} (h : RoundsTo u p) (hq : p < q) :
    2 * u ≤ unitsOf p + unitsOf q ∧ (2 * u = unitsOf p + unitsOf q → Even p) := by
  have hnext : (unitsOf (p + 1) : ℚ) ≤ unitsOf q := by
    exact_mod_cast unitsOf_strictMono.monotone hq
  have hmid := two_mul_halfway p
  rcases h.below with hlt | ⟨heq, heven⟩
  · exact ⟨by linarith, fun htie => by linarith⟩
  · exact ⟨by linarith, fun _ => heven⟩

theorem RoundsTo.above_middle {q : ℕ} (h : RoundsTo u p) (hq : q < p) :
    unitsOf q + unitsOf p ≤ 2 * u ∧ (2 * u = unitsOf q + unitsOf p → Even p) := by
  obtain ⟨k, rfl⟩ : ∃ k, p = k + 1 := ⟨p - 1, by omega⟩
  have hprevious : (unitsOf q : ℚ) ≤ unitsOf k := by
    exact_mod_cast unitsOf_strictMono.monotone (Nat.le_of_lt_succ hq)
  have hmid := two_mul_halfway k
  rcases h.above k rfl with hlt | ⟨heq, heven⟩
  · exact ⟨by linarith, fun htie => by linarith⟩
  · exact ⟨by linarith, fun _ => heven⟩

theorem RoundsTo.isNearest (h : RoundsTo u p) : IsNearest u p where
  nearest q := by
    rcases Nat.lt_trichotomy p q with hlt | rfl | hgt
    · exact (abs_sub_le_iff_of_lt (cast_unitsOf_lt hlt)).2 (h.below_middle hlt).1
    · exact le_rfl
    · exact (abs_sub_le_iff_of_gt (cast_unitsOf_lt hgt)).2 (h.above_middle hgt).1
  even q hne heq := by
    rcases Nat.lt_or_gt_of_ne hne with hlt | hgt
    · exact (h.above_middle hlt).2 ((abs_sub_eq_iff_of_lt (cast_unitsOf_lt hlt)).1 heq.symm)
    · exact (h.below_middle hgt).2 ((abs_sub_eq_iff_of_lt (cast_unitsOf_lt hgt)).1 heq)

theorem IsNearest.roundsTo (h : IsNearest u p) : RoundsTo u p := by
  constructor
  · rintro q rfl
    have hlt := cast_unitsOf_lt q.lt_succ_self
    have hle := (abs_sub_le_iff_of_gt hlt).1 (h.nearest q)
    have hmid := two_mul_halfway q
    rcases hle.lt_or_eq with hless | heq
    · left
      linarith
    · right
      exact ⟨by linarith, h.even q (by omega) ((abs_sub_eq_iff_of_lt hlt).2 heq.symm).symm⟩
  · have hlt := cast_unitsOf_lt p.lt_succ_self
    have hle := (abs_sub_le_iff_of_lt hlt).1 (h.nearest (p + 1))
    have hmid := two_mul_halfway p
    rcases hle.lt_or_eq with hless | heq
    · left
      linarith
    · right
      exact ⟨by linarith, h.even (p + 1) (by omega) ((abs_sub_eq_iff_of_lt hlt).2 heq)⟩

/-- To round is to take the nearest pattern. -/
theorem roundsTo_iff_isNearest : RoundsTo u p ↔ IsNearest u p :=
  ⟨RoundsTo.isNearest, IsNearest.roundsTo⟩

end Distance

/-! ## Beyond the finite doubles -/

/-- Half way between the greatest double and what would be the next one, in units. -/
theorem halfway_greatest :
    halfway (patternLimit - 1) = ((2 ^ 54 - 1) * 2 ^ 970 : ℕ) * unitsPerOne := by
  obtain ⟨total, htotal, hone⟩ := unitsPerOne_eq
  -- as in `unitsPerOne_eq`, nothing shall evaluate the power
  obtain ⟨k, hk⟩ : ∃ k, k = 970 := ⟨970, rfl⟩
  have hgreatest : patternLimit - 1 = 2045 * 2 ^ 52 + (2 ^ 53 - 1) := by decide
  have hpow : (2 : ℚ) ^ 2045 = 2 ^ k * 2 ^ total * 2 := by
    rw [hk, htotal, ← pow_add, ← pow_succ]
  rw [hgreatest, halfway_split (by decide) (.inr (by decide)), hpow, hone, ← hk]
  push_cast [Nat.pow_eq]
  ring

/-- The nearest magnitude is beyond the finite doubles from the middle on between the greatest of
them and what would be the next one; the middle itself counts for that one, which is even. -/
theorem patternLimit_le_iff {u : ℚ} {p : ℕ} (h : RoundsTo u p) :
    patternLimit ≤ p ↔ halfway (patternLimit - 1) ≤ u := by
  constructor
  · intro hle
    have hpos : 0 < patternLimit := by decide
    obtain ⟨k, rfl⟩ : ∃ k, p = k + 1 := ⟨p - 1, by omega⟩
    have hk : patternLimit - 1 ≤ k := by omega
    rcases Nat.eq_or_lt_of_le hk with rfl | hlt
    · exact h.halfway_le
    · exact (halfway_lt_halfway hlt).le.trans h.halfway_le
  · intro hle
    by_contra hlt
    have hp : p ≤ patternLimit - 1 := by omega
    have hodd : ¬Even (patternLimit - 1) := by decide
    rcases Nat.eq_or_lt_of_le hp with rfl | hless
    · rcases h.below with hbelow | ⟨-, heven⟩
      · exact absurd hle (not_le.2 hbelow)
      · exact hodd heven
    · exact absurd (hle.trans h.le_halfway) (not_le.2 (halfway_lt_halfway hless))

theorem roundsTo_natural (n : ℕ) : RoundsTo (n * unitsPerOne) (patternOfRatio n 1) := by
  have hratio := roundsTo_patternOfRatio (n := n) (d := 1) Nat.one_pos
  rwa [Nat.cast_one, div_one] at hratio

namespace Finite

theorem ofPattern?_eq_none_iff {negative : Bool} {p : ℕ} :
    ofPattern? negative p = none ↔ patternLimit ≤ p := by
  simp [ofPattern?]

theorem ofPattern?_eq_some_iff {negative : Bool} {p : ℕ} {x : Finite} :
    ofPattern? negative p = some x ↔ x.negative = negative ∧ x.pattern = p := by
  obtain ⟨negative', pattern, hlt⟩ := x
  simp only [ofPattern?, Option.dite_none_right_eq_some, Option.some.injEq, mk.injEq]
  constructor
  · rintro ⟨-, rfl, rfl⟩
    exact ⟨rfl, rfl⟩
  · rintro ⟨rfl, rfl⟩
    exact ⟨hlt, rfl, rfl⟩

/-- An integer is rounded to the pattern nearest to its magnitude. -/
theorem ofInt_eq {n : ℤ} {p : ℕ} (h : RoundsTo (n.natAbs * unitsPerOne) p) :
    ofInt n = ofPattern? (n < 0) p := by
  rw [ofInt, ofRatio, (roundsTo_natural n.natAbs).unique h]

theorem ofInt_eq_none_iff {n : ℤ} :
    ofInt n = none ↔ (2 ^ 54 - 1) * 2 ^ 970 ≤ n.natAbs := by
  have hround := roundsTo_natural n.natAbs
  rw [ofInt_eq hround, ofPattern?_eq_none_iff, patternLimit_le_iff hround, halfway_greatest,
    mul_le_mul_iff_of_pos_right unitsPerOne_pos, Nat.cast_le]

end Finite

/-! ## Spellings -/

namespace Numeral

open CueGraph.Text

/-- The letters that mark the bases other than ten, with their bases. -/
def markedBases : List (Char × ℕ) := [('x', 16), ('o', 8), ('b', 2)]

/-- The characters that spell an integer: a minus if it is negative and its decimal digits, or, if
it is not, a zero, the letter of a base and its digits in that base, where each letter can be of
either case. -/
inductive Spells (n : ℤ) : List Char → Prop
  | decimal : Spells n (toString n).toList
  | based {mark : Char} {size : ℕ} {digits : List Char} (hn : 0 ≤ n)
      (hmark : (mark.toLower, size) ∈ markedBases)
      (hdigits : digits.map Char.toLower = Nat.toDigits size n.toNat) :
      Spells n ('0' :: mark :: digits)

/-! ### Letters of either case -/

/-- The digits and the letters of ASCII. -/
def alphanumericRanges : Ranges := [(0x30, 0x39), (0x41, 0x5A), (0x61, 0x7A)]

theorem not_isBlankChar_of_alphanumeric {c : Char} (h : alphanumericRanges.contains c = true) :
    isBlankChar c = false := by
  obtain ⟨range, hrange, hfirst, hlast⟩ := Ranges.contains_iff.1 h
  have hvisible : ∀ range ∈ alphanumericRanges, 0x20 < range.1 ∧ range.2 < 0x7F := by decide
  obtain ⟨hlow, hhigh⟩ := hvisible range hrange
  exact not_isBlankChar_of_visible (by omega) (by omega)

theorem ofMark?_toLower (c : Char) : Base.ofMark? c.toLower = Base.ofMark? c :=
  apply_toLower (by decide) c

theorem letterDigit?_toLower (c : Char) : letterDigit? c.toLower = letterDigit? c :=
  apply_toLower (by decide) c

theorem alphanumeric_toLower (c : Char) :
    alphanumericRanges.contains c.toLower = alphanumericRanges.contains c :=
  apply_toLower (by decide) c

/-! ### Digits in a base -/

theorem letterDigit?_digitChar : ∀ d < 16, letterDigit? (Nat.digitChar d) = some d := by decide

theorem alphanumeric_digitChar :
    ∀ d < 16, alphanumericRanges.contains (Nat.digitChar d) = true := by decide

theorem Base.size_bounds (base : Base) : 1 < base.size ∧ base.size ≤ 16 := by
  cases base <;> decide

theorem mem_toDigits {b : ℕ} (hb : 1 < b) (n : ℕ) :
    ∀ c ∈ Nat.toDigits b n, ∃ d < b, c = Nat.digitChar d := by
  induction n using Nat.strongRecOn with
  | ind n ih =>
    intro c hc
    rcases Nat.lt_or_ge n b with hlt | hge
    · rw [Nat.toDigits_of_lt_base hlt, List.mem_singleton] at hc
      exact ⟨n, hlt, hc⟩
    · rw [Nat.toDigits_of_base_le hb hge, List.mem_append, List.mem_singleton] at hc
      rcases hc with hc | hc
      · exact ih (n / b) (Nat.div_lt_self (by omega) hb) c hc
      · exact ⟨n % b, Nat.mod_lt n (by omega), hc⟩

theorem baseDigits?_map_toLower (base : Base) (cs : List Char) :
    baseDigits? base (cs.map Char.toLower) = baseDigits? base cs := by
  induction cs with
  | nil => rfl
  | cons c rest ih => simp only [List.map_cons, baseDigits?, letterDigit?_toLower, ih]

theorem baseDigits?_concat {base : Base} {cs : List Char} {c : Char} {ds : List ℕ} {d : ℕ}
    (h : baseDigits? base cs = some ds) (hc : letterDigit? c = some d) (hd : d < base.size) :
    baseDigits? base (cs ++ [c]) = some (ds ++ [d]) := by
  induction cs generalizing ds with
  | nil =>
    obtain rfl := Option.some.inj h
    simp [baseDigits?, hc, hd]
  | cons first rest ih =>
    simp only [baseDigits?, List.cons_append] at h ⊢
    split at h
    · split at h
      · obtain ⟨ds', hds', rfl⟩ := Option.map_eq_some_iff.1 h
        rw [ih hds']
        simp_all
      · cases h
    · cases h

/-- The digits of a number in a base are read as the number. -/
theorem baseDigits?_toDigits (base : Base) (n : ℕ) : ∃ d ds,
    baseDigits? base (Nat.toDigits base.size n) = some (d :: ds) ∧
      ofDigits base.size (d :: ds) = n := by
  obtain ⟨hsize, hsize'⟩ := base.size_bounds
  induction n using Nat.strongRecOn with
  | ind n ih =>
    rcases Nat.lt_or_ge n base.size with hlt | hge
    · rw [Nat.toDigits_of_lt_base hlt]
      refine ⟨n, [], ?_, by simp [ofDigits]⟩
      simp [baseDigits?, letterDigit?_digitChar n (by omega), hlt]
    · obtain ⟨d, ds, hread, hvalue⟩ := ih (n / base.size) (Nat.div_lt_self (by omega) hsize)
      have hlast : n % base.size < base.size := Nat.mod_lt n (by omega)
      rw [Nat.toDigits_of_base_le hsize hge, baseDigits?_concat hread
        (letterDigit?_digitChar _ (by omega)) hlast]
      refine ⟨d, ds ++ [n % base.size], rfl, ?_⟩
      unfold ofDigits at hvalue ⊢
      rw [← List.cons_append, List.foldl_append, hvalue, List.foldl_cons, List.foldl_nil,
        Nat.div_add_mod']

/-- As a digit, the letter that marks a base is too large for it. -/
theorem size_le_of_ofMark? {base : Base} {c : Char} (h : Base.ofMark? c = some base) :
    ∃ d, letterDigit? c = some d ∧ base.size ≤ d := by
  unfold Base.ofMark? at h
  split at h
  · next hmark =>
    cases h
    rcases hmark with rfl | rfl <;> exact ⟨33, by decide, by decide⟩
  · split at h
    · next hmark =>
      cases h
      rcases hmark with rfl | rfl <;> exact ⟨24, by decide, by decide⟩
    · split at h
      · next hmark =>
        cases h
        rcases hmark with rfl | rfl <;> exact ⟨11, by decide, by decide⟩
      · cases h

theorem dropMark_of_forall {base : Base} {cs : List Char}
    (h : ∀ c ∈ cs, Base.ofMark? c ≠ some base) : dropMark base cs = cs := by
  unfold dropMark
  split
  · next z m rest => rw [if_neg fun hmark => h m (by simp) hmark.2]
  · rfl

section Based

variable {base : Base} {digits : List Char} {n : ℕ}

theorem letterDigit?_of_mem (h : digits.map Char.toLower = Nat.toDigits base.size n) :
    ∀ c ∈ digits, alphanumericRanges.contains c = true ∧
      ∃ d < base.size, letterDigit? c = some d := by
  intro c hc
  obtain ⟨hsize, hsize'⟩ := base.size_bounds
  obtain ⟨d, hd, hlower⟩ := mem_toDigits hsize n c.toLower (h ▸ List.mem_map_of_mem hc)
  refine ⟨?_, d, hd, ?_⟩
  · rw [← alphanumeric_toLower, hlower, alphanumeric_digitChar d (by omega)]
  · rw [← letterDigit?_toLower, hlower, letterDigit?_digitChar d (by omega)]

/-- Digits in a base, the letters in either case, are read as the number. -/
theorem readBased?_digits (h : digits.map Char.toLower = Nat.toDigits base.size n) :
    readBased? base digits = Finite.ofInt n := by
  have hdigits := letterDigit?_of_mem h
  have hspace : digits.dropWhile isSpaceChar = digits := by
    cases digits with
    | nil => rfl
    | cons c rest =>
      have hblank := not_isBlankChar_of_alphanumeric (hdigits c List.mem_cons_self).1
      rw [List.dropWhile_cons_of_neg (by simp [isSpaceChar, hblank])]
  have hsign : takeSign digits = (false, digits) := by
    unfold takeSign
    split
    · exact absurd (hdigits '-' List.mem_cons_self).1 (by decide)
    · exact absurd (hdigits '+' List.mem_cons_self).1 (by decide)
    · rfl
  have hmark : dropMark base digits = digits := by
    refine dropMark_of_forall fun c hc hmark => ?_
    obtain ⟨d, hd, hvalue⟩ := (hdigits c hc).2
    obtain ⟨d', hvalue', hle⟩ := size_le_of_ofMark? hmark
    rw [hvalue, Option.some.injEq] at hvalue'
    omega
  obtain ⟨d, ds, hread, hvalue⟩ := baseDigits?_toDigits base n
  rw [← h, baseDigits?_map_toLower] at hread
  rw [readBased?, hspace, hsign]
  simp only [hmark, hread, hvalue, Bool.false_eq_true, ↓reduceIte]

end Based

/-! ### Reading the spellings -/

section Read

variable {n : ℤ} {before cs after : List Char}

theorem ofMark?_of_mem_markedBases {mark : Char} {size : ℕ}
    (h : (mark.toLower, size) ∈ markedBases) :
    alphanumericRanges.contains mark = true ∧ ∃ base, Base.ofMark? mark = some base ∧ base.size = size := by
  have hbases : ∀ entry ∈ markedBases, alphanumericRanges.contains entry.1 = true ∧
      (Base.ofMark? entry.1).map Base.size = some entry.2 := by decide
  obtain ⟨halnum, hbase⟩ := hbases _ h
  rw [alphanumeric_toLower] at halnum
  rw [ofMark?_toLower] at hbase
  exact ⟨halnum, Option.map_eq_some_iff.1 hbase⟩

theorem patternOfDecimal_natural (n : ℕ) : patternOfDecimal n 0 = patternOfRatio n 1 := by
  rw [patternOfDecimal]
  simp [Nat.pow_eq]

/-- The decimal digits of an integer are read as the nearest double. -/
theorem readDecimal?_toString (n : ℤ) : readDecimal? (toString n).toList = Finite.ofInt n := by
  have hform : Parts.WellFormed { whole := digitsOf n.natAbs } := by
    refine ⟨Nat.toDigits_ne_nil, ?_, fun hzero => ?_⟩
    · rw [List.append_nil]
      exact isDigit_toDigits n.natAbs
    rcases Nat.eq_zero_or_pos n.natAbs with h0 | hpos
    · rw [h0]
      exact Nat.toDigits_zero 10
    · exact absurd hzero (head?_digitsOf hpos)
  have htext : Parts.text { whole := digitsOf n.natAbs } = digitsOf n.natAbs := by
    simp [Parts.text, Parts.fractionText, Parts.exponentText]
  have hdecimal : Parts.decimal { whole := digitsOf n.natAbs } = ⟨n.natAbs, 0⟩ := by
    simp [Parts.decimal, digitsOf, Nat.ofDigitChars_ten_toDigits]
  have hread := readDecimal?_text hform (decide (n < 0))
  simp only [htext, hdecimal, ofDecimal_eq, patternOfDecimal_natural, decide_eq_true_eq] at hread
  rw [toList_toString]
  exact hread

/-- Whatever blank is around it, a spelling of an integer is read as the double nearest to it. -/
theorem Spells.read? (h : Spells n cs) (hbefore : ∀ c ∈ before, isBlankChar c = true)
    (hafter : ∀ c ∈ after, isBlankChar c = true) :
    Finite.read? (String.ofList (before ++ cs ++ after)) = Finite.ofInt n := by
  cases h with
  | decimal =>
    have hchars : IsNumeralText (toString n).toList := by
      rw [toList_toString]
      refine IsNumeralText.append ?_ (isNumeralText_digitsOf _)
      split
      · exact .cons rfl fun _ hc => nomatch hc
      · exact fun _ hc => nomatch hc
    have hne : (toString n).toList ≠ [] := by
      rw [toList_toString]
      exact List.append_ne_nil_of_right_ne_nil _ Nat.toDigits_ne_nil
    rw [read?_of_isNumeralText hbefore hafter hchars hne, readDecimal?_toString]
  | @based mark size digits hn hmark hdigits =>
    obtain ⟨hletter, base, hbase, rfl⟩ := ofMark?_of_mem_markedBases hmark
    have halnum : ∀ c ∈ '0' :: mark :: digits, alphanumericRanges.contains c = true := by
      simp only [List.mem_cons, forall_eq_or_imp]
      exact ⟨rfl, hletter, fun c hc => (letterDigit?_of_mem hdigits c hc).1⟩
    have hvisible : ∀ c ∈ '0' :: mark :: digits, isBlankChar c = false := fun c hc =>
      not_isBlankChar_of_alphanumeric (halnum c hc)
    have hscore : '_' ∉ '0' :: mark :: digits := fun hmem => absurd (halnum _ hmem) (by decide)
    rw [Finite.read?, String.toList_ofList, dropBlank_around hbefore hafter hvisible,
      readTrimmed?, if_neg (by simp), if_neg hscore]
    simp only [hbase]
    rw [readBased?_digits hdigits, Int.toNat_of_nonneg hn]

end Read

end Numeral

/-! ## Main theorem -/

namespace Value

/-- All spellings of an integer, with whatever blank around them, stand for the number that the
integer itself stands for. One pattern is nearest to its magnitude, of two equally near ones the
even one counting: the number has this pattern and the sign of the integer, and it is missing
exactly when the pattern is beyond the finite doubles, which is so from half a step above the
greatest of them on. -/
theorem integer_spellings (n : ℤ) :
    (∀ before cs after, (∀ c ∈ before, Text.isBlankChar c = true) → Numeral.Spells n cs →
      (∀ c ∈ after, Text.isBlankChar c = true) →
      (str (String.ofList (before ++ cs ++ after))).toFinite? = (int n).toFinite?) ∧
    (∃! p, IsNearest (n.natAbs * unitsPerOne) p) ∧
    (∀ p, IsNearest (n.natAbs * unitsPerOne) p →
      ((int n).toFinite? = none ↔ patternLimit ≤ p) ∧
      ∀ x, (int n).toFinite? = some x ↔ x.negative = decide (n < 0) ∧ x.pattern = p) ∧
    ((int n).toFinite? = none ↔ (2 ^ 54 - 1) * 2 ^ 970 ≤ n.natAbs) := by
  have hround := roundsTo_natural n.natAbs
  refine ⟨fun before cs after hbefore hcs hafter => hcs.read? hbefore hafter,
    ⟨_, roundsTo_iff_isNearest.1 hround, fun p hp => hp.roundsTo.unique hround⟩,
    fun p hp => ?_, Finite.ofInt_eq_none_iff⟩
  have hvalue : (int n).toFinite? = Finite.ofPattern? (n < 0) p := Finite.ofInt_eq hp.roundsTo
  rw [hvalue]
  exact ⟨Finite.ofPattern?_eq_none_iff, fun x => Finite.ofPattern?_eq_some_iff⟩

/-- One less than 2^54 lies half way between two doubles. Rounding goes to the even one and carries
into the exponent, in hexadecimal too. -/
theorem integer_spellings_carry :
    let n : ℤ := 18014398509481983
    let hexadecimal := "0X3fffffFFFFFFFF".toList
    IsNearest (n.natAbs * unitsPerOne) (1077 * 2 ^ 52) ∧ Numeral.Spells n hexadecimal ∧
      Text.isBlankChar '\t' = true ∧ Text.isBlankChar ' ' = true ∧
      (str (String.ofList (['\t'] ++ hexadecimal ++ [' ']))).toFinite? =
        some ⟨false, 1077 * 2 ^ 52, by decide⟩ := by
  intro n hexadecimal
  have hpattern : patternOfRatio n.natAbs 1 = 1077 * 2 ^ 52 := by decide +kernel
  have hnear : IsNearest (n.natAbs * unitsPerOne) (1077 * 2 ^ 52) := by
    rw [← hpattern, ← roundsTo_iff_isNearest]
    exact roundsTo_natural n.natAbs
  have hspells : Numeral.Spells n hexadecimal :=
    .based (by decide) (show ('X'.toLower, 16) ∈ Numeral.markedBases by decide) (by decide)
  obtain ⟨hsame, -, hnumber, -⟩ := integer_spellings n
  have htab : Text.isBlankChar '\t' = true := by decide
  have hblank : Text.isBlankChar ' ' = true := by decide
  refine ⟨hnear, hspells, htab, hblank, ?_⟩
  rw [hsame ['\t'] hexadecimal [' '] (List.forall_mem_singleton.2 htab) hspells
    (List.forall_mem_singleton.2 hblank)]
  exact ((hnumber _ hnear).2 _).2 ⟨by decide, rfl⟩

end Value

end CueGraph
