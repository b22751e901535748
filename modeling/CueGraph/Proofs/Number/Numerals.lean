import CueGraph.Proofs.Script.Calls
import CueGraph.Value

/-!
# The numerals of a script

The numeral of a double is its shortest decimal in the layout of a script (`scriptParts`). Such a text is a number as the script knows them, and reading it gives the double
back, a minus zero as zero.

Main statements: `read?_numeral` (what is written is read again), `Value.numeral_reads_back` (no two
values have one numeral, unless they stand for the same number) and `Value.numeral_layout` (the
digits of a numeral and where its point stands).
-/

namespace CueGraph

open Numeral

/-! ## Reading numerals -/

theorem isNumeralChar_cases {c : Char} (h : isNumeralChar c = true) :
    c.isDigit = true ∨ c = '.' ∨ c = 'e' ∨ c = '+' ∨ c = '-' := by
  simpa [isNumeralChar] using h

theorem not_isBlankChar_of_isNumeralChar {c : Char} (h : isNumeralChar c = true) :
    Text.isBlankChar c = false := by
  rcases isNumeralChar_cases h with hdigit | rfl | rfl | rfl | rfl
  · rw [Char.isDigit_iff_toNat] at hdigit
    have h0 : '0'.toNat = 48 := rfl
    have h9 : '9'.toNat = 57 := rfl
    exact Text.not_isBlankChar_of_visible (by omega) (by omega)
  all_goals decide

theorem ofMark?_of_isNumeralChar {c : Char} (h : isNumeralChar c = true) :
    Base.ofMark? c = none := by
  have hne : ∀ d, isNumeralChar d = false → c ≠ d := fun d hd heq => by simp [← heq, h] at hd
  unfold Base.ofMark?
  rw [if_neg, if_neg, if_neg]
  all_goals
    rintro (heq | heq)
    · exact hne _ (by decide) heq
    · exact hne _ (by decide) heq

/-- Characters of numerals are read as a decimal. -/
theorem readTrimmed?_of_isNumeralText {cs : List Char} (h : IsNumeralText cs) (hne : cs ≠ []) :
    readTrimmed? cs = readDecimal? cs := by
  unfold readTrimmed?
  rw [if_neg (by simpa using hne), if_neg fun hmem => absurd (h _ hmem) (by decide)]
  split
  · next m rest =>
    rw [ofMark?_of_isNumeralChar (h m (by simp))]
  · rfl

/-- A text of the characters of numerals is read as a decimal, whatever blank is around it. -/
theorem read?_of_isNumeralText {before cs after : List Char}
    (hbefore : ∀ c ∈ before, Text.isBlankChar c = true)
    (hafter : ∀ c ∈ after, Text.isBlankChar c = true) (h : IsNumeralText cs) (hne : cs ≠ []) :
    Finite.read? (String.ofList (before ++ cs ++ after)) = readDecimal? cs := by
  have hvisible : ∀ c ∈ cs, Text.isBlankChar c = false := fun c hc =>
    not_isBlankChar_of_isNumeralChar (h c hc)
  rw [Finite.read?, String.toList_ofList, Text.dropBlank_around hbefore hafter hvisible,
    readTrimmed?_of_isNumeralText h hne]

/-! ## The numerals of doubles -/

namespace Finite

/-- The double, a minus zero as zero. -/
def canonical (x : Finite) : Finite := if x.isZero then .zero else x

theorem rank_canonical (x : Finite) : x.canonical.rank = x.rank := by
  unfold canonical
  split
  · next hzero => exact (isZero_iff_rank.1 hzero).symm
  · rfl

theorem canonical_lt {x y : Finite} : x.canonical < y ↔ x < y := by
  rw [lt_iff_rank_lt, rank_canonical, lt_iff_rank_lt]

theorem lt_canonical {x y : Finite} : x < y.canonical ↔ x < y := by
  rw [lt_iff_rank_lt, rank_canonical, lt_iff_rank_lt]

theorem isZero_canonical {x : Finite} : x.canonical.isZero = x.isZero := by
  rw [Bool.eq_iff_iff, isZero_iff_rank, rank_canonical, isZero_iff_rank]

theorem isPositive_iff {x : Finite} : x.isPositive = true ↔ zero < x := decide_eq_true_iff

theorem same_iff {x y : Finite} : x.Same y ↔ x.canonical = y.canonical := by
  constructor
  · intro h
    have hrank : x.rank = y.rank := h
    by_cases hx : x.isZero = true
    · have hy : y.isZero = true := by rwa [isZero_iff_rank, ← hrank, ← isZero_iff_rank]
      rw [canonical, canonical, if_pos hx, if_pos hy]
    · have hy : ¬y.isZero = true := by rwa [isZero_iff_rank, ← hrank, ← isZero_iff_rank]
      rw [canonical, canonical, if_neg hx, if_neg hy]
      obtain ⟨negative, pattern, hlt⟩ := x
      obtain ⟨negative', pattern', hlt'⟩ := y
      simp only [isZero, beq_iff_eq, rank] at hx hy hrank
      cases negative <;> cases negative' <;> simp at hrank ⊢ <;> omega
  · intro h
    rw [Same, ← rank_canonical x, h, rank_canonical]

/-- Whether the numeral of the double has a sign. -/
def isMinus (x : Finite) : Bool := x.negative && !x.isZero

/-- The parts of the numeral of the double. -/
def parts (x : Finite) : Parts :=
  if x.isZero then { whole := ['0'] }
  else
    let d := shortest x.pattern
    scriptParts (digitsOf d.digits) (d.length + d.exponent)

theorem numeral_of_isZero {x : Finite} (hx : x.isZero = true) : x.numeral = "0" := by
  rw [numeral_eq_render, render_of_isZero hx]

theorem toList_numeral (x : Finite) :
    x.numeral.toList = (if x.isMinus then ['-'] else []) ++ x.parts.text := by
  cases hx : x.isZero with
  | true =>
    rw [numeral_of_isZero hx, isMinus, parts, if_pos hx, hx, Bool.not_true, Bool.and_false]
    rfl
  | false =>
    have hshort := (isShortest_iff (pattern_pos hx)).2 rfl
    rw [numeral_eq_render, toList_render_of_isShortest hx hshort]
    simp only [isMinus, parts, hx, Bool.not_false, Bool.and_true, Bool.false_eq_true, ↓reduceIte]

theorem wellFormed_parts (x : Finite) : x.parts.WellFormed := by
  unfold parts
  split
  · exact ⟨by simp, by simp, by simp⟩
  · next hx => exact wellFormed_scriptParts (areDigits_shortest (by simpa using hx))

/-- The layout of a decimal for a double stands for the double. -/
theorem ofDecimal_scriptParts {x : Finite} {d : Decimal} (h : RoundsTo d.units x.pattern)
    {n : Parts} (hn : n = scriptParts (digitsOf d.digits) (d.length + d.exponent)) :
    ofDecimal x.negative n.decimal.digits n.decimal.exponent = some x := by
  have hscale : (d.length + d.exponent : ℤ) - (digitsOf d.digits).length = d.exponent := by
    rw [Decimal.length]
    omega
  have hdigits : Nat.ofDigitChars 10 (digitsOf d.digits) 0 = d.digits :=
    Nat.ofDigitChars_ten_toDigits
  have hne : digitsOf d.digits ≠ [] := Nat.toDigits_ne_nil
  have hunits : n.decimal.units = d.units := by rw [hn, units_scriptParts hne, hscale, hdigits]
  rw [ofDecimal_eq_some_iff, hunits]
  exact h

theorem ofDecimal_parts (x : Finite) :
    ofDecimal x.isMinus x.parts.decimal.digits x.parts.decimal.exponent = some x.canonical := by
  cases hx : x.isZero with
  | true =>
    simp only [parts, isMinus, canonical, hx, Bool.not_true, Bool.and_false, ↓reduceIte]
    have hdigits : Parts.decimal { whole := ['0'] } = ⟨0, 0⟩ := rfl
    rw [hdigits, ofDecimal, if_pos rfl]
    rfl
  | false =>
    have hpos : 0 < x.pattern := pattern_pos hx
    simp only [parts, isMinus, canonical, hx, Bool.not_false, Bool.and_true, Bool.false_eq_true,
      ↓reduceIte]
    exact ofDecimal_scriptParts (isCoarsest_shortest hpos).reads rfl

/-- A numeral is read as the double that it was written for, a minus zero as zero. -/
theorem read?_numeral (x : Finite) : read? x.numeral = some x.canonical := by
  have hne : x.numeral.toList ≠ [] := by
    rw [toList_numeral, Parts.text]
    simp [x.wellFormed_parts.whole_ne]
  have hread : read? (String.ofList ([] ++ x.numeral.toList ++ [])) = _ :=
    read?_of_isNumeralText (by simp) (by simp) (isNumeralText_numeral x) hne
  rw [List.nil_append, List.append_nil, String.ofList_toList] at hread
  rw [hread, toList_numeral, readDecimal?_text x.wellFormed_parts, ofDecimal_parts]

theorem numeral_canonical (x : Finite) : x.canonical.numeral = x.numeral := by
  unfold canonical
  split
  · next hx => rw [numeral_of_isZero hx, numeral_of_isZero rfl]
  · rfl

theorem numeral_inj {x y : Finite} : x.numeral = y.numeral ↔ x.Same y := by
  rw [same_iff]
  constructor
  · intro h
    have hread := x.read?_numeral
    rw [h, read?_numeral] at hread
    exact (Option.some.inj hread).symm
  · intro h
    rw [← x.numeral_canonical, h, numeral_canonical]

theorem numeral_ne_of_read? {x : Finite} {s : String} (h : read? s ≠ some x.canonical) :
    x.numeral ≠ s := by
  rintro rfl
  exact h x.read?_numeral

theorem canonical_ne_negativeZero (x : Finite) : x.canonical ≠ negativeZero := by
  unfold canonical
  split
  · decide
  · next hx =>
    rintro rfl
    exact hx rfl

end Finite

/-! ## The numerals of values -/

namespace Value

/-- Writing numbers loses nothing: a numeral is read as the number of the value, a minus zero as
zero, it is its own numeral, and two values have one numeral only when they stand for the same
number. -/
theorem numeral_reads_back (v w : Value) :
    (str v.numeral).toFinite? = some v.toFinite.canonical ∧
    (str v.numeral).numeral = v.numeral ∧
    (v.numeral = w.numeral ↔ v.toFinite.Same w.toFinite) := by
  have hread : (str v.numeral).toFinite? = some v.toFinite.canonical := v.toFinite.read?_numeral
  refine ⟨hread, ?_, Finite.numeral_inj⟩
  rw [numeral, toFinite, hread]
  exact v.toFinite.numeral_canonical

/-- The numeral of a value is `0` where it stands for zero, and else the layout of the one shortest
decimal of its number. It is always a number as a script knows them, and never minus zero. -/
theorem numeral_layout (v : Value) :
    (v.toFinite.isZero = true → v.numeral = "0") ∧
    (v.toFinite.isZero = false → ∃! d, IsShortest v.toFinite d) ∧
    (v.toFinite.isZero = false → ∀ d, IsShortest v.toFinite d →
      v.numeral.toList = (if v.toFinite.negative then ['-'] else []) ++
        (scriptParts (digitsOf d.digits) (d.length + d.exponent)).text) ∧
    (∃ (minus : Bool) (n : Parts), n.WellFormed ∧
      v.numeral.toList = (if minus then ['-'] else []) ++ n.text) ∧
    ∀ s ∈ ["NaN", "Infinity", "-Infinity", "-0"], v.numeral ≠ s := by
  generalize hx : v.toFinite = x
  have hnumeral : v.numeral = x.numeral := by rw [numeral, hx]
  rw [hnumeral]
  refine ⟨Finite.numeral_of_isZero, fun hzero => ?_, fun hzero d hd => ?_,
    ⟨x.isMinus, x.parts, x.wellFormed_parts, x.toList_numeral⟩, ?_⟩
  · have hpos : 0 < x.pattern := Finite.pattern_pos hzero
    exact ⟨_, (isShortest_iff hpos).2 rfl, fun d hd => (isShortest_iff hpos).1 hd⟩
  · rw [Finite.numeral_eq_render]
    exact Finite.toList_render_of_isShortest hzero hd
  · -- none of the four is read as the double, for they are no numbers or minus zero
    have hread : ∀ s ∈ ["NaN", "Infinity", "-Infinity", "-0"],
        Finite.read? s = none ∨ Finite.read? s = some .negativeZero := by decide
    intro s hs
    apply Finite.numeral_ne_of_read?
    rcases hread s hs with hnone | hminus
    · simp [hnone]
    · simp [hminus, x.canonical_ne_negativeZero.symm]

/-- The least double below zero. -/
theorem numeral_layout_least :
    IsShortest ⟨true, 1, by decide⟩ ⟨5, -324⟩ ∧
    (double (.finite ⟨true, 1, by decide⟩)).numeral = "-5e-324" ∧ null.numeral = "0" := by
  have hd : IsShortest ⟨true, 1, by decide⟩ ⟨5, -324⟩ :=
    (isShortest_iff (by decide)).2 (by decide +kernel)
  refine ⟨hd, ?_, (numeral_layout null).1 rfl⟩
  apply String.toList_injective
  rw [(numeral_layout (double (.finite ⟨true, 1, by decide⟩))).2.2.1 rfl _ hd]
  decide

end Value

end CueGraph
