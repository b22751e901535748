import CueGraph.Number.Written
import CueGraph.Proofs.Number.Whole

/-!
# Numbers are written in the layout of a script

`Finite.numeral` goes by the size of a number and by the plain text of it, whose bounds of
positional notation are others than those of a script. What it makes of them is the layout
`scriptNumeral` all the same: the two bounds on the size are bounds on the place of the point
(`le_iff_lt_point`), below the first bound of the plain text and above the second the exponent is
spelled out (`withoutExponent_place`), and outside the bounds on the size both layouts have an
exponent (`withShortExponent_place`).

Main statement: `numeral_eq_render`.
-/

namespace CueGraph

open Numeral

variable {digits : List Char} {point : ℤ} {layout : Layout}

/-! ## The size of a number and the place of its point -/

theorem Decimal.length_one (e : ℤ) : Decimal.length ⟨1, e⟩ = 1 := by
  have hdigits : digitsOf 1 = ['1'] := rfl
  rw [length, hdigits, List.length_singleton]

/-- A decimal is below the power of ten behind its first digit. -/
theorem Decimal.units_le_power (d : Decimal) : d.units ≤ units ⟨1, d.length + d.exponent⟩ := by
  have hpower := units_mul_pow 1 d.length d.exponent
  rw [Nat.one_mul, Int.add_comm] at hpower
  rw [← hpower]
  exact units_le_units d.lt_ten_pow_length.le le_rfl

/-- A decimal reaches the power of ten of its first digit. -/
theorem Decimal.power_le_units {d : Decimal} (h : 0 < d.digits) {e : ℤ}
    (he : e < d.length + d.exponent) : units ⟨1, e⟩ ≤ d.units := by
  obtain ⟨k, hk⟩ : ∃ k, d.length = k + 1 := ⟨_, (Nat.sub_add_cancel d.length_pos).symm⟩
  have hpower := units_mul_pow 1 k d.exponent
  rw [Nat.one_mul] at hpower
  calc units ⟨1, e⟩ ≤ units ⟨1, d.exponent + k⟩ := units_le_units le_rfl (by omega)
    _ = units ⟨10 ^ k, d.exponent⟩ := hpower.symm
    _ ≤ d.units := units_le_units (ten_pow_le h hk) le_rfl

/-- A power of ten that is the shortest decimal of a pattern is reached by the doubles whose point
stands behind it. -/
theorem le_iff_lt_point {p q : ℕ} {e : ℤ} (hp : 0 < p) (hq : RoundsTo (Decimal.units ⟨1, e⟩) q)
    (hpower : shortest q = ⟨1, e⟩) :
    q ≤ p ↔ e < (shortest p).length + (shortest p).exponent := by
  have hread := (isCoarsest_shortest hp).reads
  constructor
  · intro hle
    by_contra hout
    -- the power of ten is above the decimal, and not read as the same double
    have habove : (shortest p).units ≤ Decimal.units ⟨1, e⟩ :=
      (shortest p).units_le_power.trans (Decimal.units_le_units le_rfl (by omega))
    obtain rfl := le_antisymm (hread.mono hq habove) hle
    have hpoint : ((shortest p).length + (shortest p).exponent : ℤ) = 1 + e := by
      rw [hpower, Decimal.length_one, Nat.cast_one]
    omega
  · intro hlt
    exact hq.mono hread (Decimal.power_le_units (digits_pos_of_roundsTo hp hread) hlt)

theorem Finite.isMiddling_iff {x : Finite} (hx : x.isZero = false) : x.isMiddling = true ↔
    -5 ≤ ((shortest x.pattern).length + (shortest x.pattern).exponent : ℤ) ∧
      ((shortest x.pattern).length + (shortest x.pattern).exponent : ℤ) ≤ 21 := by
  have hpos := pattern_pos hx
  have hleast := le_iff_lt_point hpos (roundsTo_patternOfDecimal ⟨1, -6⟩) (by decide +kernel)
  have hgreatest := le_iff_lt_point hpos (roundsTo_patternOfDecimal ⟨1, 21⟩) (by decide +kernel)
  rw [isMiddling, Bool.and_eq_true, decide_eq_true_eq, decide_eq_true_eq, hleast, ← Nat.not_le,
    hgreatest]
  omega

/-! ## The last digit -/

theorem getLast?_digitsOf {n : ℕ} (h : n % 10 ≠ 0) : (digitsOf n).getLast? ≠ some '0' := by
  have hlast : ∀ d < 10, d ≠ 0 → d.digitChar ≠ '0' := by decide
  unfold digitsOf
  rcases Nat.lt_or_ge n 10 with hlt | hge
  · rw [Nat.toDigits_of_lt_base hlt, List.getLast?_singleton, ne_eq, Option.some.injEq]
    exact hlast n hlt (by omega)
  · rw [Nat.toDigits_of_base_le (by decide) hge, List.getLast?_concat, ne_eq, Option.some.injEq]
    exact hlast _ (Nat.mod_lt _ (by decide)) h

/-- The shortest decimal ends in no zero: without it the decimal would be on a coarser grid. -/
theorem IsCoarsest.mod_ten_ne_zero {p : ℕ} {s : Decimal} (h : IsCoarsest p s) :
    s.digits % 10 ≠ 0 := by
  intro hzero
  obtain ⟨c, hc⟩ := Nat.dvd_of_mod_eq_zero hzero
  have hunits : s.units = Decimal.units ⟨c, s.exponent + 1⟩ := by
    rw [← Decimal.units_ten, Nat.mul_comm, ← hc]
  have hread := h.reads
  rw [hunits] at hread
  have hle : s.exponent + 1 ≤ s.exponent := h.coarsest _ hread
  omega

/-- Digits as they are laid out: the first and the last are no zeros. -/
structure AreSignificant (digits : List Char) : Prop extends AreDigits digits where
  last : digits.getLast? ≠ some '0'

theorem Finite.areSignificant_shortest {x : Finite} (hx : x.isZero = false) :
    AreSignificant (digitsOf (shortest x.pattern).digits) where
  toAreDigits := areDigits_shortest hx
  last := getLast?_digitsOf ((isCoarsest_shortest (pattern_pos hx)).mod_ten_ne_zero)

/-! ## Positional notation -/

theorem mem_positional {mark : List Char} {c : Char} (h : c ∈ positional mark digits point) :
    c ∈ digits ∨ c ∈ mark ∨ c = '0' ∨ c = '.' := by
  have hzeros : ∀ count, c ∈ zeros count → c = '0' := fun _ => List.eq_of_mem_replicate
  unfold positional at h
  split at h
  · rw [List.mem_append, List.mem_cons, List.mem_cons] at h
    rcases h with (h | h | h) | h
    · exact .inr (.inr (.inl h))
    · exact .inr (.inr (.inr h))
    · exact .inr (.inr (.inl (hzeros _ h)))
    · exact .inl h
  · split at h
    · rw [List.mem_append, List.mem_append] at h
      rcases h with (h | h) | h
      · exact .inl h
      · exact .inr (.inr (.inl (hzeros _ h)))
      · exact .inr (.inl h)
    · rw [List.mem_append, List.mem_cons] at h
      rcases h with h | h | h
      · exact .inl (List.mem_of_mem_take h)
      · exact .inr (.inr (.inr h))
      · exact .inl (List.mem_of_mem_drop h)

/-- A mark stands at the end or not at all. -/
theorem positional_mark (mark : List Char) : positional mark digits point =
    positional [] digits point ++ if 0 < point ∧ digits.length ≤ point then mark else [] := by
  unfold positional
  split
  · rw [if_neg (by omega), List.append_nil]
  · split
    · rw [if_pos (by omega), List.append_nil]
    · rw [if_neg (by omega), List.append_nil]

/-- Positional notation without a mark never ends in a point and a zero. -/
theorem not_isSuffix_positional (h : AreSignificant digits) :
    ¬ ['.', '0'] <:+ positional [] digits point := by
  rintro ⟨front, hfront⟩
  have hlast : (positional [] digits point).getLast? = some '0' := by
    rw [← hfront, List.getLast?_append_of_ne_nil _ (by simp)]
    rfl
  have hmem : '.' ∈ positional [] digits point := by
    rw [← hfront]
    simp
  unfold positional at hlast hmem
  split at hlast
  · rw [List.getLast?_append_of_ne_nil _ h.ne_nil] at hlast
    exact h.last hlast
  · split at hlast
    · rw [if_neg (by assumption), if_pos (by assumption), List.append_nil, List.mem_append] at hmem
      rcases hmem with hmem | hmem
      · exact absurd (h.isDigit _ hmem) (by decide)
      · exact absurd (List.eq_of_mem_replicate hmem) (by decide)
    · have hdrop : digits.drop point.toNat ≠ [] := by
        rw [ne_eq, List.drop_eq_nil_iff]
        omega
      have hsame : digits.getLast? = (digits.drop point.toNat).getLast? := by
        rw [← List.getLast?_append_of_ne_nil (digits.take point.toNat) hdrop,
          List.take_append_drop]
      rw [← List.singleton_append, ← List.append_assoc, List.getLast?_append_of_ne_nil _ hdrop,
        ← hsame] at hlast
      exact h.last hlast

/-- The sign in front of digits. -/
def signText (negative : Bool) : List Char := if negative then ['-'] else []

theorem not_isSuffix_signed (negative : Bool) (h : AreSignificant digits) :
    ¬ ['.', '0'] <:+ signText negative ++ positional [] digits point := by
  cases negative with
  | false => exact not_isSuffix_positional h
  | true =>
    intro hsuffix
    rcases List.suffix_cons_iff.1 hsuffix with heq | hsuffix
    · cases heq
    · exact not_isSuffix_positional h hsuffix

theorem withoutPointZero_of_not {cs : List Char} (h : ¬ ['.', '0'] <:+ cs) :
    withoutPointZero cs = cs := by
  rw [withoutPointZero, if_neg (by simpa using h)]

theorem withoutPointZero_append (cs : List Char) : withoutPointZero (cs ++ ['.', '0']) = cs := by
  rw [withoutPointZero, if_pos (List.isSuffixOf_iff_suffix.2 (List.suffix_append ..)),
    List.length_append]
  exact List.take_left

/-- Whether a mark is there or not, positional notation without one is what is left. -/
theorem withoutPointZero_positional (negative : Bool) (h : AreSignificant digits) :
    withoutPointZero (signText negative ++ positional ['.', '0'] digits point) =
      signText negative ++ positional [] digits point := by
  rw [positional_mark, ← List.append_assoc]
  split
  · exact withoutPointZero_append _
  · rw [List.append_nil]
    exact withoutPointZero_of_not (not_isSuffix_signed negative h)

/-! ## Exponents -/

theorem place_scientific (h : digits ≠ [])
    (hout : ¬(layout.leastPoint ≤ point ∧ point ≤ layout.greatestPoint)) :
    layout.place digits point = digits.take 1 ++ Parts.fractionText (digits.drop 1) ++
      layout.exponentText (point - 1) := by
  unfold Layout.place
  rw [if_neg hout]
  split
  · exact absurd rfl h
  · simp [Parts.fractionText]
  · next rest hne =>
    have hrest : rest ≠ [] := hne
    simp [Parts.fractionText, hrest]

/-- The sign and the digits of an exponent. -/
def exponentDigits (layout : Layout) (e : ℤ) : List Char :=
  zeros (layout.exponentWidth - (digitsOf e.natAbs).length) ++ digitsOf e.natAbs

theorem isDigit_exponentDigits (e : ℤ) : ∀ c ∈ exponentDigits layout e, c.isDigit = true :=
  List.forall_mem_append.2 ⟨isDigit_zeros _, isDigit_toDigits _⟩

theorem exponentDigits_ne_nil (e : ℤ) : exponentDigits layout e ≠ [] :=
  List.append_ne_nil_of_right_ne_nil _ Nat.toDigits_ne_nil

theorem ofDigitChars_exponentDigits (e : ℤ) :
    Nat.ofDigitChars 10 (exponentDigits layout e) 0 = e.natAbs := by
  rw [exponentDigits, ofDigitChars_zeros_append]
  exact Nat.ofDigitChars_ten_toDigits

theorem takeSign_exponent (e : ℤ) (ds : List Char) :
    takeSign ((if e < 0 then '-' else '+') :: ds) = (decide (e < 0), ds) := by
  by_cases he : e < 0
  · rw [if_pos he, decide_eq_true he, takeSign]
  · rw [if_neg he, decide_eq_false he, takeSign]

theorem signed_natAbs (e : ℤ) :
    (if decide (e < 0) then -(e.natAbs : ℤ) else (e.natAbs : ℤ)) = e := by
  split
  · next he =>
    have hneg := of_decide_eq_true he
    omega
  · next he =>
    have hpos := of_decide_eq_false (Bool.not_eq_true _ ▸ he)
    omega

theorem signedNumber_exponent (e : ℤ) :
    signedNumber ((if e < 0 then '-' else '+') :: exponentDigits layout e) = e := by
  rw [signedNumber, takeSign_exponent]
  dsimp only
  rw [ofDigitChars_exponentDigits, signed_natAbs]

theorem exponent?_layout (e : ℤ) : exponent? (layout.exponentText e) = some e := by
  refine (exponent?_signed (takeSign_exponent e _) (exponentDigits_ne_nil e)
    (isDigit_exponentDigits e)).trans ?_
  rw [ofDigitChars_exponentDigits, signed_natAbs]

/-- An exponent is spelled out by moving the point. -/
theorem withoutExponent_place (negative : Bool) {n : ℕ} (h : AreDigits (digitsOf n))
    (hout : ¬(layout.leastPoint ≤ point ∧ point ≤ layout.greatestPoint)) :
    withoutExponent (signText negative ++ layout.place (digitsOf n) point) =
      signText negative ++ positional [] (digitsOf n) point := by
  obtain ⟨d, rest, hcons⟩ := List.exists_cons_of_ne_nil h.ne_nil
  have hd : d.isDigit = true := h.isDigit d (by simp [hcons])
  have hplace := place_scientific h.ne_nil hout
  have hread : decimal? (layout.place (digitsOf n) point) =
      some (n, point - 1 - ((digitsOf n).drop 1).length) := by
    have hwhole : (digitsOf n).take 1 ≠ [] := by simp [hcons]
    have hdigits : ∀ c ∈ (digitsOf n).take 1 ++ (digitsOf n).drop 1, c.isDigit = true := by
      rw [List.take_append_drop]
      exact h.isDigit
    have hvalue : Nat.ofDigitChars 10 (digitsOf n) 0 = n := Nat.ofDigitChars_ten_toDigits
    have hrest : NoDigit (layout.exponentText (point - 1)) := noDigit_cons (by decide) _
    have hhead : (layout.exponentText (point - 1)).head? ≠ some '.' := by simp [Layout.exponentText]
    rw [hplace, decimal?_append hwhole hdigits hrest hhead (exponent?_layout _),
      List.take_append_drop, hvalue]
  have hsign : takeSign (signText negative ++ layout.place (digitsOf n) point) =
      (negative, layout.place (digitsOf n) point) := by
    rw [hplace, hcons]
    exact takeSign_signed negative hd _
  have hpoint : ((digitsOf n).length + (point - 1 - ((digitsOf n).drop 1).length) : ℤ) = point := by
    have hpos := List.length_pos_iff.2 h.ne_nil
    rw [List.length_drop]
    omega
  rw [withoutExponent, hsign]
  dsimp only
  rw [hread]
  dsimp only
  rw [hpoint]
  rfl

/-- The text in front of an exponent. -/
def mantissa (negative : Bool) (digits : List Char) : List Char :=
  signText negative ++ digits.take 1 ++ Parts.fractionText (digits.drop 1)

theorem not_mem_mantissa (negative : Bool) (h : AreDigits digits) :
    'e' ∉ mantissa negative digits := by
  have hdigits : 'e' ∉ digits := fun hmem => absurd (h.isDigit _ hmem) (by decide)
  have hsign : 'e' ∉ signText negative := by cases negative <;> decide
  have hwhole : 'e' ∉ digits.take 1 := fun hmem => hdigits (List.mem_of_mem_take hmem)
  have hfraction : 'e' ∉ Parts.fractionText (digits.drop 1) := by
    unfold Parts.fractionText
    split
    · exact List.not_mem_nil
    · rw [List.mem_cons, not_or]
      exact ⟨by decide, fun hmem => hdigits (List.mem_of_mem_drop hmem)⟩
  rw [mantissa, List.mem_append, List.mem_append, not_or, not_or]
  exact ⟨⟨hsign, hwhole⟩, hfraction⟩

theorem signed_place (negative : Bool) (h : digits ≠ [])
    (hout : ¬(layout.leastPoint ≤ point ∧ point ≤ layout.greatestPoint)) :
    signText negative ++ layout.place digits point =
      mantissa negative digits ++ layout.exponentText (point - 1) := by
  rw [place_scientific h hout, mantissa, List.append_assoc, List.append_assoc, List.append_assoc]

/-- A text is parted at the first character of a kind. -/
theorem takeWhile_ne_append {front : List Char} {c : Char} (h : c ∉ front) (rest : List Char) :
    (front ++ c :: rest).takeWhile (· != c) = front := by
  have hfront : ∀ d ∈ front, (d != c) = true := fun d hd => by
    rw [bne_iff_ne]
    rintro rfl
    exact h hd
  rw [List.takeWhile_append_of_pos hfront, List.takeWhile_cons_of_neg (by simp), List.append_nil]

/-- Outside the bounds of both layouts the exponent alone is written in another way. -/
theorem withShortExponent_place (negative : Bool) (h : AreDigits digits)
    (hout : ¬(layout.leastPoint ≤ point ∧ point ≤ layout.greatestPoint))
    (hscript : ¬(scriptNumeral.leastPoint ≤ point ∧ point ≤ scriptNumeral.greatestPoint)) :
    withShortExponent (signText negative ++ layout.place digits point) =
      signText negative ++ scriptNumeral.place digits point := by
  have htext : layout.exponentText (point - 1) =
      'e' :: (if point - 1 < 0 then '-' else '+') :: exponentDigits layout (point - 1) := rfl
  have hne : point - 1 ≠ 0 := by
    rintro hone
    exact hscript ⟨by simp [scriptNumeral]; omega, by simp [scriptNumeral]; omega⟩
  have hsign : (if 0 < point - 1 then '+' else '-') = if point - 1 < 0 then '-' else '+' := by
    rcases Int.lt_or_lt_of_ne hne with hneg | hpos
    · rw [if_neg (by omega), if_pos hneg]
    · rw [if_pos hpos, if_neg (by omega)]
  have hexponent : (mantissa negative digits ++ layout.exponentText (point - 1)).drop
      ((mantissa negative digits).length + 1) =
        (if point - 1 < 0 then '-' else '+') :: exponentDigits layout (point - 1) := by
    rw [htext, List.drop_length_add_append]
    rfl
  rw [signed_place negative h.ne_nil hout, signed_place negative h.ne_nil hscript,
    withShortExponent]
  dsimp only
  rw [htext, takeWhile_ne_append (not_mem_mantissa negative h), ← htext, hexponent]
  dsimp only
  rw [signedNumber_exponent, hsign, exponentText_eq hne, Parts.exponentText, if_neg hne]
  rfl

/-! ## Main theorem -/

theorem place_positional (h : layout.leastPoint ≤ point ∧ point ≤ layout.greatestPoint) :
    layout.place digits point = positional layout.wholeMark.toList digits point := if_pos h

/-- From the least to the greatest point of a script the plain text is made positional, and the mark
of a whole number is taken off. -/
theorem middling_place (negative : Bool) {n : ℕ} (h : AreSignificant (digitsOf n))
    (hscript : -5 ≤ point ∧ point ≤ 21) :
    let text := signText negative ++ plainNumeral.place (digitsOf n) point
    withoutPointZero (if 'e' ∈ text then withoutExponent text else text) =
      signText negative ++ scriptNumeral.place (digitsOf n) point := by
  intro text
  have hscriptPlace : scriptNumeral.place (digitsOf n) point = positional [] (digitsOf n) point :=
    place_positional hscript
  by_cases hplain : plainNumeral.leastPoint ≤ point ∧ point ≤ plainNumeral.greatestPoint
  · have htext : text = signText negative ++ positional ['.', '0'] (digitsOf n) point :=
      congrArg _ (place_positional hplain)
    have hno : 'e' ∉ text := by
      rw [htext, List.mem_append, not_or]
      refine ⟨by cases negative <;> decide, fun hmem => ?_⟩
      rcases mem_positional hmem with hmem | hmem | hmem | hmem
      · exact absurd (h.isDigit _ hmem) (by decide)
      · exact absurd hmem (by decide)
      · exact absurd hmem (by decide)
      · exact absurd hmem (by decide)
    rw [if_neg hno, htext, withoutPointZero_positional negative h, hscriptPlace]
  · have htext := signed_place negative h.ne_nil hplain
    have hyes : 'e' ∈ text := by
      simp only [text, htext]
      exact List.mem_append_right _ List.mem_cons_self
    rw [if_pos hyes, withoutExponent_place negative h.toAreDigits hplain, hscriptPlace]
    exact withoutPointZero_of_not (not_isSuffix_signed negative h)

/-- The number as it is written is the layout of a script. -/
theorem Finite.numeral_eq_render (x : Finite) : x.numeral = scriptNumeral.render x := by
  cases hx : x.isZero with
  | true => rw [numeral, hx, if_pos rfl, render_of_isZero hx]
  | false =>
    rw [numeral, hx, if_neg Bool.false_ne_true]
    cases hsmall : x.small? with
    | some i =>
      obtain ⟨hwhole, hlt⟩ := Option.filter_eq_some_iff.1 hsmall
      exact (render_of_toInt? hwhole (of_decide_eq_true hlt)).symm
    | none =>
      dsimp only
      apply String.toList_injective
      rw [toList_render scriptNumeral hx, toList_render plainNumeral hx]
      cases hmiddling : x.isMiddling with
      | true =>
        rw [if_pos rfl, String.toList_ofList]
        exact middling_place x.negative (areSignificant_shortest hx) ((isMiddling_iff hx).1 hmiddling)
      | false =>
        have hscript := mt (isMiddling_iff hx).2 (Bool.not_eq_true _ ▸ hmiddling)
        rw [if_neg Bool.false_ne_true, String.toList_ofList]
        refine withShortExponent_place x.negative (areDigits_shortest hx) ?_ hscript
        -- plain numbers have the narrower bounds
        rintro ⟨hleast, hgreatest⟩
        simp only [plainNumeral] at hleast hgreatest
        exact hscript ⟨by omega, by omega⟩

end CueGraph
