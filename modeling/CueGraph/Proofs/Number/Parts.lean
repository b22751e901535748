import CueGraph.Number.Numeral
import CueGraph.Number.Shortest

/-!
# The parts of a numeral

A numeral without a sign has digits in front of the point, digits behind it and an exponent. What is
not there is not written: no point without digits behind it, no exponent of zero.

Main statements: `decimal?_text` (reading takes apart what `Parts.text` puts together) and
`readDecimal?_text` (a sign and parts are read as the double nearest to their decimal).
-/

namespace CueGraph.Numeral

open CueGraph.Text

/-- The parts of a numeral without a sign. -/
structure Parts where
  whole : List Char
  fraction : List Char := []
  exponent : Int := 0

namespace Parts

/-- Digits behind a point. -/
def fractionText (digits : List Char) : List Char :=
  if digits = [] then [] else '.' :: digits

/-- An exponent with its sign and as few digits as it needs. -/
def exponentText (e : Int) : List Char :=
  if e = 0 then [] else 'e' :: (if e < 0 then '-' else '+') :: Nat.toDigits 10 e.natAbs

def text (n : Parts) : List Char := n.whole ++ fractionText n.fraction ++ exponentText n.exponent

/-- The decimal that the parts stand for. -/
def decimal (n : Parts) : Decimal :=
  ⟨Nat.ofDigitChars 10 (n.whole ++ n.fraction) 0, n.exponent - n.fraction.length⟩

/-- A numeral as a script knows it: at least one digit in front of the point, and no zero there in
front of another digit. -/
structure WellFormed (n : Parts) : Prop where
  whole_ne : n.whole ≠ []
  digits : ∀ c ∈ n.whole ++ n.fraction, c.isDigit = true
  leading : n.whole.head? = some '0' → n.whole = ['0']

end Parts

/-! ## Digits -/

/-- The value of a decimal digit from 0 to 9. -/
def digitOf (c : Char) : Nat := c.toNat - '0'.toNat

theorem digitValue?_of_isDigit {c : Char} (h : c.isDigit = true) :
    digitValue? c = some (digitOf c) := by
  rw [Char.isDigit_iff_toNat] at h
  have h0 : '0'.toNat = 48 := rfl
  have h9 : '9'.toNat = 57 := rfl
  rw [digitValue?, zeroDigits, List.find?_cons_of_pos]
  · rfl
  · simp only [Bool.and_eq_true, decide_eq_true_eq]
    omega

/-- What stands behind digits does not go on with one. -/
def NoDigit (rest : List Char) : Prop := ∀ c ∈ rest.head?, digitValue? c = none

theorem noDigit_nil : NoDigit [] := fun _ h => nomatch h

theorem noDigit_cons {c : Char} (h : digitValue? c = none) (rest : List Char) :
    NoDigit (c :: rest) := by
  intro x hx
  obtain rfl := Option.some.inj hx
  exact h

theorem takeDigits_append {ds rest : List Char} (h : ∀ c ∈ ds, c.isDigit = true)
    (hrest : NoDigit rest) : takeDigits (ds ++ rest) = (ds.map digitOf, rest) := by
  induction ds with
  | nil =>
    cases rest with
    | nil => rfl
    | cons c rest =>
      have hc : digitValue? c = none := hrest c rfl
      simp only [List.nil_append, takeDigits, hc, List.map_nil]
  | cons c ds ih =>
    rw [List.forall_mem_cons] at h
    simp only [List.cons_append, takeDigits, digitValue?_of_isDigit h.1, ih h.2, List.map_cons]

theorem ofDigits_map (ds : List Char) :
    ofDigits 10 (ds.map digitOf) = Nat.ofDigitChars 10 ds 0 := by
  have hfold : ∀ init, (ds.map digitOf).foldl (fun n d => n * 10 + d) init =
      Nat.ofDigitChars 10 ds init := by
    induction ds with
    | nil => exact fun _ => rfl
    | cons c ds ih =>
      intro init
      rw [List.map_cons, List.foldl_cons, ih, Nat.ofDigitChars_cons, Nat.mul_comm]
      rfl
  exact hfold 0

theorem isDigit_toDigits (n : Nat) : ∀ c ∈ Nat.toDigits 10 n, c.isDigit = true := fun _ =>
  Nat.isDigit_of_mem_toDigits (by decide) (by decide)

/-! ## Reading the parts -/

theorem exponent?_signed {sign : Char} {ds : List Char} {negative : Bool}
    (hsign : takeSign (sign :: ds) = (negative, ds)) (hne : ds ≠ [])
    (hdigits : ∀ c ∈ ds, c.isDigit = true) :
    exponent? ('e' :: sign :: ds) =
      some (if negative then -(Nat.ofDigitChars 10 ds 0 : Int) else Nat.ofDigitChars 10 ds 0) := by
  have htake := takeDigits_append hdigits noDigit_nil
  rw [List.append_nil] at htake
  rw [exponent?, if_pos (.inl rfl), hsign]
  simp only [htake]
  rw [← ofDigits_map]
  cases ds with
  | nil => exact absurd rfl hne
  | cons d ds => rfl

theorem exponent?_exponentText (e : Int) : exponent? (Parts.exponentText e) = some e := by
  unfold Parts.exponentText
  split
  · next h0 => rw [h0, exponent?]
  · have hvalue : Nat.ofDigitChars 10 (Nat.toDigits 10 e.natAbs) 0 = e.natAbs :=
      Nat.ofDigitChars_toDigits (by decide) (by decide)
    split
    · rw [exponent?_signed rfl Nat.toDigits_ne_nil (isDigit_toDigits _), hvalue]
      simp only [↓reduceIte, Option.some.injEq]
      omega
    · rw [exponent?_signed rfl Nat.toDigits_ne_nil (isDigit_toDigits _), hvalue]
      simp only [Bool.false_eq_true, ↓reduceIte, Option.some.injEq]
      omega

theorem noDigit_exponentText (e : Int) : NoDigit (Parts.exponentText e) := by
  unfold Parts.exponentText
  split
  · exact noDigit_nil
  · exact noDigit_cons (by decide) _

section Decimal

variable {ds fs rest : List Char}

theorem isEmpty_map_digitOf (hne : ds ≠ []) : (ds.map digitOf).isEmpty = false := by
  rw [List.isEmpty_eq_false_iff, ne_eq, List.map_eq_nil_iff]
  exact hne

theorem decimal?_whole (hne : ds ≠ []) (h : ∀ c ∈ ds, c.isDigit = true) (hrest : NoDigit rest)
    (hpoint : rest.head? ≠ some '.') :
    decimal? (ds ++ rest) = (exponent? rest).map fun e => (Nat.ofDigitChars 10 ds 0, e) := by
  unfold decimal?
  rw [takeDigits_append h hrest, ← ofDigits_map]
  dsimp only
  split
  · exact absurd rfl hpoint
  · simp [isEmpty_map_digitOf hne]

theorem decimal?_fraction (hne : ds ≠ []) (h : ∀ c ∈ ds, c.isDigit = true)
    (h' : ∀ c ∈ fs, c.isDigit = true) (hrest : NoDigit rest) :
    decimal? (ds ++ '.' :: (fs ++ rest)) =
      (exponent? rest).map fun e : Int => (Nat.ofDigitChars 10 (ds ++ fs) 0, e - fs.length) := by
  unfold decimal?
  rw [takeDigits_append h (noDigit_cons (by decide) _), ← ofDigits_map]
  simp [takeDigits_append h' hrest, isEmpty_map_digitOf hne]

end Decimal

/-- Digits with a point among them are read apart, whatever exponent follows them. -/
theorem decimal?_append {whole fraction rest : List Char} {e : Int} (hne : whole ≠ [])
    (hdigits : ∀ c ∈ whole ++ fraction, c.isDigit = true) (hrest : NoDigit rest)
    (hpoint : rest.head? ≠ some '.') (he : exponent? rest = some e) :
    decimal? (whole ++ Parts.fractionText fraction ++ rest) =
      some (Nat.ofDigitChars 10 (whole ++ fraction) 0, e - fraction.length) := by
  obtain ⟨hwhole, hfraction⟩ := List.forall_mem_append.1 hdigits
  unfold Parts.fractionText
  split
  · next hnil =>
    rw [List.append_nil, decimal?_whole hne hwhole hrest hpoint, he, hnil]
    simp
  · rw [List.append_assoc, List.cons_append, decimal?_fraction hne hwhole hfraction hrest, he,
      Option.map_some]

/-- Reading takes the parts of a numeral apart. -/
theorem decimal?_text {n : Parts} (h : n.WellFormed) :
    decimal? n.text = some (n.decimal.digits, n.decimal.exponent) := by
  refine decimal?_append h.whole_ne h.digits (noDigit_exponentText _) ?_ (exponent?_exponentText _)
  unfold Parts.exponentText
  split <;> simp

theorem takeSign_of_isDigit {c : Char} (hc : c.isDigit = true) (rest : List Char) :
    takeSign (c :: rest) = (false, c :: rest) := by
  unfold takeSign
  split
  · next heq => simp_all [show '-'.isDigit = false from rfl]
  · next heq => simp_all [show '+'.isDigit = false from rfl]
  · rfl

/-- A sign is taken off the digits behind it. -/
theorem takeSign_signed (negative : Bool) {c : Char} (hc : c.isDigit = true) (rest : List Char) :
    takeSign ((if negative then ['-'] else []) ++ c :: rest) = (negative, c :: rest) := by
  cases negative with
  | false => exact takeSign_of_isDigit hc rest
  | true => rfl

/-- A sign and the parts of a numeral are read as the double nearest to their decimal. -/
theorem readDecimal?_text {n : Parts} (h : n.WellFormed) (negative : Bool) :
    readDecimal? ((if negative then ['-'] else []) ++ n.text) =
      Finite.ofDecimal negative n.decimal.digits n.decimal.exponent := by
  obtain ⟨c, rest, hwhole⟩ := List.exists_cons_of_ne_nil h.whole_ne
  have hc : c.isDigit = true := h.digits c (by simp [hwhole])
  have hsign : takeSign ((if negative then ['-'] else []) ++ n.text) = (negative, n.text) := by
    rw [Parts.text, hwhole, List.append_assoc, List.cons_append]
    exact takeSign_signed negative hc _
  rw [readDecimal?, hsign]
  simp only [decimal?_text h, Option.bind_some]

end CueGraph.Numeral
