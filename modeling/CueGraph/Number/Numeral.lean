import CueGraph.Number.Rounding
import CueGraph.Text.Blank
import CueGraph.Text.DecimalDigit

/-!
# Numbers written as text

`Finite.read?` is the double that a text stands for. Blanks around it do not count, a blank text is
zero, and an underscore is never part of a number. A text with one of the marks `0x`, `0o` and `0b`
is an integer in that base, any other a decimal with an optional sign, point and exponent. Digits of
every script count as digits.

Main statement: `read?_eq_zero_of_isBlank` (a blank text is zero).
-/

namespace CueGraph.Numeral

open CueGraph.Text

/-- The leading decimal digits of a text, and the rest. -/
def takeDigits : List Char → List Nat × List Char
  | [] => ([], [])
  | c :: rest =>
    match digitValue? c with
    | some d => let (digits, after) := takeDigits rest; (d :: digits, after)
    | none => ([], c :: rest)

/-- The natural number that digits in a base stand for. -/
def ofDigits (base : Nat) (digits : List Nat) : Nat := digits.foldl (fun n d => n * base + d) 0

/-- A leading sign, as whether it is a minus, and the rest. -/
def takeSign : List Char → Bool × List Char
  | '-' :: rest => (true, rest)
  | '+' :: rest => (false, rest)
  | cs => (false, cs)

/-- An exponent that takes up the whole text: nothing at all, or a mark, an optional sign and
digits. -/
def exponent? : List Char → Option Int
  | [] => some 0
  | c :: rest =>
    if c = 'e' ∨ c = 'E' then
      let (negative, rest) := takeSign rest
      match takeDigits rest with
      | (d :: digits, []) =>
        let e : Int := ofDigits 10 (d :: digits)
        some (if negative then -e else e)
      | _ => none
    else none

/-- A decimal without a sign, as its digits and its exponent. -/
def decimal? (cs : List Char) : Option (Nat × Int) :=
  let (whole, rest) := takeDigits cs
  let (fraction, rest) :=
    match rest with
    | '.' :: rest => takeDigits rest
    | rest => ([], rest)
  if whole.isEmpty && fraction.isEmpty then none
  else (exponent? rest).map fun e => (ofDigits 10 (whole ++ fraction), e - fraction.length)

/-- The double nearest to a decimal with an optional sign. -/
def readDecimal? (cs : List Char) : Option Finite :=
  let (negative, rest) := takeSign cs
  (decimal? rest).bind fun (digits, e) => Finite.ofDecimal negative digits e

/-- A base other than ten, with the letter that marks it. -/
inductive Base where
  | hexadecimal
  | octal
  | binary
  deriving DecidableEq

def Base.size : Base → Nat
  | .hexadecimal => 16
  | .octal => 8
  | .binary => 2

/-- The letter that marks a base, in either case. -/
def Base.ofMark? (c : Char) : Option Base :=
  if c = 'x' ∨ c = 'X' then some .hexadecimal
  else if c = 'o' ∨ c = 'O' then some .octal
  else if c = 'b' ∨ c = 'B' then some .binary
  else none

/-- The value of a digit or of a letter that serves as one. -/
def letterDigit? (c : Char) : Option Nat :=
  match digitValue? c with
  | some d => some d
  | none =>
    if 'a' ≤ c ∧ c ≤ 'z' then some (c.toNat - 'a'.toNat + 10)
    else if 'A' ≤ c ∧ c ≤ 'Z' then some (c.toNat - 'A'.toNat + 10)
    else none

/-- The digits of a text that is a natural number in a base. -/
def baseDigits? (base : Base) : List Char → Option (List Nat)
  | [] => some []
  | c :: rest =>
    match letterDigit? c with
    | some d => if d < base.size then (baseDigits? base rest).map (d :: ·) else none
    | none => none

/-- Drops one more mark of the base, a zero and its letter. -/
def dropMark (base : Base) : List Char → List Char
  | z :: m :: rest =>
    if digitValue? z = some 0 ∧ Base.ofMark? m = some base then rest else z :: m :: rest
  | cs => cs

/-- An integer in a base: white space, an optional sign, an optional mark, at least one digit. -/
def readBased? (base : Base) (cs : List Char) : Option Finite :=
  let (negative, rest) := takeSign (cs.dropWhile isSpaceChar)
  match baseDigits? base (dropMark base rest) with
  | some (d :: digits) =>
    let n : Int := ofDigits base.size (d :: digits)
    Finite.ofInt (if negative then -n else n)
  | _ => none

/-- The double that a trimmed text stands for. -/
def readTrimmed? (cs : List Char) : Option Finite :=
  if cs.isEmpty then some .zero
  else if '_' ∈ cs then none
  else
    match cs with
    | '0' :: m :: rest =>
      match Base.ofMark? m with
      | some base => readBased? base rest
      | none => readDecimal? cs
    | _ => readDecimal? cs

end CueGraph.Numeral

namespace CueGraph

/-- The double that a text stands for, when it is a number and finite. -/
def Finite.read? (s : String) : Option Finite := Numeral.readTrimmed? (Text.dropBlank s.toList)

theorem Finite.read?_eq_zero_of_isBlank {s : String} (h : Text.isBlank s = true) :
    Finite.read? s = some .zero := by
  rw [Finite.read?, Text.dropBlank_eq_nil (List.all_eq_true.1 h)]
  rfl

end CueGraph
