import CueGraph.Number.Layout
import CueGraph.Number.Numeral

/-!
# Numbers as a script writes them

A whole number below 2^53 is written as an integer. For any other number `Finite.numeral` takes the
plain text and changes it by hand: from 10^-6 up to 10^21 an exponent is spelled out and a whole
number loses its point, beyond that the exponent loses the zeros in front.
-/

namespace CueGraph

namespace Numeral

/-- The whole number that an optional sign and digits stand for. -/
def signedNumber (cs : List Char) : Int :=
  let (negative, digits) := takeSign cs
  let n : Int := Nat.ofDigitChars 10 digits 0
  if negative then -n else n

/-- A decimal in positional notation, where its exponent has moved the point. -/
def withoutExponent (cs : List Char) : List Char :=
  let (negative, rest) := takeSign cs
  match decimal? rest with
  | some (n, e) =>
    let digits := digitsOf n
    (if negative then ['-'] else []) ++ positional [] digits (digits.length + e)
  | none => cs

/-- A text without the point and the zero at its end. -/
def withoutPointZero (cs : List Char) : List Char :=
  if ['.', '0'].isSuffixOf cs then cs.take (cs.length - 2) else cs

/-- A text whose exponent has a sign and as few digits as it needs. -/
def withShortExponent (cs : List Char) : List Char :=
  let mantissa := cs.takeWhile (· != 'e')
  match cs.drop (mantissa.length + 1) with
  | [] => mantissa
  | exponent =>
    let e := signedNumber exponent
    mantissa ++ 'e' :: (if 0 < e then '+' else '-') :: digitsOf e.natAbs

end Numeral

namespace Finite

open Numeral

/-- The value as an integer, when it is whole and below 2^53. -/
def small? (x : Finite) : Option Int := x.toInt?.filter fun i => i.natAbs < Nat.pow 2 53

/-- Whether the magnitude is at least 10^-6 and below 10^21. -/
def isMiddling (x : Finite) : Bool :=
  patternOfDecimal 1 (-6) ≤ x.pattern && x.pattern < patternOfDecimal 1 21

def numeral (x : Finite) : String :=
  if x.isZero then "0"
  else
    match x.small? with
    | some i => toString i
    | none =>
      let text := (plainNumeral.render x).toList
      if x.isMiddling then
        String.ofList (withoutPointZero (if 'e' ∈ text then withoutExponent text else text))
      else String.ofList (withShortExponent text)

end Finite

end CueGraph
