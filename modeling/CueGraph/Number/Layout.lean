import CueGraph.Number.Shortest

/-!
# Layouts of decimals

A `Layout` records how the digits of a number are written down: where positional notation begins
and ends, what follows a whole number, how wide an exponent is at least, and whether minus zero
keeps its sign. `Layout.render` writes a double by such a record. `plainNumeral` is the layout of
numbers inside lists, objects and messages.
-/

namespace CueGraph

/-- The decisions about the text of a number. The point position counts the digits before the
point; it is zero or negative when the first digit stands further right. -/
structure Layout where
  /-- The least point position in positional notation. -/
  leastPoint : Int
  /-- The greatest point position in positional notation. -/
  greatestPoint : Int
  /-- What follows a whole number in positional notation. -/
  wholeMark : String
  /-- The least number of digits of an exponent. -/
  exponentWidth : Nat
  /-- Whether minus zero is written with its sign. -/
  signedZero : Bool

def digitsOf (n : Nat) : List Char := Nat.toDigits 10 n

def zeros (count : Nat) : List Char := List.replicate count '0'

/-- The digits in positional notation with the point at `point`, and a mark behind a whole number. -/
def positional (wholeMark digits : List Char) (point : Int) : List Char :=
  if point ≤ 0 then '0' :: '.' :: zeros (-point).toNat ++ digits
  -- zeros reach from the last digit to the point
  else if digits.length ≤ point then digits ++ zeros (point.toNat - digits.length) ++ wholeMark
  else digits.take point.toNat ++ '.' :: digits.drop point.toNat

namespace Layout

/-- The exponent of scientific notation: a sign always, and zeros in front up to the least width. -/
def exponentText (layout : Layout) (e : Int) : List Char :=
  let digits := digitsOf e.natAbs
  'e' :: (if e < 0 then '-' else '+') :: zeros (layout.exponentWidth - digits.length) ++ digits

/-- The digits with the point at `point`, or in scientific notation when `point` is out of range. -/
def place (layout : Layout) (digits : List Char) (point : Int) : List Char :=
  if layout.leastPoint ≤ point ∧ point ≤ layout.greatestPoint then
    positional layout.wholeMark.toList digits point
  else
    match digits with
    | [] => []
    | [d] => d :: layout.exponentText (point - 1)
    | d :: rest => d :: '.' :: rest ++ layout.exponentText (point - 1)

def magnitude (layout : Layout) (pattern : Nat) : List Char :=
  if pattern = 0 then '0' :: layout.wholeMark.toList
  else
    let decimal := shortest pattern
    let digits := digitsOf decimal.digits
    layout.place digits (digits.length + decimal.exponent)

def render (layout : Layout) (x : Finite) : String :=
  let signed := x.negative && (layout.signedZero || !x.isZero)
  String.ofList ((if signed then ['-'] else []) ++ layout.magnitude x.pattern)

end Layout

/-- Plain numbers are positional from 0.0001 up to 16 digits before the point, a whole number ends
in a zero after the point, and the exponent has two digits at least. -/
def plainNumeral : Layout := ⟨-3, 16, ".0", 2, true⟩

/-- The text of a double inside lists, objects and messages. -/
def Double.plain : Double → String
  | .finite x => plainNumeral.render x
  | .infinite negative => if negative then "-inf" else "inf"
  | .notANumber => "nan"

end CueGraph
