import CueGraph.Text.Half
import CueGraph.Text.Printable

/-!
# Texts as messages show them

A message shows a text between quotes, so that its ends and its control characters can be seen.
Single quotes are used unless the text holds a single quote and no double quote. The chosen quote
and the backslash get a backslash, tab, line feed and carriage return have names, and any other
character that cannot be printed is given by its code point, as is half of a surrogate pair.
-/

namespace CueGraph.Text

/-- A number in lower case hexadecimal digits, with zeros in front up to `width` digits. -/
def hexPadded (width n : Nat) : List Char :=
  let digits := Nat.toDigits 16 n
  List.replicate (width - digits.length) '0' ++ digits

/-- A half of a surrogate pair by its code point. -/
def showHalf (number : Fin 0x800) : List Char := '\\' :: 'u' :: hexPadded 4 (0xD800 + number)

/-- One character as it stands between these quotes. -/
def showChar (quote c : Char) : List Char :=
  if c = quote ∨ c = '\\' then ['\\', c]
  else if c = '\t' then ['\\', 't']
  else if c = '\n' then ['\\', 'n']
  else if c = '\r' then ['\\', 'r']
  else if isPrintable c then [c]
  else if c.toNat < 0x100 then '\\' :: 'x' :: hexPadded 2 c.toNat
  else if c.toNat < 0x10000 then '\\' :: 'u' :: hexPadded 4 c.toNat
  else '\\' :: 'U' :: hexPadded 8 c.toNat

def showPoint (quote : Char) : Point → List Char
  | .char c => showChar quote c
  | .half number => showHalf number

/-- The quotes that a message puts around a text. -/
def quotesFor (cs : List Char) : Char := if '\'' ∈ cs ∧ '"' ∉ cs then '"' else '\''

/-- A text as a message shows it. -/
def shown (s : String) : String :=
  let quote := quotesFor s.toList
  String.ofList (quote :: (points s.toList).flatMap (showPoint quote) ++ [quote])

/-- A list of texts as a message shows it. -/
def shownList (items : List String) : String := "[" ++ ", ".intercalate (items.map shown) ++ "]"

/-- The characters of a text on a terminal, which shows halves of surrogate pairs by their code
points. -/
def displayed (s : String) : List Char :=
  (points s.toList).flatMap fun
    | .char c => [c]
    | .half number => showHalf number

end CueGraph.Text
