import CueGraph.Text.Half
import CueGraph.Text.HexDigit
import CueGraph.Value

/-!
# Tokens of JSON text

`tokens?` cuts a text into brackets, commas, colons, strings and words, character by character. A
word is a number or one of the names `true`, `false`, `null`, `NaN`, `Infinity` and `-Infinity`. A
number without point and exponent is an integer of any size; any other is the nearest double, or an
infinity beyond the finite ones.
-/

namespace CueGraph.Json

inductive Token where
  | openList
  | closeList
  | openObject
  | closeObject
  | comma
  | colon
  | str (s : String)
  | word (v : Value)

/-- The leading decimal digits from 0 to 9, and the rest. -/
def asciiDigits (cs : List Char) : List Char × List Char :=
  (cs.takeWhile Char.isDigit, cs.dropWhile Char.isDigit)

/-- The natural number that digits from 0 to 9 stand for. -/
def natural (digits : List Char) : Nat := digits.foldl (fun n c => n * 10 + (c.toNat - '0'.toNat)) 0

/-- A whole part has no zero in front, unless it is zero. -/
def isWholePart : List Char → Bool
  | [] => false
  | ['0'] => true
  | c :: _ => c != '0'

/-- The fraction digits after a point, if there is one, and the rest; a point needs a digit. -/
def fraction? : List Char → Option (List Char × List Char)
  | '.' :: rest =>
    let (digits, rest) := asciiDigits rest
    if digits.isEmpty then none else some (digits, rest)
  | cs => some ([], cs)

/-- The exponent that takes up the rest of a number, if there is one. -/
def exponent? : List Char → Option Int
  | [] => some 0
  | c :: rest =>
    if c = 'e' ∨ c = 'E' then
      let (negative, rest) := Numeral.takeSign rest
      let (digits, rest) := asciiDigits rest
      if digits.isEmpty || !rest.isEmpty then none
      else
        let e : Int := natural digits
        some (if negative then -e else e)
    else none

/-- A number: an integer, unless it has a point or an exponent. -/
def number? (cs : List Char) : Option Value :=
  let (negative, rest) :=
    match cs with
    | '-' :: rest => (true, rest)
    | cs => (false, cs)
  -- a point or an exponent makes a double of the integer
  let (whole, rest) := asciiDigits rest
  if !isWholePart whole then none
  else if rest.isEmpty then
    let n : Int := natural whole
    some (.int (if negative then -n else n))
  else
    match fraction? rest with
    | none => none
    | some (fraction, rest) =>
      (exponent? rest).map fun e =>
        match Finite.ofDecimal negative (natural (whole ++ fraction)) (e - fraction.length) with
        | some x => .double (.finite x)
        | none => .double (.infinite negative)

/-- The value of a word. -/
def word? (cs : List Char) : Option Value :=
  match String.ofList cs with
  | "true" => some (.bool true)
  | "false" => some (.bool false)
  | "null" => some .null
  | "NaN" => some (.double .notANumber)
  | "Infinity" => some (.double (.infinite false))
  | "-Infinity" => some (.double (.infinite true))
  | _ => number? cs

/-- What a text holds for a code unit on its own: a half of a surrogate pair, or the character. -/
def unitChars (code : Nat) : List Char :=
  if h : 0xD800 ≤ code ∧ code < 0xE000 then Text.Point.spelling (.half ⟨code - 0xD800, by omega⟩)
  else [Char.ofNat code]

/-- What a text holds for code units, where a pair of surrogates stands for one character. A half
without its partner stays a half. -/
def joinSurrogates : List Nat → List Char
  | [] => []
  | high :: low :: rest =>
    if 0xD800 ≤ high ∧ high < 0xDC00 ∧ 0xDC00 ≤ low ∧ low < 0xE000 then
      let c := Char.ofNat (0x10000 + (high - 0xD800) * 0x400 + (low - 0xDC00))
      Text.Point.spelling (.char c) ++ joinSurrogates rest
    else unitChars high ++ joinSurrogates (low :: rest)
  | [code] => unitChars code

/-- The code point that a backslash and a letter stand for. -/
def escape? : Char → Option Nat
  | '"' => some 0x22
  | '\\' => some 0x5C
  | '/' => some 0x2F
  | 'b' => some 0x08
  | 'f' => some 0x0C
  | 'n' => some 0x0A
  | 'r' => some 0x0D
  | 't' => some 0x09
  | _ => none

/-- Where the cutting stands: between tokens, in a word, in a string, after a backslash in a string,
or among the four digits of a code point. What was read of the token stands in reverse. -/
inductive Place where
  | between
  | word (read : List Char)
  | str (read : List Nat)
  | escape (read : List Nat)
  | code (read : List Nat) (left : Nat) (value : Nat)

def isSpace (c : Char) : Bool := c == ' ' || c == '\t' || c == '\n' || c == '\r'

def start (c : Char) : Place × List Token :=
  if isSpace c then (.between, [])
  else
    match c with
    | '[' => (.between, [.openList])
    | ']' => (.between, [.closeList])
    | '\x7b' => (.between, [.openObject])
    | '\x7d' => (.between, [.closeObject])
    | ',' => (.between, [.comma])
    | ':' => (.between, [.colon])
    | '"' => (.str [], [])
    | c => (.word [c], [])

/-- Whether a character ends a word. -/
def endsWord (c : Char) : Bool :=
  match (start c).1 with
  | .word _ => false
  | _ => true

/-- Reads one character: the new place and the tokens that are complete. -/
def Place.next? (place : Place) (c : Char) : Option (Place × List Token) :=
  match place with
  | .between => some (start c)
  | .word read =>
    -- what ends a word starts the next token
    if endsWord c then
      (word? read.reverse).map fun v => ((start c).1, .word v :: (start c).2)
    else some (.word (c :: read), [])
  | .str read =>
    if c = '"' then some (.between, [.str (String.ofList (joinSurrogates read.reverse))])
    else if c = '\\' then some (.escape read, [])
    else if c.toNat < 0x20 then none
    else some (.str (c.toNat :: read), [])
  | .escape read =>
    if c = 'u' then some (.code read 4 0, [])
    else (escape? c).map fun code => (.str (code :: read), [])
  | .code read left value =>
    (Text.hexValue? c).map fun d =>
      let value := value * 16 + d
      if left ≤ 1 then (.str (value :: read), []) else (.code read (left - 1) value, [])

/-- The tokens at the end of the text. -/
def Place.finish? : Place → Option (List Token)
  | .between => some []
  | .word read => (word? read.reverse).map fun v => [.word v]
  | _ => none

/-- The tokens of a text, when it can be cut into tokens. -/
def tokens? (text : String) : Option (List Token) := do
  let (place, read) ← text.toList.foldlM
    (fun (place, read) c => (place.next? c).map fun (place, more) => (place, more.reverse ++ read))
    (Place.between, [])
  let last ← place.finish?
  pure (read.reverse ++ last)

end CueGraph.Json
