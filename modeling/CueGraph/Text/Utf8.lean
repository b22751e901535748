import CueGraph.Text.HexDigit

/-!
# Bytes and characters

`utf8Bytes` are the bytes of characters, and `ofUtf8` reads bytes as characters. Bytes that are no
character become the replacement character, one for each longest start of a character among them.

`percentDecoded` reads a percent sign with two hexadecimal digits as a byte, and
`dropByteOrderMark` leaves out the mark that a file of text may start with.
-/

namespace CueGraph.Text

/-- A character that is being read: its value so far, how many bytes are to come, and the bounds of
the next one. -/
structure Unfinished where
  value : Nat
  left : Nat
  low : Nat := 0x80
  high : Nat := 0xBF

/-- What the first byte of a character says, if it is one. -/
def leadByte? (b : Nat) : Option Unfinished :=
  if 0xC2 ≤ b ∧ b ≤ 0xDF then some { value := b - 0xC0, left := 1 }
  else if b = 0xE0 then some { value := 0, left := 2, low := 0xA0 }
  else if b = 0xED then some { value := 0xD, left := 2, high := 0x9F }
  else if 0xE1 ≤ b ∧ b ≤ 0xEF then some { value := b - 0xE0, left := 2 }
  else if b = 0xF0 then some { value := 0, left := 3, low := 0x90 }
  else if b = 0xF4 then some { value := 4, left := 3, high := 0x8F }
  else if 0xF1 ≤ b ∧ b ≤ 0xF3 then some { value := b - 0xF0, left := 3 }
  else none

/-- The character that stands for bytes that are none. -/
def replacement : Char := '\uFFFD'

def readLead (b : Nat) : Option Unfinished × List Char :=
  if b < 0x80 then (none, [Char.ofNat b])
  else
    match leadByte? b with
    | some p => (some p, [])
    | none => (none, [replacement])

/-- Reads a byte: the character that is being read then, and the characters that are complete. -/
def readByte (reading : Option Unfinished) (b : Nat) : Option Unfinished × List Char :=
  match reading with
  | none => readLead b
  | some p =>
    if p.low ≤ b ∧ b ≤ p.high then
      let value := p.value * 0x40 + (b - 0x80)
      if p.left ≤ 1 then (none, [Char.ofNat value])
      else (some { value, left := p.left - 1 }, [])
    else
      -- the character breaks off, and the byte may start another one
      let (reading, complete) := readLead b
      (reading, replacement :: complete)

/-- The characters of bytes, where one may be in the middle of being read. -/
def ofUtf8From (reading : Option Unfinished) : List Nat → List Char
  | [] => if reading.isSome then [replacement] else []
  | b :: rest =>
    let (reading, complete) := readByte reading b
    complete ++ ofUtf8From reading rest

def ofUtf8 (bytes : List Nat) : List Char := ofUtf8From none bytes

def utf8Bytes (c : Char) : List Nat :=
  let n := c.toNat
  if n < 0x80 then [n]
  else if n < 0x800 then [0xC0 + n / 0x40, 0x80 + n % 0x40]
  else if n < 0x10000 then [0xE0 + n / 0x1000, 0x80 + n / 0x40 % 0x40, 0x80 + n % 0x40]
  else
    [0xF0 + n / 0x40000, 0x80 + n / 0x1000 % 0x40, 0x80 + n / 0x40 % 0x40, 0x80 + n % 0x40]

/-- The bytes of characters, where a percent sign with two hexadecimal digits is one. -/
def percentBytes : List Char → List Nat
  | [] => []
  | '%' :: high :: low :: rest =>
    match hexValue? high, hexValue? low with
    | some h, some l => (h * 16 + l) :: percentBytes rest
    | _, _ => 0x25 :: percentBytes (high :: low :: rest)
  | c :: rest => utf8Bytes c ++ percentBytes rest

/-- A text with its percent signs and digits read as bytes. -/
def percentDecoded (s : String) : String := String.ofList (ofUtf8 (percentBytes s.toList))

/-- The characters without a byte order mark in front. -/
def dropByteOrderMark : List Char → List Char
  | [] => []
  | c :: rest => if c = '\uFEFF' then rest else c :: rest

end CueGraph.Text
