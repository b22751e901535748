import CueGraph.Value

/-!
# Options of a node

A `Config` is read option by option. An option that is absent or null takes the fallback of the
reader. Every reading is total: an option of the wrong kind counts as the nearest thing that makes
sense, and never fails.
-/

namespace CueGraph

structure Config where
  fields : Fields

namespace Config

/-- The options that a value holds; a value that is no object holds none. -/
def of (v : Value) : Config := ⟨v.fields⟩

/-- The value of an option, null when it is absent. -/
def raw (c : Config) (key : String) : Value := (c.fields.get? key).getD .null

/-- The value of an option, or `fallback` when it is absent or null. -/
def get (c : Config) (key : String) (fallback : Value) : Value :=
  match c.raw key with
  | .null => fallback
  | v => v

/-- The text of an option, or `fallback` when it is absent or null. -/
def textOr (c : Config) (key fallback : String) : String :=
  match c.raw key with
  | .null => fallback
  | v => v.text

def text (c : Config) (key : String) : String := c.textOr key ""

def trimmed (c : Config) (key : String) : String := Text.trim (c.text key)

/-- Whether the text of an option is more than blanks. -/
def hasText (c : Config) (key : String) : Bool := !(c.trimmed key).isEmpty

/-- The number of an option; what is no number counts as zero. -/
def number (c : Config) (key : String) : Finite := (c.raw key).toFinite

def numeral (c : Config) (key : String) : String := (c.raw key).numeral

def positive (c : Config) (key : String) : Bool := (c.number key).isPositive

def nonzero (c : Config) (key : String) : Bool := !(c.number key).isZero

/-- The truth of an option, or `fallback` when it is absent or null. -/
def flagOr (c : Config) (key : String) (fallback : Bool) : Bool :=
  match c.raw key with
  | .null => fallback
  | v => v.truthy

def flag (c : Config) (key : String) : Bool := c.flagOr key false

/-- Whether an option is present, neither null nor the empty text. -/
def isSet (c : Config) (key : String) : Bool :=
  match c.raw key with
  | .null => false
  | .str s => !s.isEmpty
  | _ => true

/-- The number of an option that is present and a number. -/
def number? (c : Config) (key : String) : Option Finite :=
  if c.isSet key then (c.raw key).toFinite? else none

theorem hasText_iff {c : Config} {key : String} :
    c.hasText key = true ↔ Text.isBlank (c.text key) = false := by
  unfold hasText trimmed
  rw [Bool.not_eq_true', ← Bool.not_eq_true, ← Bool.not_eq_true, String.isEmpty_iff,
    Text.trim_eq_empty]

end Config

end CueGraph
