import CueGraph.Number.Written
import CueGraph.Text.Shown

/-!
# Values

A value is what an option of a node can hold: nothing, a truth value, an integer of any size, a
double, a text, a list, or an object with its fields in order. Every value can be taken for a
number (`toFinite`), a text (`text`) or a truth value (`truthy`), whatever it is.

Main statement: `lookup_insert` (a field reads back what was put there last).
-/

namespace CueGraph

inductive Value where
  | null
  | bool (b : Bool)
  | int (i : Int)
  | double (x : Double)
  | str (s : String)
  | list (items : List Value)
  | object (fields : List (String × Value))

abbrev Fields := List (String × Value)

instance : Inhabited Value := ⟨.null⟩

/-- Puts a field into an object: in the place of the field of that name, else at the end. -/
def Fields.insert (key : String) (value : Value) : Fields → Fields
  | [] => [(key, value)]
  | field :: rest =>
    if field.1 = key then (key, value) :: rest else field :: Fields.insert key value rest

/-- The fields in order, where a name that occurs again changes the value and not the place. -/
def Fields.ofList (fields : List (String × Value)) : Fields :=
  fields.foldl (fun acc field => Fields.insert field.1 field.2 acc) []

def Fields.get? (fields : Fields) (key : String) : Option Value := fields.lookup key

@[simp] theorem Fields.lookup_insert (fields : Fields) (key other : String) (value : Value) :
    Fields.get? (Fields.insert key value fields) other =
      if other = key then some value else Fields.get? fields other := by
  unfold Fields.get?
  induction fields with
  | nil => simp only [Fields.insert, List.lookup_nil, List.lookup_cons]; grind
  | cons field rest ih =>
    by_cases h : field.1 = key
    · simp only [Fields.insert, h, ↓reduceIte, List.lookup_cons]; grind
    · simp only [Fields.insert, h, ↓reduceIte]; grind

namespace Value

/-- Null, false, zero and what is empty are not true; everything else is, not a number included. -/
def truthy : Value → Bool
  | null => false
  | bool b => b
  | int i => i != 0
  | double (.finite x) => !x.isZero
  | double _ => true
  | str s => !s.isEmpty
  | list items => !items.isEmpty
  | object fields => !fields.isEmpty

/-- The value as a finite double, when it is one. Null counts as zero and a truth value as zero or
one; a text is read; lists and objects are no numbers. -/
def toFinite? : Value → Option Finite
  | null => some .zero
  | bool b => some (if b then .one else .zero)
  | int i => Finite.ofInt i
  | double (.finite x) => some x
  | double _ => none
  | str s => Finite.read? s
  | list _ => none
  | object _ => none

/-- The value as a finite double; what is no number counts as zero. -/
def toFinite (v : Value) : Finite := v.toFinite?.getD .zero

def numeral (v : Value) : String := v.toFinite.numeral

mutual

/-- The value as it is shown inside a list, an object or a message. -/
def shown : Value → String
  | null => "None"
  | bool b => if b then "True" else "False"
  | int i => toString i
  | double x => x.plain
  | str s => Text.shown s
  | list items => "[" ++ ", ".intercalate (shownItems items) ++ "]"
  | object fields => "\x7b" ++ ", ".intercalate (shownFields fields) ++ "\x7d"

def shownItems : List Value → List String
  | [] => []
  | item :: rest => item.shown :: shownItems rest

/-- Each field as it is shown, with its name. -/
def shownFields : List (String × Value) → List String
  | [] => []
  | (key, value) :: rest => (Text.shown key ++ ": " ++ value.shown) :: shownFields rest

end

/-- The value as a message names it: a text as it is, anything else as it is shown. -/
def named : Value → String
  | str s => s
  | v => v.shown

/-- The value as a text: a text as it is, null as nothing, a truth value in words, a number as a
numeral, a list or an object as it is shown. -/
def text : Value → String
  | null => ""
  | bool b => if b then "true" else "false"
  | int i => (int i).numeral
  | double x => (double x).numeral
  | str s => s
  | v => v.shown

/-- The fields of an object; any other value has none. -/
def fields : Value → Fields
  | object fields => fields
  | _ => []

/-- Whether the value is neither a list nor an object. -/
def isPrimitive : Value → Bool
  | list _ => false
  | object _ => false
  | _ => true

end Value

end CueGraph
