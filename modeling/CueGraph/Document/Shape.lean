import CueGraph.Value

/-!
# Values as lists and as tables

Where a list is needed, a text stands for its characters and an object for its names (`items`).
Where an object is needed, a list of pairs stands for one (`table`), and what is not true stands for
the empty one.
-/

namespace CueGraph

/-- How a value fails to have the shape that is needed. -/
inductive ShapeError where
  /-- The value has no items. -/
  | noItems (v : Value)
  /-- The item at a place has no items, so it is no pair. -/
  | noPair (place : Nat)
  /-- The item at a place has another number of items than two. -/
  | pairLength (place length : Nat)
  /-- The value cannot name anything. -/
  | noName (v : Value)

namespace Value

/-- The word for the kind of a value. -/
def kind : Value → String
  | null => "NoneType"
  | bool _ => "bool"
  | int _ => "int"
  | double _ => "float"
  | str _ => "str"
  | list _ => "list"
  | object _ => "dict"

/-- The items of a value: those of a list, the characters of a text, the names of an object. -/
def items? : Value → Option (List Value)
  | str s => some (s.toList.map fun c => str (String.singleton c))
  | list items => some items
  | object fields => some (fields.map fun field => str field.1)
  | _ => none

/-- The items of a value that must have some shape of a list. -/
def items (v : Value) : Except ShapeError (List Value) :=
  match v.items? with
  | some items => .ok items
  | none => .error (.noItems v)

/-- The text of a value that names something. Lists and objects name nothing. -/
def name (v : Value) : Except ShapeError String :=
  if v.isPrimitive then .ok v.named else .error (.noName v)

/-- The field that the item at a place stands for. -/
def pair (place : Nat) (v : Value) : Except ShapeError (String × Value) :=
  match v.items? with
  | none => .error (.noPair place)
  | some [key, value] => (name key).map fun key => (key, value)
  | some items => .error (.pairLength place items.length)

/-- The fields that the items from some place on stand for. -/
def pairs : Nat → List Value → Except ShapeError (List (String × Value))
  | _, [] => .ok []
  | place, item :: rest => do
    let field ← item.pair place
    let fields ← pairs (place + 1) rest
    pure (field :: fields)

/-- The fields that a value stands for. -/
def table (v : Value) : Except ShapeError Fields :=
  match v with
  | object fields => .ok fields
  | v =>
    if v.truthy then do
      let items ← v.items
      let fields ← pairs 0 items
      pure (Fields.ofList fields)
    else .ok []

end Value

def ShapeError.message : ShapeError → String
  | noItems v => "'" ++ v.kind ++ "' object is not iterable"
  | noPair place =>
    "cannot convert dictionary update sequence element #" ++ toString place ++ " to a sequence"
  | pairLength place length =>
    "dictionary update sequence element #" ++ toString place ++ " has length " ++ toString length ++
      "; 2 is required"
  | noName v => "unhashable type: '" ++ v.kind ++ "'"

end CueGraph
