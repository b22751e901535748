import CueGraph.Value

/-!
# Vocabularies

A vocabulary is a closed list of words, such as the kinds of diagnostics. `Vocabulary.read` reads a
value as a member, and a value that is no word of the list is an `UnknownWord`.
-/

namespace CueGraph

/-- A value that is no word of a vocabulary. -/
structure UnknownWord where
  vocabulary : String
  value : Value

def UnknownWord.message (e : UnknownWord) : String :=
  e.value.shown ++ " is not a valid " ++ e.vocabulary

/-- A vocabulary: its name, and what each of its words stands for. -/
structure Vocabulary (α : Type) where
  name : String
  ofWord? : String → Option α

/-- The member that a value stands for. -/
def Vocabulary.read {α : Type} (vocabulary : Vocabulary α) (v : Value) : Except UnknownWord α :=
  match v with
  | .str s =>
    match vocabulary.ofWord? s with
    | some member => .ok member
    | none => .error ⟨vocabulary.name, v⟩
  | _ => .error ⟨vocabulary.name, v⟩

end CueGraph
