import CueGraph.Text.Blank

/-!
# Pieces of a text

`pieces` cuts a text at a character; `items` keeps what is not blank, without the blanks around it.

Main statement: `pieces_append` (cutting two texts joined by the character is cutting each).
-/

namespace CueGraph.Text

/-- The pieces of a text between the occurrences of a character. -/
def pieces (separator : Char) : List Char → List (List Char)
  | [] => [[]]
  | c :: rest =>
    if c = separator then [] :: pieces separator rest
    else
      match pieces separator rest with
      | [] => [[c]]
      | piece :: more => (c :: piece) :: more

/-- The texts without the blanks around them, and without those of blanks alone. -/
def items (texts : List String) : List String := (texts.map trim).filter (!·.isEmpty)

/-- The items of a text between its commas. -/
def commaItems (s : String) : List String := items ((pieces ',' s.toList).map String.ofList)

theorem pieces_ne_nil (separator : Char) (cs : List Char) : pieces separator cs ≠ [] := by
  fun_induction pieces separator cs <;> simp

theorem pieces_append (separator : Char) (a b : List Char) :
    pieces separator (a ++ separator :: b) = pieces separator a ++ pieces separator b := by
  induction a with
  | nil => simp [pieces]
  | cons c rest ih =>
    by_cases h : c = separator
    · simp [pieces, h, ih]
    · simp only [List.cons_append, pieces, h, ↓reduceIte, ih]
      cases hp : pieces separator rest with
      | nil => exact absurd hp (pieces_ne_nil separator rest)
      | cons piece more => rfl

end CueGraph.Text
