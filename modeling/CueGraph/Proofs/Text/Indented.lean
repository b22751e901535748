import CueGraph.Text.Indented

/-!
# The lines of a text that is taken over

`Indented.body` writes the lines of a text at the present depth (`lines_body`). Neither the first
nor the last of them is empty (`head?_bodyLines`, `getLast?_bodyLines`); those in between can be.
-/

namespace CueGraph.Text

variable {lines : List (List Char)} {line : List Char}

theorem not_isBlankLine_head? (h : (dropBlankLines lines).head? = some line) :
    isBlankLine line = false := by
  -- what is dropped at the end leaves the first line in its place
  have hfirst : ((lines.dropWhile isBlankLine).reverse).getLast? = some line := by
    rw [← List.takeWhile_append_dropWhile (p := isBlankLine) (l := (lines.dropWhile _).reverse),
      List.getLast?_append]
    rw [dropBlankLines, List.head?_reverse] at h
    rw [h]
    rfl
  rw [List.getLast?_reverse] at hfirst
  have hnot := List.head?_dropWhile_not isBlankLine lines
  rw [hfirst] at hnot
  simpa using hnot

theorem not_isBlankLine_getLast? (h : (dropBlankLines lines).getLast? = some line) :
    isBlankLine line = false := by
  rw [dropBlankLines, List.getLast?_reverse] at h
  have hnot := List.head?_dropWhile_not isBlankLine (lines.dropWhile isBlankLine).reverse
  rw [h] at hnot
  simpa using hnot

/-- A line that is not blank is not empty without the blanks at its end. -/
theorem dropBlankEnd_ne_empty (h : isBlankLine line = false) :
    String.ofList (dropBlankEnd line) ≠ "" := by
  intro hempty
  have hnil : dropBlankEnd line = [] := by simpa using hempty
  obtain ⟨tail, htail, hblank⟩ := dropBlankEnd_append line
  rw [hnil, List.nil_append] at htail
  rw [isBlankLine, htail, List.all_eq_true.2 hblank] at h
  cases h

theorem head?_bodyLines (text : String) : (bodyLines text).head? ≠ some "" := by
  intro h
  rw [bodyLines, List.head?_map, Option.map_eq_some_iff] at h
  obtain ⟨line, hline, hempty⟩ := h
  exact dropBlankEnd_ne_empty (not_isBlankLine_head? hline) hempty

theorem getLast?_bodyLines (text : String) : (bodyLines text).getLast? ≠ some "" := by
  intro h
  rw [bodyLines, List.getLast?_map, Option.map_eq_some_iff] at h
  obtain ⟨line, hline, hempty⟩ := h
  exact dropBlankEnd_ne_empty (not_isBlankLine_getLast? hline) hempty

namespace Indented

/-- A line as it is written at the present depth. -/
def placed (w : Indented) (text : String) : String :=
  if text.isEmpty then "" else w.margin ++ text

theorem body_eq (w : Indented) (text : String) :
    w.body text = { w with lines := w.lines ++ (bodyLines text).map w.placed } := by
  rw [body]
  generalize bodyLines text = lines
  induction lines generalizing w with
  | nil => rw [List.foldl_nil, List.map_nil, List.append_nil]
  | cons line rest ih =>
    rw [List.foldl_cons, ih, List.map_cons, List.append_cons]
    rfl

theorem placed_cases (w : Indented) (text : String) :
    w.placed text = "" ∨ w.placed text = w.margin ++ text := by
  rw [placed]
  split
  · exact .inl rfl
  · exact .inr rfl

theorem placed_ne_empty (w : Indented) {text : String} (h : text ≠ "") : w.placed text ≠ "" := by
  rw [placed, if_neg (by simpa using h)]
  intro hempty
  exact h (String.append_eq_empty_iff.1 hempty).2

theorem map_placed_ne (w : Indented) {edge : Option String} (h : edge ≠ some "") :
    edge.map w.placed ≠ some "" := by
  intro hempty
  obtain ⟨text, htext, hempty⟩ := Option.map_eq_some_iff.1 hempty
  exact w.placed_ne_empty (fun he => h (he ▸ htext)) hempty

theorem head?_placed (w : Indented) (text : String) :
    ((bodyLines text).map w.placed).head? ≠ some "" := by
  rw [List.head?_map]
  exact w.map_placed_ne (head?_bodyLines text)

theorem getLast?_placed (w : Indented) (text : String) :
    ((bodyLines text).map w.placed).getLast? ≠ some "" := by
  rw [List.getLast?_map]
  exact w.map_placed_ne (getLast?_bodyLines text)

end Indented

end CueGraph.Text
