import CueGraph.Proofs.Text.Indented
import CueGraph.Text.Pieces
import Mathlib.Data.List.TakeWhile

/-!
# The body of a text

`bodyLines` is told here without the way in which it is computed. Every line break of the text
becomes a line feed and the text is cut at the line feeds; the blank lines at both ends go, and so
do the blanks at the end of each line that is left (`IsBody`). A text has one body (`isBody_iff`),
and it is empty exactly if the text is blank (`bodyLines_eq_nil`). Behind a margin the lines can be
told again (`unshifted_shifted`).
-/

namespace CueGraph.Text

/-! ## Line breaks -/

/-- The text with one line feed in the place of each carriage return and line feed that stand
together. -/
def joinPairs : List Char → List Char
  | [] => []
  | '\r' :: '\n' :: rest => '\n' :: joinPairs rest
  | c :: rest => c :: joinPairs rest

/-- The text with a line feed in the place of each line break. -/
def lineFeeds (cs : List Char) : List Char :=
  (joinPairs cs).map fun c => if c = '\r' then '\n' else c

/-- A line ends where the text has a line feed once every line break is one. -/
theorem splitLines_eq_pieces (cs : List Char) : splitLines cs = pieces '\n' (lineFeeds cs) := by
  unfold lineFeeds
  fun_induction splitLines cs with
  | case1 => rfl
  | case2 rest ih =>
    rw [joinPairs, List.map_cons, if_neg (by decide), pieces, if_pos rfl, ih]
  | case3 c rest hpair hbreak ih =>
    rw [joinPairs.eq_3 c rest hpair, List.map_cons]
    have hfeed : (if c = '\r' then '\n' else c) = '\n' := by
      rcases hbreak with rfl | rfl <;> rfl
    rw [hfeed, pieces, if_pos rfl, ih]
  | case4 c rest hpair hbreak hnil ih => exact absurd hnil (splitLines_ne_nil rest)
  | case5 c rest hpair hbreak line lines hlines ih =>
    obtain ⟨hfeed, hreturn⟩ := not_or.1 hbreak
    rw [joinPairs.eq_3 c rest hpair, List.map_cons, if_neg hreturn, pieces, if_neg hfeed, ← ih,
      hlines]

/-! ## Blank lines -/

theorem isBlankChar_lineBreak {c : Char} (h : c = '\n' ∨ c = '\r') : isBlankChar c = true := by
  rcases h with rfl | rfl <;> decide

/-- The lines of a text are blank exactly if the text is. -/
theorem all_isBlankLine_splitLines (cs : List Char) :
    (splitLines cs).all isBlankLine = cs.all isBlankChar := by
  fun_induction splitLines cs with
  | case1 => rfl
  | case2 rest ih =>
    simp [ih, isBlankLine, isBlankChar_lineBreak]
  | case3 c rest hpair hbreak ih =>
    simp [ih, isBlankLine, isBlankChar_lineBreak hbreak]
  | case4 c rest hpair hbreak hnil ih => exact absurd hnil (splitLines_ne_nil rest)
  | case5 c rest hpair hbreak line lines hlines ih =>
    rw [hlines, List.all_cons] at ih
    rw [List.all_cons (a := c), ← ih, List.all_cons, isBlankLine, List.all_cons, Bool.and_assoc]
    rfl

variable {lines front core back : List (List Char)}

/-- Blank lines around others are all that is dropped. -/
theorem dropBlankLines_around (hfront : ∀ line ∈ front, isBlankLine line = true)
    (hback : ∀ line ∈ back, isBlankLine line = true)
    (hfirst : ∀ line, core.head? = some line → isBlankLine line = false)
    (hlast : ∀ line, core.getLast? = some line → isBlankLine line = false) :
    dropBlankLines (front ++ core ++ back) = core := by
  have hstart : (core ++ back).dropWhile isBlankLine =
      if core = [] then [] else core ++ back := by
    cases core with
    | nil =>
      rw [List.nil_append, if_pos rfl]
      exact List.dropWhile_eq_nil_iff.2 hback
    | cons line rest =>
      rw [List.cons_append, List.dropWhile_cons_of_neg (by simp [hfirst line rfl]), if_neg]
      exact List.cons_ne_nil _ _
  have hend : core.reverse.dropWhile isBlankLine = core.reverse := by
    cases hcore : core.reverse with
    | nil => rfl
    | cons line rest =>
      have hline : core.getLast? = some line := by
        rw [← List.head?_reverse, hcore]
        rfl
      exact List.dropWhile_cons_of_neg (by simp [hlast line hline])
  unfold dropBlankLines
  rw [List.append_assoc, List.dropWhile_append_of_pos hfront, hstart]
  split
  · next hnil => rw [hnil]; rfl
  · rw [List.reverse_append, List.dropWhile_append_of_pos, hend, List.reverse_reverse]
    intro line hm
    exact hback line (List.mem_reverse.1 hm)

/-- What is dropped are blank lines at both ends. -/
theorem dropBlankLines_append (lines : List (List Char)) : ∃ front back,
    lines = front ++ dropBlankLines lines ++ back ∧ (∀ line ∈ front, isBlankLine line = true) ∧
      ∀ line ∈ back, isBlankLine line = true := by
  let rest := lines.dropWhile isBlankLine
  refine ⟨lines.takeWhile isBlankLine, (rest.reverse.takeWhile isBlankLine).reverse, ?_, ?_, ?_⟩
  · unfold dropBlankLines
    rw [List.append_assoc, ← List.reverse_append, List.takeWhile_append_dropWhile,
      List.reverse_reverse, List.takeWhile_append_dropWhile]
  · exact List.all_eq_true.1 List.all_takeWhile
  · intro line hm
    exact List.all_eq_true.1 List.all_takeWhile line (List.mem_reverse.1 hm)

/-! ## The body -/

/-- The lines are the body of a text: between its line feeds, without the blank lines at both ends,
and each without the blanks at its end. -/
inductive IsBody (text : String) : List String → Prop
  | between (front core back : List (List Char))
      (hlines : pieces '\n' (lineFeeds text.toList) = front ++ core ++ back)
      (hfront : ∀ line ∈ front, isBlankLine line = true)
      (hback : ∀ line ∈ back, isBlankLine line = true)
      (hfirst : ∀ line, core.head? = some line → isBlankLine line = false)
      (hlast : ∀ line, core.getLast? = some line → isBlankLine line = false) :
      IsBody text (core.map fun line => trimEnd (String.ofList line))

theorem bodyLines_eq (text : String) : bodyLines text =
    (dropBlankLines (splitLines text.toList)).map fun line => trimEnd (String.ofList line) := by
  simp [bodyLines, trimEnd]

theorem isBody_iff {text : String} {body : List String} :
    IsBody text body ↔ body = bodyLines text := by
  constructor
  · rintro ⟨front, core, back, hlines, hfront, hback, hfirst, hlast⟩
    rw [bodyLines_eq, splitLines_eq_pieces, hlines,
      dropBlankLines_around hfront hback hfirst hlast]
  · rintro rfl
    obtain ⟨front, back, hlines, hfront, hback⟩ := dropBlankLines_append (splitLines text.toList)
    rw [bodyLines_eq]
    apply IsBody.between front _ back _ hfront hback
    · intro line hline
      exact not_isBlankLine_head? hline
    · intro line hline
      exact not_isBlankLine_getLast? hline
    · rw [← splitLines_eq_pieces]
      exact hlines

/-- A text has an empty body exactly if it is blank. -/
theorem bodyLines_eq_nil {text : String} : bodyLines text = [] ↔ isBlank text = true := by
  unfold isBlank
  rw [← all_isBlankLine_splitLines, bodyLines, List.map_eq_nil_iff, List.all_eq_true]
  constructor
  · intro hnil
    obtain ⟨front, back, hlines, hfront, hback⟩ := dropBlankLines_append (splitLines text.toList)
    rw [hnil, List.append_nil] at hlines
    rw [hlines, List.forall_mem_append]
    exact ⟨hfront, hback⟩
  · intro hblank
    have hdropped : dropBlankLines (splitLines text.toList ++ [] ++ []) = [] := by
      apply dropBlankLines_around hblank
      · simp
      · simp
      · simp
    simpa using hdropped

/-! ## Margins -/

/-- A line behind a margin. An empty line gets no margin. -/
def shifted (margin line : String) : String := if line.isEmpty then "" else margin ++ line

/-- A line without its first characters. -/
def unshifted (count : Nat) (line : String) : String := String.ofList (line.toList.drop count)

/-- Without its margin a line is what it was. -/
theorem unshifted_shifted (margin line : String) :
    unshifted margin.length (shifted margin line) = line := by
  unfold unshifted shifted
  by_cases hempty : line.isEmpty = true
  · rw [if_pos hempty, String.isEmpty_iff.1 hempty]
    simp
  · rw [if_neg hempty, String.toList_append, ← String.length_toList, List.drop_left,
      String.ofList_toList]

theorem map_unshifted_shifted (margin : String) (body : List String) :
    (body.map (shifted margin)).map (unshifted margin.length) = body := by
  have hid : unshifted margin.length ∘ shifted margin = id := by
    funext line
    exact unshifted_shifted margin line
  rw [List.map_map, hid, List.map_id]

end CueGraph.Text
