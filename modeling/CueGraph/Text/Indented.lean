import CueGraph.Text.Blank

/-!
# Indented text

`Indented` collects lines at a changing depth of indentation. `body` takes over a text with line
breaks of any kind: blank lines at its two ends are dropped, blanks at the end of a line too, and
every other line keeps the indentation it has, moved to the present depth.

Main statements: `splitLines_append_crlf` (a carriage return with a line feed is one break),
`noBreak_of_mem_splitLines` (no line holds a break) and `splitLines_eq_singleton` (only what holds
none is one line).
-/

namespace CueGraph.Text

/-- The lines of a text. A line ends at a line feed, a carriage return, or the two together. -/
def splitLines : List Char → List (List Char)
  | [] => [[]]
  | '\r' :: '\n' :: rest => [] :: splitLines rest
  | c :: rest =>
    if c = '\n' ∨ c = '\r' then [] :: splitLines rest
    else
      match splitLines rest with
      | [] => [[c]]
      | line :: lines => (c :: line) :: lines

/-- Whether a line holds blank characters only. -/
def isBlankLine (line : List Char) : Bool := line.all isBlankChar

/-- The lines without the blank ones at both ends. -/
def dropBlankLines (lines : List (List Char)) : List (List Char) :=
  ((lines.dropWhile isBlankLine).reverse.dropWhile isBlankLine).reverse

/-- The lines of a text as `Indented.body` writes them. -/
def bodyLines (text : String) : List String :=
  (dropBlankLines (splitLines text.toList)).map fun line => String.ofList (dropBlankEnd line)

/-- Lines that are being written, at a depth of indentation. -/
structure Indented where
  lines : List String := []
  depth : Int := 0
  unit : String := "  "

namespace Indented

/-- The blanks in front of a line. A negative depth has none. -/
def margin (w : Indented) : String := String.join (List.replicate w.depth.toNat w.unit)

/-- Adds a line at the present depth. An empty line gets no margin. -/
def line (w : Indented) (text : String) : Indented :=
  { w with lines := w.lines ++ [if text.isEmpty then "" else w.margin ++ text] }

/-- Goes one step to the right. -/
def indent (w : Indented) : Indented := { w with depth := w.depth + 1 }

/-- Goes one step to the left, but not beyond the left edge. -/
def outdent (w : Indented) : Indented := { w with depth := max 0 (w.depth - 1) }

/-- Adds the lines of a text, each at the present depth. -/
def body (w : Indented) (text : String) : Indented := (bodyLines text).foldl line w

@[simp] theorem lines_line (w : Indented) (text : String) :
    (w.line text).lines = w.lines ++ [if text.isEmpty then "" else w.margin ++ text] := rfl

end Indented

theorem splitLines_append_crlf (rest : List Char) :
    splitLines ('\r' :: '\n' :: rest) = [] :: splitLines rest := by
  rw [splitLines]

theorem splitLines_ne_nil (cs : List Char) : splitLines cs ≠ [] := by
  fun_induction splitLines cs <;> simp_all

theorem noBreak_of_mem_splitLines {cs line : List Char} (h : line ∈ splitLines cs) :
    '\n' ∉ line ∧ '\r' ∉ line := by
  fun_induction splitLines cs generalizing line <;> grind

/-- A text is one line exactly if it has no line break. -/
theorem splitLines_eq_singleton {cs : List Char} :
    splitLines cs = [cs] ↔ '\n' ∉ cs ∧ '\r' ∉ cs := by
  constructor
  · intro h
    exact noBreak_of_mem_splitLines (by rw [h]; exact List.mem_singleton_self cs)
  · rintro ⟨hfeed, hreturn⟩
    fun_induction splitLines cs with
    | case1 => rfl
    | case2 => simp at hreturn
    | case3 c rest hpair hbreak => rcases hbreak with rfl | rfl <;> simp at hfeed hreturn
    | case4 => grind
    | case5 => grind

end CueGraph.Text
