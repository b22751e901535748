import CueGraph.Text.Range

/-!
# Blank characters and trimming

A character is blank when it is white space or one of the four information separators. `trim`
removes the blank characters at both ends of a text, `trimEnd` those at its end, and `isBlank` says
that nothing else is there. The functions on `List Char` carry the meaning, the ones on `String`
wrap them.

Main statements: `dropBlankEnd_append` (what is cut off is blank), `not_isBlankChar_getLast` (what
is left does not end in a blank character) and `dropBlank_around` (what is not blank is left).
-/

namespace CueGraph.Text

/-- The blank characters: the white space of every script, with the separators U+001C to U+001F.
The zero width characters U+200B and U+FEFF are not blank. -/
def blankRanges : Ranges :=
  [(0x09, 0x0D), (0x1C, 0x20), (0x85, 0x85), (0xA0, 0xA0), (0x1680, 0x1680), (0x2000, 0x200A),
    (0x2028, 0x2029), (0x202F, 0x202F), (0x205F, 0x205F), (0x3000, 0x3000)]

/-- Whether trimming removes this character. -/
def isBlankChar (c : Char) : Bool := blankRanges.contains c

/-- The blank characters that are white space: all but the four information separators. -/
def isSpaceChar (c : Char) : Bool := isBlankChar c && (c < '\x1c' || '\x1f' < c)

/-- The characters without the blank ones at the end. -/
def dropBlankEnd (cs : List Char) : List Char := (cs.reverse.dropWhile isBlankChar).reverse

/-- The characters without the blank ones at both ends. -/
def dropBlank (cs : List Char) : List Char := dropBlankEnd (cs.dropWhile isBlankChar)

/-- The text without the blank characters at its end. -/
def trimEnd (s : String) : String := String.ofList (dropBlankEnd s.toList)

/-- The text without the blank characters at both ends. -/
def trim (s : String) : String := String.ofList (dropBlank s.toList)

/-- A text is blank when it holds blank characters only; the empty text is. -/
def isBlank (s : String) : Bool := s.toList.all isBlankChar

/-- Of blank characters alone nothing is left. -/
theorem dropBlank_eq_nil {cs : List Char} (h : ∀ c ∈ cs, isBlankChar c = true) :
    dropBlank cs = [] := by
  induction cs with
  | nil => rfl
  | cons c rest ih =>
    rw [dropBlank, List.dropWhile_cons_of_pos (h c (by simp))]
    exact ih fun c hc => h c (by simp [hc])

/-- What is seen of the ASCII characters is not blank. -/
theorem not_isBlankChar_of_visible {c : Char} (h : 0x20 < c.toNat) (h' : c.toNat < 0x7F) :
    isBlankChar c = false := by
  simp only [isBlankChar, Ranges.contains, blankRanges, List.any_cons, List.any_nil,
    Bool.or_eq_false_iff, Bool.and_eq_false_iff, decide_eq_false_iff_not, and_true]
  omega

theorem dropWhile_of_head?_not_blank {cs : List Char}
    (h : ∀ c, cs.head? = some c → isBlankChar c = false) : cs.dropWhile isBlankChar = cs := by
  cases cs with
  | nil => rfl
  | cons c rest => exact List.dropWhile_cons_of_neg (by simp [h c rfl])

theorem dropWhile_isBlankChar {cs : List Char} (h : ∀ c ∈ cs, isBlankChar c = false) :
    cs.dropWhile isBlankChar = cs :=
  dropWhile_of_head?_not_blank fun c hc => h c (List.mem_of_head? hc)

/-- Of what does not end in a blank character nothing is cut off the end. -/
theorem dropBlankEnd_eq_self {cs : List Char}
    (h : ∀ c, cs.getLast? = some c → isBlankChar c = false) : dropBlankEnd cs = cs := by
  have hreverse : cs.reverse.dropWhile isBlankChar = cs.reverse := by
    apply dropWhile_of_head?_not_blank
    intro c hc
    rw [List.head?_reverse] at hc
    exact h c hc
  rw [dropBlankEnd, hreverse, List.reverse_reverse]

/-- Blank characters around others are all that is cut off. -/
theorem dropBlank_around {before cs after : List Char}
    (hbefore : ∀ c ∈ before, isBlankChar c = true) (hafter : ∀ c ∈ after, isBlankChar c = true)
    (h : ∀ c ∈ cs, isBlankChar c = false) : dropBlank (before ++ cs ++ after) = cs := by
  cases cs with
  | nil => exact dropBlank_eq_nil (by simpa [or_imp, forall_and] using ⟨hbefore, hafter⟩)
  | cons c rest =>
    have hfirst : (before ++ c :: rest ++ after).dropWhile isBlankChar = c :: rest ++ after := by
      rw [List.append_assoc, List.dropWhile_append_of_pos hbefore, List.cons_append,
        List.dropWhile_cons_of_neg (by simp [h c])]
    have hreverse : ∀ d ∈ (c :: rest).reverse, isBlankChar d = false := fun d hd =>
      h d (List.mem_reverse.1 hd)
    rw [dropBlank, hfirst, dropBlankEnd, List.reverse_append, List.dropWhile_append_of_pos,
      dropWhile_isBlankChar hreverse, List.reverse_reverse]
    exact fun d hd => hafter d (List.mem_reverse.1 hd)

/-- Only blank characters are cut off the end. -/
theorem dropBlankEnd_append (cs : List Char) :
    ∃ tail, cs = dropBlankEnd cs ++ tail ∧ ∀ c ∈ tail, isBlankChar c = true := by
  refine ⟨(cs.reverse.takeWhile isBlankChar).reverse, ?_, ?_⟩
  · rw [dropBlankEnd, ← List.reverse_append, List.takeWhile_append_dropWhile, List.reverse_reverse]
  · intro c hc
    have := List.all_takeWhile (p := isBlankChar) (l := cs.reverse)
    simp only [List.all_eq_true] at this
    exact this c (by simpa using hc)

/-- What is left after trimming the end does not end in a blank character. -/
theorem not_isBlankChar_getLast (cs : List Char) {c : Char}
    (h : (dropBlankEnd cs).getLast? = some c) : isBlankChar c = false := by
  rw [dropBlankEnd, List.getLast?_reverse] at h
  have := List.head?_dropWhile_not isBlankChar cs.reverse
  rw [h] at this
  simpa using this

/-- Nothing is left of a text after trimming exactly if it is blank. -/
theorem trim_eq_empty {s : String} : trim s = "" ↔ isBlank s = true := by
  unfold trim isBlank
  rw [String.ofList_eq_empty_iff, List.all_eq_true]
  constructor
  · intro hnil
    obtain ⟨tail, htail, hblank⟩ := dropBlankEnd_append (s.toList.dropWhile isBlankChar)
    rw [← dropBlank, hnil, List.nil_append] at htail
    rw [← List.takeWhile_append_dropWhile (p := isBlankChar) (l := s.toList), htail,
      List.forall_mem_append]
    exact ⟨List.all_eq_true.1 List.all_takeWhile, hblank⟩
  · exact dropBlank_eq_nil

end CueGraph.Text
