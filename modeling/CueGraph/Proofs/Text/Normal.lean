import CueGraph.Proofs.Text.Body
import Mathlib.Logic.Relation

/-!
# Bodies in normal form

Lines are in normal form when they can stand as the body of a text (`IsNormal`): no line holds a
line break or ends in a blank, and neither the first nor the last is empty. The body of every text
is in normal form (`isNormal_bodyLines`), and lines in normal form are the body of the text in which
they stand below each other (`IsNormal.bodyLines_intercalate`). Which characters make up a line
break does not matter, unless the exchange makes one break of two or two of one (`Rebroken`).

Main statement: `Indented.body_normalises`.
-/

namespace CueGraph.Text

/-! ## Cutting at a line break -/

/-- No line break lies across the place where the two parts of a text meet. -/
def Parted (front back : List Char) : Prop :=
  front.getLast? = some '\r' → back.head? ≠ some '\n'

variable {c : Char} {front rest back : List Char}

theorem Parted.of_cons (h : Parted (c :: rest) back) : Parted rest back := by
  intro hlast
  apply h
  rw [List.getLast?_cons, hlast]
  rfl

theorem Parted.no_pair (h : Parted (c :: rest) back)
    (hpair : ∀ more, c = '\r' → rest = '\n' :: more → False) :
    ∀ more, c = '\r' → rest ++ back = '\n' :: more → False := by
  rintro more rfl hmore
  cases rest with
  | nil =>
    rw [List.nil_append] at hmore
    exact h rfl (by rw [hmore]; rfl)
  | cons d tail =>
    obtain ⟨rfl, -⟩ := List.cons.inj hmore
    exact hpair tail rfl rfl

/-- A carriage return is a break of its own unless a line feed follows. -/
theorem splitLines_return (h : rest.head? ≠ some '\n') :
    splitLines ('\r' :: rest) = [] :: splitLines rest := by
  rw [splitLines.eq_3 _ _ fun more _ hmore => h (by rw [hmore]; rfl), if_pos (.inr rfl)]

/-- Where the second part begins with a line break of its own, the lines are those of the first part
and then the lines behind the break. -/
theorem splitLines_append {lines : List (List Char)} (h : Parted front back)
    (hback : splitLines back = [] :: lines) :
    splitLines (front ++ back) = splitLines front ++ lines := by
  fun_induction splitLines front with
  | case1 => exact hback
  | case2 rest ih =>
    rw [List.cons_append, List.cons_append, splitLines_append_crlf, ih h.of_cons.of_cons,
      List.cons_append]
  | case3 c rest hpair hbreak ih =>
    rw [List.cons_append, splitLines.eq_3 c _ (h.no_pair hpair), if_pos hbreak, ih h.of_cons,
      List.cons_append]
  | case4 c rest hpair hbreak hnil ih => exact absurd hnil (splitLines_ne_nil rest)
  | case5 c rest hpair hbreak line more hlines ih =>
    rw [List.cons_append, splitLines.eq_3 c _ (h.no_pair hpair), if_neg hbreak, ih h.of_cons,
      hlines]
    rfl

/-! ## Exchanging line breaks -/

/-- What stands between two parts of a text is a line break of its own. A line feed behind a
carriage return is none, nor is a carriage return in front of a line feed, as the two together are
one break. -/
inductive IsBreak (front back : String) : String → Prop
  | feed (hfront : front.toList.getLast? ≠ some '\r') : IsBreak front back "\n"
  | single (hback : back.toList.head? ≠ some '\n') : IsBreak front back "\r"
  | pair : IsBreak front back "\r\n"

theorem IsBreak.splitLines_eq {front back mark : String} (h : IsBreak front back mark) :
    splitLines (front ++ mark ++ back).toList =
      splitLines front.toList ++ splitLines back.toList := by
  rw [String.toList_append, String.toList_append, List.append_assoc]
  cases h with
  | feed hfront =>
    apply splitLines_append
    · exact fun hlast => absurd hlast hfront
    · simp [splitLines]
  | single hback =>
    apply splitLines_append
    · simp [Parted]
    · exact splitLines_return hback
  | pair =>
    apply splitLines_append
    · simp [Parted]
    · exact splitLines_append_crlf back.toList

/-- The second text has another line break in the place of one of the first. -/
inductive Rebroken : String → String → Prop
  | exchange (front back : String) {mark other : String} (hmark : IsBreak front back mark)
      (hother : IsBreak front back other) :
      Rebroken (front ++ mark ++ back) (front ++ other ++ back)

theorem Rebroken.splitLines_eq {text other : String} (h : Rebroken text other) :
    splitLines other.toList = splitLines text.toList := by
  obtain ⟨front, back, hmark, hother⟩ := h
  rw [hmark.splitLines_eq, hother.splitLines_eq]

/-- However many line breaks are exchanged, the body stays the same. -/
theorem bodyLines_of_rebroken {text other : String}
    (h : Relation.ReflTransGen Rebroken text other) : bodyLines other = bodyLines text := by
  induction h with
  | refl => rfl
  | tail _ hstep ih => rw [← ih, bodyLines, hstep.splitLines_eq, bodyLines]

/-! ## Normal form -/

/-- The lines can stand as a body: no line holds a line break or ends in a blank, and neither the
first nor the last is empty. -/
structure IsNormal (lines : List String) : Prop where
  noBreak : ∀ line ∈ lines, '\n' ∉ line.toList ∧ '\r' ∉ line.toList
  trimmed : ∀ line ∈ lines, ∀ c, line.toList.getLast? = some c → isBlankChar c = false
  first : lines.head? ≠ some ""
  last : lines.getLast? ≠ some ""

theorem isNormal_bodyLines (text : String) : IsNormal (bodyLines text) where
  noBreak := by
    intro line hline
    obtain ⟨full, hfull, rfl⟩ := List.mem_map.1 hline
    obtain ⟨front, back, hlines, -⟩ := dropBlankLines_append (splitLines text.toList)
    have hmem : full ∈ splitLines text.toList := by
      rw [hlines]
      simp [hfull]
    obtain ⟨hfeed, hreturn⟩ := noBreak_of_mem_splitLines hmem
    obtain ⟨tail, htail, -⟩ := dropBlankEnd_append full
    rw [htail, List.mem_append, not_or] at hfeed hreturn
    rw [String.toList_ofList]
    exact ⟨hfeed.1, hreturn.1⟩
  trimmed := by
    intro line hline c hc
    obtain ⟨full, -, rfl⟩ := List.mem_map.1 hline
    rw [String.toList_ofList] at hc
    exact not_isBlankChar_getLast full hc
  first := head?_bodyLines text
  last := getLast?_bodyLines text

variable {lines : List String} {line : String}

/-- Lines without breaks are read back from the text in which they stand below each other. -/
theorem splitLines_intercalate (hne : lines ≠ [])
    (h : ∀ line ∈ lines, '\n' ∉ line.toList ∧ '\r' ∉ line.toList) :
    splitLines ("\n".intercalate lines).toList = lines.map String.toList := by
  induction lines with
  | nil => exact absurd rfl hne
  | cons line rest ih =>
    obtain ⟨hline, hrest⟩ := List.forall_mem_cons.1 h
    have hone : splitLines line.toList = [line.toList] := splitLines_eq_singleton.2 hline
    cases rest with
    | nil => rw [String.intercalate_singleton, hone, List.map_singleton]
    | cons next more =>
      have hbreak : IsBreak line ("\n".intercalate (next :: more)) "\n" :=
        .feed fun hlast => hline.2 (List.mem_of_getLast? hlast)
      rw [String.intercalate_cons_cons, hbreak.splitLines_eq, hone,
        ih (List.cons_ne_nil next more) hrest]
      rfl

namespace IsNormal

/-- As it does not end in a blank, a line is blank only if it is empty. -/
theorem isBlankLine_eq_false (h : IsNormal lines) (hline : line ∈ lines) (hne : line ≠ "") :
    isBlankLine line.toList = false := by
  have hchars : line.toList ≠ [] := by simpa using hne
  have hlast := h.trimmed line hline _ (List.getLast?_eq_some_getLast hchars)
  rw [isBlankLine, List.all_eq_false]
  exact ⟨_, List.getLast_mem hchars, by simp [hlast]⟩

theorem dropBlankLines_eq (h : IsNormal lines) :
    dropBlankLines (lines.map String.toList) = lines.map String.toList := by
  have haround : dropBlankLines ([] ++ lines.map String.toList ++ []) =
      lines.map String.toList := by
    apply dropBlankLines_around (by simp) (by simp)
    · intro chars hchars
      rw [List.head?_map, Option.map_eq_some_iff] at hchars
      obtain ⟨line, hline, rfl⟩ := hchars
      refine h.isBlankLine_eq_false (List.mem_of_head? hline) ?_
      rintro rfl
      exact h.first hline
    · intro chars hchars
      rw [List.getLast?_map, Option.map_eq_some_iff] at hchars
      obtain ⟨line, hline, rfl⟩ := hchars
      refine h.isBlankLine_eq_false (List.mem_of_getLast? hline) ?_
      rintro rfl
      exact h.last hline
  simpa using haround

/-- Lines in normal form are the body of the text in which they stand below each other. -/
theorem bodyLines_intercalate (h : IsNormal lines) :
    bodyLines ("\n".intercalate lines) = lines := by
  by_cases hne : lines = []
  · -- no lines at all are read back as one empty line, which is blank
    subst hne
    exact bodyLines_eq_nil.2 rfl
  · have htrim : ∀ line ∈ lines, String.ofList (dropBlankEnd line.toList) = line := by
      intro line hline
      rw [dropBlankEnd_eq_self (h.trimmed line hline), String.ofList_toList]
    calc bodyLines ("\n".intercalate lines)
        = (lines.map String.toList).map fun line => String.ofList (dropBlankEnd line) := by
          rw [bodyLines, splitLines_intercalate hne h.noBreak, h.dropBlankLines_eq]
      _ = lines.map id := by
          rw [List.map_map]
          exact List.map_congr_left htrim
      _ = lines := List.map_id lines

end IsNormal

theorem bodyLines_intercalate_eq_self_iff :
    bodyLines ("\n".intercalate lines) = lines ↔ IsNormal lines := by
  constructor
  · intro h
    rw [← h]
    exact isNormal_bodyLines _
  · exact IsNormal.bodyLines_intercalate

/-! ## Main theorem -/

namespace Indented

/-- The lines that the body of a text adds to those that are there. -/
def added (w : Indented) (text : String) : List String := (w.body text).lines.drop w.lines.length

theorem added_eq (w : Indented) (text : String) :
    w.added text = (bodyLines text).map w.placed := by
  rw [added, body_eq, List.drop_left]

/-- Nothing but the lines changes, and those that are there stay. -/
theorem body_eq_added (w : Indented) (text : String) :
    w.body text = { w with lines := w.lines ++ w.added text } := by
  rw [body_eq, added_eq]

/-- At the left edge a line is written as it is. -/
theorem placed_eq_self {w : Indented} (h : w.depth ≤ 0) (text : String) :
    w.placed text = text := by
  have hmargin : w.margin = "" := by
    rw [margin, Int.toNat_of_nonpos h]
    rfl
  rw [placed, hmargin, String.empty_append]
  split
  · next hempty => exact (String.isEmpty_iff.1 hempty).symm
  · rfl

theorem added_eq_bodyLines {w : Indented} (h : w.depth ≤ 0) : w.added = bodyLines := by
  funext text
  rw [added_eq, funext (placed_eq_self h), List.map_id']

/-- At the left edge the body of a text brings the text into normal form. It is added to the lines
that are there, and nothing else changes; it is in normal form, and empty exactly if the text is
blank. The text in which its lines stand below each other has the same body, and in this way all
lines in normal form are a body, and no others. With other line breaks in the text the body is the
same. -/
theorem body_normalises {w : Indented} (h : w.depth ≤ 0) :
    (∀ text, w.body text = { w with lines := w.lines ++ w.added text } ∧
      IsBody text (w.added text)) ∧
    (∀ text, IsNormal (w.added text) ∧ (w.added text = [] ↔ isBlank text = true) ∧
      w.added ("\n".intercalate (w.added text)) = w.added text) ∧
    (∀ lines, w.added ("\n".intercalate lines) = lines ↔ IsNormal lines) ∧
    ∀ text other, Relation.ReflTransGen Rebroken text other → w.added other = w.added text := by
  have hbody := w.body_eq_added
  rw [added_eq_bodyLines h] at hbody ⊢
  refine ⟨fun text => ⟨hbody text, isBody_iff.2 rfl⟩, fun text => ?_, ?_, ?_⟩
  · have hnormal := isNormal_bodyLines text
    exact ⟨hnormal, bodyLines_eq_nil, hnormal.bodyLines_intercalate⟩
  · exact fun lines => bodyLines_intercalate_eq_self_iff
  · exact fun text other => bodyLines_of_rebroken

/-- Two lines of code with an empty one between them and blanks around them. -/
def fading : String := "\n  fade();\u3000\n\n\tstop();\n \n"

/-- The same code with line breaks of all three kinds. -/
def fadingMixed : String := "\r\n  fade();\u3000\r\r\n\tstop();\n \n"

def opened : Indented := { lines := ["open();"], unit := "\t" }

theorem fading_rebroken : Relation.ReflTransGen Rebroken fading fadingMixed := by
  have hstart := Rebroken.exchange "" "  fade();\u3000\n\n\tstop();\n \n"
    (.feed (by decide)) .pair
  have hempty := Rebroken.exchange "\r\n  fade();\u3000\n" "\tstop();\n \n"
    (.feed (by decide)) .pair
  -- the line feed behind is part of a pair by now, so the one in front can be a carriage return
  have hcode := Rebroken.exchange "\r\n  fade();\u3000" "\r\n\tstop();\n \n"
    (.feed (by decide)) (.single (by decide))
  exact ((Relation.ReflTransGen.single hstart).tail hempty).tail hcode

theorem body_normalises_fading :
    opened.depth ≤ 0 ∧ Relation.ReflTransGen Rebroken fading fadingMixed ∧
      (opened.body fadingMixed).lines = ["open();", "  fade();", "", "\tstop();"] ∧
      IsNormal ["  fade();", "", "\tstop();"] ∧
      opened.added ("\n".intercalate ["  fade();", "", "\tstop();"]) =
        ["  fade();", "", "\tstop();"] := by
  have hdepth : opened.depth ≤ 0 := by decide
  obtain ⟨hbody, hnormal, hfixed, hrebroken⟩ := body_normalises hdepth
  have hadded : opened.added fading = ["  fade();", "", "\tstop();"] := by decide +kernel
  have hlines := (hnormal fading).1
  rw [hadded] at hlines
  refine ⟨hdepth, fading_rebroken, ?_, hlines, (hfixed _).2 hlines⟩
  rw [(hbody fadingMixed).1, hrebroken _ _ fading_rebroken, hadded]
  rfl

end Indented

end CueGraph.Text
