import CueGraph.Proofs.Script.Written
import Mathlib.Data.List.Forall2

/-!
# The text of a script and its entries

The text of a script goes by the lines that its entries leave and by nothing else. An entry without
lines and declarations leaves none, so it can be put in or taken out anywhere (`render_filter`).
Texts of entries can be put together (`bare_append_of_ne`), and the frame stands around the text
that there is without it (`render_frame`). The lines that an entry leaves are its own, but for the
semicolon that ends the chain of a block (`Stands`).

Main statement: `render_laws`.
-/

namespace CueGraph

namespace Entry

/-- The text of lines, each with a line feed. -/
def textOf (lines : List String) : String := String.join (lines.map (· ++ "\n"))

/-- The text of a script without a frame. -/
def bare (separate : Bool) (entries : List Entry) : String :=
  render { wrap := false, separate } entries

/-- Whether an entry has neither lines nor declarations. -/
def isBlank (e : Entry) : Bool := e.lines.isEmpty && e.declarations.isEmpty

/-- The lines as which an entry stands in a script. A chain with lines gets one semicolon, at the
end of its last line; nothing else is added to what the entry has. -/
inductive Stands : Entry → List String → Prop
  | statement (s : Statement) : Stands (.statement s) (s.declarations ++ s.lines)
  | bare (b : Block) (h : b.lines = []) : Stands (.block b) b.declarations
  | chain (b : Block) (front : List String) (last : String) (h : b.lines = front ++ [last]) :
      Stands (.block b) (b.declarations ++ front ++ [last ++ ";"])

variable {separate : Bool} {lines : List String} {entries a b : List Entry} {e : Entry}

/-! ## Texts of lines -/

theorem textOf_append (front back : List String) :
    textOf (front ++ back) = textOf front ++ textOf back := by
  rw [textOf, List.map_append, String.join_append]
  rfl

theorem textOf_eq_empty : textOf lines = "" ↔ lines = [] := by
  constructor
  · intro h
    cases lines with
    | nil => rfl
    | cons line rest =>
      -- the line feed behind the first line is there
      have hchars := congrArg String.toList h
      simp [textOf] at hchars
  · rintro rfl
    rfl

theorem textOf_gap : textOf (gap separate) = if separate then "\n" else "" := by
  cases separate with
  | false => rfl
  | true => rfl

/-! ## What an entry leaves -/

theorem endChain_concat (front : List String) (last : String) :
    endChain (front ++ [last]) = front ++ [last ++ ";"] := by
  induction front with
  | nil => rfl
  | cons line rest ih =>
    have hne : rest ++ [last] ≠ [] := List.append_ne_nil_of_right_ne_nil rest (List.cons_ne_nil _ _)
    obtain ⟨next, more, hnext⟩ := List.exists_cons_of_ne_nil hne
    rw [List.cons_append, List.cons_append, ← ih, hnext]
    rfl

theorem stands_written (e : Entry) : Stands e e.written := by
  cases e with
  | statement s => exact .statement s
  | block b =>
    rcases List.eq_nil_or_concat b.lines with h | ⟨front, last, h⟩
    · have hwritten : (block b).written = b.declarations := by
        rw [written, h]
        exact List.append_nil _
      exact hwritten ▸ .bare b h
    · rw [List.concat_eq_append] at h
      have hwritten : (block b).written = b.declarations ++ front ++ [last ++ ";"] := by
        rw [written, h, endChain_concat, List.append_assoc]
      exact hwritten ▸ .chain b front last h

theorem written_eq_nil_iff : e.written = [] ↔ e.isBlank = true := by
  rw [isBlank, Bool.and_eq_true, List.isEmpty_iff, List.isEmpty_iff]
  constructor
  · intro h
    have hlines : e.lines = [] := not_not.1 fun hne => written_ne_nil hne h
    rw [written_eq] at h
    exact ⟨hlines, (List.append_eq_nil_iff.1 h).1⟩
  · rintro ⟨hlines, hdeclarations⟩
    rw [written_eq, hdeclarations]
    cases e with
    | statement s => exact hlines
    | block b => exact congrArg endChain hlines

/-- Blank entries make no group. -/
theorem groups_filter (entries : List Entry) :
    groups (entries.filter (!·.isBlank)) = groups entries := by
  have hkeep : (fun e : Entry => !e.written.isEmpty) = fun e => !e.isBlank := by
    funext e
    rw [Bool.eq_iff_iff, Bool.not_eq_true', Bool.not_eq_true', ← Bool.not_eq_true,
      ← Bool.not_eq_true, List.isEmpty_iff, written_eq_nil_iff]
  have hgroups : ∀ entries, groups entries = (entries.filter (!·.isBlank)).map written := by
    intro entries
    rw [groups, List.filter_map, ← hkeep]
    rfl
  rw [hgroups, hgroups, List.filter_filter]
  simp only [Bool.and_self]

/-! ## Texts of entries -/

theorem render_eq (style : ScriptStyle) (entries : List Entry) :
    render style entries = textOf (scriptLines style entries) := rfl

theorem bare_eq (separate : Bool) (entries : List Entry) :
    bare separate entries = textOf (joinGroups separate (groups entries)) := rfl

/-- Blank entries leave no trace. -/
theorem render_filter (style : ScriptStyle) (entries : List Entry) :
    render style (entries.filter (!·.isBlank)) = render style entries := by
  have hbody : body style.separate (entries.filter (!·.isBlank)) = body style.separate entries :=
    congrArg (joinGroups style.separate) (groups_filter entries)
  rw [render_eq, render_eq, scriptLines, scriptLines, hbody]

theorem groups_ne_nil (h : bare separate entries ≠ "") : groups entries ≠ [] := by
  intro hnil
  rw [bare_eq, hnil] at h
  cases separate with
  | false => exact h rfl
  | true => exact h rfl

/-- Two texts stand behind each other, with what keeps two entries apart in between. -/
theorem bare_append_of_ne (ha : bare separate a ≠ "") (hb : bare separate b ≠ "") :
    bare separate (a ++ b) =
      bare separate a ++ (if separate then "\n" else "") ++ bare separate b := by
  have hgroups : groups (a ++ b) = groups a ++ groups b := by
    rw [groups, List.map_append, List.filter_append]
    rfl
  rw [bare_eq, bare_eq, bare_eq, hgroups,
    joinGroups_append separate (groups_ne_nil ha) (groups_ne_nil hb), textOf_append, textOf_append,
    textOf_gap]

/-- The frame stands around the text, with an empty line on both sides, or alone. -/
theorem render_frame (separate : Bool) (entries : List Entry) :
    render { wrap := true, separate } entries =
      if bare separate entries = "" then openingLine ++ "\n" ++ closingLine ++ "\n"
      else openingLine ++ "\n\n" ++ bare separate entries ++ "\n" ++ closingLine ++ "\n" := by
  have hbare : bare separate entries = textOf (body separate entries) := rfl
  by_cases h : body separate entries = []
  · have hlines : scriptLines { wrap := true, separate } entries = [openingLine, closingLine] := by
      simp [scriptLines, h]
    rw [if_pos (hbare.trans (textOf_eq_empty.2 h)), render_eq, hlines]
    rfl
  · have hlines : scriptLines { wrap := true, separate } entries =
        [openingLine, ""] ++ body separate entries ++ ["", closingLine] := by
      simp [scriptLines, h]
    rw [if_neg fun hempty => h (textOf_eq_empty.1 (hbare.symm.trans hempty)), render_eq, hlines,
      textOf_append, textOf_append, ← hbare]
    have hfront : textOf [openingLine, ""] = openingLine ++ "\n\n" := by rfl
    have hback : textOf ["", closingLine] = "\n" ++ closingLine ++ "\n" := by rfl
    rw [hfront, hback]
    simp only [String.append_assoc]

/-! ## Main theorem -/

/-- Lists of entries that differ in blank ones at most have the same text. Without a frame, the text
of two lists together is that of the first and that of the second, with an empty line in between if
entries are kept apart, provided neither is empty. The frame goes around the text that there is
without it. This text consists of the lines as which the entries stand, one after the other; where
entries are kept apart there is an empty line between those that leave any. -/
theorem render_laws (separate : Bool) :
    (∀ style a b, a.filter (!·.isBlank) = b.filter (!·.isBlank) →
      render style a = render style b) ∧
    (∀ a b, bare separate a ≠ "" → bare separate b ≠ "" →
      bare separate (a ++ b) =
        bare separate a ++ (if separate then "\n" else "") ++ bare separate b) ∧
    (∀ entries, render { wrap := true, separate } entries =
      if bare separate entries = "" then "const seq = new Sequence();\nseq.play();\n"
      else "const seq = new Sequence();\n\n" ++ bare separate entries ++ "\nseq.play();\n") ∧
    ∀ entries, ∃ chunks, List.Forall₂ Stands entries chunks ∧
      bare separate entries = textOf (if separate then ([""] : List String).intercalate
        (chunks.filter (!·.isEmpty)) else chunks.flatten) := by
  refine ⟨fun style a b hsame => ?_, fun a b => bare_append_of_ne, fun entries => ?_,
    fun entries => ⟨entries.map written, ?_, ?_⟩⟩
  · rw [← render_filter style a, hsame, render_filter]
  · rw [render_frame]
    split
    · rfl
    · have hfront : openingLine ++ "\n\n" = "const seq = new Sequence();\n\n" := by rfl
      have hback : "\n" ++ closingLine ++ "\n" = "\nseq.play();\n" := by rfl
      rw [hfront, ← hback]
      simp only [String.append_assoc]
  · exact List.forall₂_map_right_iff.2 (List.forall₂_same.2 fun e _ => stands_written e)
  · cases separate with
    | true => rfl
    | false =>
      show textOf (groups entries).flatten = textOf (entries.map written).flatten
      rw [groups, List.flatten_filter_not_isEmpty]

/-- An effect with a declaration, a section without lines, and a wait. -/
theorem render_laws_wait :
    let effect : Entry := .block
      { node := "e", family := "effect", declarations := ["const x = 1;"],
        lines := ["seq.effect()", "  .use(x)"] }
    let shut : Entry := .block { node := "s", family := "sound" }
    let wait : Entry := .statement { node := "w", lines := ["seq.wait(5);"] }
    [shut, effect, shut, wait].filter (!·.isBlank) = [effect, wait].filter (!·.isBlank) ∧
      render {} [shut, effect, shut, wait] = render {} [effect, wait] ∧
      bare true [effect] ≠ "" ∧ bare true [wait] ≠ "" ∧
      bare true [effect, wait] = bare true [effect] ++ "\n" ++ bare true [wait] ∧
      bare true [effect] = "const x = 1;\nseq.effect()\n  .use(x);\n" := by
  intro effect shut wait
  obtain ⟨hblank, happend, -, -⟩ := render_laws true
  have hsame : [shut, effect, shut, wait].filter (!·.isBlank) =
      [effect, wait].filter (!·.isBlank) := by rfl
  have heffect : bare true [effect] = "const x = 1;\nseq.effect()\n  .use(x);\n" := by rfl
  have hwait : bare true [wait] = "seq.wait(5);\n" := by rfl
  have hleft : bare true [effect] ≠ "" := by rw [heffect]; decide
  have hright : bare true [wait] ≠ "" := by rw [hwait]; decide
  exact ⟨hsame, hblank {} _ _ hsame, hleft, hright, happend _ _ hleft hright, heffect⟩

end Entry

end CueGraph
