import CueGraph.Proofs.Catalog.Plain
import CueGraph.Proofs.Text.Indented

/-!
# The lines of the built-in types

A root opens its chain in one line that starts with `seq.`, and the lines behind it are links: two
blanks in front, a bracket at the end. A child adds links, but for an override, whose first and last
line enclose the code of the user. The last line that a utility emits ends its statement.

Main statement: `builtinTypes_formed`. It needs nothing but the lines of the roots and of the
utilities; a modifier adds calls, and the line of any call is a link (`Call.isLink_line`).
-/

namespace CueGraph

/-! ## Shapes of lines -/

/-- A line behind the first one of a chain: two blanks in front and a bracket at the end. -/
def IsLink (line : String) : Prop := ∃ inside, line = "  " ++ inside ++ ")"

/-- The lines with which a root opens its chain. -/
def IsOpening (lines : List String) : Prop :=
  ∃ inside links, lines = ("seq." ++ inside ++ ")") :: links ∧ ∀ line ∈ links, IsLink line

/-- Lines whose last one ends a statement. -/
def IsStatement (lines : List String) : Prop := ∃ front last, lines = front ++ [last ++ ");"]

/-- Lines of code inside a call: lines can be empty, but neither the first nor the last of them, and
the others have two blanks in front. -/
structure IsCode (code : List String) : Prop where
  indented : ∀ line ∈ code, line = "" ∨ ∃ rest, line = "  " ++ rest
  first : code.head? ≠ some ""
  last : code.getLast? ≠ some ""

/-- The lines of an override: code between a first and a last line. -/
def IsOverride (lines : List String) : Prop :=
  ∃ code, lines = "  .addOverride(async (section, data) => \x7b" :: code ++ ["  \x7d)"] ∧
    IsCode code

theorem IsCode.concat {code : List String} (h : IsCode code) {line rest : String}
    (hline : line = "  " ++ rest) : IsCode (code ++ [line]) := by
  have hne : line ≠ "" := by
    rintro rfl
    exact absurd (String.append_eq_empty_iff.1 hline.symm).1 (by decide)
  refine ⟨?_, ?_, ?_⟩
  · rw [List.forall_mem_append, List.forall_mem_singleton]
    exact ⟨h.indented, .inr ⟨rest, hline⟩⟩
  · cases code with
    | nil => exact fun hempty => hne (Option.some.inj hempty)
    | cons first more => exact h.first
  · rw [List.getLast?_concat]
    exact fun hempty => hne (Option.some.inj hempty)

theorem Call.isLink_line (call : Call) : IsLink call.line := by
  rw [Call.line, chainLine]
  generalize ", ".intercalate _ = args
  refine ⟨"." ++ call.method ++ "(" ++ args, ?_⟩
  have hdot : "  ." = "  " ++ "." := rfl
  simp only [hdot, String.append_assoc]

theorem isLink_of_calls (calls : List Call) : ∀ line ∈ calls.map Call.line, IsLink line :=
  List.forall_mem_map.2 fun call _ => call.isLink_line

/-! ## Formed types -/

/-- The lines that nodes add have the shape that goes with their role. -/
def Behaviour.Formed : Behaviour → Prop
  | root _ compile =>
    ∀ node, ∃ lines, compile node = .pushAll lines ∧ (lines ≠ [] → IsOpening lines)
  | child _ compile => ∀ node, ∃ lines, compile node = .pushAll lines ∧ ∀ line ∈ lines, IsLink line
  | utility compile =>
    ∀ node, ∃ lines, compile node = .emitAll lines ∧ (lines ≠ [] → IsStatement lines)

def NodeType.Formed (t : NodeType) : Prop := t.behaviour.Formed

section

variable {title category method : String} {families : List Family} {family : Family}
  {defaults : Fields}

theorem formed_modifier {calls : Config → List Call} :
    (modifier title category families defaults calls).Formed :=
  fun _ => ⟨_, rfl, isLink_of_calls _⟩

theorem formed_opener {lines : Config → List String}
    (h : ∀ c, lines c ≠ [] → IsOpening (lines c)) :
    (opener title family defaults lines).Formed := fun node => ⟨_, rfl, h (.of node.config)⟩

theorem formed_statements {lines : Config → List String}
    (h : ∀ c, lines c ≠ [] → IsStatement (lines c)) : (statements title defaults lines).Formed :=
  fun node => ⟨_, rfl, h (.of node.config)⟩

theorem formed_bareModifier : (bareModifier title category families method).Formed :=
  formed_modifier

theorem formed_valueModifier {default : Value} :
    (valueModifier title category families method default).Formed := formed_modifier

end

/-- A line that opens a chain, and calls behind it. -/
theorem isOpening_calls {opening : String} (inside : String)
    (h : opening = "seq." ++ inside ++ ")") (calls : List Call) :
    IsOpening (opening :: calls.map Call.line) :=
  ⟨inside, _, congrArg (· :: _) h, isLink_of_calls calls⟩

theorem isStatement_one {line last : String} (h : line = last ++ ");") : IsStatement [line] :=
  ⟨[], last, congrArg ([·]) h⟩

namespace Catalog

/-! ## Roots -/

theorem formed_effect : effect.Formed := by
  refine formed_opener fun c hne => ?_
  unfold effectLines at hne ⊢
  split
  · exact isOpening_calls "effect(" rfl _
  · next h => exact absurd (if_neg h) hne

theorem formed_sound : sound.Formed := by
  refine formed_opener fun c hne => ?_
  unfold soundLines at hne ⊢
  split
  · exact isOpening_calls "sound(" rfl _
  · next h => exact absurd (if_neg h) hne

theorem formed_animation : animation.Formed :=
  formed_opener fun _ _ => isOpening_calls "animation(" rfl _

theorem formed_canvasPan : canvasPan.Formed :=
  formed_opener fun _ _ => isOpening_calls "canvasPan(" rfl _

theorem formed_crosshair : crosshair.Formed := by
  refine formed_opener fun c _ =>
    isOpening_calls ("crosshair(" ++ Text.quote (nameOr c "name" "target")) ?_ _
  rw [← String.append_assoc]
  rfl

/-! ## Utilities -/

theorem formed_start : start.Formed := formed_statements fun _ hne => absurd rfl hne

theorem formed_play : play.Formed := formed_statements fun _ hne => absurd rfl hne

theorem formed_wait : wait.Formed := by
  refine formed_statements fun c hne => ?_
  unfold waitLines at hne ⊢
  dsimp only at hne ⊢
  split
  · next h => exact absurd (if_pos h) hne
  · split
    · exact isStatement_one rfl
    · exact isStatement_one rfl

theorem formed_macroCall : macroCall.Formed := formed_statements fun _ _ => isStatement_one rfl

theorem formed_callback : callback.Formed := by
  refine formed_statements fun c hne => ?_
  unfold callbackLines at hne ⊢
  dsimp only at hne ⊢
  split
  · next h => exact absurd (if_pos h) hne
  · -- the last line closes the call
    rw [Text.Indented.body_eq]
    exact ⟨_, "\x7d", rfl⟩

/-! ## Overrides -/

/-- Code of the user as it stands in an override: two steps to the right. -/
def codeLines (code : String) : List String :=
  (Text.bodyLines code).map ({ depth := 2 } : Text.Indented).placed

theorem isCode_codeLines (code : String) : IsCode (codeLines code) := by
  refine ⟨List.forall_mem_map.2 fun text _ => ?_, Text.Indented.head?_placed _ _,
    Text.Indented.getLast?_placed _ _⟩
  have hmargin : ({ depth := 2 } : Text.Indented).margin = "  " ++ "  " := rfl
  rcases ({ depth := 2 } : Text.Indented).placed_cases text with h | h
  · exact .inl h
  · rw [hmargin, String.append_assoc] at h
    exact .inr ⟨_, h⟩

/-- An override adds nothing, or code between its first and its last line. -/
theorem isOverride_lines (c : Config) (hne : overrideLines c ≠ []) :
    IsOverride (overrideLines c) := by
  unfold overrideLines at hne ⊢
  dsimp only at hne ⊢
  split
  · next hblank => exact absurd (if_pos hblank) hne
  · rw [Text.Indented.body_eq]
    have hcode := isCode_codeLines (c.text "body")
    split
    · exact ⟨codeLines (c.text "body"), rfl, hcode⟩
    · have hreturn : "    return data;" = "  " ++ "  return data;" := rfl
      exact ⟨codeLines (c.text "body") ++ ["    return data;"], rfl, hcode.concat hreturn⟩

/-! ## Every built-in type -/

/-- The types whose nodes do more than add lines of one shape. -/
def unformedTypes : List (String × NodeType) :=
  [("text", label), ("scrollingText", scrollingText), ("override", overrideSection)]

theorem builtinTypes_formed :
    ∀ entry ∈ builtinTypes, entry ∈ unformedTypes ∨ entry.2.Formed := by
  simp only [builtinTypes, List.forall_mem_cons]
  exact ⟨.inr formed_start, .inr formed_play, .inr formed_wait, .inr formed_macroCall,
    .inr formed_callback, .inr formed_modifier, .inr formed_bareModifier, .inr formed_modifier,
    .inr formed_modifier, .inr formed_modifier, .inr formed_effect, .inr formed_sound,
    .inr formed_animation, .inl (.tail _ (.head _)), .inr formed_canvasPan, .inr formed_crosshair,
    .inr formed_modifier, .inr formed_valueModifier, .inr formed_valueModifier,
    .inr formed_valueModifier, .inr formed_modifier, .inr formed_modifier, .inr formed_modifier,
    .inr formed_modifier, .inr formed_modifier, .inr formed_modifier, .inr formed_modifier,
    .inr formed_modifier, .inl (.tail _ (.tail _ (.head _))), .inl (.head _), .inr formed_modifier,
    .inr formed_modifier, .inr formed_valueModifier, .inr formed_modifier, .inr formed_modifier,
    .inr formed_modifier, .inr formed_bareModifier, .inr formed_bareModifier,
    .inr formed_bareModifier, .inr formed_bareModifier, .inr formed_valueModifier,
    .inr formed_modifier, .inr formed_modifier, .inr formed_modifier, .inr formed_modifier,
    .inr formed_modifier, .inr formed_modifier, .inr formed_modifier, .inr formed_modifier,
    .inr formed_modifier, .inr formed_modifier, .inr formed_modifier, .inr formed_modifier,
    .inr formed_modifier, .inr formed_bareModifier, .inr formed_bareModifier,
    .inr formed_bareModifier, .inr formed_modifier, .inr formed_valueModifier, .inr formed_modifier,
    .inr formed_modifier, .inr formed_modifier, .inr formed_modifier, .inr formed_modifier,
    List.forall_mem_nil _⟩

/-- A node of a built-in type is a text, a scrolling text or an override, or its lines have the
shape that goes with its role. -/
theorem formed_cases {type : String} {b : Behaviour}
    (hb : Registry.builtin.behaviour? type = some b) :
    (type = "text" ∧ b = label.behaviour) ∨ (type = "scrollingText" ∧ b = scrollingText.behaviour) ∨
      (type = "override" ∧ b = overrideSection.behaviour) ∨ b.Formed := by
  rw [Registry.behaviour?, Option.map_eq_some_iff] at hb
  obtain ⟨t, hget, rfl⟩ := hb
  rcases builtinTypes_formed _ (Registry.mem_types_of_get? hget) with hmem | hformed
  · simp only [unformedTypes, List.mem_cons, List.not_mem_nil, or_false, Prod.mk.injEq] at hmem
    rcases hmem with ⟨ht, rfl⟩ | ⟨ht, rfl⟩ | ⟨ht, rfl⟩
    · exact .inl ⟨ht, rfl⟩
    · exact .inr (.inl ⟨ht, rfl⟩)
    · exact .inr (.inr (.inl ⟨ht, rfl⟩))
  · exact .inr (.inr (.inr hformed))

end Catalog

end CueGraph
