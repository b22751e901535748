import CueGraph.Catalog.Builtin
import CueGraph.Proofs.Catalog.Texts
import CueGraph.Proofs.Compile.Visit

/-!
# Plain node types

A type is plain when its nodes add lines that depend on their options alone, and look at nothing and
touch nothing else. All built-in types are plain but two, the scrolling text, which reserves a line,
and the text, which writes it anew and declares a style (`builtin_cases`). None of them reports
anything (`quiet_builtin`), and none goes by more of a node than its options (`compile_congr`).
-/

namespace CueGraph

/-- The nodes add lines that depend on their options alone. -/
def Behaviour.Plain : Behaviour → Prop
  | root _ compile | child _ compile =>
    ∃ lines : Config → List String, ∀ node, compile node = .pushAll (lines (.of node.config))
  | utility compile =>
    ∃ lines : Config → List String, ∀ node, compile node = .emitAll (lines (.of node.config))

/-- The nodes of a type add lines that depend on their options alone. -/
def NodeType.Plain (t : NodeType) : Prop := t.behaviour.Plain

section

variable {title category method : String} {families : List Family} {family : Family}
  {defaults : Fields}

theorem plain_modifier {calls : Config → List Call} :
    (modifier title category families defaults calls).Plain :=
  ⟨fun c => (calls c).map Call.line, fun _ => rfl⟩

theorem plain_opener {lines : Config → List String} :
    (opener title family defaults lines).Plain := ⟨lines, fun _ => rfl⟩

theorem plain_statements {lines : Config → List String} :
    (statements title defaults lines).Plain := ⟨lines, fun _ => rfl⟩

theorem plain_bareModifier : (bareModifier title category families method).Plain := plain_modifier

theorem plain_valueModifier {default : Value} :
    (valueModifier title category families method default).Plain := plain_modifier

end

theorem Behaviour.Plain.quiet {b : Behaviour} (h : b.Plain) (node : Node) :
    (b.compile node).Quiet := by
  cases b with
  | root family compile =>
    obtain ⟨lines, hlines⟩ := h
    rw [Behaviour.compile, hlines]
    exact Program.quiet_pushAll _
  | child families compile =>
    obtain ⟨lines, hlines⟩ := h
    rw [Behaviour.compile, hlines]
    exact Program.quiet_pushAll _
  | utility compile =>
    obtain ⟨lines, hlines⟩ := h
    rw [Behaviour.compile, hlines]
    exact Program.quiet_emitAll _

theorem Behaviour.Plain.compile_congr {b : Behaviour} (h : b.Plain) {node other : Node}
    (hc : node.config = other.config) : b.compile node = b.compile other := by
  cases b with
  | root family compile =>
    obtain ⟨lines, hlines⟩ := h
    rw [Behaviour.compile, hlines, hlines, hc]
  | child families compile =>
    obtain ⟨lines, hlines⟩ := h
    rw [Behaviour.compile, hlines, hlines, hc]
  | utility compile =>
    obtain ⟨lines, hlines⟩ := h
    rw [Behaviour.compile, hlines, hlines, hc]

namespace Catalog

theorem plain_overrideSection : overrideSection.Plain := ⟨overrideLines, fun _ => rfl⟩

/-- The two types that are not plain. -/
def textTypes : List String := ["text", "scrollingText"]

theorem builtinTypes_plain : ∀ entry ∈ builtinTypes, entry.1 ∈ textTypes ∨ entry.2.Plain := by
  simp only [builtinTypes, List.forall_mem_cons]
  exact ⟨.inr plain_statements, .inr plain_statements, .inr plain_statements, .inr plain_statements,
    .inr plain_statements, .inr plain_modifier, .inr plain_bareModifier, .inr plain_modifier,
    .inr plain_modifier, .inr plain_modifier, .inr plain_opener, .inr plain_opener,
    .inr plain_opener, .inl (by decide), .inr plain_opener, .inr plain_opener,
    .inr plain_modifier, .inr plain_valueModifier, .inr plain_valueModifier,
    .inr plain_valueModifier, .inr plain_modifier, .inr plain_modifier, .inr plain_modifier,
    .inr plain_modifier, .inr plain_modifier, .inr plain_modifier, .inr plain_modifier,
    .inr plain_modifier, .inr plain_overrideSection, .inl (by decide), .inr plain_modifier,
    .inr plain_modifier, .inr plain_valueModifier, .inr plain_modifier, .inr plain_modifier,
    .inr plain_modifier, .inr plain_bareModifier, .inr plain_bareModifier, .inr plain_bareModifier,
    .inr plain_bareModifier, .inr plain_valueModifier, .inr plain_modifier, .inr plain_modifier,
    .inr plain_modifier, .inr plain_modifier, .inr plain_modifier, .inr plain_modifier,
    .inr plain_modifier, .inr plain_modifier, .inr plain_modifier, .inr plain_modifier,
    .inr plain_modifier, .inr plain_modifier, .inr plain_modifier, .inr plain_bareModifier,
    .inr plain_bareModifier, .inr plain_bareModifier, .inr plain_modifier, .inr plain_valueModifier,
    .inr plain_modifier, .inr plain_modifier, .inr plain_modifier, .inr plain_modifier,
    .inr plain_modifier, List.forall_mem_nil _⟩

/-- A node of a built-in type is a text, a scrolling text, or plain. -/
theorem builtin_cases {type : String} {b : Behaviour}
    (hb : Registry.builtin.behaviour? type = some b) :
    (type = "text" ∧ b = label.behaviour) ∨
      (type = "scrollingText" ∧ b = scrollingText.behaviour) ∨ (type ∉ textTypes ∧ b.Plain) := by
  by_cases htext : type = "text"
  · have hlabel : Registry.builtin.behaviour? "text" = some label.behaviour := rfl
    rw [htext, hlabel] at hb
    exact .inl ⟨htext, (Option.some.inj hb).symm⟩
  · by_cases hscroll : type = "scrollingText"
    · have hroot : Registry.builtin.behaviour? "scrollingText" = some scrollingText.behaviour := rfl
      rw [hscroll, hroot] at hb
      exact .inr (.inl ⟨hscroll, (Option.some.inj hb).symm⟩)
    · have hother : type ∉ textTypes := by simp [textTypes, htext, hscroll]
      rw [Registry.behaviour?, Option.map_eq_some_iff] at hb
      obtain ⟨t, ht, rfl⟩ := hb
      have hmem : (type, t) ∈ builtinTypes := Registry.mem_types_of_get? ht
      exact .inr (.inr ⟨hother, (builtinTypes_plain _ hmem).resolve_left hother⟩)

/-- The built-in types report nothing by themselves. -/
theorem quiet_builtin : Registry.builtin.Quiet := by
  intro type b hb node
  rcases builtin_cases hb with ⟨-, rfl⟩ | ⟨-, rfl⟩ | ⟨-, hplain⟩
  · exact quiet_label _
  · exact quiet_scrollingText _
  · exact hplain.quiet node

/-- What a node of a built-in type does goes by its options alone. -/
theorem compile_congr {type : String} {b : Behaviour}
    (hb : Registry.builtin.behaviour? type = some b) {node other : Node}
    (hc : node.config = other.config) : b.compile node = b.compile other := by
  rcases builtin_cases hb with ⟨-, rfl⟩ | ⟨-, rfl⟩ | ⟨-, hplain⟩
  · exact congrArg (fun v => labelProgram (.of v)) hc
  · exact congrArg (fun v => scrollingTextProgram (.of v)) hc
  · exact hplain.compile_congr hc

end Catalog

end CueGraph
