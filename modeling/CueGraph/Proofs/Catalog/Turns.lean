import CueGraph.Proofs.Catalog.Plain
import CueGraph.Proofs.Compile.Alone

/-!
# Turns of built-in children

Under a root of a built-in type a child does one of four things when its turn comes (`Turn`): it
does not join the chain, it adds the lines that its options ask for, it is a text with nothing to
write, or it is a text that writes a line. What a root opens goes by its options alone
(`opened?_congr`), so the lines that a child adds alone are the lines that it adds in any company
(`addedAlone_plain`).
-/

namespace CueGraph

namespace Catalog

variable {root child : Node} {w w' : Workspace}

/-! ## Children -/

/-- The text that the options of a node name. -/
def ownText (node : Node) : String := (Config.of node.config).text "text"

/-- The lines that a node adds to an empty block. -/
def plainLines (child : Node) : List String :=
  (Registry.builtin.join ⟨{ node := "", family := "" }, {}⟩ child).block.lines

/-- A child takes its turn under a root of a built-in type. -/
inductive Turn (w : Workspace) (child : Node) : Workspace → Prop
  | refused (hj : Registry.builtin.joins w.block.family child = false) : Turn w child w
  | plain (hj : Registry.builtin.joins w.block.family child = true) (ht : child.type ≠ "text") :
      Turn w child { w with block := w.block.extend (plainLines child) }
  | blank (hj : Registry.builtin.joins w.block.family child = true) (ht : child.type = "text")
      (hnone : labelText (ownText child) ((w.block.slot? textSlot).map (·.value)) = none) :
      Turn w child w
  | text (hj : Registry.builtin.joins w.block.family child = true) (ht : child.type = "text")
      (text : String)
      (hsome : labelText (ownText child) ((w.block.slot? textSlot).map (·.value)) = some text) :
      Turn w child
        ⟨putText w.block (textCall text (styleName? (.of child.config) w.pass)).line,
          declareStyleIn (.of child.config) w.pass⟩

theorem child_of_joins {family : String} (hj : Registry.builtin.joins family child = true) :
    ∃ families compile, Registry.builtin.behaviour? child.type = some (.child families compile) ∧
      families.contains family = true := by
  unfold Registry.joins at hj
  split at hj
  · next families compile hb => exact ⟨families, compile, hb, hj⟩
  · cases hj

theorem join_eq {families : List String} {compile : Node → Program Unit}
    (hb : Registry.builtin.behaviour? child.type = some (.child families compile))
    (w : Workspace) : Registry.builtin.join w child = ((compile child).run w).2 := by
  rw [Registry.join, hb]

/-- A child that is no text adds the lines that its options ask for. -/
theorem join_plain {family : String} (hj : Registry.builtin.joins family child = true)
    (ht : child.type ≠ "text") (w : Workspace) :
    Registry.builtin.join w child = { w with block := w.block.extend (plainLines child) } := by
  obtain ⟨families, compile, hb, -⟩ := child_of_joins hj
  rcases builtin_cases hb with ⟨htext, -⟩ | ⟨-, hroot⟩ | ⟨-, lines, hlines⟩
  · exact absurd htext ht
  · cases hroot
  · have hjoin : ∀ w, Registry.builtin.join w child =
        { w with block := w.block.extend (lines (.of child.config)) } := by
      intro w
      rw [join_eq hb, hlines, Program.run_pushAll]
    rw [plainLines, hjoin, hjoin]
    rfl

theorem turn (w : Workspace) (child : Node) :
    Turn w child
      (if Registry.builtin.joins w.block.family child then Registry.builtin.join w child
        else w) := by
  cases hj : Registry.builtin.joins w.block.family child with
  | false => exact .refused hj
  | true =>
    rw [if_pos rfl]
    by_cases ht : child.type = "text"
    · have hb : Registry.builtin.behaviour? child.type = some label.behaviour := by rw [ht]; rfl
      have hrun : Registry.builtin.join w child =
          ((labelProgram (.of child.config)).run w).2 := join_eq hb w
      rw [hrun, run_label]
      cases htext : labelText (ownText child) ((w.block.slot? textSlot).map (·.value)) with
      | none =>
        rw [ownText] at htext
        rw [htext]
        exact .blank hj ht htext
      | some text =>
        rw [ownText] at htext
        rw [htext]
        exact .text hj ht text htext
    · rw [join_plain hj ht]
      exact .plain hj ht

/-- A text joins a chain of a scrolling text. -/
theorem joins_text (ht : child.type = "text") :
    Registry.builtin.joins Family.scrollingText.key child = true := by
  have hb : Registry.builtin.behaviour? child.type = some label.behaviour := by rw [ht]; rfl
  rw [Registry.joins, hb]
  rfl

/-! ## Roots -/

/-- A root of a built-in type writes to the block alone, and writes what its options ask for. -/
theorem run_root {family : String} {compile : Node → Program Unit}
    (hb : Registry.builtin.behaviour? root.type = some (.root family compile)) :
    (root.type = "scrollingText" ∧ family = Family.scrollingText.key ∧
        ∀ w, ((compile root).run w).2 = ⟨scrollingTextBlock (.of root.config) w.block, w.pass⟩) ∨
      (root.type ≠ "scrollingText" ∧
        ∃ lines, ∀ w, ((compile root).run w).2 = ⟨w.block.extend lines, w.pass⟩) := by
  rcases builtin_cases hb with ⟨-, hlabel⟩ | ⟨ht, hscroll⟩ | ⟨ht, lines, hlines⟩
  · cases hlabel
  · cases hscroll
    exact .inl ⟨ht, rfl, fun w => by rw [run_scrollingText]⟩
  · refine .inr ⟨fun he => ht (by simp [textTypes, he]), lines (.of root.config), fun w => ?_⟩
    rw [hlines, Program.run_pushAll]

/-- What a root opens goes by its id, its type and its options; the pass stays as it was. -/
theorem opened?_congr {other : Node} {pass pass' : Pass}
    (hw : Registry.builtin.opened? pass root = some w) (hid : other.id = root.id)
    (ht : other.type = root.type) (hc : other.config = root.config) :
    Registry.builtin.opened? pass' other = some ⟨w.block, pass'⟩ := by
  unfold Registry.opened? at hw ⊢
  rw [ht, hid]
  split at hw
  · next family compile hb =>
    have hcompile : compile other = compile root := compile_congr hb hc
    dsimp only at hw ⊢
    rw [hcompile]
    rcases run_root hb with ⟨-, -, hrun⟩ | ⟨-, lines, hrun⟩ <;>
    · rw [hrun] at hw ⊢
      dsimp only at hw ⊢
      split at hw
      · cases hw
      · next hempty =>
        cases hw
        exact if_neg hempty
  · cases hw

/-- A root of a built-in type opens a chain that keeps a line for its text, or has no slots. -/
theorem opened?_cases {pass : Pass} (hw : Registry.builtin.opened? pass root = some w) :
    (root.type = "scrollingText" ∧
        w = ⟨scrollingTextBlock (.of root.config)
          { node := root.id, family := Family.scrollingText.key }, pass⟩) ∨
      (root.type ≠ "scrollingText" ∧ w.block.slots = [] ∧ w.pass = pass) := by
  unfold Registry.opened? at hw
  split at hw
  · next family compile hb =>
    dsimp only at hw
    split at hw
    · cases hw
    · rcases run_root hb with ⟨ht, rfl, hrun⟩ | ⟨ht, lines, hrun⟩
      · rw [hrun] at hw
        exact .inl ⟨ht, (Option.some.inj hw).symm⟩
      · rw [hrun] at hw
        cases hw
        exact .inr ⟨ht, rfl, rfl⟩
  · cases hw

/-! ## A child alone -/

theorem plainLines_under (hj : Registry.builtin.joins w.block.family child = true) :
    plainLines (child.under root) = plainLines child := by
  obtain ⟨families, compile, hb, -⟩ := child_of_joins hj
  have hcompile : compile (child.under root) = compile child := compile_congr hb rfl
  rw [plainLines, plainLines, join_eq hb, @join_eq (child.under root) _ _ hb, hcompile]

/-- What a root opens when it is alone. -/
theorem opened?_atTop {pass : Pass} (hw : Registry.builtin.opened? pass root = some w) :
    Registry.builtin.opened? {} root.atTop = some ⟨w.block, {}⟩ := opened?_congr hw rfl rfl rfl

theorem linesAlone_opened {pass : Pass} (hw : Registry.builtin.opened? pass root = some w) :
    Registry.builtin.linesAlone root [] = w.block.lines :=
  Registry.linesAlone_nil (w := ⟨w.block, {}⟩) quiet_builtin (opened?_atTop hw)

/-- Alone, a child that joins the chain and is no text adds its lines behind those of the root. -/
theorem addedAlone_plain {pass : Pass} (hw : Registry.builtin.opened? pass root = some w)
    (hj : Registry.builtin.joins w.block.family child = true) (ht : child.type ≠ "text")
    (hne : child.id ≠ root.id) : Registry.builtin.addedAlone root child = plainLines child := by
  have hunder : Registry.builtin.joins w.block.family (child.under root) = true := hj
  rw [Registry.addedAlone, linesAlone_opened hw,
    Registry.linesAlone_one quiet_builtin (opened?_atTop hw) hne, Registry.chain_one, if_pos hunder,
    join_plain hunder ht, plainLines_under hj]
  exact List.drop_left

end Catalog

end CueGraph
