import CueGraph.Catalog.Builtin
import CueGraph.Proofs.Compile.Owned
import CueGraph.Proofs.Text.Body
import CueGraph.Proofs.Text.Word
import Mathlib.Data.List.DropRight

/-!
# Code of the user

Callbacks and overrides take over code of the user: between lines of their own stands the body of
the code, line by line, behind a margin that does not depend on the code (`TakesOver`). So the body
can be read off the lines again, and the code keeps its own indentation and its blank lines inside.

Main statement: `code_taken_over`.
-/

namespace CueGraph

namespace Catalog

open Text

/-- The code that the options of a node hold. -/
def ownCode (node : Node) : String := (Config.of node.config).text "body"

/-- The lines take over the code: its only body, which is not empty, stands behind a margin between
the lines above and below it, and is there again once these and the margin go. -/
structure TakesOver (code margin : String) (above below lines : List String) : Prop where
  unique : ∃! body, IsBody code body
  inside : ∀ body, IsBody code body →
    body ≠ [] ∧ lines = above ++ body.map (shifted margin) ++ below
  again : IsBody code
    (((lines.drop above.length).rdrop below.length).map (unshifted margin.length))

variable {code : String}

theorem takesOver_bodyLines (hcode : isBlank code = false) (margin : String)
    (above below : List String) :
    TakesOver code margin above below
      (above ++ (bodyLines code).map (shifted margin) ++ below) := by
  have hbody : IsBody code (bodyLines code) := isBody_iff.2 rfl
  refine ⟨⟨bodyLines code, hbody, fun body h => isBody_iff.1 h⟩, ?_, ?_⟩
  · intro body h
    rw [isBody_iff.1 h]
    refine ⟨?_, rfl⟩
    intro hnil
    rw [bodyLines_eq_nil.1 hnil] at hcode
    cases hcode
  · rw [List.append_assoc, List.drop_left, List.rdrop_append_length, map_unshifted_shifted]
    exact hbody

/-! ## Callbacks -/

/-- The first line of a callback. -/
def callbackOpening (c : Config) : String :=
  "seq.thenDo(" ++ if c.flagOr "async" true then "async () => \x7b" else "() => \x7b"

theorem callbackLines_eq {c : Config} (hcode : isBlank (c.text "body") = false) :
    callbackLines c =
      [callbackOpening c] ++ (bodyLines (c.text "body")).map (shifted "  ") ++ ["\x7d);"] := by
  unfold callbackLines callbackOpening
  dsimp only
  rw [hcode, if_neg Bool.false_ne_true, Indented.body_eq]
  split
  · rfl
  · rfl

/-! ## Overrides -/

/-- The first line of an override. -/
def overrideOpening : String := "  .addOverride(async (section, data) => \x7b"

/-- The lines below the code in an override: without a `return` of its own the code is followed by
one. -/
def overrideClosing (code : String) : List String :=
  (if hasWord "return" code then [] else ["    return data;"]) ++ ["  \x7d)"]

theorem overrideLines_eq {c : Config} (hcode : isBlank (c.text "body") = false) :
    overrideLines c =
      [overrideOpening] ++ (bodyLines (c.text "body")).map (shifted "    ") ++
        overrideClosing (c.text "body") := by
  unfold overrideLines overrideClosing
  dsimp only
  rw [hcode, if_neg Bool.false_ne_true, Indented.body_eq]
  split
  · rfl
  · rw [← List.append_assoc]
    rfl

theorem overrideClosing_of_word (h : IsWordOf "return" code) :
    overrideClosing code = ["  \x7d)"] := by
  unfold overrideClosing
  rw [if_pos (hasWord_iff.2 h), List.nil_append]

theorem overrideClosing_of_not (h : ¬ IsWordOf "return" code) :
    overrideClosing code = ["    return data;", "  \x7d)"] := by
  unfold overrideClosing
  rw [if_neg (fun hword => h (hasWord_iff.1 hword))]
  rfl

/-! ## Main theorem -/

variable {node : Node}

/-- A callback and an override take over the code that they hold, whatever it is, unless it is
blank. A visit of the callback adds one statement of these lines, which the result of a compilation
has whatever the other nodes do. The override adds its lines to any chain that it joins; it returns
the data after code without the word `return`. -/
theorem code_taken_over (hcode : isBlank (ownCode node) = false) :
    (node.type = "callback" → ∃ lines,
      TakesOver (ownCode node) "  " [callbackOpening (.of node.config)] ["\x7d);"] lines ∧
      (∀ (g : Graph) (p : Progress), Registry.builtin.visit g p node =
        Progress.close { p with pass := { p.pass with lines := p.pass.lines ++ lines } }
          (some (.statement { node := node.id, lines }))) ∧
      ∀ (style : ScriptStyle) (g : Graph), node ∈ g.nodes →
        ∃ s ∈ (Registry.builtin.compile style g).statements, s.node = node.id ∧ s.lines = lines) ∧
    (node.type = "override" → ∃ lines,
      (IsWordOf "return" (ownCode node) →
        TakesOver (ownCode node) "    " [overrideOpening] ["  \x7d)"] lines) ∧
      (¬ IsWordOf "return" (ownCode node) →
        TakesOver (ownCode node) "    " [overrideOpening] ["    return data;", "  \x7d)"] lines) ∧
      ∀ (block : Block) (p : Progress), Registry.builtin.joins block.family node = true →
        Registry.builtin.addChild block p node = (block.extend lines, p)) := by
  constructor
  · intro ht
    have hb : Registry.builtin.behaviour? node.type = some callback.behaviour := by rw [ht]; rfl
    have htaken := takesOver_bodyLines hcode "  " [callbackOpening (.of node.config)] ["\x7d);"]
    have hlines : callbackLines (.of node.config) = [callbackOpening (.of node.config)] ++
        (bodyLines (ownCode node)).map (shifted "  ") ++ ["\x7d);"] := callbackLines_eq hcode
    have hne : callbackLines (.of node.config) ≠ [] := by
      rw [hlines, List.append_assoc]
      exact List.cons_ne_nil _ _
    rw [← hlines] at htaken
    refine ⟨callbackLines (.of node.config), htaken, ?_, ?_⟩
    · intro g p
      exact Registry.visit_emitAll g p hb rfl hne
    · intro style g hm
      exact Registry.statement_emitAll hb rfl hne style hm
  · intro ht
    have hb : Registry.builtin.behaviour? node.type = some overrideSection.behaviour := by
      rw [ht]; rfl
    have hlines : overrideLines (.of node.config) = [overrideOpening] ++
        (bodyLines (ownCode node)).map (shifted "    ") ++ overrideClosing (ownCode node) :=
      overrideLines_eq hcode
    refine ⟨overrideLines (.of node.config), ?_, ?_, ?_⟩
    · intro hword
      rw [hlines, overrideClosing_of_word hword]
      exact takesOver_bodyLines hcode _ _ _
    · intro hword
      rw [hlines, overrideClosing_of_not hword]
      exact takesOver_bodyLines hcode _ _ _
    · intro block p hj
      exact Registry.addChild_pushAll p hb hj rfl

/-- Code with line breaks of all three kinds and blank lines around and inside. -/
def steps : String := "\r\n  let a = 1;\t\r\rreturned(a);\n \n"

def stepsCallback : Node :=
  { id := "c", type := "callback", config := .object [("body", .str steps)] }

def stepsOverride : Node :=
  { id := "o", type := "override", config := .object [("body", .str steps)] }

theorem code_taken_over_steps :
    isBlank steps = false ∧ ¬ IsWordOf "return" steps ∧
      (Registry.builtin.visit {} {} stepsCallback).pass.lines =
        ["seq.thenDo(async () => \x7b", "    let a = 1;", "", "  returned(a);", "\x7d);"] ∧
      Registry.builtin.joins "effect" stepsOverride = true ∧
      (Registry.builtin.addChild { node := "f", family := "effect" } {} stepsOverride).1.lines =
        ["  .addOverride(async (section, data) => \x7b", "      let a = 1;", "",
          "    returned(a);", "    return data;", "  \x7d)"] := by
  have hcode : isBlank steps = false := by decide +kernel
  have hbody : IsBody steps ["  let a = 1;", "", "returned(a);"] := isBody_iff.2 (by decide +kernel)
  have hword : ¬ IsWordOf "return" steps := by
    rw [← hasWord_iff]
    decide +kernel
  have hj : Registry.builtin.joins "effect" stepsOverride = true := by rfl
  refine ⟨hcode, hword, ?_, hj, ?_⟩
  · obtain ⟨lines, htaken, hvisit, -⟩ := (@code_taken_over stepsCallback hcode).1 rfl
    rw [hvisit, (htaken.inside _ hbody).2]
    rfl
  · obtain ⟨lines, -, htaken, hadded⟩ := (@code_taken_over stepsOverride hcode).2 rfl
    rw [hadded _ _ hj, ((htaken hword).inside _ hbody).2]
    rfl

end Catalog

end CueGraph
