import CueGraph.Proofs.Graph.Links

/-!
# Calls that fail

A call works on the graph in place, step by step, and can fail between two steps: a node goes in
before its parent is looked for, and hanging a node off another one takes it off its old parent
first. `inPlace` goes through these steps and keeps the graph as it is at the moment of a failure.
It leaves behind what the operations on values promise (`inPlace_eq_perform`), so a failure leaves
the graph as it was.

Main statement: `failures_exact`.
-/

namespace CueGraph.Graph

variable {g : Graph}

/-! ## Calls in place -/

/-- Hanging a node off another one in place. All that can fail is looked at before the first link is
changed. -/
def attachInPlace (g : Graph) (child root : String) (place : Option Int) :
    Graph × Option GraphError :=
  if !g.contains child then (g, some (.notFound child))
  else if !g.contains root then (g, some (.notFound root))
  else if child = root then (g, some (.selfAttachment child))
  else
    let g := g.detach child
    let siblings := g.childIds root
    let g := g.setChildren root (siblings.insertIdx (placeAmong siblings place) child)
    (g.setParent child (some root), none)

/-- The id of a created node: the one that is given, or the fresh one where none is or it is
empty. -/
def chosenId (fresh : String) (id : Option String) : String :=
  if (id.getD "").isEmpty then fresh else id.getD ""

/-- Makes a call in place: the graph when it ends or fails, and why it failed, if it did. -/
def inPlace (g : Graph) : Call → Graph × Option GraphError
  | .add node => g.addInPlace node
  | .create fresh type id config parent =>
    g.addInPlace { id := chosenId fresh id, type, config, parent }
  | .attach child root place => g.attachInPlace child root place
  | .detach id => (g.detach id, none)
  | .remove id => (g.remove id, none)

theorem attachInPlace_eq (g : Graph) (child root : String) (place : Option Int) :
    g.attachInPlace child root place = g.settle (g.attach child root place) := by
  unfold attachInPlace attach
  split
  · rfl
  · split
    · rfl
    · split <;> rfl

theorem inPlace_eq_perform (g : Graph) (c : Call) : g.inPlace c = g.perform c := by
  cases c with
  | add node => rfl
  | create fresh type id config parent => exact addInPlace_eq g _
  | attach child root place => exact attachInPlace_eq g child root place
  | detach id => rfl
  | remove id => rfl

/-! ## Failures -/

theorem settle_fails_iff {outcome : Except GraphError Graph} :
    (g.settle outcome).2 ≠ none ↔ ¬∃ g', outcome = .ok g' := by
  cases outcome <;> simp [settle]

theorem settle_of_fails {outcome : Except GraphError Graph} (h : (g.settle outcome).2 ≠ none) :
    (g.settle outcome).1 = g := by
  cases outcome with
  | ok g' => exact absurd rfl h
  | error e => rfl

theorem addInPlace_fails_iff (g : Graph) (node : Node) (hp : node.parent ≠ some node.id) :
    (g.addInPlace node).2 ≠ none ↔
      g.contains node.id = true ∨ ∃ p, node.parent = some p ∧ g.contains p = false := by
  rw [addInPlace_eq, settle_fails_iff, add_isOk_iff, not_and_or, Bool.not_eq_false]
  refine or_congr_right ?_
  push Not
  refine exists_congr fun p => and_congr_right fun hparent => ?_
  have hne : p ≠ node.id := fun he => hp (he ▸ hparent)
  simp [hne]

theorem attachInPlace_fails_iff {child root : String} {place : Option Int} :
    (g.attachInPlace child root place).2 ≠ none ↔
      g.contains child = false ∨ g.contains root = false ∨ child = root := by
  rw [attachInPlace_eq, settle_fails_iff, attach_isOk_iff, not_and_or, not_and_or, not_not,
    Bool.not_eq_true, Bool.not_eq_true]

theorem inPlace_of_fails {c : Call} (h : (g.inPlace c).2 ≠ none) : (g.inPlace c).1 = g := by
  cases c with
  | add node =>
    rw [inPlace, addInPlace_eq] at h ⊢
    exact settle_of_fails h
  | create fresh type id config parent =>
    rw [inPlace, addInPlace_eq] at h ⊢
    exact settle_of_fails h
  | attach child root place =>
    rw [inPlace, attachInPlace_eq] at h ⊢
    exact settle_of_fails h
  | detach id => exact absurd rfl h
  | remove id => exact absurd rfl h

/-! ## Main theorem -/

/-- A node that is not its own parent goes in, unless its id is in use or its parent is not there;
so it is for a node that is created, with the id that it gets. A node is hung off another one,
unless one of them is not there or both are the same. And a call that fails leaves the graph as it
was: the nodes, their order, all parents and all children. -/
theorem failures_exact (g : Graph) :
    (∀ node : Node, node.parent ≠ some node.id →
      ((g.inPlace (.add node)).2 ≠ none ↔
        g.contains node.id = true ∨ ∃ p, node.parent = some p ∧ g.contains p = false)) ∧
    (∀ fresh type id config parent, parent ≠ some (chosenId fresh id) →
      ((g.inPlace (.create fresh type id config parent)).2 ≠ none ↔
        g.contains (chosenId fresh id) = true ∨ ∃ p, parent = some p ∧ g.contains p = false)) ∧
    (∀ child root place, (g.inPlace (.attach child root place)).2 ≠ none ↔
      g.contains child = false ∨ g.contains root = false ∨ child = root) ∧
    ∀ c, (g.inPlace c).2 ≠ none → (g.inPlace c).1 = g := by
  refine ⟨addInPlace_fails_iff g, fun fresh type id config parent => ?_,
    fun child root place => attachInPlace_fails_iff, fun c => inPlace_of_fails⟩
  exact addInPlace_fails_iff g { id := chosenId fresh id, type, config, parent }

/-- A node that names a parent that is not there is taken out again. -/
theorem failures_exact_ghost :
    let g : Graph := { nodes := [{ id := "fx", type := "effect" }] }
    let node : Node := { id := "x", type := "delay", parent := some "ghost" }
    node.parent ≠ some node.id ∧ g.contains "ghost" = false ∧
      (g.inPlace (.add node)).2 ≠ none ∧ (g.inPlace (.add node)).1 = g := by
  intro g node
  obtain ⟨hadd, -, -, hsame⟩ := failures_exact g
  have hne : node.parent ≠ some node.id := by decide
  have hghost : g.contains "ghost" = false := by rfl
  have hfails := (hadd node hne).2 (.inr ⟨"ghost", rfl, hghost⟩)
  exact ⟨hne, hghost, hfails, hsame _ hfails⟩

end CueGraph.Graph
