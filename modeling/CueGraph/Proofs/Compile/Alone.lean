import CueGraph.Proofs.Compile.Entries

/-!
# A root alone

The measure for what a child adds to a chain is the chain in a graph that has the root and this
child and nothing else (`linesAlone`). Such a graph is put together by adding the two nodes, and its
lines come from what the root opens in an empty pass (`linesAlone_nil`, `linesAlone_one`).
-/

namespace CueGraph

variable {root child : Node}

/-- A node under this root. -/
def Node.under (child root : Node) : Node := { child with parent := some root.id }

/-- A node without a parent. -/
def Node.atTop (root : Node) : Node := { root with parent := none }

/-- The graph of a root with these children, and nothing else. -/
def Graph.alone (root : Node) (children : List Node) : Graph :=
  ({} : Graph).performAll (.add root.atTop :: children.map fun child => .add (child.under root))

theorem Graph.alone_nil (root : Node) : Graph.alone root [] = { nodes := [root.atTop] } := rfl

theorem Graph.alone_one (hne : child.id ≠ root.id) :
    Graph.alone root [child] =
      { nodes := [root.atTop, child.under root], children := [(root.id, [child.id])] } := by
  have hsteps : Graph.alone root [child] =
      (({ nodes := [root.atTop] } : Graph).addInPlace (child.under root)).1 := rfl
  have hnew : ({ nodes := [root.atTop] } : Graph).contains (child.under root).id = false := by
    simp [Graph.contains, Node.atTop, Node.under, hne.symm]
  have hparent :
      ({ nodes := [root.atTop] ++ [child.under root] } : Graph).contains root.id = true := by
    simp [Graph.contains, Node.atTop]
  rw [hsteps, Graph.addInPlace, hnew, if_neg Bool.false_ne_true]
  exact congrArg Prod.fst (if_pos hparent)

namespace Registry

variable {r : Registry} {w : Workspace}

/-- The lines that a root has when it is alone with these children. -/
def linesAlone (r : Registry) (root : Node) (children : List Node) : List String :=
  (((r.compile {} (Graph.alone root children)).entryFor root.id).map Entry.lines).getD []

/-- The lines that a child adds when it is the only one of its root. -/
def addedAlone (r : Registry) (root child : Node) : List String :=
  (r.linesAlone root [child]).drop (r.linesAlone root []).length

theorem linesAlone_nil (hr : r.Quiet) (hw : r.opened? {} root.atTop = some w) :
    r.linesAlone root [] = w.block.lines := by
  have hopened : r.openedAt? (Graph.alone root []) root.atTop = some w := by
    rw [openedAt?, passAt, Graph.alone_nil]
    simpa using hw
  have hentry := entryFor_root hr (by simp [Graph.alone_nil]) {} (by simp [Graph.alone_nil]) hopened
  have hid : root.atTop.id = root.id := rfl
  rw [hid] at hentry
  rw [linesAlone, hentry]
  rfl

theorem linesAlone_one (hr : r.Quiet) (hw : r.opened? {} root.atTop = some w)
    (hne : child.id ≠ root.id) :
    r.linesAlone root [child] = (r.chain [child.under root] w).block.lines := by
  have halone := Graph.alone_one hne
  have hids : ((Graph.alone root [child]).nodes.map (·.id)).Nodup := by
    simpa [halone, Node.atTop, Node.under] using hne.symm
  have hopened : r.openedAt? (Graph.alone root [child]) root.atTop = some w := by
    rw [openedAt?, passAt, halone]
    simpa using hw
  have hchildren : (Graph.alone root [child]).childrenOf root.id = [child.under root] := by
    simp [halone, Graph.childrenOf, Graph.childIds, Graph.find?, Node.atTop, Node.under, hne.symm]
  have hentry := entryFor_root hr hids {} (by simp [halone]) hopened
  have hid : root.atTop.id = root.id := rfl
  rw [hid, hchildren] at hentry
  rw [linesAlone, hentry]
  rfl

end Registry

end CueGraph
