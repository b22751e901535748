import CueGraph.Proofs.Compile.Owned
import CueGraph.Proofs.Script.Written

/-!
# A node at the end

A node that is added without a parent comes last, hangs off no other node, and no other node hangs
off it. So the visits of the others find the graph as it was (`visitAll_add`), and the turn of the
new node comes behind all of theirs: what it makes is added at the end.

Main statement: `compile_add`.
-/

namespace CueGraph

namespace Graph

variable {g g' : Graph} {node other : Node}

theorem childrenOf_add (h : g.Linked) (ha : g.add node = .ok g') (hp : node.parent = none)
    (id : String) : g'.childrenOf id = g.childrenOf id := by
  obtain ⟨hnew, -, -, hchild⟩ := add_ok ha
  rw [childrenOf, childrenOf, hchild, if_neg (by simp [hp])]
  refine List.filterMap_congr fun c hc => ?_
  rw [find?_add ha, if_neg]
  rintro rfl
  exact h.not_mem_childIds_of_not_contains hnew id hc

theorem parentNode?_add (h : g.Linked) (ha : g.add node = .ok g') (hm : other ∈ g.nodes) :
    g'.parentNode? other = g.parentNode? other := by
  cases hp : other.parent with
  | none => simp [parentNode?, hp]
  | some p =>
    rw [parentNode?, parentNode?, hp, Option.bind_some, Option.bind_some, find?_add ha, if_neg]
    rintro rfl
    exact h.parent_ne_of_not_contains (add_ok ha).1 hm hp

end Graph

namespace Registry

variable {r : Registry} {g g' : Graph} {node : Node} {count : Nat}

/-- The turns of the other nodes come as before, and then that of the new node. -/
theorem visitAll_add (h : g.Linked) (ha : g.add node = .ok g') (hp : node.parent = none) :
    r.visitAll g' = r.visitAll g ++ r.turn g' (r.visitAll g).pass.counter node := by
  obtain ⟨-, -, hnodes, -⟩ := Graph.add_ok ha
  have hothers : g.nodes.foldl (r.visit g') {} = r.visitAll g :=
    List.foldl_ext _ _ _ fun p other hm =>
      visit_congr (Graph.childrenOf_add h ha hp other.id) (Graph.parentNode?_add h ha hm) p
  have hlast : r.visitAll g' = r.visit g' (r.visitAll g) node := by
    rw [visitAll, hnodes, List.foldl_append, hothers]
    rfl
  rw [hlast]
  exact visit_eq_turn (pending_foldl_visit g g.nodes rfl) g' node

/-- What is reported about a node that has neither a parent nor children. -/
def reportedAlone (r : Registry) (count : Nat) (node : Node) : List Diagnostic :=
  match r.behaviour? node.type with
  | none => [.unknownType node]
  | some (.root family compile) =>
    let w := ((compile node).run ⟨{ node := node.id, family }, .start count⟩).2
    w.pass.diagnostics ++ if w.block.isEmpty then [.rootOmitted node] else []
  | some (.utility compile) =>
    ((compile node).run ⟨{ node := node.id, family := "" }, .start count⟩).2.pass.diagnostics
  | some (.child ..) => [.orphanChild node]

theorem turn_diagnostics_alone (hchildren : g.childrenOf node.id = []) (hp : node.parent = none)
    (count : Nat) : (r.turn g count node).pass.diagnostics = r.reportedAlone count node := by
  rw [turn, visit_eq, reportedAlone]
  rcases r.behaviour? node.type with _ | (⟨family, c⟩ | ⟨families, c⟩ | c)
  · rfl
  · dsimp only
    rw [visitRoot, hchildren, show (Progress.start count).pass = .start count from rfl]
    generalize ((c node).run ⟨{ node := node.id, family }, .start count⟩).2 = w
    by_cases hempty : w.block.isEmpty = true
    · rw [if_pos hempty, if_pos hempty]
      rfl
    · rw [if_neg hempty, if_neg hempty, List.append_nil]
      rfl
  · have hroot : r.hasRoot g node = false := hasRoot_none (by simp [Graph.parentNode?, hp])
    dsimp only
    rw [if_neg (by simp [hroot])]
    rfl
  · rfl

theorem node_of_reportedAlone (hr : r.Quiet) {d : Diagnostic}
    (hd : d ∈ r.reportedAlone count node) : d.node = node.id := by
  unfold reportedAlone at hd
  split at hd
  · obtain rfl := List.mem_singleton.1 hd
    rfl
  · next family compile hb =>
    have hquiet : (compile node).Quiet := hr.compile hb node
    dsimp only at hd
    rw [Program.run_diagnostics hquiet] at hd
    split at hd
    · obtain rfl := List.mem_singleton.1 hd
      rfl
    · cases hd
  · next compile hb =>
    have hquiet : (compile node).Quiet := hr.compile hb node
    rw [Program.run_diagnostics hquiet] at hd
    cases hd
  · obtain rfl := List.mem_singleton.1 hd
    rfl

theorem node_of_ownEntry {e : Entry} (he : r.ownEntry g count node = some e) :
    e.node = node.id :=
  node_of_entryFrom ((entryFrom_start r g count node).trans he)

/-! ## Main theorem -/

/-- A new node without a parent can be added. To the entries it adds at most one, which is its own,
and to the diagnostics those about it, both at the end. So the text of the script goes on where it
ended before, unless a frame is around it. -/
theorem compile_add (r : Registry) (hg : g.Reachable) (hnew : g.contains node.id = false)
    (hp : node.parent = none) (style : ScriptStyle) :
    let count := (r.visitAll g).pass.counter
    ∃ g', g.add node = .ok g' ∧
      (r.compile style g').entries =
        (r.compile style g).entries ++ (r.ownEntry g' count node).toList ∧
      (∀ e, r.ownEntry g' count node = some e → e.node = node.id) ∧
      (r.compile style g').diagnostics =
        (r.compile style g).diagnostics ++ r.reportedAlone count node ∧
      (r.Quiet → ∀ d ∈ r.reportedAlone count node, d.node = node.id) ∧
      ∀ separate, ∃ more, (r.compile { wrap := false, separate } g').text =
        (r.compile { wrap := false, separate } g).text ++ more := by
  intro count
  have hl := Graph.reachable_linked hg
  obtain ⟨g', ha⟩ : ∃ g', g.add node = .ok g' := by
    rw [Graph.add, if_neg (by simp [hnew]), hp]
    exact ⟨_, rfl⟩
  have hall := visitAll_add (r := r) hl ha hp
  have hnone : g'.childrenOf node.id = [] := by
    rw [Graph.childrenOf_add hl ha hp, Graph.childrenOf, hl.childIds_of_not_contains hnew]
    rfl
  have hentries : (r.visitAll g').entries =
      (r.visitAll g).entries ++ (r.ownEntry g' count node).toList := by
    rw [hall, ← turn_entries]
    rfl
  refine ⟨g', ha, hentries, fun e => node_of_ownEntry, ?_, fun hr d => ?_, ?_⟩
  · have hdiagnostics : (r.visitAll g').pass.diagnostics =
        (r.visitAll g).pass.diagnostics ++ r.reportedAlone count node := by
      rw [hall, ← turn_diagnostics_alone hnone hp]
      rfl
    exact hdiagnostics
  · exact node_of_reportedAlone hr
  · intro separate
    obtain ⟨more, hmore⟩ := Entry.render_append separate (r.visitAll g).entries
      (r.ownEntry g' count node).toList
    refine ⟨more, ?_⟩
    rw [compile, Progress.compiled, hentries]
    exact hmore

/-- A second utility, behind a root that opens no chain and a utility with an entry. -/
def laterNode : Node := { id := "c", type := "say" }

theorem compile_add_say :
    strayGraph.Reachable ∧ strayGraph.contains laterNode.id = false ∧ laterNode.parent = none ∧
      ∃ g', strayGraph.add laterNode = .ok g' ∧
        (strayTypes.compile {} strayGraph).entries =
          [.statement ⟨"b", ["say(x2);"], ["const x2 = 2;"]⟩] ∧
        (strayTypes.compile {} g').entries =
          (strayTypes.compile {} strayGraph).entries ++
            [.statement ⟨"c", ["say(x3);"], ["const x3 = 2;"]⟩] ∧
        (strayTypes.compile {} g').diagnostics = [.rootOmitted shutNode] ∧
        ∃ more, (strayTypes.compile { wrap := false } g').text =
          (strayTypes.compile { wrap := false } strayGraph).text ++ more := by
  have hg : strayGraph.Reachable :=
    (Graph.Reachable.empty "graph").performAll [.add shutNode, .add sayNode]
  have hnew : strayGraph.contains laterNode.id = false := by decide
  obtain ⟨g', hadd, hentries, -, hdiagnostics, -, htext⟩ := compile_add strayTypes hg hnew rfl {}
  refine ⟨hg, hnew, rfl, g', hadd, by rfl, ?_, ?_, htext true⟩
  · rw [hentries]
    rfl
  · rw [hdiagnostics]
    rfl

end Registry

end CueGraph
