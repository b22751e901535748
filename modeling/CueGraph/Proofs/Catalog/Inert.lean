import CueGraph.Proofs.Catalog.Styles
import CueGraph.Proofs.Compile.Owned
import CueGraph.Proofs.Graph.Removed

/-!
# Nodes that add nothing

A node is inert when its fate is one of those that add nothing to the entries (`Fate.Inert`). An
inert node of a built-in type declares nothing either, so its turn moves no count, and it joins no
chain. So it can be taken out of the graph: the nodes that hang off it lose their parent then, but
what they make does not go by their parent.

Main statement: `compile_remove_inert`.
-/

namespace CueGraph

namespace Registry

/-- A node of this fate adds nothing to the entries. -/
def Fate.Inert : Fate → Prop
  | unknown | omitted | stated none | orphan | dropped | refused _ => True
  | opened _ | stated (some _) | chained => False

/-- Children that do not join a chain can be passed over. -/
theorem chain_filter {r : Registry} {children : List Node} {w : Workspace} {keep : Node → Bool}
    (hskip : ∀ child ∈ children, keep child = false → r.joins w.block.family child = false) :
    r.chain (children.filter keep) w = r.chain children w := by
  rw [chain, chain, List.filter_filter]
  refine congrArg (List.foldl r.join w) (List.filter_congr fun child hc => ?_)
  cases hk : keep child with
  | true => exact Bool.and_true _
  | false => rw [hskip child hc hk, Bool.and_false]

end Registry

namespace Catalog

variable {g : Graph} {node root : Node} {w : Workspace}

/-! ## The turn of an inert node -/

/-- A utility emits what its options ask for. -/
theorem emitted_utility {compile : Node → Program Unit}
    (hb : Registry.builtin.behaviour? node.type = some (.utility compile)) :
    ∃ lines, ∀ w, (compile node).emitted w = lines := by
  rcases builtin_cases hb with ⟨-, hlabel⟩ | ⟨-, hscroll⟩ | ⟨-, lines, hlines⟩
  · cases hlabel
  · cases hscroll
  · refine ⟨lines (.of node.config), fun w => ?_⟩
    rw [hlines, Program.emitted_emitAll]

/-- An inert node opens no chain, however many names there are when its turn comes. -/
theorem opened?_start_of_inert (hi : (Registry.builtin.fate g node).Inert) (count : Nat) :
    Registry.builtin.opened? (.start count) node = none := by
  cases ho : Registry.builtin.opened? (.start count) node with
  | none => rfl
  | some w =>
    have hopen : Registry.builtin.openedAt? g node =
        some ⟨w.block, Registry.builtin.passAt g node⟩ := opened?_congr ho rfl rfl rfl
    obtain ⟨family, c, hb⟩ := Registry.root_of_openedAt? hopen
    rw [Registry.fate, hb] at hi
    simp only [hopen] at hi
    exact hi.elim

/-- An inert node has no entry and raises nothing, whenever its turn comes. -/
theorem aside_of_inert (hi : (Registry.builtin.fate g node).Inert) (count : Nat) :
    Registry.builtin.ownEntry g count node = none ∧
      Registry.builtin.raised g count node = [] := by
  have hclosed := opened?_start_of_inert hi count
  rw [Registry.opened?] at hclosed
  rw [Registry.ownEntry, Registry.raised]
  cases hb : Registry.builtin.behaviour? node.type with
  | none => exact ⟨rfl, rfl⟩
  | some b =>
    rw [hb] at hclosed
    cases b with
    | child families c => exact ⟨rfl, rfl⟩
    | root family c =>
      have hpass : ((c node).run ⟨{ node := node.id, family }, .start count⟩).2.pass =
          .start count := by
        rcases run_root hb with ⟨-, -, hrun⟩ | ⟨-, lines, hrun⟩ <;> rw [hrun]
      dsimp only at hclosed ⊢
      generalize ((c node).run ⟨{ node := node.id, family }, .start count⟩).2 = w at hclosed hpass ⊢
      by_cases hempty : w.block.isEmpty = true
      · rw [if_pos hempty, if_pos hempty, hpass]
        exact ⟨rfl, rfl⟩
      · rw [if_neg hempty] at hclosed
        cases hclosed
    | utility c =>
      obtain ⟨lines, hlines⟩ := emitted_utility hb
      obtain ⟨left, hrun⟩ := run_utility hb ⟨{ node := node.id, family := "" }, .start count⟩
      have hnone : lines.isEmpty = true := by
        rw [Registry.fate, hb] at hi
        dsimp only at hi
        rw [Registry.statementEntry, hlines] at hi
        by_contra hsome
        rw [if_neg hsome] at hi
        exact hi
      dsimp only
      rw [hlines, if_pos hnone, hrun]
      exact ⟨rfl, rfl⟩

/-! ## The other nodes -/

/-- An inert node joins no chain that a root above it opens, whenever the turn of the root comes. -/
theorem joins_of_inert (hi : (Registry.builtin.fate g node).Inert)
    (hp : g.parentNode? node = some root) {pass : Pass}
    (hw : Registry.builtin.opened? pass root = some w) :
    Registry.builtin.joins w.block.family node = false := by
  cases hj : Registry.builtin.joins w.block.family node with
  | false => rfl
  | true =>
    obtain ⟨families, c, hb, hfamily⟩ := child_of_joins hj
    have habove : Registry.builtin.chainAbove? g node =
        some ⟨w.block, Registry.builtin.passAt g root⟩ := by
      rw [Registry.chainAbove?, hp]
      exact opened?_congr hw rfl rfl rfl
    rw [Registry.fate_child hb, habove] at hi
    dsimp only at hi
    rw [if_pos hfamily] at hi
    exact hi.elim

/-- Without an inert node the others make the same entries and raise the same declarations. -/
theorem own_remove (h : g.Linked) (hm : node ∈ g.nodes)
    (hi : (Registry.builtin.fate g node).Inert) {other : Node} (ho : other ∈ g.nodes)
    (hne : other.id ≠ node.id) (count : Nat) :
    Registry.builtin.ownEntry (g.remove node.id) count (other.unhooked node.id) =
        Registry.builtin.ownEntry g count other ∧
      Registry.builtin.raised (g.remove node.id) count (other.unhooked node.id) =
        Registry.builtin.raised g count other := by
  have hin : g.contains node.id = true := Graph.contains_iff.2 (List.mem_map_of_mem hm)
  refine Registry.own_congr (Node.id_unhooked ..) (Node.type_unhooked ..)
    (fun b hb => compile_congr hb (Node.config_unhooked ..)) fun w hw => ?_
  rw [Graph.childrenOf_remove h hin hne]
  refine Registry.chain_filter fun child hc hid => ?_
  obtain ⟨hchild, hparent⟩ := h.mem_childrenOf.1 hc
  obtain rfl : child = node :=
    List.inj_on_of_nodup_map h.ids hchild hm (by simpa using hid)
  have hroot : g.parentNode? child = some other := by
    rw [Graph.parentNode?, hparent]
    exact (Graph.find?_eq_some_iff h.ids).2 ⟨ho, rfl⟩
  exact joins_of_inert hi hroot hw

/-! ## Main theorem -/

/-- A node that adds nothing to the entries can be taken out of the graph: its type is not known, it
is a root that opens no chain, a utility that emits nothing, or a child that runs in no chain. The
nodes that hang off it lose their parent. The entries stay as they are, their lines, slots and
declarations included, and so does the text. -/
theorem compile_remove_inert (hg : g.Reachable) (hm : node ∈ g.nodes)
    (hi : (Registry.builtin.fate g node).Inert) (style : ScriptStyle) :
    (g.remove node.id).nodes =
        (g.nodes.filter (·.id != node.id)).map (Node.unhooked node.id) ∧
      (Registry.builtin.compile style (g.remove node.id)).entries =
        (Registry.builtin.compile style g).entries ∧
      (Registry.builtin.compile style (g.remove node.id)).text =
        (Registry.builtin.compile style g).text := by
  have hl := Graph.reachable_linked hg
  have hin : g.contains node.id = true := Graph.contains_iff.2 (List.mem_map_of_mem hm)
  have hnodes := Graph.nodes_remove_eq hl hin
  have hentries : (Registry.builtin.compile style (g.remove node.id)).entries =
      (Registry.builtin.compile style g).entries := by
    rw [Registry.compile_entries_turns, Registry.compile_entries_turns, hnodes]
    calc _
        = ((Registry.builtin.turns g 0 (g.nodes.filter (·.id != node.id))).filterMap fun t =>
            Registry.builtin.ownEntry g t.2 t.1) := by
          refine Registry.ownEntries_map (fun other ho count => ?_) 0
          obtain ⟨ho, hne⟩ := List.mem_filter.1 ho
          exact own_remove hl hm hi ho (by simpa using hne) count
      _ = _ := by
          refine (Registry.ownEntries_filter (fun other ho hid count => ?_) 0).symm
          obtain rfl : other = node :=
            List.inj_on_of_nodup_map hl.ids ho hm (by simpa using hid)
          exact aside_of_inert hi count
  exact ⟨hnodes, hentries, congrArg (Entry.render style) hentries⟩

/-- A sound without a file. -/
def muteSound : Node := { id := "s", type := "sound" }

/-- An effect and a text hang off the sound, and a red text off the effect. -/
def muteGraph : Graph :=
  ({} : Graph).performAll [.add muteSound,
    .add { id := "f", type := "effect", config := .object [("file", .str "f")], parent := "s" },
    .add { id := "a", type := "text", config := .object [("text", .str "a")], parent := "s" },
    .add { id := "b", type := "text", config := .object [("text", .str "b"), ("fill", .str "red")],
           parent := "f" }]

theorem compile_remove_inert_sound :
    muteGraph.Reachable ∧ muteSound ∈ muteGraph.nodes ∧
      (Registry.builtin.fate muteGraph muteSound).Inert ∧
      ((muteGraph.remove "s").nodes.map fun node => (node.id, node.parent)) =
        [("f", none), ("a", none), ("b", some "f")] ∧
      (Registry.builtin.compile {} (muteGraph.remove "s")).entries =
        (Registry.builtin.compile {} muteGraph).entries ∧
      (Registry.builtin.compile {} muteGraph).entries.map (·.node) = ["f"] := by
  have hg : muteGraph.Reachable := (Graph.Reachable.empty "graph").performAll _
  have hm : muteSound ∈ muteGraph.nodes := List.mem_cons_self
  have hi : (Registry.builtin.fate muteGraph muteSound).Inert := trivial
  obtain ⟨hnodes, hentries, -⟩ := compile_remove_inert hg hm hi {}
  refine ⟨hg, hm, hi, ?_, hentries, by rfl⟩
  rw [show "s" = muteSound.id from rfl, hnodes]
  rfl

end Catalog

end CueGraph
