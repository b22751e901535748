import CueGraph.Proofs.Graph.Siblings

/-!
# A graph without a node

When a node is taken out, the others stay as they are and in their order, but those that hang off
it lose their parent (`nodes_remove_eq`). Among the children of a node that stays, only the one that
was taken out is missing (`childrenOf_remove`). A new node that is taken out again leaves the graph
as it was (`nodes_remove_add`, `childIds_remove_add`).

Main statement: `remove_orphans`.
-/

namespace CueGraph

/-- The node as it is when the node of this id is not there to hang off. -/
def Node.unhooked (id : String) (node : Node) : Node :=
  if node.parent = some id then { node with parent := none } else node

namespace Node

variable {id : String} {node : Node}

@[simp] theorem id_unhooked (id : String) (node : Node) : (node.unhooked id).id = node.id := by
  unfold unhooked
  split <;> rfl

@[simp] theorem type_unhooked (id : String) (node : Node) :
    (node.unhooked id).type = node.type := by
  unfold unhooked
  split <;> rfl

@[simp] theorem config_unhooked (id : String) (node : Node) :
    (node.unhooked id).config = node.config := by
  unfold unhooked
  split <;> rfl

theorem unhooked_of_ne (h : node.parent ≠ some id) : node.unhooked id = node := if_neg h

end Node

namespace Graph

variable {g : Graph} {id p : String}

/-! ## Nodes -/

theorem nodes_detach (hn : (g.nodes.map (·.id)).Nodup) (id : String) :
    (g.detach id).nodes =
      g.nodes.map fun node => if node.id = id then { node with parent := none } else node := by
  cases hp : g.parentOf id with
  | some p =>
    rw [detach_of_parentOf hp]
    rfl
  | none =>
    rw [detach_of_parentOf_none hp]
    refine ((List.map_congr_left fun node hm => ?_).trans (List.map_id g.nodes)).symm
    split
    · next hid =>
      have hfind : g.find? id = some node := (find?_eq_some_iff hn).2 ⟨hm, hid⟩
      rw [parentOf, hfind, Option.bind_some] at hp
      rw [id_eq, ← hp]
    · rfl

theorem nodes_foldl_detach (hn : (g.nodes.map (·.id)).Nodup) (ids : List String) :
    (ids.foldl detach g).nodes =
      g.nodes.map fun node => if node.id ∈ ids then { node with parent := none } else node := by
  induction ids generalizing g with
  | nil => simp
  | cons first rest ih =>
    rw [List.foldl_cons, ih (by rwa [ids_detach]), nodes_detach hn, List.map_map]
    refine List.map_congr_left fun node _ => ?_
    by_cases hfirst : node.id = first <;> simp [hfirst]

theorem nodes_loosen (h : g.Linked) (id : String) :
    (g.loosen id).nodes = g.nodes.map fun node =>
      if node.id = id ∨ node.parent = some id then { node with parent := none } else node := by
  have hd := linked_detach h id
  rw [loosen, nodes_foldl_detach hd.ids, nodes_detach h.ids, List.map_map]
  refine List.map_congr_left fun node hm => ?_
  have hparent : g.parentOf node.id = node.parent := by
    rw [parentOf, (find?_eq_some_iff h.ids).2 ⟨hm, rfl⟩, Option.bind_some]
  have hchild : node.id ∈ (g.detach id).childIds id ↔ node.id ≠ id ∧ node.parent = some id := by
    rw [hd.mem_childIds, parentOf_detach, hparent]
    split <;> simp_all
  by_cases hid : node.id = id <;> simp [hid, hchild]

/-- The nodes that stay, in their order, none of them hanging off the one that was taken out. -/
theorem nodes_remove_eq (h : g.Linked) (hin : g.contains id = true) :
    (g.remove id).nodes = (g.nodes.filter (·.id != id)).map (Node.unhooked id) := by
  rw [nodes_remove hin, nodes_loosen h, List.filter_map]
  have hkeep : (fun node : Node => node.id != id) ∘ (fun node : Node =>
      if node.id = id ∨ node.parent = some id then { node with parent := none } else node) =
      fun node => node.id != id := by
    funext node
    simp only [Function.comp_apply]
    split <;> rfl
  rw [hkeep]
  refine List.map_congr_left fun node hm => ?_
  have hne : node.id ≠ id := by simpa using (List.mem_filter.1 hm).2
  simp [Node.unhooked, hne]

theorem find?_remove (h : g.Linked) (hin : g.contains id = true) (c : String) :
    (g.remove id).find? c = if c = id then none else (g.find? c).map (Node.unhooked id) := by
  have hid : (fun node : Node => node.id == c) ∘ Node.unhooked id = fun node => node.id == c := by
    funext node
    simp
  rw [find?, nodes_remove_eq h hin, List.find?_map, hid, find?_filter_ne]
  split <;> rfl

/-! ## Children -/

/-- Nodes that are not among the siblings can be taken off their parents. -/
theorem childIds_foldl_detach {ids : List String} (h : g.Linked)
    (hids : ∀ c ∈ ids, c ∉ g.childIds p) : (ids.foldl detach g).childIds p = g.childIds p := by
  induction ids generalizing g with
  | nil => rfl
  | cons first rest ih =>
    have hfirst : (g.detach first).childIds p = g.childIds p := by
      rw [h.childIds_detach, List.erase_of_not_mem (hids first List.mem_cons_self)]
    rw [List.foldl_cons, ih (linked_detach h first), hfirst]
    rw [hfirst]
    exact fun c hc => hids c (List.mem_cons_of_mem _ hc)

theorem childIds_remove_eq (h : g.Linked) (hin : g.contains id = true) (hp : p ≠ id) :
    (g.remove id).childIds p = (g.childIds p).erase id := by
  have hd := linked_detach h id
  rw [childIds_remove hin, if_neg hp, loosen, childIds_foldl_detach hd, h.childIds_detach]
  -- who hangs off the node does not hang off another one
  intro c hc hother
  rw [hd.mem_childIds] at hc hother
  exact hp (Option.some.inj (hother.symm.trans hc))

theorem childrenOf_remove (h : g.Linked) (hin : g.contains id = true) (hp : p ≠ id) :
    (g.remove id).childrenOf p = (g.childrenOf p).filter (·.id != id) := by
  rw [childrenOf, childrenOf, childIds_remove_eq h hin hp, (h.siblings p).erase_eq_filter,
    List.filterMap_filter, List.filter_filterMap]
  refine List.filterMap_congr fun c hc => ?_
  obtain ⟨node, hn, hparent⟩ := parentOf_eq_some_iff.1 ((h.mem_childIds p c).1 hc)
  have hother : node.parent ≠ some id := by simpa [hparent] using hp
  rw [find?_remove h hin, hn, Option.map_some, Node.unhooked_of_ne hother, Option.filter_some,
    find?_id hn]
  by_cases hid : c = id <;> simp [hid]

/-! ## A new node, taken out again -/

section New

variable {g' : Graph} {node : Node}

theorem contains_add_self (h : g.add node = .ok g') : g'.contains node.id = true := by
  rw [contains_eq_isSome, find?_add h, if_pos rfl, Option.isSome_some]

theorem nodes_remove_add (h : g.Linked) (ha : g.add node = .ok g') :
    (g'.remove node.id).nodes = g.nodes := by
  obtain ⟨hnew, -, hnodes, -⟩ := add_ok ha
  rw [nodes_remove_eq (linked_add h ha) (contains_add_self ha), hnodes, filter_append_new hnew]
  refine (List.map_congr_left fun other hm => ?_).trans (List.map_id g.nodes)
  rw [Node.unhooked_of_ne (h.parent_ne_of_not_contains hnew hm), id_eq]

theorem childIds_remove_add (h : g.Linked) (ha : g.add node = .ok g') (p : String) :
    (g'.remove node.id).childIds p = g.childIds p := by
  obtain ⟨hnew, -, -, hchild⟩ := add_ok ha
  have hin := contains_add_self ha
  by_cases hp : p = node.id
  · rw [childIds_remove hin, if_pos hp, hp, h.childIds_of_not_contains hnew]
  · have hfree := h.not_mem_childIds_of_not_contains hnew p
    rw [childIds_remove_eq (linked_add h ha) hin hp, hchild]
    split
    · rw [List.erase_append_right _ hfree, List.erase_cons_head, List.append_nil]
    · exact List.erase_of_not_mem hfree

end New

/-! ## Main theorem -/

/-- Taking out a node that is not there changes nothing. Otherwise the other nodes stay in their
order with their types, configurations and labels, and those that hung off the node have no parent
any more; it is gone from all children, and nothing is left as its child. A new node goes into the
graph, on a parent that is there or on none, and taking it out again gives back the nodes, with
their parents, and all children. -/
theorem remove_orphans (h : g.Reachable) (id : String) :
    (g.contains id = false → g.remove id = g) ∧
    (g.contains id = true → (g.remove id).name = g.name ∧
      (g.remove id).nodes = (g.nodes.filter (·.id != id)).map (Node.unhooked id) ∧
      (∀ p, (g.remove id).childIds p = if p = id then [] else (g.childIds p).filter (· != id)) ∧
      ∀ p ≠ id, (g.remove id).childrenOf p = (g.childrenOf p).filter (·.id != id)) ∧
    ∀ node : Node, g.contains node.id = false →
      (∀ p, node.parent = some p → g.contains p = true) →
      ∃ g', g.add node = .ok g' ∧ (g'.remove node.id).name = g.name ∧
        (g'.remove node.id).nodes = g.nodes ∧
        ∀ p, (g'.remove node.id).childIds p = g.childIds p := by
  have hl := reachable_linked h
  refine ⟨remove_of_not_contains, fun hin => ⟨name_remove g id, nodes_remove_eq hl hin,
    fun p => ?_, fun p => childrenOf_remove hl hin⟩, fun node hnew hparent => ?_⟩
  · split
    · next hp => rw [childIds_remove hin, if_pos hp]
    · next hp => rw [childIds_remove_eq hl hin hp, (hl.siblings p).erase_eq_filter]
  · obtain ⟨g', ha⟩ := add_isOk_iff.2 ⟨hnew, fun p hp => .inr (hparent p hp)⟩
    exact ⟨g', ha, (name_remove g' node.id).trans (name_add ha), nodes_remove_add hl ha,
      childIds_remove_add hl ha⟩

/-- A node that hangs off another one and has a child itself is taken out. -/
theorem remove_orphans_middle :
    let g := ({} : Graph).performAll [.add { id := "fx", type := "effect" },
      .add { id := "d1", type := "delay", parent := some "fx" },
      .add { id := "d2", type := "delay", parent := some "d1" }]
    let new : Node := { id := "d3", type := "delay", parent := some "fx" }
    g.Reachable ∧ g.contains "d1" = true ∧ (g.remove "d1").childIds "fx" = [] ∧
      (g.remove "d1").nodes.map (·.parent) = [none, none] ∧
      g.contains "ghost" = false ∧ g.remove "ghost" = g ∧
      g.contains new.id = false ∧ g.contains "fx" = true ∧
      ∃ g', g.add new = .ok g' ∧ (g'.remove new.id).nodes = g.nodes := by
  intro g new
  have hg : g.Reachable := (Reachable.empty "graph").performAll _
  have hin : g.contains "d1" = true := by rfl
  have habsent : g.contains "ghost" = false := by rfl
  have hnew : g.contains new.id = false := by rfl
  have hroot : g.contains "fx" = true := by rfl
  obtain ⟨-, hout, hback⟩ := remove_orphans hg "d1"
  obtain ⟨-, hnodes, hchild, -⟩ := hout hin
  obtain ⟨g', ha, -, hsame, -⟩ := hback new hnew fun p hp => Option.some.inj hp ▸ hroot
  refine ⟨hg, hin, ?_, ?_, habsent, (remove_orphans hg "ghost").1 habsent, hnew, hroot, g', ha,
    hsame⟩
  · rw [hchild]
    rfl
  · rw [hnodes]
    rfl

end Graph

end CueGraph
