import CueGraph.Proofs.Graph.Removed

/-!
# A node on a new parent

Hanging a node off another one moves it and nothing else. It leaves the siblings that it had, and
goes to the place that is asked for among those that it gets; the place counts without it, so that
a move among the same siblings neither loses nor doubles it (`childIds_attach`). The nodes stay in
their order and as they are, but for the parent of the one that moves (`nodes_attach`).

Main statement: `attach_moves`.
-/

namespace CueGraph.Graph

variable {g g' : Graph} {child root : String} {place : Option Int}

/-- The place among so many siblings that is meant: the end when none is named, and the nearer end
when the named one is beyond it. -/
def meantPlace (count : Nat) (place : Option Int) : Int :=
  place.elim count fun i => max 0 (min i count)

theorem placeAmong_eq (siblings : List String) (place : Option Int) :
    (placeAmong siblings place : Int) = meantPlace siblings.length place := by
  cases place with
  | none => rfl
  | some i =>
    simp only [placeAmong, meantPlace, Option.elim_some]
    omega

/-- The node is off its old parent, and both sides of the link to the new one are there. -/
theorem eq_of_attach (h : g.attach child root place = .ok g') : ∃ siblings,
    g' = ((g.detach child).setChildren root siblings).setParent child (some root) := by
  obtain ⟨hchild, hroot, hne, -⟩ := attach_ok h
  rw [attach, hchild, hroot, if_neg (by simp), if_neg (by simp), if_neg hne] at h
  exact ⟨_, (Except.ok.inj h).symm⟩

/-- Only the parent of the node that moves is another one. -/
theorem nodes_attach (hn : (g.nodes.map (·.id)).Nodup)
    (h : g.attach child root place = .ok g') :
    g'.nodes = g.nodes.map fun node =>
      if node.id = child then { node with parent := some root } else node := by
  obtain ⟨siblings, rfl⟩ := eq_of_attach h
  have hmoved : (((g.detach child).setChildren root siblings).setParent child (some root)).nodes =
      (g.detach child).nodes.map fun node =>
        if node.id = child then { node with parent := some root } else node := rfl
  rw [hmoved, nodes_detach hn, List.map_map]
  refine List.map_congr_left fun node _ => ?_
  by_cases hid : node.id = child <;> simp [hid]

theorem name_attach (h : g.attach child root place = .ok g') : g'.name = g.name := by
  obtain ⟨siblings, rfl⟩ := eq_of_attach h
  exact name_detach g child

/-- The siblings of the new parent have the node at the place that is asked for, all others are
without it. -/
theorem childIds_attach (hl : g.Linked) (h : g.attach child root place = .ok g') (p : String) :
    g'.childIds p =
      let others := (g.childIds p).filter (· != child)
      if p = root then others.insertIdx (placeAmong others place) child else others := by
  obtain ⟨-, -, -, -, -, hchild⟩ := attach_ok h
  have hothers : ∀ q, (g.detach child).childIds q = (g.childIds q).filter (· != child) := fun q => by
    rw [hl.childIds_detach, (hl.siblings q).erase_eq_filter]
  rw [hchild]
  by_cases hp : p = root <;> simp [hp, hothers]

/-- A move among the same siblings puts them into another order. -/
theorem childIds_attach_perm (hl : g.Linked) (h : g.attach child root place = .ok g')
    (hp : g.parentOf child = some root) : (g'.childIds root).Perm (g.childIds root) := by
  have hmem : child ∈ g.childIds root := (hl.mem_childIds root child).2 hp
  rw [childIds_attach hl h, if_pos rfl, ← (hl.siblings root).erase_eq_filter]
  exact (List.perm_insertIdx _ _ (placeAmong_le _ _)).trans (List.perm_cons_erase hmem).symm

/-! ## Main theorem -/

/-- A node can be hung off any other one. Among the children of that one it comes to the place that
is asked for, counted without it; from all other children it is gone, and all else stays: the nodes
in their order, their parents, types, configurations and labels. Where it hung off the same node
before, the children are the same in another order. -/
theorem attach_moves (h : g.Reachable) (hchild : g.contains child = true)
    (hroot : g.contains root = true) (hne : child ≠ root) (place : Option Int) :
    ∃ g', g.attach child root place = .ok g' ∧ g'.name = g.name ∧
      (g'.nodes = g.nodes.map fun node =>
        if node.id = child then { node with parent := some root } else node) ∧
      (∃ before after, (g.childIds root).filter (· != child) = before ++ after ∧
        (before.length : Int) = meantPlace (before ++ after).length place ∧
        g'.childIds root = before ++ child :: after) ∧
      (∀ p ≠ root, g'.childIds p = (g.childIds p).filter (· != child)) ∧
      (∀ p, (g'.childrenOf p).map (·.id) = g'.childIds p) ∧
      (g.parentOf child = some root → (g'.childIds root).Perm (g.childIds root)) := by
  have hl := reachable_linked h
  obtain ⟨g', hg'⟩ : ∃ g', g.attach child root place = .ok g' :=
    attach_isOk_iff.2 ⟨hchild, hroot, hne⟩
  refine ⟨g', hg', name_attach hg', nodes_attach hl.ids hg', ?_, fun p hp => ?_,
    (linked_attach hl hg').ids_childrenOf, childIds_attach_perm hl hg'⟩
  · have hlist := childIds_attach hl hg' root
    generalize (g.childIds root).filter (· != child) = others at hlist ⊢
    obtain ⟨before, after, rfl, hlength, hinsert⟩ :=
      List.exists_of_modifyTailIdx (List.cons child) (placeAmong_le others place)
    refine ⟨before, after, rfl, ?_, ?_⟩
    · rw [hlength, placeAmong_eq]
    · rw [hlist, if_pos rfl]
      exact hinsert
  · rw [childIds_attach hl hg', if_neg hp]

/-- The first of three siblings moves behind the second one. -/
theorem attach_moves_among_siblings :
    let effect : Node := { id := "fx", type := "effect" }
    let child (id : String) : Node := { id, type := "delay", parent := some "fx" }
    let g := ({} : Graph).performAll [.add effect, .add (child "d1"), .add (child "d2"),
      .add (child "d3")]
    g.Reachable ∧ g.contains "d1" = true ∧ g.contains "fx" = true ∧ "d1" ≠ "fx" ∧
      ∃ g', g.attach "d1" "fx" (some 1) = .ok g' ∧ g'.childIds "fx" = ["d2", "d1", "d3"] := by
  intro effect child g
  have hg : g.Reachable := (Reachable.empty "graph").performAll _
  have hchild : g.contains "d1" = true := by rfl
  have hroot : g.contains "fx" = true := by rfl
  have hne : "d1" ≠ "fx" := by decide
  have hids : (g.childIds "fx").filter (· != "d1") = ["d2", "d3"] := by rfl
  obtain ⟨g', hg', -, -, ⟨before, after, hsplit, hplace, hlist⟩, -⟩ :=
    attach_moves hg hchild hroot hne (some 1)
  refine ⟨hg, hchild, hroot, hne, g', hg', ?_⟩
  rw [hids] at hsplit
  rw [← hsplit] at hplace
  have hmeant : meantPlace ["d2", "d3"].length (some 1) = 1 := by decide
  have hone : before.length = 1 := by omega
  obtain ⟨id, rfl⟩ := List.length_eq_one_iff.1 hone
  obtain ⟨rfl, rfl⟩ := List.cons.inj hsplit
  exact hlist

end CueGraph.Graph
