import CueGraph.Proofs.Graph.Views

/-!
# The two sides of the parent relation

A graph keeps the parent relation twice: a node names its parent, and for each id there is a list of
children. `Linked` says that the two sides agree. An empty graph is linked, and every call of an
operation keeps it so, one that fails included; `reachable_linked` is the sum of it.

Main statement: `links_agree`.
-/

namespace CueGraph.Graph

variable {g g' : Graph} {node : Node} {id : String}

/-- The two sides of the parent relation agree. -/
structure Linked (g : Graph) : Prop where
  ids : (g.nodes.map (·.id)).Nodup
  keys : (g.children.map (·.1)).Nodup
  mem_childIds : ∀ p c, c ∈ g.childIds p ↔ g.parentOf c = some p
  parent_mem : ∀ p c, g.parentOf c = some p → g.contains p = true
  siblings : ∀ p, (g.childIds p).Nodup

namespace Linked

theorem childIds_of_not_contains (h : g.Linked) {p : String} (hp : g.contains p = false) :
    g.childIds p = [] := by
  refine List.eq_nil_iff_forall_not_mem.2 fun c hc => ?_
  rw [h.parent_mem p c ((h.mem_childIds p c).1 hc)] at hp
  cases hp

/-- A node without a parent is in no list of children. -/
theorem not_mem_childIds (h : g.Linked) {c : String} (hc : g.parentOf c = none) (p : String) :
    c ∉ g.childIds p := by
  intro hm
  rw [h.mem_childIds, hc] at hm
  cases hm

/-- Who is not there is nobody's child. -/
theorem not_mem_childIds_of_not_contains (h : g.Linked) {c : String} (hc : g.contains c = false)
    (p : String) : c ∉ g.childIds p := by
  intro hm
  rw [contains_of_parentOf ((h.mem_childIds p c).1 hm)] at hc
  cases hc

/-- Who is not there is nobody's parent. -/
theorem parent_ne_of_not_contains (h : g.Linked) (hp : g.contains id = false)
    (hm : node ∈ g.nodes) : node.parent ≠ some id := by
  intro he
  have hfind : g.find? node.id = some node := (find?_eq_some_iff h.ids).2 ⟨hm, rfl⟩
  rw [h.parent_mem id node.id (parentOf_eq_some_iff.2 ⟨node, hfind, he⟩)] at hp
  cases hp

theorem childIds_of_mem (h : g.Linked) {entry : String × List String} (he : entry ∈ g.children) :
    g.childIds entry.1 = entry.2 := by
  obtain ⟨before, after, hsplit⟩ := List.append_of_mem he
  have hk := h.keys
  rw [hsplit, List.map_append, List.nodup_append] at hk
  rw [childIds, List.lookup_eq_some_iff.2 ⟨before, after, hsplit, fun other ho => ?_⟩]
  · rfl
  · simpa using (hk.2.2 other.1 (List.mem_map_of_mem ho) entry.1 (by simp)).symm

/-- The lists of children have no id in common, and none holds an id twice. -/
theorem siblings_nodup (h : g.Linked) : (g.children.flatMap (·.2)).Nodup := by
  rw [List.nodup_flatMap]
  constructor
  · intro entry he
    rw [← h.childIds_of_mem he]
    exact h.siblings entry.1
  · have hk : g.children.Pairwise fun a b => a.1 ≠ b.1 := List.pairwise_map.1 h.keys
    refine hk.imp_of_mem fun {a b} ha hb hne => ?_
    intro c hca hcb
    simp only [← h.childIds_of_mem ha, ← h.childIds_of_mem hb, h.mem_childIds] at hca hcb
    exact hne (Option.some.inj (hca.symm.trans hcb))

/-- Off its parent, an id is out of every list of children. -/
theorem childIds_detach (h : g.Linked) (id p : String) :
    (g.detach id).childIds p = (g.childIds p).erase id := by
  rw [Graph.childIds_detach]
  split
  · rfl
  · rename_i hp
    rw [List.erase_of_not_mem fun hm => hp ((h.mem_childIds p id).1 hm)]

end Linked

/-! ## Operations -/

theorem keys_setChildren (h : (g.children.map (·.1)).Nodup) (p : String) (ids : List String) :
    ((g.setChildren p ids).children.map (·.1)).Nodup := by
  rw [setChildren, List.map_cons, List.nodup_cons]
  constructor
  · simp
  · exact h.sublist (List.filter_sublist.map _)

theorem keys_detach (h : (g.children.map (·.1)).Nodup) (id : String) :
    ((g.detach id).children.map (·.1)).Nodup := by
  cases hp : g.parentOf id with
  | none => rwa [detach_of_parentOf_none hp]
  | some p =>
    rw [detach_of_parentOf hp]
    exact keys_setChildren h p _

theorem keys_add (h : (g.children.map (·.1)).Nodup) (ha : g.add node = .ok g') :
    (g'.children.map (·.1)).Nodup := by
  unfold add at ha
  split at ha
  · cases ha
  · split at ha
    · cases ha
      exact h
    · dsimp only at ha
      split at ha
      · cases ha
        exact keys_setChildren h _ _
      · cases ha

theorem keys_attach {child root : String} {place : Option Int}
    (h : (g.children.map (·.1)).Nodup) (ha : g.attach child root place = .ok g') :
    (g'.children.map (·.1)).Nodup := by
  unfold attach at ha
  split at ha
  · cases ha
  · split at ha
    · cases ha
    · split at ha
      · cases ha
      · cases ha
        exact keys_setChildren (keys_detach h child) _ _

theorem linked_empty (name : String) : ({ name } : Graph).Linked where
  ids := List.nodup_nil
  keys := List.nodup_nil
  mem_childIds p c := by simp [childIds, parentOf, find?]
  parent_mem p c hp := by simp [parentOf, find?] at hp
  siblings p := by simp [childIds]

theorem linked_detach (h : g.Linked) (id : String) : (g.detach id).Linked where
  ids := by rw [ids_detach]; exact h.ids
  keys := keys_detach h.keys id
  mem_childIds p c := by
    rw [h.childIds_detach, parentOf_detach, (h.siblings p).mem_erase_iff, h.mem_childIds]
    by_cases hc : c = id <;> simp [hc]
  parent_mem p c hp := by
    rw [parentOf_detach] at hp
    split at hp
    · cases hp
    · rw [contains_detach]; exact h.parent_mem p c hp
  siblings p := by
    rw [h.childIds_detach]
    exact (h.siblings p).erase id

theorem linked_foldl_detach (h : g.Linked) (ids : List String) : (ids.foldl detach g).Linked := by
  induction ids generalizing g with
  | nil => exact h
  | cons id rest ih => exact ih (linked_detach h id)

theorem linked_add (h : g.Linked) (ha : g.add node = .ok g') : g'.Linked := by
  obtain ⟨hnew, hparent, hnodes, hchild⟩ := add_ok ha
  have hfree := h.not_mem_childIds_of_not_contains hnew
  have hin : ∀ p, g'.contains p = true ↔ p = node.id ∨ g.contains p = true := by
    intro p
    rw [contains_iff, contains_iff, hnodes]
    simp [or_comm, eq_comm]
  refine {
    ids := ?_
    keys := keys_add h.keys ha
    mem_childIds := fun p c => ?_
    parent_mem := fun p c hp => ?_
    siblings := fun p => ?_ }
  · rw [hnodes, List.map_append, List.nodup_append]
    refine ⟨h.ids, by simp, fun a hm b hb => ?_⟩
    rintro rfl
    rw [show a = node.id by simpa using hb, ← contains_iff, hnew] at hm
    cases hm
  · rw [hchild, parentOf_add ha]
    by_cases hc : c = node.id
    · rw [if_pos hc, hc]
      split
      · rename_i hp; simp [hp]
      · rename_i hp; simp [hp, hfree]
    · rw [if_neg hc, ← h.mem_childIds]
      split <;> simp [hc]
  · rw [parentOf_add ha] at hp
    rw [hin]
    split at hp
    · exact hparent p hp
    · exact .inr (h.parent_mem p c hp)
  · rw [hchild]
    split
    · refine List.nodup_append.2 ⟨h.siblings p, by simp, fun a hm b hb => ?_⟩
      rintro rfl
      rw [show a = node.id by simpa using hb] at hm
      exact hfree p hm
    · exact h.siblings p

theorem linked_attach {child root : String} {place : Option Int} (h : g.Linked)
    (ha : g.attach child root place = .ok g') : g'.Linked := by
  obtain ⟨hchild, hroot, -, hids, hparent, hlist⟩ := attach_ok ha
  have hd : (g.detach child).Linked := linked_detach h child
  -- off its old parent, the child is in no list, so it ends up in one
  have hfree : ∀ p, child ∉ (g.detach child).childIds p :=
    hd.not_mem_childIds (by rw [parentOf_detach, if_pos rfl])
  have hplace := placeAmong_le ((g.detach child).childIds root) place
  refine {
    ids := hids ▸ h.ids
    keys := keys_attach h.keys ha
    mem_childIds := fun p c => ?_
    parent_mem := fun p c hp => ?_
    siblings := fun p => ?_ }
  · rw [hlist, hparent]
    by_cases hc : c = child
    · rw [if_pos hc, hc]
      split
      · rename_i hp; simp [List.mem_insertIdx hplace, hp]
      · rename_i hp; simp [hfree, Ne.symm hp]
    · have hkeep : c ∈ (g.detach child).childIds p ↔ g.parentOf c = some p := by
        rw [hd.mem_childIds, parentOf_detach, if_neg hc]
      rw [if_neg hc, ← hkeep]
      split
      · rename_i hp; simp [List.mem_insertIdx hplace, hc, hp]
      · rfl
  · rw [hparent] at hp
    rw [contains_iff, hids, ← contains_iff]
    split at hp
    · cases hp; exact hroot
    · exact h.parent_mem p c hp
  · rw [hlist]
    split
    · rename_i hp
      exact (List.perm_insertIdx _ _ hplace).nodup_iff.2
        (List.nodup_cons.2 ⟨hfree root, hd.siblings root⟩)
    · exact hd.siblings p

/-- Where a node and its children are off their parents, nothing hangs off the node. -/
theorem parentOf_loosen (h : g.Linked) (id c : String) :
    (g.loosen id).parentOf c =
      if c = id ∨ g.parentOf c = some id then none else g.parentOf c := by
  have hd := linked_detach h id
  rw [loosen, parentOf_foldl_detach]
  simp only [hd.mem_childIds, parentOf_detach]
  by_cases hc : c = id
  · simp [hc]
  · simp [hc]

theorem linked_loosen (h : g.Linked) (id : String) : (g.loosen id).Linked :=
  linked_foldl_detach (linked_detach h id) _

theorem linked_remove (h : g.Linked) (id : String) : (g.remove id).Linked := by
  cases hin : g.contains id with
  | false => rwa [remove_of_not_contains hin]
  | true =>
    have hl := linked_loosen h id
    -- nothing hangs off the node any more, so its list can go with it
    have hoff : ∀ c, (g.loosen id).parentOf c ≠ some id := by
      intro c hp
      rw [parentOf_loosen h] at hp
      grind
    have hself : (g.loosen id).parentOf id = none := by simp [parentOf_loosen h]
    refine {
      ids := ?_
      keys := ?_
      mem_childIds := fun p c => ?_
      parent_mem := fun p c hp => ?_
      siblings := fun p => ?_ }
    · rw [nodes_remove hin]
      exact hl.ids.sublist (List.filter_sublist.map _)
    · simp only [remove, hin, ↓reduceIte]
      exact hl.keys.sublist (List.filter_sublist.map _)
    · rw [childIds_remove hin, parentOf_remove hin]
      by_cases hp : p = id
      · by_cases hc : c = id
        · simp [hp, hc]
        · simp [hp, hc, hoff]
      · by_cases hc : c = id
        · simp [hp, hc, hl.mem_childIds, hself]
        · simp [hp, hc, hl.mem_childIds]
    · rw [parentOf_remove hin] at hp
      split at hp
      · cases hp
      · rw [contains_remove hin]
        exact ⟨fun he => hoff c (he ▸ hp), hl.parent_mem p c hp⟩
    · rw [childIds_remove hin]
      split
      · exact List.nodup_nil
      · exact hl.siblings p

/-! ## Calls -/

/-- Adding a node in place. The node goes in before its parent is looked for, and comes out again
when the parent is not there. -/
def addInPlace (g : Graph) (node : Node) : Graph × Option GraphError :=
  if g.contains node.id then (g, some (.alreadyExists node.id))
  else
    let g := { g with nodes := g.nodes ++ [node] }
    match node.parent with
    | none => (g, none)
    | some parent =>
      if g.contains parent then (g.setChildren parent (g.childIds parent ++ [node.id]), none)
      else
        ({ g with nodes := g.nodes.filter (·.id != node.id) },
          some (.parentNotFound node.id parent))

/-- What an operation leaves behind: the new graph, or the old one and the failure. -/
def settle (g : Graph) : Except GraphError Graph → Graph × Option GraphError
  | .ok g' => (g', none)
  | .error e => (g, some e)

/-- Taken out again, a new node leaves no trace. -/
theorem addInPlace_eq (g : Graph) (node : Node) : g.addInPlace node = g.settle (g.add node) := by
  unfold addInPlace add
  by_cases hc : g.contains node.id = true
  · rw [if_pos hc, if_pos hc]; rfl
  · rw [if_neg hc, if_neg hc]
    dsimp only
    cases node.parent with
    | none => rfl
    | some parent =>
      dsimp only
      split
      · rfl
      · simp [settle, filter_append_new (by simpa using hc)]

/-- A call of an operation that changes a graph. -/
inductive Call where
  | add (node : Node)
  | create (fresh type : String) (id : Option String) (config : Value) (parent : Option String)
  | attach (child root : String) (place : Option Int)
  | detach (id : String)
  | remove (id : String)

/-- Makes a call: what it leaves behind, and why it failed, if it did. -/
def perform (g : Graph) : Call → Graph × Option GraphError
  | .add node => g.addInPlace node
  | .create fresh type id config parent => g.settle (g.create fresh type id config parent)
  | .attach child root place => g.settle (g.attach child root place)
  | .detach id => (g.detach id, none)
  | .remove id => (g.remove id, none)

/-- The graphs that calls can lead to from an empty one, whether the calls fail or not. -/
inductive Reachable : Graph → Prop
  | empty (name : String) : Reachable { name }
  | call {g : Graph} (h : Reachable g) (c : Call) : Reachable (g.perform c).1

/-- Makes calls one after the other. -/
def performAll (g : Graph) (calls : List Call) : Graph :=
  calls.foldl (fun g c => (g.perform c).1) g

theorem Reachable.performAll (h : g.Reachable) (calls : List Call) :
    (g.performAll calls).Reachable := by
  induction calls generalizing g with
  | nil => exact h
  | cons c rest ih => exact ih (h.call c)

/-- A call keeps what holds when it fails and what a call that succeeds keeps. -/
theorem settle_induction {P : Graph → Prop} {outcome : Except GraphError Graph} (h : P g)
    (hok : ∀ g', outcome = .ok g' → P g') : P (g.settle outcome).1 := by
  cases outcome with
  | ok g' => exact hok g' rfl
  | error e => exact h

theorem linked_perform (h : g.Linked) (c : Call) : (g.perform c).1.Linked := by
  cases c with
  | add node =>
    rw [perform, addInPlace_eq]
    exact settle_induction h fun _ => linked_add h
  | create fresh type id config parent => exact settle_induction h fun _ => linked_add h
  | attach child root place => exact settle_induction h fun _ => linked_attach h
  | detach id => exact linked_detach h id
  | remove id => exact linked_remove h id

theorem reachable_linked (h : g.Reachable) : g.Linked := by
  induction h with
  | empty name => exact linked_empty name
  | call _ c ih => exact linked_perform ih c

/-- A node that goes in has no children at first, unless it is its own parent. -/
theorem childIds_add_self (h : g.Linked) (ha : g.add node = .ok g') :
    g'.childIds node.id = if node.parent = some node.id then [node.id] else [] := by
  obtain ⟨hnew, -, -, hchild⟩ := add_ok ha
  rw [hchild, h.childIds_of_not_contains hnew, List.nil_append]

/-! ## Main theorem -/

/-- In every graph that calls lead to, both sides of the parent relation agree, each parent is in
the graph, no id stands twice among the children, and each node is found under its own id. A node
that goes in, whether or not its id was in use before, starts without children exactly if it is not
its own parent. -/
theorem links_agree (h : g.Reachable) :
    (∀ p c, c ∈ g.childIds p ↔ ∃ node, g.find? c = some node ∧ node.parent = some p) ∧
    (∀ node ∈ g.nodes, ∀ p, node.parent = some p → ∃ parent ∈ g.nodes, parent.id = p) ∧
    (g.children.flatMap (·.2)).Nodup ∧
    (∀ node ∈ g.nodes, g.find? node.id = some node) ∧
    ∀ node g', g.add node = .ok g' →
      (g'.childIds node.id = [] ↔ node.parent ≠ some node.id) := by
  have hl := reachable_linked h
  have hfind : ∀ node ∈ g.nodes, g.find? node.id = some node := fun node hm =>
    (find?_eq_some_iff hl.ids).2 ⟨hm, rfl⟩
  refine ⟨fun p c => ?_, fun node hm p hp => ?_, hl.siblings_nodup, hfind, fun node g' ha => ?_⟩
  · rw [hl.mem_childIds, parentOf_eq_some_iff]
  · have := hl.parent_mem p node.id (parentOf_eq_some_iff.2 ⟨node, hfind node hm, hp⟩)
    simpa [contains] using this
  · rw [childIds_add_self hl ha]
    split <;> simp_all

/-- A node that went out comes in again, as its own parent, and is its own child. -/
theorem links_agree_self :
    let node : Node := { id := "fx", type := "effect", parent := some "fx" }
    let g := ({} : Graph).performAll [.add { node with parent := none }, .remove "fx"]
    ∃ g', g.Reachable ∧ g.add node = .ok g' ∧ g'.childIds "fx" ≠ [] := by
  intro node g
  have hg : g.Reachable := (Reachable.empty "graph").performAll _
  have hadd : g.add node = .ok ⟨"graph", [node], [("fx", ["fx"])]⟩ := by rfl
  obtain ⟨-, -, -, -, hfresh⟩ := links_agree hg
  exact ⟨_, hg, hadd, fun hnone => (hfresh node _ hadd).1 hnone rfl⟩

end CueGraph.Graph
