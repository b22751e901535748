import CueGraph.Graph.Basic
import Mathlib.Data.List.Basic
import Mathlib.Data.List.Nodup

/-!
# What the operations on a graph do

A graph is seen through four views: the node of an id (`find?`), whether there is one (`contains`),
the parent that it names (`parentOf`) and the children of an id (`childIds`). For each operation
this module says what it does to the views, so that no later proof opens an operation.
-/

namespace CueGraph.Graph

variable {g g' : Graph} {id c p : String} {node : Node}

/-- The parent that a node names, if the node is there and names one. -/
def parentOf (g : Graph) (id : String) : Option String := (g.find? id).bind (·.parent)

/-! ## Nodes by their ids -/

theorem find?_id (h : g.find? id = some node) : node.id = id := by
  simpa using List.find?_some h

theorem find?_mem (h : g.find? id = some node) : node ∈ g.nodes :=
  List.mem_of_find?_eq_some h

theorem find?_eq_some_iff (hn : (g.nodes.map (·.id)).Nodup) :
    g.find? id = some node ↔ node ∈ g.nodes ∧ node.id = id := by
  constructor
  · intro h
    exact ⟨find?_mem h, find?_id h⟩
  · rintro ⟨hm, rfl⟩
    cases h : g.find? node.id with
    | none =>
      simp only [find?, List.find?_eq_none, beq_iff_eq] at h
      exact absurd rfl (h node hm)
    | some other => rw [List.inj_on_of_nodup_map hn (find?_mem h) hm (find?_id h)]

theorem contains_iff : g.contains id = true ↔ id ∈ g.nodes.map (·.id) := by
  simp [contains]

theorem contains_eq_isSome (g : Graph) (id : String) : g.contains id = (g.find? id).isSome := by
  rw [contains, find?, List.isSome_find?]

theorem parentOf_eq_some_iff :
    g.parentOf c = some p ↔ ∃ node, g.find? c = some node ∧ node.parent = some p :=
  Option.bind_eq_some_iff

theorem contains_of_parentOf (h : g.parentOf c = some p) : g.contains c = true := by
  obtain ⟨node, hf, -⟩ := parentOf_eq_some_iff.1 h
  simp [contains_eq_isSome, hf]

/-! ## The two setters -/

@[simp] theorem contains_setChildren (g : Graph) (p c : String) (ids : List String) :
    (g.setChildren p ids).contains c = g.contains c := rfl

@[simp] theorem parentOf_setChildren (g : Graph) (p c : String) (ids : List String) :
    (g.setChildren p ids).parentOf c = g.parentOf c := rfl

@[simp] theorem childIds_setParent (g : Graph) (id p : String) (parent : Option String) :
    (g.setParent id parent).childIds p = g.childIds p := rfl

theorem lookup_filter_ne (l : List (String × List String)) (p q : String) :
    (l.filter (·.1 != p)).lookup q = if q = p then none else l.lookup q := by
  induction l with
  | nil => simp
  | cons entry rest ih =>
    by_cases h : entry.1 = p
    · rw [List.filter_cons_of_neg (by simp [h]), ih, List.lookup_cons]
      by_cases hq : q = p
      · simp [hq]
      · rw [show (q == entry.1) = false by simpa [h] using hq, if_neg hq]
    · rw [List.filter_cons_of_pos (by simpa using h), List.lookup_cons, List.lookup_cons, ih]
      by_cases hq : q = entry.1
      · simp [hq, h]
      · rw [show (q == entry.1) = false by simpa using hq]

@[simp] theorem childIds_setChildren (g : Graph) (p q : String) (ids : List String) :
    (g.setChildren p ids).childIds q = if q = p then ids else g.childIds q := by
  by_cases h : q = p
  · simp [childIds, setChildren, h]
  · have hne : (q == p) = false := by simpa using h
    simp [childIds, setChildren, List.lookup_cons, hne, lookup_filter_ne, h]

@[simp] theorem ids_setParent (g : Graph) (id : String) (parent : Option String) :
    (g.setParent id parent).nodes.map (·.id) = g.nodes.map (·.id) := by
  simp only [setParent, List.map_map]
  refine List.map_congr_left fun node _ => ?_
  simp only [Function.comp_apply]
  split <;> rfl

theorem find?_setParent (g : Graph) (id c : String) (parent : Option String) :
    (g.setParent id parent).find? c =
      (g.find? c).map fun node => if node.id = id then { node with parent } else node := by
  simp only [find?, setParent, List.find?_map]
  congr 2
  funext node
  simp only [Function.comp_apply]
  split <;> rfl

theorem parentOf_setParent (h : g.contains id = true) (parent : Option String) :
    (g.setParent id parent).parentOf c = if c = id then parent else g.parentOf c := by
  rw [parentOf, find?_setParent]
  cases hc : g.find? c with
  | none =>
    have hne : c ≠ id := by rintro rfl; simp [contains_eq_isSome, hc] at h
    simp [parentOf, hc, hne]
  | some node =>
    have he := find?_id hc
    by_cases hid : c = id
    · simp [hid, he]
    · simp [parentOf, hc, hid, he]

/-! ## Taking a node off its parent -/

theorem detach_of_parentOf_none (h : g.parentOf id = none) : g.detach id = g := by
  rw [detach, show (g.find? id).bind (·.parent) = none from h]

theorem detach_of_parentOf (h : g.parentOf id = some p) :
    g.detach id = (g.setChildren p ((g.childIds p).erase id)).setParent id none := by
  rw [detach, show (g.find? id).bind (·.parent) = some p from h]

@[simp] theorem ids_detach (g : Graph) (id : String) :
    (g.detach id).nodes.map (·.id) = g.nodes.map (·.id) := by
  cases h : g.parentOf id with
  | none => rw [detach_of_parentOf_none h]
  | some p => rw [detach_of_parentOf h, ids_setParent]; rfl

@[simp] theorem name_detach (g : Graph) (id : String) : (g.detach id).name = g.name := by
  cases h : g.parentOf id with
  | none => rw [detach_of_parentOf_none h]
  | some p => rw [detach_of_parentOf h]; rfl

@[simp] theorem contains_detach (g : Graph) (id c : String) :
    (g.detach id).contains c = g.contains c := by
  rw [Bool.eq_iff_iff, contains_iff, contains_iff, ids_detach]

theorem parentOf_detach (g : Graph) (id c : String) :
    (g.detach id).parentOf c = if c = id then none else g.parentOf c := by
  cases h : g.parentOf id with
  | none =>
    rw [detach_of_parentOf_none h]
    split
    · rename_i hc; rw [hc, h]
    · rfl
  | some p =>
    rw [detach_of_parentOf h, parentOf_setParent (by simpa using contains_of_parentOf h)]
    rfl

theorem childIds_detach (g : Graph) (id q : String) :
    (g.detach id).childIds q =
      if g.parentOf id = some q then (g.childIds q).erase id else g.childIds q := by
  cases h : g.parentOf id with
  | none => rw [detach_of_parentOf_none h]; simp
  | some p =>
    rw [detach_of_parentOf h, childIds_setParent, childIds_setChildren]
    by_cases hq : q = p
    · simp [hq]
    · simp [hq, Ne.symm hq]

/-! ## Adding a node -/

theorem find?_append (g : Graph) (node : Node) (c : String) (h : g.contains node.id = false) :
    ({ g with nodes := g.nodes ++ [node] } : Graph).find? c =
      if c = node.id then some node else g.find? c := by
  rw [contains_eq_isSome, Option.isSome_eq_false_iff, Option.isNone_iff_eq_none] at h
  rw [find?, List.find?_append]
  by_cases hc : c = node.id
  · rw [hc, if_pos rfl, show g.nodes.find? (·.id == node.id) = none from h]
    simp
  · rw [if_neg hc, List.find?_cons_of_neg (by simpa using Ne.symm hc)]
    simp [find?]

/-- A node is added when its id is new and its parent, if it names one, is there or is itself. -/
theorem add_ok (h : g.add node = .ok g') :
    g.contains node.id = false ∧ (∀ p, node.parent = some p → p = node.id ∨ g.contains p = true) ∧
      g'.nodes = g.nodes ++ [node] ∧
      ∀ q, g'.childIds q =
        if node.parent = some q then g.childIds q ++ [node.id] else g.childIds q := by
  unfold add at h
  split at h
  · cases h
  · rename_i hc
    refine ⟨by simpa using hc, ?_⟩
    cases hp : node.parent with
    | none =>
      simp only [hp, Except.ok.injEq] at h
      subst h
      exact ⟨by simp, rfl, fun q => by simp [childIds]⟩
    | some p =>
      simp only [hp] at h
      split at h
      · rename_i hin
        simp only [Except.ok.injEq] at h
        subst h
        refine ⟨?_, rfl, fun q => ?_⟩
        · rintro q ⟨⟩
          have : g.contains p = true ∨ node.id = p := by simpa [contains] using hin
          exact this.symm.imp Eq.symm id
        · rw [childIds_setChildren]
          by_cases hq : q = p
          · simp [hq, childIds]
          · simp [hq, Ne.symm hq, childIds]
      · cases h

/-- Adding fails for no other reason than an id in use, or a parent that is not there. -/
theorem add_isOk_iff : (∃ g', g.add node = .ok g') ↔
    g.contains node.id = false ∧ ∀ p, node.parent = some p → p = node.id ∨ g.contains p = true := by
  constructor
  · rintro ⟨g', h⟩
    exact ⟨(add_ok h).1, (add_ok h).2.1⟩
  · rintro ⟨hnew, hparent⟩
    cases hp : node.parent with
    | none => exact ⟨_, by simp only [add, hnew, hp]; rfl⟩
    | some p =>
      have hin : ({ g with nodes := g.nodes ++ [node] } : Graph).contains p = true := by
        simp only [contains, List.any_append, Bool.or_eq_true]
        exact (hparent p hp).symm.imp id fun he => by simp [he]
      exact ⟨_, by simp only [add, hnew, hp, hin]; rfl⟩

theorem find?_add (h : g.add node = .ok g') (c : String) :
    g'.find? c = if c = node.id then some node else g.find? c := by
  obtain ⟨hnew, -, hnodes, -⟩ := add_ok h
  rw [find?, hnodes]
  exact find?_append g node c hnew

theorem parentOf_add (h : g.add node = .ok g') (c : String) :
    g'.parentOf c = if c = node.id then node.parent else g.parentOf c := by
  rw [parentOf, find?_add h]
  split <;> rfl

theorem name_add (h : g.add node = .ok g') : g'.name = g.name := by
  unfold add at h
  split at h
  · cases h
  · split at h
    · cases h
      rfl
    · dsimp only at h
      split at h
      · cases h
        rfl
      · cases h

/-! ## Hanging a node off another one -/

theorem placeAmong_le (siblings : List String) (place : Option Int) :
    placeAmong siblings place ≤ siblings.length := by
  cases place with
  | none => exact Nat.le_refl _
  | some i => exact Nat.min_le_right _ _

/-- A node is hung off another one that is there. It leaves the children that it was among, and
joins those of the other node. -/
theorem attach_ok {child root : String} {place : Option Int}
    (h : g.attach child root place = .ok g') :
    g.contains child = true ∧ g.contains root = true ∧ child ≠ root ∧
      g'.nodes.map (·.id) = g.nodes.map (·.id) ∧
      (∀ c, g'.parentOf c = if c = child then some root else g.parentOf c) ∧
      ∀ q, g'.childIds q =
        if q = root then
          ((g.detach child).childIds root).insertIdx
            (placeAmong ((g.detach child).childIds root) place) child
        else (g.detach child).childIds q := by
  unfold attach at h
  split at h
  · cases h
  · rename_i hchild
    split at h
    · cases h
    · rename_i hroot
      split at h
      · cases h
      · rename_i hne
        simp only [Bool.not_eq_true, Bool.not_eq_false'] at hchild hroot
        simp only [Except.ok.injEq] at h
        subst h
        refine ⟨hchild, hroot, hne, ?_, fun c => ?_, fun q => ?_⟩
        · rw [ids_setParent]
          exact ids_detach g child
        · rw [parentOf_setParent (by simpa using hchild), parentOf_setChildren, parentOf_detach]
          by_cases hc : c = child <;> simp [hc]
        · rw [childIds_setParent, childIds_setChildren]

/-- Hanging a node off another one fails for no other reason than one that is not there, or both
being the same. -/
theorem attach_isOk_iff {child root : String} {place : Option Int} :
    (∃ g', g.attach child root place = .ok g') ↔
      g.contains child = true ∧ g.contains root = true ∧ child ≠ root := by
  constructor
  · rintro ⟨g', h⟩
    obtain ⟨hchild, hroot, hne, -⟩ := attach_ok h
    exact ⟨hchild, hroot, hne⟩
  · rintro ⟨hchild, hroot, hne⟩
    exact ⟨_, by rw [attach, hchild, hroot, if_neg (by simp), if_neg (by simp), if_neg hne]⟩

/-! ## Taking a node out -/

/-- Behind the nodes that are there, a new one can be dropped again. -/
theorem filter_append_new (h : g.contains node.id = false) :
    (g.nodes ++ [node]).filter (·.id != node.id) = g.nodes := by
  rw [List.filter_append, List.filter_eq_self.2]
  · simp
  · intro other ho
    have hnot : node.id ∉ g.nodes.map (·.id) := by simp [← contains_iff, h]
    simp only [bne_iff_ne, ne_eq]
    exact fun he => hnot (he ▸ List.mem_map_of_mem ho)

theorem find?_filter_ne (nodes : List Node) (id c : String) :
    (nodes.filter (·.id != id)).find? (·.id == c) =
      if c = id then none else nodes.find? (·.id == c) := by
  rw [List.find?_filter]
  by_cases hc : c = id
  · rw [if_pos hc, List.find?_eq_none]
    simp [hc]
  · rw [if_neg hc]
    congr 1
    funext node
    by_cases hn : node.id = c
    · simp [hn, hc]
    · simp [hn]

/-- A node that is not there is not taken out. -/
theorem remove_of_not_contains (h : g.contains id = false) : g.remove id = g := by
  simp [remove, h]

/-- The graph in which a node and its children are off their parents. -/
def loosen (g : Graph) (id : String) : Graph :=
  ((g.detach id).childIds id).foldl detach (g.detach id)

@[simp] theorem name_loosen (g : Graph) (id : String) : (g.loosen id).name = g.name :=
  List.foldlRecOn _ detach (name_detach g id) fun g' hg' c _ => (name_detach g' c).trans hg'

theorem name_remove (g : Graph) (id : String) : (g.remove id).name = g.name := by
  cases h : g.contains id with
  | false => rw [remove_of_not_contains h]
  | true =>
    simp only [remove, h, ↓reduceIte]
    exact name_loosen g id

theorem nodes_remove (h : g.contains id = true) :
    (g.remove id).nodes = (g.loosen id).nodes.filter (·.id != id) := by
  simp [remove, h, loosen]

theorem parentOf_remove (h : g.contains id = true) (c : String) :
    (g.remove id).parentOf c = if c = id then none else (g.loosen id).parentOf c := by
  rw [parentOf, find?, nodes_remove h, find?_filter_ne]
  split <;> rfl

theorem childIds_remove (h : g.contains id = true) (q : String) :
    (g.remove id).childIds q = if q = id then [] else (g.loosen id).childIds q := by
  simp only [remove, h, ↓reduceIte, childIds, lookup_filter_ne]
  split <;> rfl

theorem contains_remove (h : g.contains id = true) (c : String) :
    (g.remove id).contains c = true ↔ c ≠ id ∧ (g.loosen id).contains c = true := by
  rw [contains_iff, nodes_remove h, contains_iff]
  simp only [List.mem_map, List.mem_filter, bne_iff_ne, ne_eq]
  constructor
  · rintro ⟨node, ⟨hm, hne⟩, rfl⟩
    exact ⟨hne, node, hm, rfl⟩
  · rintro ⟨hne, node, hm, rfl⟩
    exact ⟨node, ⟨hm, hne⟩, rfl⟩

theorem parentOf_foldl_detach (ids : List String) (g : Graph) (c : String) :
    (ids.foldl detach g).parentOf c = if c ∈ ids then none else g.parentOf c := by
  induction ids generalizing g with
  | nil => simp
  | cons id rest ih =>
    rw [List.foldl_cons, ih, parentOf_detach]
    by_cases hc : c = id
    · simp [hc]
    · simp [hc]

end CueGraph.Graph
