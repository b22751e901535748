import CueGraph.Proofs.Graph.Failed

/-!
# Nodes that are their own parents

Hanging a node off itself is refused. But a node goes into the graph before its parent is looked
for, so one that names itself as its parent finds itself there, and is its own child from then on.
There is no other way for a node to become its own parent, and it stays so until it is taken off its
parent, hung off another node, or taken out (`parentOf_perform_self`).

Main statement: `own_parents_exact`.
-/

namespace CueGraph.Graph

variable {g : Graph}

/-- The node that a call is to put in. -/
def Call.newNode? : Call → Option Node
  | .add node => some node
  | .create fresh type id config parent =>
    some { id := chosenId fresh id, type, config, parent }
  | _ => none

/-- The call is to put in a node of this id that names itself as its parent. -/
def Call.NamesItself (id : String) (c : Call) : Prop :=
  ∃ node, c.newNode? = some node ∧ node.id = id ∧ node.parent = some id

/-- The call takes the node off itself: it takes it off its parent or out of the graph, or hangs it
off another node that is there. -/
def Frees (g : Graph) (id : String) : Call → Prop
  | .add _ => False
  | .create .. => False
  | .attach child root _ => child = id ∧ root ≠ id ∧ g.contains root = true
  | .detach child => child = id
  | .remove child => child = id

/-- None of the calls takes the node off itself. -/
def Keeps (g : Graph) (id : String) (calls : List Call) : Prop :=
  ∀ front c back, calls = front ++ c :: back → ¬(g.performAll front).Frees id c

/-- The calls put in a node that names itself as its parent while no node has its id, and none of
the calls behind takes it off itself. -/
def PutsInOwn (g : Graph) (id : String) (calls : List Call) : Prop :=
  ∃ front c back, calls = front ++ c :: back ∧ (g.performAll front).contains id = false ∧
    c.NamesItself id ∧ (g.performAll (front ++ [c])).Keeps id back

/-! ## One call -/

/-- A node that is to go in becomes its own parent if it names itself and its id is new. -/
theorem parentOf_settle_add (g : Graph) (node : Node) (id : String) :
    (g.settle (g.add node)).1.parentOf id = some id ↔
      (g.contains id = false ∧ node.id = id ∧ node.parent = some id) ∨ g.parentOf id = some id := by
  cases hadd : g.add node with
  | ok g' =>
    have hnew : g.contains node.id = false := (add_ok hadd).1
    show g'.parentOf id = some id ↔ _
    rw [parentOf_add hadd]
    by_cases hid : id = node.id
    · have hnone : g.parentOf id ≠ some id := by
        intro hp
        rw [hid] at hp
        rw [contains_of_parentOf hp] at hnew
        cases hnew
      rw [if_pos hid]
      simp [hid ▸ hnone, hid, hnew]
    · simp [hid, Ne.symm hid]
  | error e =>
    show g.parentOf id = some id ↔ _
    constructor
    · exact .inr
    · rintro (⟨hnew, rfl, hparent⟩ | hp)
      · -- the node finds itself, so nothing stands in its way
        have hok : ∃ g', g.add node = .ok g' := by
          apply add_isOk_iff.2
          exact ⟨hnew, fun p hp => .inl (Option.some.inj (hp.symm.trans hparent))⟩
        obtain ⟨g', hok⟩ := hok
        rw [hok] at hadd
        cases hadd
      · exact hp

theorem parentOf_settle_attach (g : Graph) (child root : String) (place : Option Int)
    (id : String) :
    (g.settle (g.attach child root place)).1.parentOf id = some id ↔
      g.parentOf id = some id ∧ ¬g.Frees id (.attach child root place) := by
  unfold Frees
  cases hattach : g.attach child root place with
  | ok g' =>
    obtain ⟨hchild, hroot, hne, -, hparent, -⟩ := attach_ok hattach
    show g'.parentOf id = some id ↔ _
    rw [hparent]
    by_cases hid : id = child
    · subst hid
      simp [hne.symm, hroot]
    · simp [hid, Ne.symm hid]
  | error e =>
    show g.parentOf id = some id ↔ _
    refine ⟨fun hp => ⟨hp, ?_⟩, And.left⟩
    rintro ⟨rfl, hne, hroot⟩
    have hok : ∃ g', g.attach child root place = .ok g' := by
      apply attach_isOk_iff.2
      exact ⟨contains_of_parentOf hp, hroot, hne.symm⟩
    obtain ⟨g', hok⟩ := hok
    rw [hok] at hattach
    cases hattach

theorem parentOf_remove_self (h : g.Linked) (child id : String) :
    (g.remove child).parentOf id = some id ↔ g.parentOf id = some id ∧ child ≠ id := by
  cases hin : g.contains child with
  | false =>
    rw [remove_of_not_contains hin]
    refine ⟨fun hp => ⟨hp, ?_⟩, And.left⟩
    rintro rfl
    rw [contains_of_parentOf hp] at hin
    cases hin
  | true =>
    rw [parentOf_remove hin, parentOf_loosen h]
    by_cases hid : id = child
    · simp [hid]
    · by_cases hp : g.parentOf id = some child
      · simp [hid, hp, Ne.symm hid]
      · simp [hid, hp, Ne.symm hid]

/-- After a call a node is its own parent if the call has put it in so, or if it was its own parent
before and the call did not take it off itself. -/
theorem parentOf_perform_self (h : g.Linked) (c : Call) (id : String) :
    (g.perform c).1.parentOf id = some id ↔
      (g.contains id = false ∧ c.NamesItself id) ∨ (g.parentOf id = some id ∧ ¬g.Frees id c) := by
  cases c with
  | add node =>
    rw [perform, addInPlace_eq, parentOf_settle_add]
    simp [Call.NamesItself, Call.newNode?, Frees]
  | create fresh type given config parent =>
    rw [perform, create, parentOf_settle_add]
    simp [Call.NamesItself, Call.newNode?, Frees, chosenId]
  | attach child root place =>
    rw [perform, parentOf_settle_attach]
    simp [Call.NamesItself, Call.newNode?]
  | detach child =>
    rw [perform, parentOf_detach]
    by_cases hid : id = child
    · simp [Call.NamesItself, Call.newNode?, Frees, hid]
    · simp [Call.NamesItself, Call.newNode?, Frees, hid, Ne.symm hid]
  | remove child =>
    rw [perform, parentOf_remove_self h]
    simp [Call.NamesItself, Call.newNode?, Frees]

/-! ## Calls one after the other -/

theorem keeps_cons (g : Graph) (id : String) (c : Call) (rest : List Call) :
    g.Keeps id (c :: rest) ↔ ¬g.Frees id c ∧ (g.perform c).1.Keeps id rest := by
  constructor
  · intro h
    refine ⟨h [] c rest rfl, fun front d back hsplit => ?_⟩
    exact h (c :: front) d back (congrArg (c :: ·) hsplit)
  · rintro ⟨hc, hrest⟩ front d back hsplit
    cases front with
    | nil =>
      obtain ⟨rfl, -⟩ := List.cons.inj hsplit
      exact hc
    | cons e front =>
      obtain ⟨rfl, htail⟩ := List.cons.inj hsplit
      exact hrest front d back htail

theorem putsInOwn_cons (g : Graph) (id : String) (c : Call) (rest : List Call) :
    g.PutsInOwn id (c :: rest) ↔
      (g.contains id = false ∧ c.NamesItself id ∧ (g.perform c).1.Keeps id rest) ∨
        (g.perform c).1.PutsInOwn id rest := by
  constructor
  · rintro ⟨front, d, back, hsplit, hnew, hnames, hkeeps⟩
    cases front with
    | nil =>
      obtain ⟨rfl, rfl⟩ := List.cons.inj hsplit
      exact .inl ⟨hnew, hnames, hkeeps⟩
    | cons e front =>
      obtain ⟨rfl, htail⟩ := List.cons.inj hsplit
      exact .inr ⟨front, d, back, htail, hnew, hnames, hkeeps⟩
  · rintro (⟨hnew, hnames, hkeeps⟩ | ⟨front, d, back, rfl, hnew, hnames, hkeeps⟩)
    · exact ⟨[], c, rest, rfl, hnew, hnames, hkeeps⟩
    · exact ⟨c :: front, d, back, rfl, hnew, hnames, hkeeps⟩

/-- A node is its own parent after calls if it was so before and they keep it, or if they put it in
so. -/
theorem parentOf_performAll_self (h : g.Linked) (calls : List Call) (id : String) :
    (g.performAll calls).parentOf id = some id ↔
      (g.parentOf id = some id ∧ g.Keeps id calls) ∨ g.PutsInOwn id calls := by
  induction calls generalizing g with
  | nil =>
    have hkeeps : g.Keeps id [] := fun front c back hsplit => by simp at hsplit
    have hputs : ¬g.PutsInOwn id [] := by
      rintro ⟨front, c, back, hsplit, -⟩
      simp at hsplit
    simp [performAll, hkeeps, hputs]
  | cons c rest ih =>
    have hstep := ih (linked_perform h c)
    rw [parentOf_perform_self h] at hstep
    rw [keeps_cons, putsInOwn_cons]
    refine hstep.trans ?_
    grind

/-! ## Main theorem -/

/-- In a graph that calls lead to, an id is among its own children exactly if it belongs to a node
that is its own parent. That is so exactly if a call has put the node in under its own name and no
later call has taken it off itself. So where no call puts in a node that names itself, no node is
its own parent or child. -/
theorem own_parents_exact (name : String) (calls : List Call) :
    let g := ({ name } : Graph).performAll calls
    (∀ id, id ∈ g.childIds id ↔ ∃ node ∈ g.nodes, node.id = id ∧ node.parent = some id) ∧
    (∀ id, id ∈ g.childIds id ↔ ({ name } : Graph).PutsInOwn id calls) ∧
    ((∀ c ∈ calls, ∀ id, ¬c.NamesItself id) →
      (∀ node ∈ g.nodes, node.parent ≠ some node.id) ∧ ∀ id, id ∉ g.childIds id) := by
  intro g
  have hl : g.Linked := reachable_linked ((Reachable.empty name).performAll calls)
  have hnode : ∀ id, id ∈ g.childIds id ↔
      ∃ node ∈ g.nodes, node.id = id ∧ node.parent = some id := by
    intro id
    rw [hl.mem_childIds, parentOf_eq_some_iff]
    simp only [find?_eq_some_iff hl.ids, and_assoc]
  have hexact : ∀ id, id ∈ g.childIds id ↔ ({ name } : Graph).PutsInOwn id calls := by
    intro id
    rw [hl.mem_childIds, parentOf_performAll_self (linked_empty name)]
    have hempty : ({ name } : Graph).parentOf id ≠ some id := by simp [parentOf, find?]
    simp [hempty]
  refine ⟨hnode, hexact, fun hnames => ?_⟩
  have hfree : ∀ id, id ∉ g.childIds id := by
    intro id hm
    obtain ⟨front, c, back, rfl, -, hc, -⟩ := (hexact id).1 hm
    exact hnames c (by simp) id hc
  refine ⟨fun node hm hp => ?_, hfree⟩
  exact hfree node.id ((hnode node.id).2 ⟨node, hm, rfl, hp⟩)

/-- Hung off itself, a node stays what it was: its own parent if it went in so, and otherwise not. -/
theorem own_parents_exact_fx :
    let own : Node := { id := "fx", type := "effect", parent := some "fx" }
    let refused : Call := .attach "fx" "fx" none
    let calls : List Call := [.add { own with parent := none }, refused]
    "fx" ∈ (({} : Graph).performAll [.add own, refused]).childIds "fx" ∧
      (∀ c ∈ calls, ∀ id, ¬c.NamesItself id) ∧
      ∀ id, id ∉ (({} : Graph).performAll calls).childIds id := by
  intro own refused calls
  have hnames : ∀ c ∈ calls, ∀ id, ¬c.NamesItself id := by
    simp [calls, refused, own, Call.NamesItself, Call.newNode?]
  have hkeeps : (({} : Graph).performAll [.add own]).Keeps "fx" [refused] := by
    apply (keeps_cons _ _ _ _).2
    refine ⟨fun hfrees => hfrees.2.1 rfl, ?_⟩
    intro front c back hsplit
    simp at hsplit
  obtain ⟨-, hexact, -⟩ := own_parents_exact "graph" [.add own, refused]
  obtain ⟨-, -, hfree⟩ := own_parents_exact "graph" calls
  refine ⟨(hexact "fx").2 ?_, hnames, (hfree hnames).2⟩
  exact ⟨[], .add own, [refused], rfl, rfl, ⟨own, rfl, rfl, rfl⟩, hkeeps⟩

/-- A node that names itself when it goes in is its own parent. -/
theorem own_parent_reached :
    ¬∀ g : Graph, g.Reachable →
      (∀ node ∈ g.nodes, node.parent ≠ some node.id) ∧ ∀ id, id ∉ g.childIds id := by
  intro h
  let own : Node := { id := "fx", type := "effect", parent := some "fx" }
  have hg : (({} : Graph).performAll [.add own]).Reachable :=
    (Reachable.empty "graph").performAll _
  apply (h _ hg).1 own
  · exact List.mem_singleton_self own
  · rfl

end CueGraph.Graph
