import CueGraph.Document.Schema
import CueGraph.NodeType.Registry
import CueGraph.Proofs.Fallible
import Mathlib.Data.List.Forall2

/-!
# Which documents are valid

A document is checked in order and with the ids met so far at hand. What is a valid document depends
on no order: it lists nodes that are well formed one by one (`IsNode`), under ids that differ, and
each parent is another node of the list, in front or behind (`Consistent`).

Main statement: `validate_iff`. The loop over the nodes is `checkNodes_eq_ok`, the loop over the
links `checkLinks_eq_ok`.
-/

namespace CueGraph.Schema

variable {known : String → Bool} {fields : Fields} {place : Nat} {fault : SchemaError}

/-! ## Valid documents -/

/-- A field is missing or null. -/
def Absent (fields : Fields) (key : String) : Prop :=
  fields.get? key = none ∨ fields.get? key = some .null

/-- A value is a node with these facts. -/
structure IsNode (v : Value) (facts : NodeFacts) : Prop where
  object : v = .object v.fields
  id : v.fields.get? "id" = some (.str facts.id)
  id_ne : facts.id ≠ ""
  type : v.fields.get? "type" = some (.str facts.type)
  config : Absent v.fields "config" ∨
    ∃ options, v.fields.get? "config" = some (.object options) ∧
      ∀ option ∈ options, option.2.isPrimitive
  label : Absent v.fields "label" ∨ ∃ label, v.fields.get? "label" = some (.str label)
  parent : (Absent v.fields "parent" ∧ facts.parent = none) ∨
    ∃ parent, v.fields.get? "parent" = some (.str parent) ∧ facts.parent = some parent

/-- A document lists nodes with these facts. -/
structure Lists (v : Value) (facts : List NodeFacts) : Prop where
  object : v = .object v.fields
  name : ∃ name, v.fields.get? "graph_name" = some (.str name)
  nodes : ∃ nodes, v.fields.get? "nodes" = some (.list nodes) ∧ List.Forall₂ IsNode nodes facts

/-- The ids of nodes differ, and each parent is another one of the nodes. -/
structure Consistent (facts : List NodeFacts) : Prop where
  distinct : (facts.map (·.id)).Nodup
  linked : ∀ i (hi : i < facts.length) parent, facts[i].parent = some parent →
    ∃ j, ∃ hj : j < facts.length, j ≠ i ∧ facts[j].id = parent

/-- One warning for each node of an unknown type, in order, from some place on. -/
def unknownTypes (known : String → Bool) (place : Nat) (facts : List NodeFacts) :
    List TypeWarning :=
  ((facts.zipIdx place).filter fun entry => !known entry.1.type).map fun entry =>
    ⟨entry.2, entry.1.type⟩

theorem IsNode.unique {v : Value} {facts facts' : NodeFacts} (h : IsNode v facts)
    (h' : IsNode v facts') : facts = facts' := by
  obtain ⟨id, type, parent⟩ := facts
  obtain ⟨id', type', parent'⟩ := facts'
  have hid : id = id' := by simpa using h.id.symm.trans h'.id
  have htype : type = type' := by simpa using h.type.symm.trans h'.type
  have hparent : parent = parent' := by
    -- a field that is missing or null holds no text
    rcases h.parent with ⟨ha, hp⟩ | ⟨p, ha, hp⟩
    · rcases h'.parent with ⟨-, hp'⟩ | ⟨p', ha', -⟩
      · exact hp.trans hp'.symm
      · rcases ha with ha | ha <;> rw [ha] at ha' <;> cases ha'
    · rcases h'.parent with ⟨ha', -⟩ | ⟨p', ha', hp'⟩
      · rcases ha' with ha' | ha' <;> rw [ha'] at ha <;> cases ha
      · rw [ha] at ha'
        cases ha'
        exact hp.trans hp'.symm
  rw [hid, htype, hparent]

/-- A document lists its nodes in one way. -/
theorem Lists.unique {v : Value} {facts facts' : List NodeFacts} (h : Lists v facts)
    (h' : Lists v facts') : facts = facts' := by
  obtain ⟨nodes, hnodes, hall⟩ := h.nodes
  obtain ⟨nodes', hnodes', hall'⟩ := h'.nodes
  rw [hnodes] at hnodes'
  cases hnodes'
  have hunique : Relator.RightUnique IsNode := fun _ _ _ => IsNode.unique
  exact List.right_unique_forall₂' hunique hall hall'

/-! ## The steps of a check -/

theorem require_eq_ok {condition : Bool} {u : Unit} :
    require condition fault = .ok u ↔ condition = true := by
  cases condition <;> simp [require]

theorem requireText_eq_ok {v : Value} {s : String} :
    requireText v fault = .ok s ↔ v = .str s := by
  cases v <;> simp [requireText]

theorem requireObject_eq_ok {v : Value} :
    requireObject v fault = .ok fields ↔ v = .object fields := by
  cases v <;> simp [requireObject]

theorem requireField_eq_ok {key : String} {v : Value} :
    requireField fields key fault = .ok v ↔ fields.get? key = some v := by
  unfold requireField
  cases fields.get? key <;> simp

theorem optionalText_eq_ok {key : String} {text : Option String} :
    optionalText fields key fault = .ok text ↔
      (Absent fields key ∧ text = none) ∨
        ∃ s, fields.get? key = some (.str s) ∧ text = some s := by
  unfold optionalText Absent
  rcases fields.get? key with _ | (_ | _ | _ | _ | _ | _ | _) <;> simp [eq_comm]

theorem nestedOption?_eq_none {options : Fields} :
    nestedOption? options = none ↔ ∀ option ∈ options, option.2.isPrimitive := by
  simp [nestedOption?, List.find?_eq_none]

theorem checkConfig_eq_ok {u : Unit} :
    checkConfig place fields = .ok u ↔
      Absent fields "config" ∨ ∃ options, fields.get? "config" = some (.object options) ∧
        ∀ option ∈ options, option.2.isPrimitive := by
  simp only [← nestedOption?_eq_none]
  unfold checkConfig Absent
  rcases fields.get? "config" with _ | (_ | _ | _ | _ | _ | _ | options) <;> simp
  cases nestedOption? options <;> simp

theorem checkNode_eq_ok {seen : List String} {v : Value} {facts : NodeFacts} :
    checkNode place seen v = .ok facts ↔ IsNode v facts ∧ facts.id ∉ seen := by
  simp only [checkNode, bind_eq_ok, requireObject_eq_ok, requireField_eq_ok, requireText_eq_ok,
    require_eq_ok, checkConfig_eq_ok, optionalText_eq_ok]
  constructor
  · rintro ⟨fields, rfl, _, hid, _, htype, id, rfl, _, hne, type, rfl, _, hseen, _, hconfig, label,
      hlabel, parent, hparent, hfacts⟩
    obtain rfl : _ = facts := Except.ok.inj hfacts
    refine ⟨⟨rfl, hid, by simpa using hne, htype, hconfig, ?_, hparent⟩, by simpa using hseen⟩
    exact hlabel.imp And.left fun ⟨s, h, _⟩ => ⟨s, h⟩
  · rintro ⟨⟨hobject, hid, hne, htype, hconfig, hlabel, hparent⟩, hseen⟩
    have hlabel' : ∃ label, (Absent v.fields "label" ∧ label = none) ∨
        ∃ s, v.fields.get? "label" = some (.str s) ∧ label = some s := by
      rcases hlabel with h | ⟨s, h⟩
      · exact ⟨none, .inl ⟨h, rfl⟩⟩
      · exact ⟨some s, .inr ⟨s, h, rfl⟩⟩
    obtain ⟨label, hlabel'⟩ := hlabel'
    exact ⟨v.fields, hobject, _, hid, _, htype, facts.id, rfl, (), by simpa using hne, facts.type,
      rfl, (), by simpa using hseen, (), hconfig, label, hlabel', facts.parent, hparent, rfl⟩

/-! ## The loop over the nodes -/

theorem map_eq_ok {ε α β : Type} {x : Except ε α} {f : α → β} {b : β} :
    x.map f = .ok b ↔ ∃ a, x = .ok a ∧ f a = b := by
  cases x <;> simp [Except.map]

/-- The nodes pass one by one when they are nodes whose ids differ, from each other and from the
ids in front. -/
theorem checkNodes_eq_ok {seen : List String} {nodes : List Value} {facts : List NodeFacts} :
    (checkNodes known false place seen nodes).result = .ok facts ↔
      List.Forall₂ IsNode nodes facts ∧ (facts.map (·.id)).Nodup ∧
        ∀ node ∈ facts, node.id ∉ seen := by
  -- each node that passes is one more to differ from, so the ids in front are general
  induction nodes generalizing place seen facts with
  | nil =>
    rw [checkNodes, List.forall₂_nil_left_iff]
    constructor
    · intro h
      obtain rfl : _ = facts := Except.ok.inj h
      simp
    · rintro ⟨rfl, -⟩
      rfl
  | cons v rest ih =>
    rw [checkNodes]
    cases hv : checkNode place seen v with
    | error e =>
      constructor
      · intro h
        cases h
      · rintro ⟨hall, -, hseen⟩
        obtain ⟨node, more, hnode, -, rfl⟩ := List.forall₂_cons_left_iff.1 hall
        have hok : checkNode place seen v = .ok node :=
          checkNode_eq_ok.2 ⟨hnode, hseen node List.mem_cons_self⟩
        rw [hv] at hok
        cases hok
    | ok node =>
      obtain ⟨hnode, hnew⟩ := checkNode_eq_ok.1 hv
      simp only [Bool.and_false, Bool.false_eq_true, if_false, map_eq_ok, ih]
      constructor
      · rintro ⟨more, ⟨hall, hdistinct, hseen⟩, rfl⟩
        refine ⟨.cons hnode hall, ?_, ?_⟩
        · rw [List.map_cons, List.nodup_cons]
          refine ⟨fun hmem => ?_, hdistinct⟩
          obtain ⟨other, ho, hid⟩ := List.mem_map.1 hmem
          exact hseen other ho (by simp [hid])
        · rintro other (_ | ⟨_, ho⟩)
          · exact hnew
          · exact fun hs => hseen other ho (List.mem_append_left _ hs)
      · rintro ⟨hall, hdistinct, hseen⟩
        obtain ⟨node', more, hnode', hmore, rfl⟩ := List.forall₂_cons_left_iff.1 hall
        have hok : checkNode place seen v = .ok node' :=
          checkNode_eq_ok.2 ⟨hnode', hseen node' List.mem_cons_self⟩
        obtain rfl : node = node' := Except.ok.inj (hv.symm.trans hok)
        rw [List.map_cons, List.nodup_cons] at hdistinct
        refine ⟨more, ⟨hmore, hdistinct.2, fun other ho hs => ?_⟩, rfl⟩
        rcases List.mem_append.1 hs with hs | hs
        · exact hseen other (List.mem_cons_of_mem _ ho) hs
        · rw [List.mem_singleton] at hs
          exact hdistinct.1 (hs ▸ List.mem_map_of_mem ho)

/-- When the nodes pass, the warnings are those about the unknown types. -/
theorem checkNodes_warnings {seen : List String} {nodes : List Value} {facts : List NodeFacts}
    (h : (checkNodes known false place seen nodes).result = .ok facts) :
    (checkNodes known false place seen nodes).warnings = unknownTypes known place facts := by
  induction nodes generalizing place seen facts with
  | nil =>
    obtain rfl : _ = facts := Except.ok.inj h
    rfl
  | cons v rest ih =>
    rw [checkNodes] at h ⊢
    cases hv : checkNode place seen v with
    | error e =>
      rw [hv] at h
      cases h
    | ok node =>
      simp only [hv, Bool.and_false, Bool.false_eq_true, if_false, map_eq_ok] at h ⊢
      obtain ⟨more, hmore, rfl⟩ := h
      rw [ih hmore]
      cases hk : known node.type <;> simp [unknownTypes, hk]

/-- A strict check lets the nodes pass when the other one does so without a warning. -/
theorem checkNodes_strict {seen : List String} {nodes : List Value} {facts : List NodeFacts} :
    (checkNodes known true place seen nodes).result = .ok facts ↔
      (checkNodes known false place seen nodes).result = .ok facts ∧
        (checkNodes known false place seen nodes).warnings = [] := by
  induction nodes generalizing place seen facts with
  | nil => simp [checkNodes]
  | cons v rest ih =>
    simp only [checkNodes]
    cases checkNode place seen v with
    | error e => simp
    | ok node =>
      cases hk : known node.type with
      | false => simp [hk]
      | true =>
        simp only [hk, Bool.not_true, Bool.false_and, Bool.false_eq_true, if_false, map_eq_ok, ih,
          List.nil_append]
        constructor
        · rintro ⟨more, ⟨hmore, hnone⟩, rfl⟩
          exact ⟨⟨more, hmore, rfl⟩, hnone⟩
        · rintro ⟨⟨more, hmore, rfl⟩, hnone⟩
          exact ⟨more, ⟨hmore, hnone⟩, rfl⟩

/-! ## The loop over the links -/

theorem checkLink_eq_ok {ids : List String} {node : NodeFacts} {u : Unit} :
    checkLink ids place node = .ok u ↔
      ∀ parent, node.parent = some parent → parent ∈ ids ∧ parent ≠ node.id := by
  unfold checkLink
  cases node.parent with
  | none => simp
  | some parent => simp [bind_eq_ok, require_eq_ok]

theorem checkLinks_eq_ok {ids : List String} {facts : List NodeFacts} {u : Unit} :
    checkLinks ids place facts = .ok u ↔
      ∀ node ∈ facts, ∀ parent, node.parent = some parent → parent ∈ ids ∧ parent ≠ node.id := by
  induction facts generalizing place with
  | nil => simp [checkLinks]
  | cons node rest ih => simp [checkLinks, bind_eq_ok, checkLink_eq_ok, ih]

/-- Among nodes whose ids differ, another node is a node with another id. -/
theorem consistent_iff {facts : List NodeFacts} :
    Consistent facts ↔ (facts.map (·.id)).Nodup ∧ ∀ node ∈ facts, ∀ parent,
      node.parent = some parent → parent ∈ facts.map (·.id) ∧ parent ≠ node.id := by
  constructor
  · rintro ⟨hdistinct, hlinked⟩
    refine ⟨hdistinct, fun node hn parent hp => ?_⟩
    obtain ⟨i, hi, rfl⟩ := List.getElem_of_mem hn
    obtain ⟨j, hj, hne, rfl⟩ := hlinked i hi parent hp
    refine ⟨List.mem_map_of_mem (List.getElem_mem hj), fun he => hne ?_⟩
    have hj' : j < (facts.map (·.id)).length := by simpa using hj
    have hi' : i < (facts.map (·.id)).length := by simpa using hi
    have hids : (facts.map (·.id))[j] = (facts.map (·.id))[i] := by
      rw [List.getElem_map, List.getElem_map]
      exact he
    exact (List.getElem_inj hdistinct).1 hids
  · rintro ⟨hdistinct, hlinked⟩
    refine ⟨hdistinct, fun i hi parent hp => ?_⟩
    obtain ⟨hmem, hne⟩ := hlinked _ (List.getElem_mem hi) parent hp
    obtain ⟨other, ho, rfl⟩ := List.mem_map.1 hmem
    obtain ⟨j, hj, rfl⟩ := List.getElem_of_mem ho
    refine ⟨j, hj, ?_, rfl⟩
    rintro rfl
    exact hne rfl

/-! ## Main theorem -/

theorem nodesOf_eq_ok {v : Value} {nodes : List Value} :
    nodesOf v = .ok nodes ↔ v = .object v.fields ∧
      (∃ name, v.fields.get? "graph_name" = some (.str name)) ∧
      v.fields.get? "nodes" = some (.list nodes) := by
  simp only [nodesOf, bind_eq_ok, requireObject_eq_ok, requireField_eq_ok, requireText_eq_ok]
  constructor
  · rintro ⟨fields, rfl, _, hname, listed, hnodes, name, rfl, hlist⟩
    refine ⟨rfl, ⟨name, hname⟩, ?_⟩
    cases listed with
    | list nodes' =>
      obtain rfl : nodes' = nodes := Except.ok.inj hlist
      exact hnodes
    | _ => cases hlist
  · rintro ⟨hobject, ⟨name, hname⟩, hnodes⟩
    exact ⟨v.fields, hobject, _, hname, _, hnodes, name, rfl, rfl⟩

/-- A check goes through the nodes and then through their links. -/
theorem validate_eq_ok {strict : Bool} {v : Value} :
    (validate known strict v).result = .ok () ↔ ∃ nodes facts, nodesOf v = .ok nodes ∧
      (checkNodes known strict 0 [] nodes).result = .ok facts ∧
      checkLinks (facts.map (·.id)) 0 facts = .ok () := by
  unfold validate
  cases nodesOf v with
  | error e => simp
  | ok nodes =>
    cases hresult : (checkNodes known strict 0 [] nodes).result with
    | error e => simp [hresult, Except.bind]
    | ok facts => simp [hresult, Except.bind]

theorem warnings_of_nodesOf {strict : Bool} {v : Value} {nodes : List Value}
    (h : nodesOf v = .ok nodes) :
    (validate known strict v).warnings = (checkNodes known strict 0 [] nodes).warnings := by
  unfold validate
  rw [h]

/-- A check succeeds exactly for a document that lists consistent nodes, and then warns of exactly
the nodes of unknown types, in order. A strict check succeeds exactly if the other one does so
without a warning. -/
theorem validate_iff (r : Registry) (v : Value) :
    ((validate r.contains false v).result = .ok () ↔ ∃ facts, Lists v facts ∧ Consistent facts) ∧
    (∀ facts, Lists v facts → (validate r.contains false v).result = .ok () →
      (validate r.contains false v).warnings = unknownTypes r.contains 0 facts) ∧
    ((validate r.contains true v).result = .ok () ↔
      (validate r.contains false v).result = .ok () ∧
        (validate r.contains false v).warnings = []) := by
  refine ⟨?_, ?_, ?_⟩
  · simp only [validate_eq_ok, nodesOf_eq_ok, checkNodes_eq_ok, checkLinks_eq_ok, consistent_iff]
    constructor
    · rintro ⟨nodes, facts, ⟨hobject, hname, hnodes⟩, ⟨hall, hdistinct, -⟩, hlinks⟩
      exact ⟨facts, ⟨hobject, hname, nodes, hnodes, hall⟩, hdistinct, hlinks⟩
    · rintro ⟨facts, ⟨hobject, hname, nodes, hnodes, hall⟩, hdistinct, hlinks⟩
      exact ⟨nodes, facts, ⟨hobject, hname, hnodes⟩, ⟨hall, hdistinct, by simp⟩, hlinks⟩
  · intro facts hlists h
    obtain ⟨nodes, facts', hnodes, hpass, -⟩ := validate_eq_ok.1 h
    obtain ⟨hobject, hname, hnodes'⟩ := nodesOf_eq_ok.1 hnodes
    have hlists' : Lists v facts' := ⟨hobject, hname, nodes, hnodes', (checkNodes_eq_ok.1 hpass).1⟩
    rw [hlists.unique hlists', warnings_of_nodesOf hnodes, checkNodes_warnings hpass]
  · simp only [validate_eq_ok, checkNodes_strict]
    constructor
    · rintro ⟨nodes, facts, hnodes, ⟨hpass, hnone⟩, hlinks⟩
      exact ⟨⟨nodes, facts, hnodes, hpass, hlinks⟩, (warnings_of_nodesOf hnodes).trans hnone⟩
    · rintro ⟨⟨nodes, facts, hnodes, hpass, hlinks⟩, hnone⟩
      rw [warnings_of_nodesOf hnodes] at hnone
      exact ⟨nodes, facts, hnodes, ⟨hpass, hnone⟩, hlinks⟩

/-- A node whose parent comes later, both of unknown types. -/
theorem validate_iff_forward :
    let child : Value := .object [("id", .str "a"), ("type", .str "note"), ("parent", .str "b")]
    let root : Value := .object [("id", .str "b"), ("type", .str "track")]
    let v : Value := .object [("graph_name", .str "g"), ("nodes", .list [child, root])]
    Lists v [⟨"a", "note", some "b"⟩, ⟨"b", "track", none⟩] ∧
      (validate ({} : Registry).contains false v).result = .ok () ∧
      (validate ({} : Registry).contains false v).warnings = [⟨0, "note"⟩, ⟨1, "track"⟩] := by
  intro child root v
  have hlists : Lists v [⟨"a", "note", some "b"⟩, ⟨"b", "track", none⟩] := by
    refine ⟨rfl, ⟨"g", rfl⟩, [child, root], rfl, .cons ?_ (.cons ?_ .nil)⟩
    · exact ⟨rfl, rfl, by decide, rfl, .inl (.inl rfl), .inl (.inl rfl), .inr ⟨"b", rfl, rfl⟩⟩
    · exact ⟨rfl, rfl, by decide, rfl, .inl (.inl rfl), .inl (.inl rfl), .inl ⟨.inl rfl, rfl⟩⟩
  obtain ⟨hiff, hwarnings, -⟩ := validate_iff {} v
  have hok := hiff.2 ⟨_, hlists, consistent_iff.2 ⟨by decide, by simp⟩⟩
  exact ⟨hlists, hok, hwarnings _ hlists hok⟩

end CueGraph.Schema
