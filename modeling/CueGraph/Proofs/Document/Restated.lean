import CueGraph.Document.Graph
import CueGraph.Proofs.Document.Valid
import CueGraph.Proofs.Graph.Views

/-!
# Reading valid documents

A valid document is read without a failure, and what comes out says what the document says
(`Restates`): the nodes that its list describes, in the order of the list, and for each id the
children that name it, in the same order, whether they stand in front of it or behind it.

The nodes go in first, all of them off their parents (`foldlM_addNode`). Then they are hung one by
one. Halfway through, the nodes of the front part of the list hang off their parents and those of
the rest do not (`Hung`).

Main statement: `load_restates`.
-/

namespace CueGraph

/-- The node off its parent. -/
def Node.loose (node : Node) : Node := { node with parent := none }

namespace Document

open Schema (Absent IsNode NodeFacts)

variable {v : Value} {fields : Fields} {key : String} {node : Node} {nodes : List Node}
  {values : List Value} {g : Graph}

/-! ## What a document says -/

/-- A value describes a node. Options that it does not give are none, and a label that it does not
give is the id. -/
structure Describes (v : Value) (node : Node) : Prop where
  object : v = .object v.fields
  id : v.fields.get? "id" = some (.str node.id)
  type : v.fields.get? "type" = some (.str node.type)
  config : (Absent v.fields "config" ∧ node.config = .object []) ∨
    ∃ options, v.fields.get? "config" = some (.object options) ∧ node.config = .object options
  label : (Absent v.fields "label" ∧ node.label = node.id) ∨
    v.fields.get? "label" = some (.str node.label)
  parent : (Absent v.fields "parent" ∧ node.parent = none) ∨
    ∃ parent, v.fields.get? "parent" = some (.str parent) ∧ node.parent = some parent

/-- A graph says what a document says. -/
structure Restates (g : Graph) (v : Value) : Prop where
  name : ∃ name, v.fields.get? "graph_name" = some (.str name) ∧
    g.name = if name = "" then "graph" else name
  nodes : ∃ values, v.fields.get? "nodes" = some (.list values) ∧
    List.Forall₂ Describes values g.nodes
  children : ∀ p, g.childrenOf p = g.nodes.filter (·.parent == some p)

/-- What is a node with some facts describes a node to which they apply. -/
theorem describes_of_isNode {facts : NodeFacts} (h : IsNode v facts) :
    ∃ node, Describes v node ∧ node.id = facts.id ∧ node.parent = facts.parent := by
  have hconfig : ∃ config, (Absent v.fields "config" ∧ config = Value.object []) ∨
      ∃ options, v.fields.get? "config" = some (.object options) ∧ config = .object options := by
    rcases h.config with ha | ⟨options, ho, -⟩
    · exact ⟨_, .inl ⟨ha, rfl⟩⟩
    · exact ⟨_, .inr ⟨options, ho, rfl⟩⟩
  have hlabel : ∃ label, (Absent v.fields "label" ∧ label = facts.id) ∨
      v.fields.get? "label" = some (.str label) := by
    rcases h.label with ha | ⟨label, hl⟩
    · exact ⟨_, .inl ⟨ha, rfl⟩⟩
    · exact ⟨label, .inr hl⟩
  obtain ⟨config, hconfig⟩ := hconfig
  obtain ⟨label, hlabel⟩ := hlabel
  exact ⟨⟨facts.id, facts.type, config, facts.parent, label⟩,
    ⟨h.object, h.id, h.type, hconfig, hlabel, h.parent⟩, rfl, rfl⟩

theorem describes_of_isNodes {facts : List NodeFacts} (h : List.Forall₂ IsNode values facts) :
    ∃ nodes, List.Forall₂ Describes values nodes ∧
      nodes.map (fun node => (node.id, node.parent)) =
        facts.map fun node => (node.id, node.parent) := by
  induction h with
  | nil => exact ⟨[], .nil, rfl⟩
  | cons hv _ ih =>
    obtain ⟨node, hd, hid, hparent⟩ := describes_of_isNode hv
    obtain ⟨nodes, hall, hmap⟩ := ih
    refine ⟨node :: nodes, .cons hd hall, ?_⟩
    rw [List.map_cons, List.map_cons, hid, hparent, hmap]

/-! ## Nodes -/

theorem optional_of_absent (h : Absent fields key) : optional fields key = .null := by
  rcases h with h | h
  · rw [optional, h, Option.getD_none]
  · rw [optional, h, Option.getD_some]

theorem optional_of_get? (h : fields.get? key = some v) : optional fields key = v := by
  rw [optional, h, Option.getD_some]

theorem required_of_get? (h : fields.get? key = some v) : required fields key = .ok v := by
  rw [required, h]

theorem fieldsOf_eq_ok {fault : SchemaError} (h : v = .object v.fields) :
    fieldsOf v fault = .ok v.fields := by
  rw [fieldsOf, Schema.requireObject_eq_ok.2 h, Except.mapError]

theorem node_eq_ok (h : Describes v node) : Document.node v.fields = .ok node.loose := by
  have hconfig : ∃ options, (optional v.fields "config").table = .ok options ∧
      node.config = .object options := by
    rcases h.config with ⟨ha, hc⟩ | ⟨options, ho, hc⟩
    · exact ⟨[], by rw [optional_of_absent ha]; rfl, hc⟩
    · exact ⟨options, by rw [optional_of_get? ho]; rfl, hc⟩
  obtain ⟨options, htable, hc⟩ := hconfig
  rw [Document.node, htable, required_of_get? h.id, required_of_get? h.type, Node.loose, hc]
  rcases h.label with ⟨ha, hl⟩ | hl
  · rw [optional_of_absent ha, hl]
    rfl
  · rw [optional_of_get? hl]
    rfl

/-- A node goes in off its parent. -/
theorem addNode_eq_ok (h : Describes v node) (hnew : g.contains node.id = false) :
    addNode g v = .ok { g with nodes := g.nodes ++ [node.loose] } := by
  have hadd : g.add node.loose = .ok { g with nodes := g.nodes ++ [node.loose] } := by
    rw [Graph.add, if_neg (by simpa [Node.loose] using hnew)]
    rfl
  rw [addNode, fieldsOf_eq_ok h.object, ok_bind, node_eq_ok h, ok_bind, hadd, Except.mapError]

theorem foldlM_addNode (h : List.Forall₂ Describes values nodes)
    (hn : (g.nodes.map (·.id) ++ nodes.map (·.id)).Nodup) :
    values.foldlM addNode g = .ok { g with nodes := g.nodes ++ nodes.map Node.loose } := by
  induction h generalizing g with
  | nil => simp [pure, Except.pure]
  | @cons v node values nodes hv _ ih =>
    have hnew : g.contains node.id = false := by
      rw [← Bool.not_eq_true, Graph.contains_iff]
      intro hm
      exact (List.nodup_append.1 hn).2.2 _ hm _ List.mem_cons_self rfl
    rw [List.foldlM_cons, addNode_eq_ok hv hnew, ok_bind, ih (by simpa [Node.loose] using hn)]
    simp

end Document

/-! ## Links -/

namespace Graph

variable {g : Graph} {front rest : List Node} {node : Node}

/-- Of nodes with different ids, one gets a new parent. -/
theorem nodes_setParent (hg : g.nodes = front ++ node :: rest) (hn : (g.nodes.map (·.id)).Nodup)
    (parent : Option String) :
    (g.setParent node.id parent).nodes = front ++ { node with parent } :: rest := by
  rw [hg, List.map_append, List.map_cons, List.nodup_append, List.nodup_cons] at hn
  obtain ⟨-, ⟨hrest, -⟩, hfront⟩ := hn
  have hkeep : ∀ l : List Node, (∀ other ∈ l, other.id ≠ node.id) →
      l.map (fun other => if other.id = node.id then { other with parent } else other) = l := by
    intro l hl
    refine (List.map_congr_left fun other ho => ?_).trans (List.map_id l)
    rw [if_neg (hl other ho), id_eq]
  rw [setParent, hg, List.map_append, List.map_cons, if_pos rfl, hkeep front, hkeep rest]
  · exact fun other ho he => hrest (he ▸ List.mem_map_of_mem ho)
  · exact fun other ho => hfront _ (List.mem_map_of_mem ho) _ List.mem_cons_self

/-- A node that is off its parent comes last among the children of the other node. -/
theorem attach_loose {child root : String} (hchild : g.contains child = true)
    (hroot : g.contains root = true) (hne : child ≠ root) (hp : g.parentOf child = none) :
    g.attach child root none =
      .ok ((g.setChildren root (g.childIds root ++ [child])).setParent child (some root)) := by
  have hlast : (g.childIds root).insertIdx (placeAmong (g.childIds root) none) child =
      g.childIds root ++ [child] := List.insertIdx_length_self
  rw [attach, hchild, hroot, if_neg (by simp), if_neg (by simp), if_neg hne,
    detach_of_parentOf_none hp]
  dsimp only
  rw [hlast]

end Graph

namespace Document

open Schema (IsNode)

variable {v : Value} {fields : Fields} {node : Node} {front rest nodes : List Node}
  {values : List Value}
  {name : String} {g : Graph} {loaded : Loaded}

/-- The nodes of the front part hang off their parents, those of the rest do not. -/
structure Hung (name : String) (front rest : List Node) (g : Graph) : Prop where
  name : g.name = name
  nodes : g.nodes = front ++ rest.map Node.loose
  childIds : ∀ p, g.childIds p = (front.filter (·.parent == some p)).map (·.id)

/-- Each parent is the id of another node. -/
def Parented (nodes : List Node) : Prop :=
  ∀ node ∈ nodes, ∀ p, node.parent = some p → p ∈ nodes.map (·.id) ∧ p ≠ node.id

theorem Hung.ids (h : Hung name front rest g) :
    g.nodes.map (·.id) = (front ++ rest).map (·.id) := by
  rw [h.nodes, List.map_append, List.map_append, List.map_map]
  rfl

/-- A node without a parent hangs as it is. -/
theorem Hung.skip (h : Hung name front (node :: rest) g) (hp : node.parent = none) :
    Hung name (front ++ [node]) rest g where
  name := h.name
  nodes := by
    have hloose : node.loose = node := by rw [Node.loose, ← hp]
    rw [h.nodes, List.map_cons, hloose, List.append_assoc]
    rfl
  childIds p := by simp [h.childIds, hp]

/-- Behind the children that a parent has so far comes the next one. -/
theorem Hung.hang (h : Hung name front (node :: rest) g)
    (hn : ((front ++ node :: rest).map (·.id)).Nodup) {p : String} (hp : node.parent = some p) :
    Hung name (front ++ [node]) rest
      ((g.setChildren p (g.childIds p ++ [node.id])).setParent node.id (some p)) where
  name := h.name
  nodes := by
    have hnode : { node.loose with parent := some p } = node := by rw [Node.loose, ← hp]
    have hsplit : (g.setChildren p (g.childIds p ++ [node.id])).nodes =
        front ++ node.loose :: rest.map Node.loose := h.nodes
    rw [← h.ids] at hn
    refine (Graph.nodes_setParent hsplit hn (some p)).trans ?_
    rw [hnode, List.append_assoc]
    rfl
  childIds q := by
    rw [Graph.childIds_setParent, Graph.childIds_setChildren, List.filter_append, List.map_append]
    by_cases hq : q = p
    · rw [if_pos hq, hq, h.childIds]
      simp [hp]
    · rw [if_neg hq, h.childIds]
      simp [hp, Ne.symm hq]

/-- The next node of the list is hung. -/
theorem link_hung (hv : Describes v node) (h : Hung name front (node :: rest) loaded.graph)
    (hn : ((front ++ node :: rest).map (·.id)).Nodup) (hp : Parented (front ++ node :: rest)) :
    ∃ loaded', link loaded v = .ok loaded' ∧ Hung name (front ++ [node]) rest loaded'.graph := by
  rw [link, fieldsOf_eq_ok hv.object, ok_bind]
  rcases hv.parent with ⟨ha, hnone⟩ | ⟨p, hfield, hsome⟩
  · refine ⟨loaded, ?_, h.skip hnone⟩
    rw [optional_of_absent ha]
    rfl
  · obtain ⟨hmem, hne⟩ := hp node (by simp) p hsome
    have hids := h.ids
    have hchild : loaded.graph.contains node.id = true := by
      rw [Graph.contains_iff, hids]
      simp
    have hroot : loaded.graph.contains p = true := by rwa [Graph.contains_iff, hids]
    have hoff : loaded.graph.parentOf node.id = none := by
      have hfind : loaded.graph.find? node.id = some node.loose := by
        rw [Graph.find?_eq_some_iff (hids ▸ hn), h.nodes]
        simp [Node.loose]
      rw [Graph.parentOf, hfind]
      rfl
    have hattach := Graph.attach_loose hchild hroot (Ne.symm hne) hoff
    have hung := h.hang hn hsome
    generalize (loaded.graph.setChildren p _).setParent node.id (some p) = g' at hattach hung
    refine ⟨⟨g', loaded.notices ++ [attachedNotice g' node.id p]⟩, ?_, hung⟩
    have hname : (Value.str p).name = .ok p := rfl
    rw [optional_of_get? hfield, required_of_get? hv.id]
    simp only [hname, Except.mapError, ok_bind, Value.named, hattach]
    rfl

/-- The rest of the list is hung, node by node. -/
theorem foldlM_link (hv : List.Forall₂ Describes values rest)
    (h : Hung name front rest loaded.graph) (hn : ((front ++ rest).map (·.id)).Nodup)
    (hp : Parented (front ++ rest)) :
    ∃ loaded', values.foldlM link loaded = .ok loaded' ∧
      Hung name (front ++ rest) [] loaded'.graph := by
  induction hv generalizing front loaded with
  | nil => exact ⟨loaded, rfl, by rwa [List.append_nil]⟩
  | @cons v node values rest hd _ ih =>
    obtain ⟨loaded', hlink, hung⟩ := link_hung hd h hn hp
    have hcons : front ++ [node] ++ rest = front ++ node :: rest := by simp
    rw [← hcons] at hn hp ⊢
    obtain ⟨last, hlast, hall⟩ := ih hung hn hp
    refine ⟨last, ?_, hall⟩
    rw [List.foldlM_cons, hlink]
    exact hlast

/-- When all nodes hang, the children of an id are the nodes that name it, in their order. -/
theorem Hung.childrenOf (h : Hung name nodes [] g) (hn : (nodes.map (·.id)).Nodup) (p : String) :
    g.childrenOf p = g.nodes.filter (·.parent == some p) := by
  have hnodes : g.nodes = nodes := by rw [h.nodes, List.map_nil, List.append_nil]
  have hfind : ∀ node ∈ nodes, g.find? node.id = some node := fun node hm =>
    (Graph.find?_eq_some_iff (hnodes ▸ hn)).2 ⟨hnodes ▸ hm, rfl⟩
  rw [Graph.childrenOf, h.childIds, hnodes, List.filterMap_map]
  refine (List.filterMap_congr fun node hm => ?_).trans (List.filterMap_some)
  exact hfind node (List.mem_filter.1 hm).1

/-! ## Main theorem -/

theorem parented_of_linked {facts : List Schema.NodeFacts}
    (hmap : nodes.map (fun node => (node.id, node.parent)) =
      facts.map fun node => (node.id, node.parent))
    (hids : nodes.map (·.id) = facts.map (·.id))
    (hlinked : ∀ node ∈ facts, ∀ p, node.parent = some p → p ∈ facts.map (·.id) ∧ p ≠ node.id) :
    Parented nodes := by
  intro node hm p hp
  have hmem : (node.id, node.parent) ∈ facts.map fun node => (node.id, node.parent) :=
    hmap ▸ List.mem_map_of_mem hm
  obtain ⟨other, ho, he⟩ := List.mem_map.1 hmem
  obtain ⟨hid, hparent⟩ := Prod.mk.inj he
  rw [hids, ← hid]
  exact hlinked other ho p (hparent.trans hp)

theorem graphName_eq {name : String} (h : fields.get? "graph_name" = some (.str name)) :
    graphName fields = if name = "" then "graph" else name := by
  rw [graphName, optional_of_get? h]
  by_cases hn : name = ""
  · rw [if_pos hn, hn]
    rfl
  · have ht : (Value.str name).truthy = true := by simpa [Value.truthy] using hn
    rw [if_neg hn, if_pos ht]
    rfl

/-- A document that lists consistent nodes is read, and what comes out restates it. -/
theorem ofDocument_restates {facts : List Schema.NodeFacts} (hv : Schema.nodesOf v = .ok values)
    (hall : List.Forall₂ IsNode values facts) (hc : Schema.Consistent facts) :
    ∃ loaded, Graph.ofDocument v = .ok loaded ∧ Restates loaded.graph v := by
  obtain ⟨hobject, ⟨name, hname⟩, hvalues⟩ := Schema.nodesOf_eq_ok.1 hv
  obtain ⟨hdistinct, hlinked⟩ := Schema.consistent_iff.1 hc
  obtain ⟨nodes, hdescribes, hmap⟩ := describes_of_isNodes hall
  have hids : nodes.map (·.id) = facts.map (·.id) := by
    simpa [Function.comp_def] using congrArg (List.map Prod.fst) hmap
  have hn : (nodes.map (·.id)).Nodup := hids ▸ hdistinct
  -- at first all nodes are there, and none of them hangs
  have hloose := foldlM_addNode (g := { name := graphName v.fields }) hdescribes hn
  have hstart : Hung (graphName v.fields) [] nodes
      (Loaded.mk { name := graphName v.fields, nodes := nodes.map Node.loose } []).graph :=
    ⟨rfl, rfl, fun _ => rfl⟩
  obtain ⟨loaded, hlinks, hung⟩ := foldlM_link hdescribes hstart hn
    (parented_of_linked hmap hids hlinked)
  refine ⟨loaded, ?_, ⟨name, hname, ?_⟩, ⟨values, hvalues, ?_⟩, hung.childrenOf hn⟩
  · have hitems : (Value.list values).items = .ok values := rfl
    rw [Graph.ofDocument, fieldsOf_eq_ok hobject, ok_bind, required_of_get? hvalues, ok_bind,
      hitems, Except.mapError, ok_bind, hloose, ok_bind]
    exact hlinks
  · rw [hung.name, graphName_eq hname]
  · rw [hung.nodes, List.map_nil, List.append_nil]
    exact hdescribes

/-- What a check that passes has found out. -/
theorem checked_of_validate {known : String → Bool} {strict : Bool}
    (h : (Schema.validate known strict v).result = .ok ()) :
    ∃ values facts, Schema.nodesOf v = .ok values ∧ List.Forall₂ IsNode values facts ∧
      Schema.Consistent facts := by
  obtain ⟨values, facts, hvalues, hpass, hlinks⟩ := Schema.validate_eq_ok.1 h
  have hlenient : (Schema.checkNodes known false 0 [] values).result = .ok facts := by
    cases strict with
    | false => exact hpass
    | true => exact (Schema.checkNodes_strict.1 hpass).1
  obtain ⟨hall, hdistinct, -⟩ := Schema.checkNodes_eq_ok.1 hlenient
  exact ⟨values, facts, hvalues, hall,
    Schema.consistent_iff.2 ⟨hdistinct, Schema.checkLinks_eq_ok.1 hlinks⟩⟩

/-- What a check has found out once is enough for every check that is not strict. -/
theorem validate_of_checked {facts : List Schema.NodeFacts} (known : String → Bool)
    (hv : Schema.nodesOf v = .ok values) (hall : List.Forall₂ IsNode values facts)
    (hc : Schema.Consistent facts) : (Schema.validate known false v).result = .ok () := by
  obtain ⟨hdistinct, hlinked⟩ := Schema.consistent_iff.1 hc
  have hnodes : (Schema.checkNodes known false 0 [] values).result = .ok facts :=
    Schema.checkNodes_eq_ok.2 ⟨hall, hdistinct, fun _ _ => List.not_mem_nil⟩
  exact Schema.validate_eq_ok.2 ⟨values, facts, hv, hnodes, Schema.checkLinks_eq_ok.2 hlinked⟩

theorem load_eq_of_validate {known : String → Bool} {strict : Bool}
    (h : (Schema.validate known strict v).result = .ok ()) :
    (Graph.load known strict v).2 = Graph.ofDocument v := by
  rw [Graph.load, h]

/-- A document that passes a check, strict or not and against whatever registry, is read without a
failure. With that check in front, without any, and with a check in front that is not strict,
against whatever registry, the outcome is the same, and the graph says what the document says. -/
theorem load_restates (r : Registry) (strict : Bool) (v : Value)
    (h : (Schema.validate r.contains strict v).result = .ok ()) :
    ∃ loaded, Graph.ofDocument v = .ok loaded ∧ (Graph.load r.contains strict v).2 = .ok loaded ∧
      (∀ other : Registry, (Graph.load other.contains false v).2 = .ok loaded) ∧
      Restates loaded.graph v := by
  obtain ⟨values, facts, hv, hall, hc⟩ := checked_of_validate h
  obtain ⟨loaded, hread, hsays⟩ := ofDocument_restates hv hall hc
  refine ⟨loaded, hread, ?_, fun other => ?_, hsays⟩
  · rw [load_eq_of_validate h, hread]
  · rw [load_eq_of_validate (validate_of_checked other.contains hv hall hc), hread]

/-- Two children around their parent, the first without a config, the second without a label. -/
theorem load_restates_around :
    let first : Value := .object [("id", .str "a"), ("type", .str "note"), ("label", .str "A"),
      ("parent", .str "b")]
    let root : Value := .object [("id", .str "b"), ("type", .str "track")]
    let last : Value := .object [("parent", .str "b"), ("id", .str "c"), ("type", .str "note"),
      ("config", .object [("x", .int 1)])]
    let v : Value := .object [("graph_name", .str ""), ("nodes", .list [first, root, last])]
    (Schema.validate ({} : Registry).contains false v).result = .ok () ∧
      ∃ loaded, Graph.ofDocument v = .ok loaded ∧ Restates loaded.graph v ∧
        loaded.graph.childIds "b" = ["a", "c"] := by
  intro first root last v
  have hvalid : (Schema.validate ({} : Registry).contains false v).result = .ok () := by rfl
  obtain ⟨loaded, hread, -, -, hsays⟩ := load_restates {} false v hvalid
  refine ⟨hvalid, loaded, hread, hsays, ?_⟩
  have hids : (Graph.ofDocument v).map (fun loaded => loaded.graph.childIds "b") =
      .ok ["a", "c"] := by rfl
  rw [hread] at hids
  exact Except.ok.inj hids

end Document

end CueGraph
