import CueGraph.Proofs.Compile.Owned
import CueGraph.Proofs.Document.Restated

/-!
# The order of a document

A document may list its nodes in another order. Only roots and utilities make entries and declare
names (`topLevel`), so their order counts, and under one id the order of the siblings does. Whatever
else is moved, only the order of the diagnostics changes with it (`compile_reordered`).

A document lists its nodes in one way (`Lists.unique`), so what is read of it can be told from the
list, and the rest is about the two lists.

Main statement: `load_reordered`.
-/

namespace CueGraph

open scoped List

/-! ## Graphs of the same nodes -/

namespace Graph

variable {g g' : Graph}

/-- Of nodes with different ids, one is found by its id wherever it stands. -/
theorem find?_perm (hn : (g.nodes.map (·.id)).Nodup) (hperm : g.nodes.Perm g'.nodes)
    (id : String) : g'.find? id = g.find? id := by
  have hn' : (g'.nodes.map (·.id)).Nodup := (hperm.map _).nodup_iff.1 hn
  ext node
  rw [find?_eq_some_iff hn, find?_eq_some_iff hn', hperm.mem_iff]

end Graph

namespace Registry

variable {r : Registry} {g g' : Graph} {node : Node}

/-- Whether a node is a root or a utility. -/
def topLevel (r : Registry) (node : Node) : Bool :=
  match r.behaviour? node.type with
  | some (.root ..) | some (.utility _) => true
  | _ => false

/-- The turn of any other node adds nothing but diagnostics, and these go by no count. -/
theorem aside_of_not_topLevel (h : r.topLevel node = false) (g : Graph) (count : Nat) :
    r.ownEntry g count node = none ∧ r.raised g count node = [] ∧
      (r.turn g count node).pass.diagnostics = (r.turn g 0 node).pass.diagnostics := by
  rw [turn, turn, visit_eq, visit_eq, ownEntry, raised]
  unfold topLevel at h
  split at h
  · cases h
  · cases h
  · next hroot hutility =>
    rcases hb : r.behaviour? node.type with _ | (⟨family, c⟩ | ⟨families, c⟩ | c)
    · exact ⟨rfl, rfl, rfl⟩
    · exact absurd hb (hroot family c)
    · refine ⟨rfl, rfl, ?_⟩
      dsimp only
      split <;> rfl
    · exact absurd hb (hutility c)

/-- The turns of roots and utilities come as if no other nodes were there. -/
theorem turns_topLevel (g : Graph) (count : Nat) (nodes : List Node) :
    (r.turns g count nodes).filter (fun t => r.topLevel t.1) =
      r.turns g count (nodes.filter r.topLevel) :=
  turns_filter (fun _ _ h count => (aside_of_not_topLevel h g count).2.1) count

theorem foldl_visit_entries_topLevel (g : Graph) (nodes : List Node) :
    (nodes.foldl (r.visit g) {}).entries =
      (r.turns g 0 (nodes.filter r.topLevel)).filterMap fun t => r.ownEntry g t.2 t.1 := by
  rw [foldl_visit_entries g nodes rfl]
  refine (List.nil_append _).trans (ownEntries_filter (fun node _ h count => ?_) 0)
  obtain ⟨hentry, hraised, -⟩ := aside_of_not_topLevel h g count
  exact ⟨hentry, hraised⟩

/-- The diagnostics that come up at the turns of roots and utilities, and at those of the others. -/
theorem foldl_visit_diagnostics_topLevel (g : Graph) (nodes : List Node) :
    (nodes.foldl (r.visit g) {}).pass.diagnostics ~
      ((r.turns g 0 (nodes.filter r.topLevel)).flatMap fun t =>
          (r.turn g t.2 t.1).pass.diagnostics) ++
        (nodes.filter (!r.topLevel ·)).flatMap fun node => (r.turn g 0 node).pass.diagnostics := by
  have haside : ((r.turns g 0 nodes).filter (fun t => !r.topLevel t.1)).flatMap
        (fun t => (r.turn g t.2 t.1).pass.diagnostics) =
      (nodes.filter (!r.topLevel ·)).flatMap fun node =>
        (r.turn g 0 node).pass.diagnostics := by
    conv_rhs => rw [← map_turns (r := r) g 0 nodes, List.filter_map, List.flatMap_map]
    refine List.flatMap_congr fun t ht => ?_
    have hside : r.topLevel t.1 = false := by simpa using (List.mem_filter.1 ht).2
    exact (aside_of_not_topLevel hside g t.2).2.2
  rw [foldl_visit (fun p => p.pass.diagnostics) (fun _ _ => rfl) g nodes rfl, ← turns_topLevel,
    ← haside, ← List.flatMap_append]
  exact ((List.filter_append_perm _ _).flatMap_right _).symm

/-- A graph with the same nodes in another order. When the roots and utilities come in the same
order and the children of each id do, so do the entries. -/
theorem compile_reordered (hn : (g.nodes.map (·.id)).Nodup) (hperm : g.nodes.Perm g'.nodes)
    (htop : g.nodes.filter r.topLevel = g'.nodes.filter r.topLevel)
    (hchildren : ∀ id, g'.childrenOf id = g.childrenOf id) (style : ScriptStyle) :
    (r.compile style g').entries = (r.compile style g).entries ∧
      (r.compile style g').text = (r.compile style g).text ∧
      (r.compile style g').diagnostics ~ (r.compile style g).diagnostics := by
  have hvisit : r.visit g' = r.visit g := by
    funext p node
    refine visit_congr (hchildren node.id) ?_ p
    rw [Graph.parentNode?, Graph.parentNode?, funext (Graph.find?_perm hn hperm)]
  have hall : r.visitAll g' = g'.nodes.foldl (r.visit g) {} := by rw [visitAll, hvisit]
  have hentries : (r.visitAll g').entries = (r.visitAll g).entries := by
    rw [hall, visitAll, foldl_visit_entries_topLevel, foldl_visit_entries_topLevel, htop]
  refine ⟨hentries, congrArg (Entry.render style) hentries, ?_⟩
  have hsides := (hperm.symm.filter (!r.topLevel ·)).flatMap_right fun node =>
    (r.turn g 0 node).pass.diagnostics
  show (r.visitAll g').pass.diagnostics ~ (r.visitAll g).pass.diagnostics
  calc (r.visitAll g').pass.diagnostics
      = (g'.nodes.foldl (r.visit g) {}).pass.diagnostics := by rw [hall]
    _ ~ _ := foldl_visit_diagnostics_topLevel g g'.nodes
    _ ~ _ := by rw [← htop]; exact hsides.append_left _
    _ ~ (r.visitAll g).pass.diagnostics := (foldl_visit_diagnostics_topLevel g g.nodes).symm

end Registry

/-! ## Documents -/

namespace Document

open Schema (Absent IsNode)

variable {known : String → Bool} {strict : Bool} {v v' : Value} {nodes nodes' : List Node}

/-- A document lists these nodes. -/
def Lists (v : Value) (nodes : List Node) : Prop :=
  ∃ values, v.fields.get? "nodes" = some (.list values) ∧ List.Forall₂ Describes values nodes

/-- A field that is missing or null has no other value. -/
theorem ne_of_absent {fields : Fields} {key : String} (h : Absent fields key) {v : Value}
    (hv : v ≠ .null) : fields.get? key ≠ some v := by
  rcases h with h | h
  · simp [h]
  · rw [h]
    exact fun he => hv (Option.some.inj he).symm

theorem Describes.unique {node node' : Node} (h : Describes v node) (h' : Describes v node') :
    node = node' := by
  obtain ⟨id, type, config, parent, label⟩ := node
  obtain ⟨id', type', config', parent', label'⟩ := node'
  have hid : id = id' := by simpa using h.id.symm.trans h'.id
  have htype : type = type' := by simpa using h.type.symm.trans h'.type
  have hconfig : config = config' := by
    rcases h.config with ⟨ha, hc⟩ | ⟨options, ho, hc⟩
    · rcases h'.config with ⟨-, hc'⟩ | ⟨options', ho', -⟩
      · exact hc.trans hc'.symm
      · exact absurd ho' (ne_of_absent ha (by simp))
    · rcases h'.config with ⟨ha', -⟩ | ⟨options', ho', hc'⟩
      · exact absurd ho (ne_of_absent ha' (by simp))
      · exact hc.trans ((Option.some.inj (ho.symm.trans ho')).trans hc'.symm)
  have hlabel : label = label' := by
    rcases h.label with ⟨ha, hl⟩ | hl
    · rcases h'.label with ⟨-, hl'⟩ | hl'
      · exact hl.trans (hid.trans hl'.symm)
      · exact absurd hl' (ne_of_absent ha (by simp))
    · rcases h'.label with ⟨ha', -⟩ | hl'
      · exact absurd hl (ne_of_absent ha' (by simp))
      · simpa using hl.symm.trans hl'
  have hparent : parent = parent' := by
    rcases h.parent with ⟨ha, hp⟩ | ⟨p, hf, hp⟩
    · rcases h'.parent with ⟨-, hp'⟩ | ⟨p', hf', -⟩
      · exact hp.trans hp'.symm
      · exact absurd hf' (ne_of_absent ha (by simp))
    · rcases h'.parent with ⟨ha', -⟩ | ⟨p', hf', hp'⟩
      · exact absurd hf (ne_of_absent ha' (by simp))
      · have hsame : p = p' := by simpa using hf.symm.trans hf'
        exact hp.trans ((congrArg some hsame).trans hp'.symm)
  rw [hid, htype, hconfig, hlabel, hparent]

theorem Lists.unique (h : Lists v nodes) (h' : Lists v nodes') : nodes = nodes' := by
  obtain ⟨values, hvalues, hall⟩ := h
  obtain ⟨values', hvalues', hall'⟩ := h'
  rw [hvalues] at hvalues'
  cases hvalues'
  have hunique : Relator.RightUnique Describes := fun _ _ _ => Describes.unique
  exact List.right_unique_forall₂' hunique hall hall'

/-- A valid document lists nodes, and these have different ids. -/
theorem lists_of_validate (h : (Schema.validate known strict v).result = .ok ()) :
    ∃ nodes, Lists v nodes ∧ (nodes.map (·.id)).Nodup := by
  obtain ⟨values, facts, hv, hall, hc⟩ := checked_of_validate h
  obtain ⟨-, -, hvalues⟩ := Schema.nodesOf_eq_ok.1 hv
  obtain ⟨nodes, hdescribes, hmap⟩ := describes_of_isNodes hall
  have hids : nodes.map (·.id) = facts.map (·.id) := by
    simpa [Function.comp_def] using congrArg (List.map Prod.fst) hmap
  exact ⟨nodes, ⟨values, hvalues, hdescribes⟩, hids ▸ (Schema.consistent_iff.1 hc).1⟩

/-- What is read of a valid document, told from the nodes that it lists. -/
theorem load_lists (h : (Schema.validate known strict v).result = .ok ()) (hl : Lists v nodes) :
    ∃ loaded, (Graph.load known strict v).2 = .ok loaded ∧ loaded.graph.nodes = nodes ∧
      ∀ id, loaded.graph.childrenOf id = nodes.filter (·.parent == some id) := by
  obtain ⟨values, facts, hv, hall, hc⟩ := checked_of_validate h
  obtain ⟨loaded, hread, hsays⟩ := ofDocument_restates hv hall hc
  have hnodes : loaded.graph.nodes = nodes := Lists.unique hsays.nodes hl
  exact ⟨loaded, (load_eq_of_validate h).trans hread, hnodes, hnodes ▸ hsays.children⟩

/-! ## Main theorem -/

/-- Two valid documents list the same nodes, in such orders that the roots and utilities follow each
other in the same order in both, and so do the nodes that name the same parent. Then both are read,
each in its own order, and give the same entries and the same text. The diagnostics are the same but
for their order. -/
theorem load_reordered (r : Registry) (strict strict' : Bool) (style : ScriptStyle)
    (hv : (Schema.validate r.contains strict v).result = .ok ())
    (hv' : (Schema.validate r.contains strict' v').result = .ok ())
    (hl : Lists v nodes) (hl' : Lists v' nodes') (hperm : nodes.Perm nodes')
    (htop : nodes.filter r.topLevel = nodes'.filter r.topLevel)
    (hsiblings : ∀ id, nodes.filter (·.parent == some id) = nodes'.filter (·.parent == some id)) :
    ∃ loaded loaded', (Graph.load r.contains strict v).2 = .ok loaded ∧
      (Graph.load r.contains strict' v').2 = .ok loaded' ∧
      loaded.graph.nodes = nodes ∧ loaded'.graph.nodes = nodes' ∧
      (r.compile style loaded'.graph).entries = (r.compile style loaded.graph).entries ∧
      (r.compile style loaded'.graph).text = (r.compile style loaded.graph).text ∧
      (r.compile style loaded'.graph).diagnostics ~
        (r.compile style loaded.graph).diagnostics := by
  obtain ⟨listed, hlisted, hn⟩ := lists_of_validate hv
  obtain rfl : listed = nodes := hlisted.unique hl
  obtain ⟨loaded, hread, hnodes, hchildren⟩ := load_lists hv hl
  obtain ⟨loaded', hread', hnodes', hchildren'⟩ := load_lists hv' hl'
  have hsame : ∀ id, loaded'.graph.childrenOf id = loaded.graph.childrenOf id := by
    intro id
    rw [hchildren, hchildren', hsiblings]
  rw [← hnodes, ← hnodes'] at hperm htop
  rw [← hnodes] at hn
  exact ⟨loaded, loaded', hread, hread', hnodes, hnodes',
    Registry.compile_reordered hn hperm htop hsame style⟩

def noteTypes : Registry := ⟨[
  ("track", { behaviour := .root "track" fun _ => .pushLine "open" }),
  ("note", { behaviour := .child ["track"] fun node => .pushLine node.id })]⟩

def noteValue : Value :=
  .object [("id", .str "a"), ("type", .str "note"), ("parent", .str "b")]

def trackValue : Value := .object [("id", .str "b"), ("type", .str "track")]

def oddValue : Value := .object [("id", .str "c"), ("type", .str "odd")]

def listing (values : List Value) : Value :=
  .object [("graph_name", .str "g"), ("nodes", .list values)]

/-- A child in front of its root and behind it. -/
theorem load_reordered_around :
    let nodes : List Node := [{ id := "a", type := "note", parent := "b" },
      { id := "b", type := "track" }, { id := "c", type := "odd" }]
    let v := listing [noteValue, trackValue, oddValue]
    let v' := listing [oddValue, trackValue, noteValue]
    (Schema.validate noteTypes.contains false v).result = .ok () ∧
      (Schema.validate noteTypes.contains false v').result = .ok () ∧
      Lists v nodes ∧ Lists v' nodes.reverse ∧ nodes.Perm nodes.reverse ∧
      nodes.filter noteTypes.topLevel = nodes.reverse.filter noteTypes.topLevel ∧
      (∀ id, nodes.filter (·.parent == some id) = nodes.reverse.filter (·.parent == some id)) ∧
      ∃ loaded loaded', (Graph.load noteTypes.contains false v).2 = .ok loaded ∧
        (Graph.load noteTypes.contains false v').2 = .ok loaded' ∧
        (noteTypes.compile {} loaded'.graph).entries.map (·.lines) = [["open", "a"]] := by
  intro nodes v v'
  have hv : (Schema.validate noteTypes.contains false v).result = .ok () := by rfl
  have hv' : (Schema.validate noteTypes.contains false v').result = .ok () := by rfl
  have hnote : Describes noteValue { id := "a", type := "note", parent := "b" } :=
    ⟨rfl, rfl, rfl, .inl ⟨.inl rfl, rfl⟩, .inl ⟨.inl rfl, rfl⟩, .inr ⟨"b", rfl, rfl⟩⟩
  have htrack : Describes trackValue { id := "b", type := "track" } :=
    ⟨rfl, rfl, rfl, .inl ⟨.inl rfl, rfl⟩, .inl ⟨.inl rfl, rfl⟩, .inl ⟨.inl rfl, rfl⟩⟩
  have hodd : Describes oddValue { id := "c", type := "odd" } :=
    ⟨rfl, rfl, rfl, .inl ⟨.inl rfl, rfl⟩, .inl ⟨.inl rfl, rfl⟩, .inl ⟨.inl rfl, rfl⟩⟩
  have hl : Lists v nodes := ⟨_, rfl, .cons hnote (.cons htrack (.cons hodd .nil))⟩
  have hl' : Lists v' nodes.reverse := ⟨_, rfl, .cons hodd (.cons htrack (.cons hnote .nil))⟩
  have hperm : nodes.Perm nodes.reverse := (List.reverse_perm nodes).symm
  have htop : nodes.filter noteTypes.topLevel = nodes.reverse.filter noteTypes.topLevel := by rfl
  have hsiblings : ∀ id, nodes.filter (·.parent == some id) =
      nodes.reverse.filter (·.parent == some id) := by
    intro id
    simp [nodes, List.filter_cons]
  obtain ⟨loaded, loaded', hread, hread', -, -, hentries, -⟩ :=
    load_reordered noteTypes false false {} hv hv' hl hl' hperm htop hsiblings
  refine ⟨hv, hv', hl, hl', hperm, htop, hsiblings, loaded, loaded', hread, hread', ?_⟩
  have hlines : (Graph.load noteTypes.contains false v).2.map (fun loaded =>
      (noteTypes.compile {} loaded.graph).entries.map (·.lines)) = .ok [["open", "a"]] := by rfl
  rw [hread] at hlines
  rw [hentries]
  exact Except.ok.inj hlines

end Document

end CueGraph
