import CueGraph.Proofs.Document.Restated

/-!
# Documents that say the same

The fields of a document may be written down in another order, fields that are not read may go, and
a node that gives no options may give none explicitly. What a check finds and what is read is the
same then, for documents with faults as well (`load_same`).
-/

namespace CueGraph

namespace Document

/-- Two values say the same about a node. -/
structure SameNode (v v' : Value) : Prop where
  object : v = .object v.fields
  object' : v' = .object v'.fields
  id : v.fields.get? "id" = v'.fields.get? "id"
  type : v.fields.get? "type" = v'.fields.get? "type"
  config : optional v.fields "config" = optional v'.fields "config" ∨
    (optional v.fields "config" = .null ∧ optional v'.fields "config" = .object [])
  label : optional v.fields "label" = optional v'.fields "label"
  parent : optional v.fields "parent" = optional v'.fields "parent"

/-- Two documents with a name and nodes say the same. -/
structure Same (v v' : Value) : Prop where
  object : v = .object v.fields
  object' : v' = .object v'.fields
  name : ∃ name, v.fields.get? "graph_name" = some (.str name) ∧
    v'.fields.get? "graph_name" = some (.str name)
  nodes : ∃ values values', v.fields.get? "nodes" = some (.list values) ∧
    v'.fields.get? "nodes" = some (.list values') ∧ List.Forall₂ SameNode values values'

variable {v v' : Value} {values values' : List Value}

/-! ## The check -/

theorem checkConfig_same (h : SameNode v v') (place : Nat) :
    Schema.checkConfig place v.fields = Schema.checkConfig place v'.fields := by
  rw [Schema.checkConfig, Schema.checkConfig]
  rcases h.config with he | ⟨hn, ho⟩
  · rw [optional, optional] at he
    rw [he]
  · rw [optional] at hn ho
    rw [hn, ho]
    rfl

theorem checkNode_same (h : SameNode v v') (place : Nat) (seen : List String) :
    Schema.checkNode place seen v = Schema.checkNode place seen v' := by
  have hlabel : ∀ fault, Schema.optionalText v.fields "label" fault =
      Schema.optionalText v'.fields "label" fault := by
    intro fault
    have hl := h.label
    rw [optional, optional] at hl
    rw [Schema.optionalText, Schema.optionalText, hl]
  have hparent : ∀ fault, Schema.optionalText v.fields "parent" fault =
      Schema.optionalText v'.fields "parent" fault := by
    intro fault
    have hp := h.parent
    rw [optional, optional] at hp
    rw [Schema.optionalText, Schema.optionalText, hp]
  simp only [Schema.checkNode, Schema.requireObject_eq_ok.2 h.object,
    Schema.requireObject_eq_ok.2 h.object', ok_bind, Schema.requireField, h.id, h.type,
    checkConfig_same h, hlabel, hparent]

theorem checkNodes_same (h : List.Forall₂ SameNode values values') (known : String → Bool)
    (strict : Bool) (place : Nat) (seen : List String) :
    Schema.checkNodes known strict place seen values =
      Schema.checkNodes known strict place seen values' := by
  induction h generalizing place seen with
  | nil => rfl
  | cons hv _ ih => simp only [Schema.checkNodes, checkNode_same hv, ih]

theorem validate_same (h : Same v v') (known : String → Bool) (strict : Bool) :
    Schema.validate known strict v = Schema.validate known strict v' := by
  obtain ⟨name, hname, hname'⟩ := h.name
  obtain ⟨values, values', hv, hv', hsame⟩ := h.nodes
  rw [Schema.validate, Schema.validate, Schema.nodesOf_eq_ok.2 ⟨h.object, ⟨name, hname⟩, hv⟩,
    Schema.nodesOf_eq_ok.2 ⟨h.object', ⟨name, hname'⟩, hv'⟩]
  dsimp only
  rw [checkNodes_same hsame]

/-! ## The graph -/

theorem node_same (h : SameNode v v') : node v.fields = node v'.fields := by
  have hconfig : (optional v.fields "config").table = (optional v'.fields "config").table := by
    rcases h.config with he | ⟨hn, ho⟩
    · rw [he]
    · rw [hn, ho]
      rfl
  simp only [node, hconfig, required, h.id, h.type, h.label]

theorem addNode_same (h : SameNode v v') (g : Graph) : addNode g v = addNode g v' := by
  rw [addNode, addNode, fieldsOf_eq_ok h.object, fieldsOf_eq_ok h.object', ok_bind, ok_bind,
    node_same h]

theorem link_same (h : SameNode v v') (loaded : Loaded) : link loaded v = link loaded v' := by
  have hid : required v.fields "id" = required v'.fields "id" := by
    rw [required, required, h.id]
  rw [link, link, fieldsOf_eq_ok h.object, fieldsOf_eq_ok h.object', ok_bind, ok_bind, h.parent,
    hid]

theorem foldlM_same {σ : Type} {f : σ → Value → Reading σ}
    (hf : ∀ s v v', SameNode v v' → f s v = f s v') (h : List.Forall₂ SameNode values values')
    (s : σ) : values.foldlM f s = values'.foldlM f s := by
  induction h generalizing s with
  | nil => rfl
  | cons hv _ ih =>
    rw [List.foldlM_cons, List.foldlM_cons, hf s _ _ hv]
    exact congrArg _ (funext ih)

theorem ofDocument_same (h : Same v v') : Graph.ofDocument v = Graph.ofDocument v' := by
  obtain ⟨name, hname, hname'⟩ := h.name
  obtain ⟨values, values', hv, hv', hsame⟩ := h.nodes
  have hitems : ∀ values, (Value.list values).items = .ok values := fun _ => rfl
  have hadd := foldlM_same (fun g _ _ hv => addNode_same hv g) hsame
  have hlink := foldlM_same (fun loaded _ _ hv => link_same hv loaded) hsame
  simp only [Graph.ofDocument, fieldsOf_eq_ok h.object, fieldsOf_eq_ok h.object', ok_bind,
    required_of_get? hv, required_of_get? hv', hitems, Except.mapError, graphName_eq hname,
    graphName_eq hname', hadd, hlink]

/-- Documents that say the same are checked and read alike. -/
theorem load_same (h : Same v v') (known : String → Bool) (strict : Bool) :
    Graph.load known strict v = Graph.load known strict v' := by
  rw [Graph.load, Graph.load, validate_same h, ofDocument_same h]

end Document

end CueGraph
