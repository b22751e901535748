import CueGraph.Proofs.Document.Same
import CueGraph.Service.Respond

/-!
# What a request makes of a document

The framework in front of the service is not part of it. What the service relies on is
`Framework.Documented`: the body of a request to compile is read as a request with the same parts
(`CompileRequest.Holds`), and what the service returns is sent as it is, if it can be encoded.

A request is written by hand from its parts, so the document that it amounts to is put together
anew: the fields come in an order of their own, no field is left that is not read, and options stand
there in any case. It says the same as the document that the body of the request carries
(`Holds.same`), whether that one has faults or not.
-/

namespace CueGraph

open Schema (Absent)

namespace Document

/-- A value has the shape of a node: the id and the type are texts, the options are an object if
they are there, the label and the parent are texts if they are there and not null. -/
structure ShapedNode (v : Value) : Prop where
  object : v = .object v.fields
  id : ∃ id, v.fields.get? "id" = some (.str id)
  type : ∃ type, v.fields.get? "type" = some (.str type)
  config : v.fields.get? "config" = none ∨
    ∃ options, v.fields.get? "config" = some (.object options)
  label : Absent v.fields "label" ∨ ∃ label, v.fields.get? "label" = some (.str label)
  parent : Absent v.fields "parent" ∨ ∃ parent, v.fields.get? "parent" = some (.str parent)

/-- A value has the shape of a document: its name is a text, and it lists values with the shape of
nodes. -/
structure Shaped (v : Value) : Prop where
  object : v = .object v.fields
  name : ∃ name, v.fields.get? "graph_name" = some (.str name)
  nodes : ∃ values, v.fields.get? "nodes" = some (.list values) ∧ ∀ node ∈ values, ShapedNode node

end Document

open Document (Shaped ShapedNode Same SameNode optional optional_of_absent optional_of_get?)

/-! ## Bodies and requests -/

/-- A field holds a text, or there is none. -/
def HoldsText (fields : Fields) (key : String) : Option String → Prop
  | none => Absent fields key
  | some s => fields.get? key = some (.str s)

/-- A field holds a truth value, or there is none. -/
def HoldsFlag (fields : Fields) (key : String) : Option Bool → Prop
  | none => Absent fields key
  | some b => fields.get? key = some (.bool b)

namespace CompileRequest

/-- A body carries a document and says how its script is written, if it has a word on that. -/
structure Carries (body v : Value) (wrap separate : Option Bool) : Prop where
  object : body = .object body.fields
  name : body.fields.get? "graph_name" = v.fields.get? "graph_name"
  nodes : body.fields.get? "nodes" = v.fields.get? "nodes"
  wrap : HoldsFlag body.fields "wrap" wrap
  separate : HoldsFlag body.fields "separate_entries" separate

/-- The node of a request is the one that a value describes. -/
structure HoldsNode (v : Value) (node : RequestedNode) : Prop where
  id : v.fields.get? "id" = some (.str node.id)
  type : v.fields.get? "type" = some (.str node.type)
  config : v.fields.get? "config" = some (.object node.config) ∨
    (v.fields.get? "config" = none ∧ node.config = [])
  label : HoldsText v.fields "label" node.label
  parent : HoldsText v.fields "parent" node.parent

/-- A request holds the parts of a document, and the word on how its script is written. -/
structure Holds (r : CompileRequest) (v : Value) (wrap separate : Option Bool) : Prop where
  name : v.fields.get? "graph_name" = some (.str r.name)
  nodes : ∃ values, v.fields.get? "nodes" = some (.list values) ∧
    List.Forall₂ HoldsNode values r.nodes
  wrap : r.wrap = wrap
  separate : r.separate = separate

end CompileRequest

open CompileRequest (Carries Holds HoldsNode nodeDocument textField)

namespace Service

/-- The request that posts a body to be compiled. -/
def posted (body : Value) : Request :=
  { method := "POST", target := "/api/compile", body := some body }

end Service

/-- What the documentation of a framework promises. A body that is posted to be compiled and has the
shape of a document calls the endpoint with the parts of this document. The value that an endpoint
returns is the body of a response, and so is the detail of a refusal, with the status of the
refusal; sending breaks off when the body cannot be encoded. -/
structure Framework.Documented (framework : Framework) : Prop where
  calls : ∀ {body v wrap separate}, Shaped v → Carries body v wrap separate →
    ∃ r : CompileRequest, r.Holds v wrap separate ∧
      framework.dispatch (Service.posted body) = .call (.compile r)
  returns : ∀ {v}, v.isEncodable = true → framework.send (.ok v) = .response 200 v
  refuses : ∀ {status text}, (Failure.detail text).isEncodable = true →
    framework.send (.error (.refused status text)) = .response status (Failure.detail text)
  spoils : ∀ {v}, v.isEncodable = false → framework.send (.ok v) = .crashed
  spoilsRefusal : ∀ {status text}, (Failure.detail text).isEncodable = false →
    framework.send (.error (.refused status text)) = .crashed

/-! ## The document of a request -/

variable {v : Value} {values : List Value} {fields : Fields} {key : String}

/-- A text that may be missing or null is written as it is read. -/
theorem HoldsText.optional_eq {text : Option String} (h : HoldsText fields key text) :
    (text.map Value.str).getD .null = optional fields key := by
  cases text with
  | none => exact (optional_of_absent h).symm
  | some s => exact (optional_of_get? h).symm

namespace CompileRequest

/-- A node that is written anew says the same. -/
theorem HoldsNode.same {node : RequestedNode} (hv : ShapedNode v) (h : HoldsNode v node) :
    SameNode v (nodeDocument node) := by
  obtain ⟨id, type, config, parent, label⟩ := node
  refine ⟨hv.object, rfl, h.id, h.type, ?_, ?_, ?_⟩
  · rcases h.config with hc | ⟨hnone, rfl⟩
    · exact .inl (optional_of_get? hc)
    · exact .inr ⟨optional_of_absent (.inl hnone), rfl⟩
  · rw [← h.label.optional_eq]
    cases parent <;> cases label <;> rfl
  · rw [← h.parent.optional_eq]
    cases parent <;> cases label <;> rfl

theorem forall₂_same {nodes : List RequestedNode} (hv : ∀ node ∈ values, ShapedNode node)
    (h : List.Forall₂ HoldsNode values nodes) :
    List.Forall₂ SameNode values (nodes.map nodeDocument) := by
  induction h with
  | nil => exact .nil
  | cons hnode _ ih =>
    rw [List.forall_mem_cons] at hv
    exact .cons (hnode.same hv.1) (ih hv.2)

/-- The document that a request amounts to says the same as the one whose parts it holds. -/
theorem Holds.same {r : CompileRequest} {wrap separate : Option Bool} (hv : Shaped v)
    (h : r.Holds v wrap separate) : Same v r.document := by
  obtain ⟨values, hvalues, hnodes⟩ := h.nodes
  obtain ⟨values', hvalues', hshaped⟩ := hv.nodes
  obtain rfl := Value.list.inj (Option.some.inj (hvalues.symm.trans hvalues'))
  exact ⟨hv.object, rfl, ⟨r.name, h.name, rfl⟩, values, r.nodes.map nodeDocument, hvalues, rfl,
    forall₂_same hshaped hnodes⟩

end CompileRequest

end CueGraph
