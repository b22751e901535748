import CueGraph.Compile.Notice
import CueGraph.Document.Schema
import CueGraph.Document.Shape
import CueGraph.Graph.Basic

/-!
# Graphs from documents

`Graph.ofDocument` makes a document into a graph: first the nodes in their order, then the links in
the order of the children, so that a child may stand in front of its parent. `Graph.load` checks the
document first. Without the check a document may have less shape; what cannot be used then is a
`DocumentError`.
-/

namespace CueGraph

/-- Why a document gives no graph. -/
inductive DocumentError where
  | schema (e : SchemaError)
  | missing (key : String)
  | shape (e : ShapeError)
  | graph (e : GraphError)

def DocumentError.message : DocumentError → String
  | schema e => e.message
  | missing key => Text.shown key
  | shape e => e.message
  | graph e => e.message

/-- A graph that was read, with what the log mentions about it. -/
structure Loaded where
  graph : Graph
  notices : List Notice := []

namespace Document

/-- Something read out of a document. -/
abbrev Reading := Except DocumentError

def fieldsOf (v : Value) (fault : SchemaError) : Reading Fields :=
  (Schema.requireObject v fault).mapError .schema

/-- The value of a field that must be there. -/
def required (fields : Fields) (key : String) : Reading Value :=
  match fields.get? key with
  | some v => .ok v
  | none => .error (.missing key)

/-- The value of a field, null when it is missing. -/
def optional (fields : Fields) (key : String) : Value := (fields.get? key).getD .null

/-- The node that a document describes, still without its parent. Without a label its id is the
label. -/
def node (fields : Fields) : Reading Node := do
  let config ← (optional fields "config").table.mapError .shape
  let id ← required fields "id"
  let type ← required fields "type"
  let id ← id.name.mapError .shape
  let label :=
    match optional fields "label" with
    | .null => id
    | label => label.named
  pure { id, type := type.named, config := .object config, label }

/-- Adds the node that a document describes. -/
def addNode (g : Graph) (v : Value) : Reading Graph := do
  let fields ← fieldsOf v (.nodeNotObject g.nodes.length)
  let node ← node fields
  (g.add node).mapError .graph

/-- What the log mentions about a child that was hung off a root. -/
def attachedNotice (g : Graph) (child root : String) : Notice :=
  .attached child root ((g.childIds root).idxOf child)

/-- Hangs the node that a document describes off the parent that it names. -/
def link (loaded : Loaded) (v : Value) : Reading Loaded := do
  let fields ← fieldsOf v .notAnObject
  match optional fields "parent" with
  | .null => pure loaded
  | parent => do
    let parent ← parent.name.mapError .shape
    let id ← required fields "id"
    let graph ← (loaded.graph.attach id.named parent none).mapError fun e =>
      .schema (.badLink id.named e.message)
    pure ⟨graph, loaded.notices ++ [attachedNotice graph id.named parent]⟩

def graphName (fields : Fields) : String :=
  let name := optional fields "graph_name"
  if name.truthy then name.named else "graph"

end Document

/-- The graph of a document. -/
def Graph.ofDocument (v : Value) : Document.Reading Loaded := do
  let fields ← Document.fieldsOf v .notAnObject
  let nodes ← Document.required fields "nodes"
  let nodes ← nodes.items.mapError .shape
  let graph ← nodes.foldlM Document.addNode { name := Document.graphName fields }
  nodes.foldlM Document.link { graph }

/-- The graph of a document that is checked first, with the warnings of the check. -/
def Graph.load (known : String → Bool) (strict : Bool) (v : Value) :
    List TypeWarning × Document.Reading Loaded :=
  let outcome := Schema.validate known strict v
  match outcome.result with
  | .error e => (outcome.warnings, .error (.schema e))
  | .ok () => (outcome.warnings, Graph.ofDocument v)

end CueGraph
