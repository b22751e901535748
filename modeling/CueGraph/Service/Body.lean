import CueGraph.Script.Text
import CueGraph.Value

/-!
# Bodies of compile requests

A compile request holds the parts of a document, and how its script is written. The document that
the request amounts to is `CompileRequest.document`, which still has to be checked.
-/

namespace CueGraph

structure RequestedNode where
  id : String
  type : String
  config : Fields := []
  parent : Option String := none
  label : Option String := none

structure CompileRequest where
  name : String := "preview"
  nodes : List RequestedNode := []
  wrap : Option Bool := none
  separate : Option Bool := none

namespace CompileRequest

/-- A text field of a document, unless there is no text. -/
def textField (key : String) (text : Option String) : Fields :=
  match text with
  | some s => [(key, .str s)]
  | none => []

def nodeDocument (node : RequestedNode) : Value :=
  .object ([("id", .str node.id), ("type", .str node.type), ("config", .object node.config)] ++
    textField "parent" node.parent ++ textField "label" node.label)

def document (r : CompileRequest) : Value :=
  .object [("graph_name", .str r.name), ("nodes", .list (r.nodes.map nodeDocument))]

/-- How the script is written: as the request says, and as the service does without a word. -/
def style (r : CompileRequest) (default : ScriptStyle) : ScriptStyle where
  wrap := r.wrap.getD default.wrap
  separate := r.separate.getD default.separate

end CompileRequest

end CueGraph
