import CueGraph.Catalog.Builtin
import CueGraph.Compile.Graph
import CueGraph.Document.Graph
import CueGraph.Service.Body
import CueGraph.Text.Half

/-!
# The preview service

The service says that it is there, lists the built-in node types, describes one of them, and
compiles documents: these are its endpoints, and `Service.answer` is what they return. Which endpoint
a request calls, and how what the endpoint returns is sent, is up to a `Framework`, which is not part
of the service.
-/

namespace CueGraph

/-- A request: the method, the path with what follows it, and the value of the body if there is
one. -/
structure Request where
  method : String
  target : String
  body : Option Value := none

namespace Value

mutual

/-- Whether a value can be encoded as JSON. Halves of surrogate pairs cannot, and neither can numbers
that are not finite. -/
def isEncodable : Value → Bool
  | null => true
  | bool _ => true
  | int _ => true
  | double (.finite _) => true
  | double _ => false
  | str s => Text.isEncodable s
  | list items => areEncodable items
  | object fields => areEncodableFields fields

def areEncodable : List Value → Bool
  | [] => true
  | item :: rest => item.isEncodable && areEncodable rest

def areEncodableFields : List (String × Value) → Bool
  | [] => true
  | (key, value) :: rest =>
    Text.isEncodable key && value.isEncodable && areEncodableFields rest

end

end Value

/-- What is called for a request, with what it is called with. -/
inductive Endpoint where
  | health
  | nodeTypes
  | nodeType (id : String)
  | compile (r : CompileRequest)

/-- Why an endpoint returns nothing: it refuses the request with a status and a detail, or it breaks
off. -/
inductive Failure where
  | refused (status : Nat) (detail : String)
  | broken

/-- The value that explains why a request was refused. -/
def Failure.detail (text : String) : Value := .object [("detail", .str text)]

/-- What is sent for a request: a response; one without a described body, for a request that does not
have the right shape; or nothing, since sending broke off. -/
inductive Sent where
  | response (status : Nat) (body : Value)
  | invalid
  | crashed

/-- The status of what is sent, if anything is. -/
def Sent.status? : Sent → Option Nat
  | response status _ => some status
  | invalid => some 422
  | crashed => none

/-- What a request leads to: to the call of an endpoint, or to no call. -/
inductive Dispatch where
  | call (e : Endpoint)
  | send (s : Sent)

/-- What stands between the requests and the endpoints. -/
structure Framework where
  dispatch : Request → Dispatch
  send : Except Failure Value → Sent

namespace Service

def diagnosticValue (d : Diagnostic) : Value :=
  .object [("nodeId", .str d.node), ("type", .str d.type), ("kind", .str d.kind.key),
    ("message", .str d.message)]

/-- Compiles the document of a request. -/
def compile (style : ScriptStyle) (r : CompileRequest) : Except Failure Value :=
  match (Graph.load Registry.builtin.contains false r.document).2 with
  | .error (.schema e) => .error (.refused 400 e.message)
  | .error _ => .error .broken
  | .ok loaded =>
    let compiled := Registry.builtin.compile (r.style style) loaded.graph
    .ok (.object [("script", .str compiled.text),
      ("diagnostics", .list (compiled.diagnostics.map diagnosticValue))])

/-- What an endpoint returns, where scripts are written in some style unless the request has a word
on it. -/
def answer (style : ScriptStyle) : Endpoint → Except Failure Value
  | .health => .ok (.object [("status", .str "ok")])
  | .nodeTypes =>
    match Registry.builtin.types.mapM fun entry => entry.2.describe entry.1 with
    | some described => .ok (.list (described.map .object))
    | none => .error .broken
  | .nodeType id =>
    match Registry.builtin.describe? id with
    | some (some fields) => .ok (.object fields)
    | some none => .error .broken
    | none => .error (.refused 404 ("Unknown node type '" ++ id ++ "'"))
  | .compile r => compile style r

/-- What is sent for a request. -/
def respond (framework : Framework) (style : ScriptStyle) (r : Request) : Sent :=
  match framework.dispatch r with
  | .call e => framework.send (answer style e)
  | .send s => s

end Service

end CueGraph
