import CueGraph.Json.Document
import CueGraph.Service.Respond
import CueGraph.Text.Utf8

/-!
# A plain framework

`Framework.plain` calls the endpoint that the method and the path of a request name. A body to be
compiled must have the right shape: what is missing has a default, and fields of other names are
ignored (`CompileRequest.ofValue?`). What an endpoint returns is sent if it can be encoded.
-/

namespace CueGraph

/-! ## Bodies -/

namespace CompileRequest

def text? : Value → Option String
  | .str s => some s
  | _ => none

/-- A text, or nothing for null. -/
def textOrNull? : Value → Option (Option String)
  | .null => some none
  | .str s => some (some s)
  | _ => none

/-- The truth value that a word stands for, in any mix of cases. -/
def word? (s : String) : Option Bool :=
  let word := s.map Char.toLower
  if ["1", "true", "yes", "on", "t", "y"].contains word then some true
  else if ["0", "false", "no", "off", "f", "n"].contains word then some false
  else none

/-- A truth value, a number or a word for one, or nothing for null. -/
def flagOrNull? : Value → Option (Option Bool)
  | .null => some none
  | .bool b => some (some b)
  | .int 0 => some (some false)
  | .int 1 => some (some true)
  | .int _ => none
  | .double (.finite x) =>
    if x.isZero then some (some false) else if x = .one then some (some true) else none
  | .double _ => none
  | .str s => (word? s).map some
  | .list _ => none
  | .object _ => none

/-- A field that may be missing. -/
def field? {α : Type} (fields : Fields) (key : String) (fallback : α) (read? : Value → Option α) :
    Option α :=
  match fields.get? key with
  | some v => read? v
  | none => some fallback

def object? : Value → Option Fields
  | .object fields => some fields
  | _ => none

def node? (v : Value) : Option RequestedNode := do
  let fields ← object? v
  let id ← (fields.get? "id").bind text?
  let type ← (fields.get? "type").bind text?
  let config ← field? fields "config" [] object?
  let parent ← field? fields "parent" none textOrNull?
  let label ← field? fields "label" none textOrNull?
  pure { id, type, config, parent, label }

def nodes? : Value → Option (List RequestedNode)
  | .list items => items.mapM node?
  | _ => none

def ofValue? (v : Value) : Option CompileRequest := do
  let fields ← object? v
  let name ← field? fields "graph_name" "preview" text?
  let nodes ← field? fields "nodes" [] nodes?
  let wrap ← field? fields "wrap" none flagOrNull?
  let separate ← field? fields "separate_entries" none flagOrNull?
  pure { name, nodes, wrap, separate }

end CompileRequest

namespace Service

/-- The value of the text of a body. An empty one has none; a byte order mark may stand in front. -/
def bodyOfText? (text : String) : Option Value :=
  Json.read? (String.ofList (Text.dropByteOrderMark text.toList))

end Service

/-! ## Routes -/

/-- What a path of the service leads to. -/
inductive Route where
  | health
  | nodeTypes
  | nodeType (id : String)
  | compile
  deriving DecidableEq

namespace Route

def method : Route → String
  | compile => "POST"
  | _ => "GET"

/-- The paths of the routes that have only one. -/
def fixed : List (String × Route) :=
  [("/api/node-types", nodeTypes), ("/api/compile", compile), ("/health", health)]

/-- The id in the path of a node type, which is a single segment. -/
def typeId? (path : String) : Option String :=
  let start := "/api/node-types/"
  if path.startsWith start then
    let id := path.toList.drop start.length
    if id.isEmpty || id.contains '/' then none else some (String.ofList id)
  else none

/-- The route of a decoded path. A line feed may follow the path of a fixed route. -/
def ofPath? (path : String) : Option Route :=
  match fixed.find? fun entry => entry.1 == path || entry.1 ++ "\n" == path with
  | some entry => some entry.2
  | none => (typeId? path).map nodeType

/-- A path without the slashes at its end. -/
def withoutSlashes (path : String) : String :=
  String.ofList (path.toList.reverse.dropWhile (· == '/')).reverse

/-- The decoded path of a target: what follows a question mark or a hash does not belong to it. -/
def pathOf (target : String) : String :=
  let path := String.ofList (target.toList.takeWhile fun c => c != '?' && c != '#')
  Text.percentDecoded (if path.startsWith "/" then path else "/" ++ path)

/-- The route of a target. A path that leads nowhere because of slashes at its end is taken without
them. -/
def ofTarget? (target : String) : Option Route :=
  let path := pathOf target
  match ofPath? path with
  | some route => some route
  | none => if path.endsWith "/" then ofPath? (withoutSlashes path) else none

end Route

/-! ## Sending -/

namespace Framework

/-- Sends a value, if it can be sent. -/
def sendValue (status : Nat) (v : Value) : Sent :=
  if v.isEncodable then .response status v else .crashed

/-- The endpoint of a route, called with the body of the request. -/
def callOf (body : Option Value) : Route → Dispatch
  | .health => .call .health
  | .nodeTypes => .call .nodeTypes
  | .nodeType id => .call (.nodeType id)
  | .compile =>
    match body.bind CompileRequest.ofValue? with
    | some r => .call (.compile r)
    | none => .send .invalid

def plain : Framework where
  dispatch r :=
    match Route.ofTarget? r.target with
    | none => .send (sendValue 404 (Failure.detail "Not Found"))
    | some route =>
      if r.method.map Char.toUpper = route.method then callOf r.body route
      else .send (sendValue 405 (Failure.detail "Method Not Allowed"))
  send
    | .ok v => sendValue 200 v
    | .error (.refused status text) => sendValue status (Failure.detail text)
    | .error .broken => .crashed

end Framework

end CueGraph
