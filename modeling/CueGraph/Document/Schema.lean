import CueGraph.Value

/-!
# The schema of graph documents

A graph document is an object with a name and a list of nodes. `validate` checks a document in
order: the top level, then node by node, then the links to the parents. It stops at the first fault,
and collects a warning for each node of an unknown type; a strict check takes such a node for a
fault.
-/

namespace CueGraph

/-- What is wrong with a document. A node is named by its place in the list. -/
inductive SchemaError where
  | notAnObject
  | missingField (field : String)
  | nameNotText
  | nodesNotList
  | nodeNotObject (place : Nat)
  | nodeMissingField (place : Nat) (field : String)
  | badId (place : Nat)
  | typeNotText (place : Nat)
  | duplicateId (place : Nat) (id : String)
  | configNotObject (place : Nat)
  | optionNotPrimitive (place : Nat) (key : String)
  | labelNotText (place : Nat)
  | parentNotText (place : Nat)
  | unknownType (place : Nat) (type : String)
  | parentNotFound (place : Nat) (parent : String)
  | ownParent (place : Nat)
  | badLink (id : String) (reason : String)
  | badJson (path : String)

namespace SchemaError

def nodeAt (place : Nat) : String := "nodes[" ++ toString place ++ "]"

def message : SchemaError → String
  | notAnObject => "graph JSON must be a JSON object at the top level"
  | missingField field => "graph root: missing required field '" ++ field ++ "'"
  | nameNotText => "graph_name must be a string"
  | nodesNotList => "nodes must be a list"
  | nodeNotObject place => nodeAt place ++ ": each node must be a JSON object"
  | nodeMissingField place field => nodeAt place ++ ": missing required field '" ++ field ++ "'"
  | badId place => nodeAt place ++ ".id must be a non-empty string"
  | typeNotText place => nodeAt place ++ ".type must be a string"
  | duplicateId place id => nodeAt place ++ ": duplicate node id '" ++ id ++ "'"
  | configNotObject place => nodeAt place ++ ".config must be an object"
  | optionNotPrimitive place key =>
    nodeAt place ++ ".config." ++ key ++ " must be a string, number, boolean or null"
  | labelNotText place => nodeAt place ++ ".label must be a string"
  | parentNotText place => nodeAt place ++ ".parent must be a string"
  | unknownType place type => nodeAt place ++ ": unknown node type '" ++ type ++ "'"
  | parentNotFound place parent => nodeAt place ++ ": parent '" ++ parent ++ "' not found in nodes"
  | ownParent place => nodeAt place ++ ": a node cannot be its own parent"
  | badLink id reason => "node '" ++ id ++ "': " ++ reason
  | badJson path => path ++ ": invalid JSON"

end SchemaError

/-- A node of an unknown type in a document. -/
structure TypeWarning where
  place : Nat
  type : String
  deriving DecidableEq

def TypeWarning.message (w : TypeWarning) : String :=
  (SchemaError.unknownType w.place w.type).message ++ " (the node will be skipped)"

namespace Schema

/-- A check of the parts of a node in order. -/
abbrev Check := Except SchemaError

def require (condition : Bool) (fault : SchemaError) : Check Unit :=
  if condition then .ok () else .error fault

/-- The text that a field must be. -/
def requireText (v : Value) (fault : SchemaError) : Check String :=
  match v with
  | .str s => .ok s
  | _ => .error fault

def requireObject (v : Value) (fault : SchemaError) : Check Fields :=
  match v with
  | .object fields => .ok fields
  | _ => .error fault

/-- The value of a field that must be there. -/
def requireField (fields : Fields) (key : String) (fault : SchemaError) : Check Value :=
  match fields.get? key with
  | some v => .ok v
  | none => .error fault

/-- A field that may be missing or null, but must be a text otherwise. -/
def optionalText (fields : Fields) (key : String) (fault : SchemaError) : Check (Option String) :=
  match (fields.get? key).getD .null with
  | .null => .ok none
  | .str s => .ok (some s)
  | _ => .error fault

/-- The first option that is a list or an object. -/
def nestedOption? (fields : Fields) : Option String :=
  (fields.find? fun field => !field.2.isPrimitive).map (·.1)

/-- The options of a node must be an object of primitive values, if they are there. -/
def checkConfig (place : Nat) (fields : Fields) : Check Unit :=
  match (fields.get? "config").getD .null with
  | .null => .ok ()
  | .object options =>
    match nestedOption? options with
    | some key => .error (.optionNotPrimitive place key)
    | none => .ok ()
  | _ => .error (.configNotObject place)

/-- What the check of a node finds out. -/
structure NodeFacts where
  id : String
  type : String
  parent : Option String

/-- Checks a node but for its type; `seen` holds the ids of the nodes in front. -/
def checkNode (place : Nat) (seen : List String) (v : Value) : Check NodeFacts := do
  let fields ← requireObject v (.nodeNotObject place)
  let idValue ← requireField fields "id" (.nodeMissingField place "id")
  let typeValue ← requireField fields "type" (.nodeMissingField place "type")
  let id ← requireText idValue (.badId place)
  require (!id.isEmpty) (.badId place)
  let type ← requireText typeValue (.typeNotText place)
  require (!seen.contains id) (.duplicateId place id)
  checkConfig place fields
  let _ ← optionalText fields "label" (.labelNotText place)
  let parent ← optionalText fields "parent" (.parentNotText place)
  pure ⟨id, type, parent⟩

/-- The outcome of a check: the warnings up to its end or its first fault. -/
structure Outcome (α : Type) where
  warnings : List TypeWarning
  result : Check α

/-- Checks the nodes from some place on. The facts about the nodes come in order. -/
def checkNodes (known : String → Bool) (strict : Bool) :
    Nat → List String → List Value → Outcome (List NodeFacts)
  | _, _, [] => ⟨[], .ok []⟩
  | place, seen, v :: rest =>
    match checkNode place seen v with
    | .error e => ⟨[], .error e⟩
    | .ok facts =>
      let unknown := !known facts.type
      if unknown && strict then ⟨[], .error (.unknownType place facts.type)⟩
      else
        let more := checkNodes known strict (place + 1) (seen ++ [facts.id]) rest
        ⟨(if unknown then [⟨place, facts.type⟩] else []) ++ more.warnings,
          more.result.map (facts :: ·)⟩

/-- Checks the link of a node to its parent. -/
def checkLink (ids : List String) (place : Nat) (node : NodeFacts) : Check Unit :=
  match node.parent with
  | none => .ok ()
  | some parent => do
    require (ids.contains parent) (.parentNotFound place parent)
    require (parent != node.id) (.ownParent place)

/-- Checks the links of the nodes from some place on. -/
def checkLinks (ids : List String) : Nat → List NodeFacts → Check Unit
  | _, [] => .ok ()
  | place, node :: rest => do
    checkLink ids place node
    checkLinks ids (place + 1) rest

def nodesOf (v : Value) : Check (List Value) := do
  let fields ← requireObject v .notAnObject
  let name ← requireField fields "graph_name" (.missingField "graph_name")
  let nodes ← requireField fields "nodes" (.missingField "nodes")
  let _ ← requireText name .nameNotText
  match nodes with
  | .list nodes => .ok nodes
  | _ => .error .nodesNotList

/-- Checks a document; `known` says which types are known. -/
def validate (known : String → Bool) (strict : Bool) (v : Value) : Outcome Unit :=
  match nodesOf v with
  | .error e => ⟨[], .error e⟩
  | .ok nodes =>
    let outcome := checkNodes known strict 0 [] nodes
    ⟨outcome.warnings, outcome.result.bind fun facts => checkLinks (facts.map (·.id)) 0 facts⟩

end Schema

end CueGraph
