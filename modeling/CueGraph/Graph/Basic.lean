import CueGraph.Value

/-!
# Graphs of nodes

A graph is a list of nodes in the order in which they were added. A node may hang off another one,
its parent. The link is kept on both sides: the node names its parent, and the graph keeps for each
parent the list of its children, whose order counts.

`add`, `attach`, `detach` and `remove` are the operations; the first two can fail and then give no
new graph.
-/

namespace CueGraph

/-- A node as an editor supplies it. -/
structure Node where
  id : String
  type : String
  config : Value := .object []
  parent : Option String := none
  label : String := id

structure Graph where
  name : String := "graph"
  nodes : List Node := []
  /-- The children of a node, by the id of the parent. -/
  children : List (String × List String) := []

/-- Why an operation on a graph fails. -/
inductive GraphError where
  | alreadyExists (id : String)
  | parentNotFound (id parent : String)
  | notFound (id : String)
  | selfAttachment (id : String)
  deriving DecidableEq

def GraphError.message : GraphError → String
  | alreadyExists id => "Node with id '" ++ id ++ "' already exists in the graph"
  | parentNotFound id parent => "Cannot attach '" ++ id ++ "': parent '" ++ parent ++ "' not found"
  | notFound id => "Node '" ++ id ++ "' not found"
  | selfAttachment id => "Node '" ++ id ++ "' cannot be attached to itself"

/-- A short description of a node. -/
def Node.describe (node : Node) : String := "GraphNode(" ++ node.id ++ ":" ++ node.type ++ ")"

namespace Graph

def find? (g : Graph) (id : String) : Option Node := g.nodes.find? (·.id == id)

def contains (g : Graph) (id : String) : Bool := g.nodes.any (·.id == id)

/-- The ids of the children of a node, in order. -/
def childIds (g : Graph) (id : String) : List String := (g.children.lookup id).getD []

def childrenOf (g : Graph) (id : String) : List Node := (g.childIds id).filterMap g.find?

def setChildren (g : Graph) (id : String) (ids : List String) : Graph :=
  { g with children := (id, ids) :: g.children.filter (·.1 != id) }

def setParent (g : Graph) (id : String) (parent : Option String) : Graph :=
  { g with nodes := g.nodes.map fun node => if node.id = id then { node with parent } else node }

/-- Adds a node at the end. A parent that it names must be in the graph then. -/
def add (g : Graph) (node : Node) : Except GraphError Graph :=
  if g.contains node.id then .error (.alreadyExists node.id)
  else
    let g := { g with nodes := g.nodes ++ [node] }
    -- the node is in the graph already, so it finds itself
    match node.parent with
    | none => .ok g
    | some parent =>
      if g.contains parent then .ok (g.setChildren parent (g.childIds parent ++ [node.id]))
      else .error (.parentNotFound node.id parent)

/-- Adds a node of a type, with its id for a label. Without an id, or with an empty one, the node
gets the fresh id. -/
def create (g : Graph) (fresh type : String) (id : Option String) (config : Value)
    (parent : Option String) : Except GraphError Graph :=
  let id := if (id.getD "").isEmpty then fresh else id.getD ""
  g.add { id, type, config, parent }

/-- Takes a node off its parent. -/
def detach (g : Graph) (id : String) : Graph :=
  match (g.find? id).bind (·.parent) with
  | none => g
  | some parent => (g.setChildren parent ((g.childIds parent).erase id)).setParent id none

/-- Where a child goes among its siblings: at the end when no place is named, otherwise at the place
as far as the list reaches, a negative place being the first. -/
def placeAmong (siblings : List String) : Option Int → Nat
  | none => siblings.length
  | some place => min place.toNat siblings.length

/-- Hangs a node off another one, at a place among its children. -/
def attach (g : Graph) (child root : String) (place : Option Int) : Except GraphError Graph :=
  if !g.contains child then .error (.notFound child)
  else if !g.contains root then .error (.notFound root)
  else if child = root then .error (.selfAttachment child)
  else
    -- a place among the same siblings counts without the child
    let g := g.detach child
    let siblings := g.childIds root
    let siblings := siblings.insertIdx (placeAmong siblings place) child
    .ok ((g.setChildren root siblings).setParent child (some root))

/-- Takes a node out of the graph. Its children stay, without a parent. -/
def remove (g : Graph) (id : String) : Graph :=
  if g.contains id then
    let g := g.detach id
    let g := (g.childIds id).foldl detach g
    { g with
      nodes := g.nodes.filter (·.id != id)
      children := g.children.filter (·.1 != id) }
  else g

end Graph

end CueGraph
