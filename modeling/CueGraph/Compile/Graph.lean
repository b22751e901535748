import CueGraph.Compile.Notice
import CueGraph.NodeType.Registry
import CueGraph.Script.Text

/-!
# Compiling a graph

`compile` visits the nodes of a graph in order. A root gets a block, to which its children add in
their order; a utility gets a statement; a child is dealt with at its root, and reported when it has
none. Nothing fails: what cannot be compiled is left out and reported.
-/

namespace CueGraph

namespace Diagnostic

/-- The type of a node is not known. -/
def unknownType (node : Node) : Diagnostic :=
  ⟨node.id, node.type, .unknownType, "Unknown node type '" ++ node.type ++ "'"⟩

/-- A root opened no chain. -/
def rootOmitted (node : Node) : Diagnostic :=
  ⟨node.id, node.type, .rootOmitted,
    "Root '" ++ node.id ++ "' produced no opener; its children are skipped"⟩

/-- A node under a root is no child. -/
def roleMismatch (node : Node) (role : Role) : Diagnostic :=
  ⟨node.id, node.type, .roleMismatch,
    "'" ++ node.type ++ "' is a " ++ role.key ++ " node and cannot be chained"⟩

/-- A child does not accept the family of its root. -/
def familyMismatch (node : Node) (family : String) : Diagnostic :=
  ⟨node.id, node.type, .familyMismatch,
    "'" ++ node.type ++ "' does not apply to '" ++ family ++ "' sections"⟩

/-- A child has no root. -/
def orphanChild (node : Node) : Diagnostic :=
  ⟨node.id, node.type, .orphanChild,
    "'" ++ node.type ++ "' node '" ++ node.id ++ "' is not attached to a section"⟩

end Diagnostic

/-- How far a compilation has come. -/
structure Progress where
  pass : Pass := {}
  entries : List Entry := []
  notices : List Notice := []

namespace Progress

/-- Reports a diagnostic and mentions it in the log. -/
def report (p : Progress) (d : Diagnostic) (n : Notice) : Progress :=
  { p with pass := p.pass.report d, notices := p.notices ++ [n] }

/-- Closes the visit of a node: the declarations that came up belong to its entry, and are dropped
when it has none. -/
def close (p : Progress) (entry : Option Entry) : Progress :=
  { p with
    pass := p.pass.claim
    entries := p.entries ++ (entry.map (·.withDeclarations p.pass.pending)).toList }

end Progress

namespace Registry

/-- A child adds to the chain of its root. A node that is no child, or that does not accept the
family, is reported; one of an unknown type is reported when its own turn comes. -/
def addChild (r : Registry) (block : Block) (p : Progress) (child : Node) : Block × Progress :=
  match r.get? child.type with
  | none => (block, p)
  | some t =>
    match t.behaviour with
    | .child families compile =>
      if families.contains block.family then
        let w := ((compile child).run ⟨block, p.pass⟩).2
        (w.block, { p with pass := w.pass })
      else
        (block, p.report (.familyMismatch child block.family)
          (.familyRefused child.id child.type block.family families))
    | _ =>
      (block, p.report (.roleMismatch child t.role) (.notAChild child.id child.type block.node))

/-- The children add to the chain one after the other. -/
def addChildren (r : Registry) (children : List Node) (block : Block) (p : Progress) :
    Block × Progress :=
  children.foldl (fun (block, p) child => r.addChild block p child) (block, p)

/-- The block of a root with its children, unless the root opens no chain. -/
def visitRoot (r : Registry) (g : Graph) (node : Node) (family : String)
    (compile : Node → Program Unit) (p : Progress) : Option Entry × Progress :=
  let w := ((compile node).run ⟨{ node := node.id, family }, p.pass⟩).2
  let p := { p with pass := w.pass }
  if w.block.isEmpty then
    (none, p.report (.rootOmitted node) (.rootOmitted node.id node.type))
  else
    let (block, p) := r.addChildren (g.childrenOf node.id) w.block p
    (some (.block block), p)

/-- The statement of a utility, unless it emits nothing. There is no chain: what a utility adds to a
block is dropped. -/
def visitUtility (node : Node) (compile : Node → Program Unit) (p : Progress) :
    Option Entry × Progress :=
  let w := ((compile node).run ⟨{ node := node.id, family := "" }, p.pass⟩).2
  -- what the utility emits is what was not there before
  let lines := w.pass.lines.drop p.pass.lines.length
  let entry := if lines.isEmpty then none else some (.statement { node := node.id, lines })
  (entry, { p with pass := w.pass })

/-- The role of a type, if the type is known. -/
def roleOf? (r : Registry) (type : String) : Option Role := (r.get? type).map (·.role)

/-- Whether the parent of a node is a root. -/
def hasRoot (r : Registry) (g : Graph) (node : Node) : Bool :=
  match node.parent.bind g.find? with
  | some parent => r.roleOf? parent.type == some .root
  | none => false

def visit (r : Registry) (g : Graph) (p : Progress) (node : Node) : Progress :=
  match r.get? node.type with
  | none => p.report (.unknownType node) (.unknownType node.id node.type)
  | some t =>
    match t.behaviour with
    | .root family compile =>
      let (entry, p) := r.visitRoot g node family compile p
      p.close entry
    | .utility compile =>
      let (entry, p) := visitUtility node compile p
      p.close entry
    | .child .. =>
      let p :=
        if r.hasRoot g node then p
        else p.report (.orphanChild node) (.orphan node.id node.type)
      p.close none

end Registry

structure Compiled where
  text : String
  entries : List Entry
  diagnostics : List Diagnostic
  notices : List Notice

namespace Compiled

def declarations (c : Compiled) : List String := c.entries.flatMap (·.declarations)

def blocks (c : Compiled) : List Block := c.entries.filterMap (·.block?)

def statements (c : Compiled) : List Statement := c.entries.filterMap (·.statement?)

/-- The first entry that comes from a node. -/
def entryFor (c : Compiled) (node : String) : Option Entry := c.entries.find? (·.node == node)

end Compiled

/-- What comes of a graph when all its nodes were visited. -/
def Progress.compiled (p : Progress) (style : ScriptStyle) (g : Graph) : Compiled where
  text := Entry.render style p.entries
  entries := p.entries
  diagnostics := p.pass.diagnostics
  notices := p.notices ++ [.compiled g.name p.entries.length p.pass.diagnostics.length]

/-- Visits the nodes of a graph in order. -/
def Registry.visitAll (r : Registry) (g : Graph) : Progress := g.nodes.foldl (r.visit g) {}

def Registry.compile (r : Registry) (style : ScriptStyle) (g : Graph) : Compiled :=
  (r.visitAll g).compiled style g

end CueGraph
