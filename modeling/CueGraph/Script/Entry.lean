import CueGraph.Script.Block

/-!
# Entries of a script

A script is a list of entries: the block of a root, or the statement of a node that stands on its
own. Each has the declarations that its lines use.
-/

namespace CueGraph

/-- The lines of a node that stands on its own. -/
structure Statement where
  node : String
  lines : List String := []
  declarations : List String := []

inductive Entry where
  | block (b : Block)
  | statement (s : Statement)

namespace Entry

def node : Entry → String
  | block b => b.node
  | statement s => s.node

def declarations : Entry → List String
  | block b => b.declarations
  | statement s => s.declarations

/-- The lines of an entry as they were made. -/
def lines : Entry → List String
  | block b => b.lines
  | statement s => s.lines

/-- The entry with these declarations. -/
def withDeclarations (declarations : List String) : Entry → Entry
  | block b => block { b with declarations }
  | statement s => statement { s with declarations }

def block? : Entry → Option Block
  | block b => some b
  | statement _ => none

def statement? : Entry → Option Statement
  | block _ => none
  | statement s => some s

end Entry

end CueGraph
