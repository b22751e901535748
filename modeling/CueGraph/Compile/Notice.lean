import CueGraph.NodeType.Basic
import CueGraph.Text.Shown

/-!
# Notices

A notice is an event that the log mentions. It has a level, a source and a text; a log shows the
notices from some level on.
-/

namespace CueGraph

/-- An event that the log mentions. -/
inductive Notice where
  | attached (child root : String) (place : Nat)
  | unknownType (node type : String)
  | notAChild (node type root : String)
  | familyRefused (node type family : String) (families : List String)
  | rootOmitted (node type : String)
  | orphan (node type : String)
  | compiled (graph : String) (entries diagnostics : Nat)

/-- How serious a notice is. -/
inductive Level where
  | debug
  | info
  | warning
  | error
  | critical
  deriving DecidableEq

namespace Level

def weight : Level → Nat
  | debug => 10
  | info => 20
  | warning => 30
  | error => 40
  | critical => 50

def key : Level → String
  | debug => "DEBUG"
  | info => "INFO"
  | warning => "WARNING"
  | error => "ERROR"
  | critical => "CRITICAL"

/-- A word that selects no level, since it names something else that the log has. -/
inductive Misnomer where
  /-- The form of its lines, a text. -/
  | form
  /-- The forms that there are, a table. -/
  | forms

def Misnomer.message : Misnomer → String
  | form => "Unknown level: '%(levelname)s:%(name)s:%(message)s'"
  | forms => "Level not an integer or a valid string"

/-- The least weight that a log shows when this word selects it; a word that names nothing selects
the warnings. -/
def threshold : String → Except Misnomer Nat
  | "NOTSET" => .ok 0
  | "DEBUG" => .ok debug.weight
  | "INFO" => .ok info.weight
  | "WARN" | "WARNING" => .ok warning.weight
  | "ERROR" => .ok error.weight
  | "CRITICAL" | "FATAL" => .ok critical.weight
  | "BASIC_FORMAT" => .error .form
  | "_STYLES" => .error .forms
  | _ => .ok warning.weight

end Level

namespace Notice

def level : Notice → Level
  | unknownType .. | notAChild .. | familyRefused .. => .warning
  | attached .. | rootOmitted .. | orphan .. | compiled .. => .debug

/-- The source that the log names for a notice. -/
def source : Notice → String
  | attached .. => "visualencer.core.GraphPrimitives"
  | _ => "visualencer.compiler.builder"

def message : Notice → String
  | attached child root place =>
    "Attached '" ++ child ++ "' to '" ++ root ++ "' at " ++ toString place
  | unknownType node type => "Skipping node '" ++ node ++ "': unknown type '" ++ type ++ "'"
  | notAChild node type root =>
    "Node '" ++ node ++ "' (" ++ type ++ ") attached to '" ++ root ++ "' is not a child node"
  | familyRefused node type family families =>
    "Skipping '" ++ node ++ "' (" ++ type ++ "): family '" ++ family ++ "' not in " ++
      Text.shownList (Text.sortedSet families)
  | rootOmitted node type =>
    "Omitting root '" ++ node ++ "' (" ++ type ++ ") and its children"
  | orphan node type => "Skipping orphaned child '" ++ node ++ "' (" ++ type ++ ")"
  | compiled graph entries diagnostics =>
    "Compiled graph '" ++ graph ++ "': " ++ toString entries ++ " entries, " ++
      toString diagnostics ++ " diagnostics"

/-- The line of a notice in the log. -/
def line (n : Notice) : String := n.level.key ++ " " ++ n.source ++ ": " ++ n.message

end Notice

end CueGraph
