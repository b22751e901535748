import CueGraph.Vocabulary

/-!
# Diagnostics

A diagnostic tells why a node of a graph is not in the script, or not as it was meant.
-/

namespace CueGraph

/-- What is wrong with a node. -/
inductive DiagnosticKind where
  | unknownType
  | familyMismatch
  | roleMismatch
  | orphanChild
  | rootOmitted
  deriving DecidableEq

namespace DiagnosticKind

def key : DiagnosticKind → String
  | unknownType => "unknown-type"
  | familyMismatch => "family-mismatch"
  | roleMismatch => "role-mismatch"
  | orphanChild => "orphan-child"
  | rootOmitted => "root-omitted"

def all : List DiagnosticKind :=
  [unknownType, familyMismatch, roleMismatch, orphanChild, rootOmitted]

def ofKey? (s : String) : Option DiagnosticKind := all.find? (·.key == s)

def vocabulary : Vocabulary DiagnosticKind := ⟨"DiagnosticKind", ofKey?⟩

end DiagnosticKind

/-- What is wrong with which node. -/
structure Diagnostic where
  node : String
  type : String
  kind : DiagnosticKind
  message : String
  deriving DecidableEq

/-- The line that reports a diagnostic to the user. -/
def Diagnostic.line (d : Diagnostic) : String :=
  "[" ++ d.kind.key ++ "] " ++ d.node ++ ": " ++ d.message

end CueGraph
