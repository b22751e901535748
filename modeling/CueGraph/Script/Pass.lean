import CueGraph.Script.Diagnostic

/-!
# Passes

A pass over a graph collects what does not belong to one block: the statements that stand on their
own, the declarations, the diagnostics, and the counter that makes the names of declarations
different. Declarations wait until the entry they belong to claims them.
-/

namespace CueGraph

/-- What a pass over a graph has collected. -/
structure Pass where
  /-- The lines of all statements. -/
  lines : List String := []
  /-- Every declaration. -/
  declarations : List String := []
  diagnostics : List Diagnostic := []
  /-- The declarations that no entry has claimed. -/
  pending : List String := []
  /-- How many names were made. -/
  counter : Nat := 0

namespace Pass

def emit (p : Pass) (line : String) : Pass := { p with lines := p.lines ++ [line] }

/-- The name that a stem gets from the counter. -/
def nextName (p : Pass) (stem : String) : String := stem ++ toString (p.counter + 1)

/-- Counts a name. -/
def count (p : Pass) : Pass := { p with counter := p.counter + 1 }

/-- The declaration of a name. -/
def declaration (name expression : String) : String :=
  "const " ++ name ++ " = " ++ expression ++ ";"

/-- Declares an expression under the next name of a stem. -/
def declare (p : Pass) (stem expression : String) : Pass :=
  let line := declaration (p.nextName stem) expression
  { p with
    declarations := p.declarations ++ [line]
    pending := p.pending ++ [line]
    counter := p.counter + 1 }

/-- Leaves no declaration pending. -/
def claim (p : Pass) : Pass := { p with pending := [] }

def report (p : Pass) (d : Diagnostic) : Pass := { p with diagnostics := p.diagnostics ++ [d] }

end Pass

end CueGraph
