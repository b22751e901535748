import CueGraph.Script.Entry

/-!
# The text of a script

`Entry.render` writes entries one after the other, each with its declarations in front. The last
line of a block gets the semicolon that ends the chain; statements have theirs already. An entry
without lines and declarations leaves no trace.
-/

namespace CueGraph

/-- How a script is written: between the line that makes the sequence and the one that plays it, and
with an empty line between entries. -/
structure ScriptStyle where
  wrap : Bool := true
  separate : Bool := true

def openingLine : String := "const seq = new Sequence();"

def closingLine : String := "seq.play();"

/-- The lines of a chain with the semicolon at its end. -/
def endChain : List String → List String
  | [] => []
  | [line] => [line ++ ";"]
  | line :: rest => line :: endChain rest

namespace Entry

/-- The lines of an entry as they stand in the script. -/
def written : Entry → List String
  | block b => b.declarations ++ endChain b.lines
  | statement s => s.declarations ++ s.lines

/-- The lines of groups of lines, with an empty line in between if they are kept apart. -/
def joinGroups (separate : Bool) (groups : List (List String)) : List String :=
  if separate then ([""] : List String).intercalate groups else groups.flatten

def body (separate : Bool) (entries : List Entry) : List String :=
  joinGroups separate ((entries.map written).filter (!·.isEmpty))

def scriptLines (style : ScriptStyle) (entries : List Entry) : List String :=
  let body := body style.separate entries
  if !style.wrap then body
  else if body.isEmpty then [openingLine, closingLine]
  else [openingLine, ""] ++ body ++ ["", closingLine]

/-- The text of a script: its lines, each with a line feed. -/
def render (style : ScriptStyle) (entries : List Entry) : String :=
  String.join ((scriptLines style entries).map (· ++ "\n"))

end Entry

end CueGraph
