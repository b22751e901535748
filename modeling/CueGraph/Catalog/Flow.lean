import CueGraph.Catalog.Sections
import CueGraph.Text.Indented
import CueGraph.Text.Word

/-!
# Flow

The utilities, which emit statements, and the children that decide when and whether a section plays.
-/

namespace CueGraph.Catalog

/-- The families of sections that take time. -/
def timed : List Family := [.animation, .effect, .sound, .scrollingText, .canvasPan]

/-! ## Statements -/

def start : NodeType :=
  statements "Start / Sequence" [("label", word "Sequence start")] fun _ => []

def play : NodeType := statements "Play" [] fun _ => []

/-- The lines of a wait: for a time above zero, or for a time up to `msMax` when that is longer. -/
def waitLines (c : Config) : List String :=
  let ms := c.number "ms"
  let msMax := c.number "msMax"
  if !ms.isPositive then []
  else if ms < msMax then ["seq.wait(" ++ ms.numeral ++ ", " ++ msMax.numeral ++ ");"]
  else ["seq.wait(" ++ ms.numeral ++ ");"]

def wait : NodeType := statements "Wait" [("ms", whole 1000), ("msMax", whole 0)] waitLines

def macroLines (c : Config) : List String :=
  ["seq.macro(" ++ Text.quote (nameOr c "macroName" "Macro") ++ ");"]

def macroCall : NodeType := statements "Macro" [("macroName", word "MacroName")] macroLines

/-- The lines of a callback: the code of the user, one step to the right. Blank code
does nothing. -/
def callbackLines (c : Config) : List String :=
  let code := c.text "body"
  if Text.isBlank code then []
  else
    let header := if c.flagOr "async" true then "async () => \x7b" else "() => \x7b"
    let started := (({} : Text.Indented).line ("seq.thenDo(" ++ header)).indent
    ((started.body code).outdent.line "\x7d);").lines

def callback : NodeType :=
  statements "Callback (thenDo)" [("body", blank), ("async", on)] callbackLines

/-! ## When and whether a section plays -/

/-- The calls of waiting for the end of a section, with a delay other than zero. -/
def waitUntilFinishedCalls (c : Config) : List Call :=
  let args := if c.nonzero "minDelay" then [Arg.numeral (c.number "minDelay")] else []
  [⟨"waitUntilFinished", args, []⟩]

def waitUntilFinished : NodeType :=
  modifier "Wait Until Finished" "common" timed [("minDelay", whole 0)] waitUntilFinishedCalls

def async : NodeType := bareModifier "Async" "common" timed "async"

/-- The calls of repeating a section more than once, with one delay or a range of delays. -/
def repeatsCalls (c : Config) : List Call :=
  let count := c.number "repeats"
  let low := c.number "repeatDelayMin"
  let high := c.number "repeatDelayMax"
  if count ≤ .one then []
  else
    let delays :=
      if !high.isZero ∧ low < high then [low, high]
      else if !low.isZero then [low]
      else []
    [⟨"repeats", (count :: delays).map .numeral, []⟩]

def repeats : NodeType :=
  modifier "Repeats" "flow" [.effect, .animation, .sound, .scrollingText]
    [("repeats", whole 1), ("repeatDelayMin", whole 0), ("repeatDelayMax", whole 0)] repeatsCalls

/-- The calls of playing on a condition: a truth value, or a chance between zero and one. -/
def playIfCalls (c : Config) : List Call :=
  let mode := c.text "mode"
  if mode = "boolean" then [⟨"playIf", [.flag (c.flag "bool")], []⟩]
  else if mode = "chance" then
    match c.number? "chance" with
    | some p => if p.isPositive ∧ p < .one then [⟨"playIf", [.chance p], []⟩] else []
    | none => []
  else []

def playIf : NodeType :=
  modifier "Play If" "flow" timed
    [("mode", word "always"), ("bool", on), ("chance", .double (.finite .half))] playIfCalls

/-- The calls of a delay, or of a range of delays when `delayMax` is above zero. -/
def delayCalls (c : Config) : List Call :=
  let low := c.number "delayMin"
  let arg := if c.positive "delayMax" then Arg.span low (c.number "delayMax") else .numeral low
  [⟨"delay", [arg], []⟩]

def delay : NodeType :=
  modifier "Delay" "common" timed [("delayMin", whole 0), ("delayMax", whole 0)] delayCalls

/-! ## Code of the user in a chain -/

/-- The lines of an override: the code of the user inside the call, with a line that returns the
data when the code has no `return` of its own. Blank code does nothing. -/
def overrideLines (c : Config) : List String :=
  let code := c.text "body"
  if Text.isBlank code then []
  else
    let call := ({ depth := 1 } : Text.Indented).line ".addOverride(async (section, data) => \x7b"
    let inside := call.indent.body code
    let closed := if Text.hasWord "return" code then inside else inside.line "return data;"
    (closed.outdent.line "\x7d)").lines

def overrideSection : NodeType where
  label := "Override"
  category := "advanced"
  defaults := [("body", blank)]
  behaviour := .child ([Family.effect, .sound, .animation].map Family.key) fun node =>
    .pushAll (overrideLines (.of node.config))

end CueGraph.Catalog
