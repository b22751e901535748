import CueGraph.NodeType.Builder

/-!
# Sections

The roots. Each opens a chain of its family; an effect and a sound need a file for it. The text of
a scrolling text is a slot, which a text child of the chain writes anew.
-/

namespace CueGraph.Catalog

/-- The slot for the text of a chain. -/
def textSlot : String := "text"

/-- The call that places a section at the selected token, when the options ask for it. -/
def atSelectedToken (c : Config) : List Call :=
  if c.text "at" = "selected-token" then [⟨"atLocation", [.target .selectedToken], []⟩] else []

/-- The call with a number, when the option `key` is above zero. -/
def positiveCall (method key : String) (c : Config) : List Call :=
  if c.positive key then [⟨method, [.numeral (c.number key)], []⟩] else []

/-- The call with a text, when the option `key` is more than blanks. -/
def textOption (method key : String) (c : Config) : List Call :=
  if c.hasText key then [⟨method, [.quoted (c.text key)], []⟩] else []

/-- The call with a trimmed text, when the option `key` is more than blanks. -/
def trimmedOption (method key : String) (c : Config) : List Call :=
  if c.hasText key then [⟨method, [.quoted (c.trimmed key)], []⟩] else []

/-- The text of an option, or `fallback` when the option is not true. -/
def nameOr (c : Config) (key fallback : String) : String :=
  if (c.raw key).truthy then (c.raw key).text else fallback

def effectLines (c : Config) : List String :=
  if c.hasText "file" then
    let calls := textOption "baseFolder" "baseFolder" c ++ trimmedOption "file" "file" c
    "seq.effect()" :: calls.map Call.line
  else []

def effect : NodeType :=
  opener "Effect" .effect [("file", blank), ("baseFolder", blank)] effectLines

def soundLines (c : Config) : List String :=
  if c.hasText "file" then
    let calls : List Call :=
      trimmedOption "file" "file" c ++
        (if c.flag "locally" then [⟨"locally", [.flag true], []⟩] else []) ++
        if c.flag "waitUntilFinished" then [⟨"waitUntilFinished", [], []⟩] else []
    "seq.sound()" :: calls.map Call.line
  else []

def sound : NodeType :=
  opener "Sound" .sound [("file", blank), ("waitUntilFinished", off), ("locally", off)] soundLines

def animationLines (c : Config) : List String :=
  "seq.animation()" :: (textOption "preset" "preset" c).map Call.line

def animation : NodeType := opener "Animation" .animation [("preset", blank)] animationLines

/-- What a scrolling text does: the line with its text is reserved, and the text is kept with it. -/
def scrollingTextProgram (c : Config) : Program Unit := do
  .pushAll ("seq.scrollingText()" :: (atSelectedToken c).map Call.line)
  let text := c.text "text"
  .reserve textSlot (textCall text none).line (.str text) (.done ())
  .pushAll ((positiveCall "duration" "durationMs" c).map Call.line)

def scrollingText : NodeType where
  label := "ScrollingText"
  category := "sequencer"
  defaults := [("text", word "Text"), ("at", word "selected-token"), ("durationMs", whole 1000)]
  behaviour := .root Family.scrollingText.key fun node => scrollingTextProgram (.of node.config)

/-- The call that scales a pan, unless the scale is zero or one. -/
def panScale (c : Config) : List Call :=
  match c.number? "scale" with
  | some scale =>
    if scale.isZero ∨ scale.Same .one then [] else [⟨"scale", [.numeral scale], []⟩]
  | none => []

def canvasPanLines (c : Config) : List String :=
  "seq.canvasPan()" ::
    (atSelectedToken c ++ positiveCall "duration" "durationMs" c ++ panScale c ++
      positiveCall "lockView" "lockViewMs" c).map Call.line

def canvasPan : NodeType :=
  opener "CanvasPan" .canvasPan
    [("at", word "selected-token"), ("durationMs", whole 1000), ("scale", .double (.finite .one)),
      ("lockViewMs", whole 0)]
    canvasPanLines

def crosshairLines (c : Config) : List String :=
  ("seq.crosshair(" ++ Text.quote (nameOr c "name" "target") ++ ")") ::
    (trimmedOption "texture" "file" c).map Call.line

def crosshair : NodeType :=
  opener "Crosshair" .crosshair [("name", word "target"), ("file", blank)] crosshairLines

end CueGraph.Catalog
