import CueGraph.Catalog.Appearance

/-!
# Text labels

A text child writes a label. In a chain that reserved a line for its text, it writes that line anew,
with its own text or, when that is blank, with the text kept there; in any other chain it adds a
line. Its style is declared in front of the chain and passed by name.
-/

namespace CueGraph.Catalog

/-- How an option of a style is read. -/
inductive StyleKind where
  | text
  | number
  | flag

/-- The options of a style in the order in which they are written. -/
def styleKeys : List (String × StyleKind) :=
  [("fontFamily", .text), ("fontSize", .number), ("fontWeight", .text), ("fill", .text),
    ("stroke", .text), ("strokeThickness", .number), ("align", .text), ("dropShadow", .flag),
    ("wordWrap", .flag), ("wordWrapWidth", .number)]

/-- The part of a style that one option gives: a text that is more than blanks, a number above zero,
or a flag that is set. -/
def stylePart (c : Config) : String × StyleKind → List Setting
  | (key, .text) => textSetting c key
  | (key, .number) => positiveSettings c [key]
  | (key, .flag) => trueSettings c [key]

/-- The style that the options ask for. -/
def styleSettings (c : Config) : List Setting := styleKeys.flatMap (stylePart c)

/-- Declares the style, unless it is empty; the result is its name. -/
def declareStyle (c : Config) : Program (Option String) :=
  let style := styleSettings c
  if style.isEmpty then pure none
  else do
    let name ← .declareName "textStyle" (objectLiteral (style.map Setting.render))
    pure (some name)

/-- The text of a label, given what is kept with the slot for it, if there is a slot. -/
def labelText (own : String) (kept : Option Value) : Option String :=
  if !Text.isBlank own then some own else kept.map Value.text

/-- What a text child does. -/
def labelProgram (c : Config) : Program Unit := do
  let kept ← .slot? textSlot
  match labelText (c.text "text") kept with
  | none => pure ()
  | some text => do
    let style ← declareStyle c
    .fillOrPush textSlot (textCall text style).line

def label : NodeType where
  label := "Text"
  category := "visual"
  defaults :=
    [("text", blank), ("fontFamily", blank), ("fontSize", whole 0), ("fontWeight", blank),
      ("fill", blank), ("stroke", blank), ("strokeThickness", whole 0), ("align", blank),
      ("dropShadow", off), ("wordWrap", off), ("wordWrapWidth", whole 0)]
  behaviour := .child ([Family.scrollingText, .effect].map Family.key) fun node =>
    labelProgram (.of node.config)

end CueGraph.Catalog
