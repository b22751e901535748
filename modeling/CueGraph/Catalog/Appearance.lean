import CueGraph.Catalog.Sections

/-!
# How a section looks

The children that show, tint, turn, scale, mirror and layer the picture of a section, shake a pan
and label a crosshair.
-/

namespace CueGraph.Catalog

/-! ## Visibility and rotation -/

def opacity : NodeType := valueModifier "Opacity" "visual" [.animation, .effect] "opacity" (whole 1)

def hideObject : NodeType := bareModifier "Hide" "animation" [.animation] "hide"

def showObject : NodeType := bareModifier "Show" "animation" [.animation] "show"

def rotate : NodeType := valueModifier "Rotate" "animation" [.animation] "rotate" (whole 0)

def rotateTransitionCalls (method : String) (c : Config) : List Call :=
  [⟨method, [.numeral (c.number "degrees"), .numeral (c.number "duration")],
    transitionOf c "ease" "delay"⟩]

def rotateTransition (label method : String) : NodeType :=
  modifier label "animation" [.animation]
    [("degrees", whole 0), ("duration", whole 500), ("ease", blank), ("delay", whole 0)]
    (rotateTransitionCalls method)

def rotateIn : NodeType := rotateTransition "Rotate In" "rotateIn"

def rotateOut : NodeType := rotateTransition "Rotate Out" "rotateOut"

/-- The calls of a tint: none, a colour as a text, or a colour as a number. -/
def tintCalls (c : Config) : List Call :=
  let mode := c.text "mode"
  if mode = "reset" then [⟨"tint", [], []⟩]
  else if mode = "hex" then textOption "tint" "hex" c
  else if mode = "decimal" ∧ c.hasText "dec" then
    match c.number? "dec" with
    | some x => [⟨"tint", [.numeral x], []⟩]
    | none => []
  else []

def tint : NodeType :=
  modifier "Tint" "animation" [.animation] [("mode", word "none"), ("hex", blank), ("dec", blank)]
    tintCalls

/-! ## Size -/

/-- The number of an option, or of one when the option is absent or null. -/
def scaleOf (c : Config) (key : String) : Finite := (c.get key (whole 1)).toFinite

/-- The calls of a scale, one for both axes or one for each. -/
def scaleCalls (c : Config) : List Call :=
  let arg :=
    if c.text "mode" = "xy" then Arg.point (scaleOf c "scaleX") (scaleOf c "scaleY")
    else .numeral (scaleOf c "scale")
  [⟨"scale", [arg], []⟩]

def scale : NodeType :=
  modifier "Scale" "effect" [.effect]
    [("mode", word "uniform"), ("scale", whole 1), ("scaleX", whole 1), ("scaleY", whole 1)]
    scaleCalls

/-- The calls of a scale in time, when it takes a time above zero. -/
def scaleTransitionCalls (method : String) (c : Config) : List Call :=
  if c.positive "duration" then
    [⟨method, [.numeral (c.number "scale"), .numeral (c.number "duration")],
      transitionOf c "ease" "delay"⟩]
  else []

def scaleTransition (label method : String) : NodeType :=
  modifier label "effect" [.effect]
    [("scale", whole 0), ("duration", whole 500), ("ease", blank), ("delay", whole 0)]
    (scaleTransitionCalls method)

def scaleIn : NodeType := scaleTransition "Scale In" "scaleIn"

def scaleOut : NodeType := scaleTransition "Scale Out" "scaleOut"

/-- The calls of a scale to the size of the object. The options need a scale in front of them, which
is one where none is given. -/
def scaleToObjectCalls (c : Config) : List Call :=
  let options := trueSettings c ["uniform", "considerTokenScale"]
  let args : List Arg :=
    match c.number? "scale" with
    | some x =>
      -- zero counts as no scale, and one is what a call without arguments means
      if x.isZero then if options.isEmpty then [] else [.numeral .one]
      else if x.Same .one ∧ options.isEmpty then []
      else [.numeral x]
    | none => if options.isEmpty then [] else [.numeral .one]
  [⟨"scaleToObject", args, options⟩]

def scaleToObject : NodeType :=
  modifier "Scale To Object" "effect" [.effect]
    [("scale", whole 1), ("uniform", off), ("considerTokenScale", off)] scaleToObjectCalls

/-- The calls of a size, when the width is above zero: the width alone, or with a height. -/
def sizeCalls (c : Config) : List Call :=
  if c.positive "width" then
    let arg :=
      if c.positive "height" then
        Arg.pair "width" (c.number "width") "height" (c.number "height")
      else .numeral (c.number "width")
    [⟨"size", [arg], trueSettings c ["gridUnits"]⟩]
  else []

def size : NodeType :=
  modifier "Size" "effect" [.effect] [("width", whole 0), ("height", whole 0), ("gridUnits", off)]
    sizeCalls

/-! ## Rendering -/

/-- The calls of an effect that stays. -/
def persistCalls (c : Config) : List Call :=
  if c.flag "persistTokenPrototype" then
    [⟨"persist", [.flag true], [⟨"persistTokenPrototype", .flag true⟩]⟩]
  else [⟨"persist", [], []⟩]

def persist : NodeType :=
  modifier "Persist" "effect" [.effect] [("persistTokenPrototype", off)] persistCalls

/-- The ways to mirror an effect. -/
def mirrorKeys : List String := ["mirrorX", "mirrorY", "randomizeMirrorX", "randomizeMirrorY"]

/-- The calls of mirroring, one for each way that is set. -/
def mirrorCalls (c : Config) : List Call :=
  (mirrorKeys.filter c.flag).map fun key => ⟨key, [], []⟩

def mirror : NodeType :=
  modifier "Mirror" "effect" [.effect] (mirrorKeys.map fun key => (key, off)) mirrorCalls

def randomRotation : NodeType :=
  bareModifier "Random Rotation" "effect" [.effect] "randomRotation"

def belowTokens : NodeType := bareModifier "Below Tokens" "effect" [.effect] "belowTokens"

def locally : NodeType := bareModifier "Locally" "effect" [.effect] "locally"

/-- The calls of an effect in the space of the screen. -/
def screenSpaceCalls (c : Config) : List Call :=
  let anchorX := (c.number? "anchorX").getD .half
  let anchorY := (c.number? "anchorY").getD .half
  [⟨"screenSpace", [], []⟩] ++
    (if c.flag "aboveUI" then [⟨"screenSpaceAboveUI", [], []⟩] else []) ++
    (if c.nonzero "positionX" || c.nonzero "positionY" then
      [⟨"screenSpacePosition", [.point (c.number "positionX") (c.number "positionY")], []⟩]
    else []) ++
    if anchorX.Same .half ∧ anchorY.Same .half then []
    else [⟨"screenSpaceAnchor", [.point anchorX anchorY], []⟩]

def screenSpace : NodeType :=
  modifier "Screen Space" "effect" [.effect]
    [("aboveUI", off), ("positionX", whole 0), ("positionY", whole 0),
      ("anchorX", .double (.finite .half)), ("anchorY", .double (.finite .half))]
    screenSpaceCalls

def zIndex : NodeType := valueModifier "Z-Index" "effect" [.effect] "zIndex" (whole 0)

/-! ## Camera and crosshair -/

/-- The options with the number of each key that is above zero. -/
def positiveSettings (c : Config) (keys : List String) : List Setting :=
  keys.flatMap fun key => settingIf (c.positive key) key (.numeral (c.number key))

/-- The calls of a shake, when its strength is above zero. -/
def shakeCalls (c : Config) : List Call :=
  if c.positive "strength" then
    [⟨"shake", [],
      ⟨"strength", .numeral (c.number "strength")⟩ ::
        positiveSettings c ["duration", "frequency", "fadeInDuration", "fadeOutDuration"] ++
        settingIf (!c.flagOr "rotation" true) "rotation" (.flag false)⟩]
  else []

def shake : NodeType :=
  modifier "Shake" "canvas" [.canvasPan]
    [("strength", whole 5), ("duration", whole 500), ("frequency", whole 0),
      ("fadeInDuration", whole 0), ("fadeOutDuration", whole 0), ("rotation", on)]
    shakeCalls

def crosshairDistance : NodeType :=
  modifier "Crosshair Distance" "crosshair" [.crosshair] [("distance", whole 0)]
    (positiveCall "distance" "distance")

/-- The calls of a label, with its distance when one coordinate is other than zero. -/
def crosshairLabelCalls (c : Config) : List Call :=
  if c.hasText "text" then
    let options : List Setting :=
      if c.nonzero "dx" || c.nonzero "dy" then
        [⟨"dx", .numeral (c.number "dx")⟩, ⟨"dy", .numeral (c.number "dy")⟩]
      else []
    [⟨"label", [.quoted (c.trimmed "text")], options⟩]
  else []

def crosshairLabel : NodeType :=
  modifier "Crosshair Label" "crosshair" [.crosshair]
    [("text", blank), ("dx", whole 0), ("dy", whole 0)] crosshairLabelCalls

end CueGraph.Catalog
