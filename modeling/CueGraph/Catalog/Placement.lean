import CueGraph.NodeType.Builder

/-!
# Where a section plays

The children that place a section, attach it to an entity, move it and turn it towards one.
-/

namespace CueGraph.Catalog

/-- The modes that point at an entity. -/
def entityModes : List TargetMode :=
  [.selectedToken, .selectedTarget, .tokenId, .tokenName, .tileId, .storedName, .name]

/-- The modes that point at an entity or a point. -/
def locationModes : List TargetMode := entityModes ++ [.point]

/-- The modes of the objects that a section can be bound to, and of explicit places. -/
def placementModes : List TargetMode := [.inToken, .inTile, .tokenId, .tileId, .point]

/-- The families that are bound to an object. -/
def bound : List Family := [.animation, .effect]

def entityDefaults (mode : TargetMode) (more : Fields) : Fields :=
  [("mode", word mode.key), ("tokenId", blank), ("tokenName", blank), ("tileId", blank),
    ("storedName", blank), ("x", whole 0), ("y", whole 0)] ++ more

def placementDefaults (more : Fields) : Fields :=
  [("mode", word TargetMode.inToken.key), ("tokenId", blank), ("tileId", blank), ("x", whole 0),
    ("y", whole 0)] ++ more

/-! ## Locations -/

/-- The options of the call that places a section. -/
def atLocationSettings (c : Config) : List Setting :=
  trueSettings c ["cacheLocation"] ++ numeralSetting c "randomOffset" ++ offsetSetting c ++
    trueSettings c ["local", "gridUnits"]

def atLocation : NodeType :=
  modifier "At Location" "common" [.effect, .animation, .sound]
    (entityDefaults .selectedToken
      [("cacheLocation", off), ("randomOffset", whole 0), ("offsetX", whole 0),
        ("offsetY", whole 0), ("local", off), ("gridUnits", off)])
    fun c => targetCall c locationModes .selectedToken "atLocation" (atLocationSettings c)

/-- The options of the call that stretches an effect. -/
def stretchToSettings (c : Config) : List Setting :=
  trueSettings c ["cacheLocation", "attachTo", "onlyX", "tiling"] ++
    numeralSetting c "randomOffset" ++ trueSettings c ["gridUnits"]

def stretchTo : NodeType :=
  modifier "Stretch To" "effect" [.effect]
    (entityDefaults .selectedTarget
      [("cacheLocation", off), ("attachTo", off), ("onlyX", off), ("tiling", off),
        ("randomOffset", whole 0), ("gridUnits", off)])
    fun c => targetCall c locationModes .selectedTarget "stretchTo" (stretchToSettings c)

/-- An option with a trimmed text, unless that is empty or what is usual. -/
def placeSetting (c : Config) (key usual : String) : List Setting :=
  settingIf (c.hasText key && c.trimmed key != usual) key (.quoted (c.trimmed key))

/-- The options that are usually true and are written where they are not. -/
def falseSettings (c : Config) (keys : List String) : List Setting :=
  keys.flatMap fun key => settingIf (!c.flagOr key true) key (.flag false)

/-- The options of the call that attaches a section. -/
def attachToSettings (c : Config) : List Setting :=
  placeSetting c "align" "center" ++ placeSetting c "edge" "on" ++
    falseSettings c ["bindVisibility", "bindAlpha", "followRotation"] ++
    numeralSetting c "randomOffset" ++ offsetSetting c ++ trueSettings c ["gridUnits", "local"]

def attachTo : NodeType :=
  modifier "Attach To" "effect" [.effect, .sound]
    (entityDefaults .selectedToken
      [("align", word "center"), ("edge", word "on"), ("bindVisibility", on), ("bindAlpha", on),
        ("followRotation", on), ("randomOffset", whole 0), ("offsetX", whole 0),
        ("offsetY", whole 0), ("gridUnits", off), ("local", off)])
    fun c => targetCall c entityModes .selectedToken "attachTo" (attachToSettings c)

/-- The calls of an offset of the sprite, when one coordinate is other than zero. -/
def spriteOffsetCalls (c : Config) : List Call :=
  if c.nonzero "x" || c.nonzero "y" then
    [⟨"spriteOffset", [.point (c.number "x") (c.number "y")],
      trueSettings c ["gridUnits", "local"]⟩]
  else []

def spriteOffset : NodeType :=
  modifier "Sprite Offset" "effect" [.effect]
    [("x", whole 0), ("y", whole 0), ("gridUnits", off), ("local", off)] spriteOffsetCalls

/-! ## Movement -/

def onTarget : NodeType :=
  modifier "On (Target)" "animation" bound (placementDefaults [])
    fun c => targetCall c placementModes .inToken "on" []

/-- The options of the call that moves an object. There is no easing towards the token that the
object is bound to. -/
def moveTowardsSettings (c : Config) : List Setting :=
  let mode := Target.modeText c (some TargetMode.inToken.key) "mode"
  (if mode = some TargetMode.inToken.key then [] else textSetting c "ease") ++
    numeralSetting c "delay" ++ trueSettings c ["relativeToCenter"]

def moveTowards : NodeType :=
  modifier "Move Towards" "visual" bound
    (placementDefaults [("ease", word "linear"), ("delay", whole 0), ("relativeToCenter", off)])
    fun c => targetCall c placementModes .inToken "moveTowards" (moveTowardsSettings c)

def moveSpeed : NodeType :=
  valueModifier "Move Speed" "visual" bound "moveSpeed" (whole 500)

/-- The options of the call that turns an object. -/
def rotateTowardsSettings (c : Config) : List Setting :=
  numeralSetting c "duration" ++ textSetting c "ease" ++ numeralSetting c "delay" ++
    numeralSetting c "rotationOffset" ++ falseSettings c ["towardsCenter"] ++
    trueSettings c ["cacheLocation"]

def rotateTowards : NodeType :=
  modifier "Rotate Towards" "animation" [.animation]
    (placementDefaults
      [("duration", whole 500), ("ease", word "linear"), ("delay", whole 0),
        ("rotationOffset", whole 0), ("towardsCenter", on), ("cacheLocation", off)])
    fun c => targetCall c placementModes .inToken "rotateTowards" (rotateTowardsSettings c)

/-- The options of the call that puts an object somewhere else. -/
def teleportToSettings (c : Config) : List Setting :=
  numeralSetting c "delay" ++ trueSettings c ["relativeToCenter"]

def teleportTo : NodeType :=
  modifier "Teleport To" "animation" [.animation]
    (placementDefaults [("delay", whole 0), ("relativeToCenter", off)])
    fun c => targetCall c placementModes .inToken "teleportTo" (teleportToSettings c)

def offset : NodeType :=
  modifier "Offset" "animation" [.animation] [("x", whole 0), ("y", whole 0)]
    fun c => [⟨"offset", [.point (c.number "x") (c.number "y")], []⟩]

def closestSquare : NodeType :=
  bareModifier "Closest Square" "animation" [.animation] "closestSquare"

def snapToGrid : NodeType := bareModifier "Snap to Grid" "animation" [.animation] "snapToGrid"

end CueGraph.Catalog
