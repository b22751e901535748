import CueGraph.Catalog.Flow
import CueGraph.Catalog.Label
import CueGraph.Catalog.Placement
import CueGraph.Catalog.Timing
import CueGraph.NodeType.Registry

/-!
# The built-in node types

`builtinTypes` are the built-in types under their ids, in the order in which an editor lists them.
-/

namespace CueGraph.Catalog

def builtinTypes : List (String × NodeType) :=
  [("start", start), ("play", play), ("wait", wait), ("macro", macroCall), ("callback", callback),
    ("waitUntilFinished", waitUntilFinished), ("async", async), ("repeats", repeats),
    ("playIf", playIf), ("delay", delay),
    ("effect", effect), ("sound", sound), ("animation", animation),
    ("scrollingText", scrollingText), ("canvasPan", canvasPan), ("crosshair", crosshair),
    ("atLocation", atLocation), ("duration", duration), ("opacity", opacity), ("volume", volume),
    ("fade", fade), ("fadeAudio", fadeAudio), ("startTime", startTime), ("endTime", endTime),
    ("timeRange", timeRange), ("playbackRate", playbackRate), ("name", name),
    ("forUsers", forUsers), ("override", overrideSection), ("text", label),
    ("on", onTarget), ("moveTowards", moveTowards), ("moveSpeed", moveSpeed),
    ("rotateTowards", rotateTowards), ("teleportTo", teleportTo), ("offset", offset),
    ("closestSquare", closestSquare), ("snapToGrid", snapToGrid), ("hide", hideObject),
    ("show", showObject), ("rotate", rotate), ("rotateIn", rotateIn), ("rotateOut", rotateOut),
    ("tint", tint),
    ("persist", persist), ("scale", scale), ("scaleIn", scaleIn), ("scaleOut", scaleOut),
    ("scaleToObject", scaleToObject), ("size", size), ("stretchTo", stretchTo),
    ("attachTo", attachTo), ("spriteOffset", spriteOffset), ("mirror", mirror),
    ("randomRotation", randomRotation), ("belowTokens", belowTokens), ("locally", locally),
    ("screenSpace", screenSpace), ("zIndex", zIndex),
    ("audioChannel", audioChannel), ("soundRadius", soundRadius), ("shake", shake),
    ("crosshairDistance", crosshairDistance), ("crosshairLabel", crosshairLabel)]

def builtin : Catalog := .ofTypes builtinTypes

end CueGraph.Catalog

namespace CueGraph

def Registry.builtin : Registry := ⟨Catalog.builtinTypes⟩

end CueGraph
