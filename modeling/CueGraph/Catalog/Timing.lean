import CueGraph.Catalog.Sections

/-!
# Time, sound and names of a section

The children that set how long a section lasts, which part of a file it plays, how it fades, how
loud it is, how it is named and for whom it plays.
-/

namespace CueGraph.Catalog

/-- The families that play a file. -/
def media : List Family := [.effect, .sound]

def duration : NodeType :=
  valueModifier "Duration" "common" [.animation, .effect, .sound, .scrollingText, .canvasPan]
    "duration" (whole 500)

def fourFifths : Finite := ⟨false, 0x3FE999999999999A, by decide⟩

def volume : NodeType :=
  valueModifier "Volume" "common" [.sound] "volume" (.double (.finite fourFifths))

/-- The call of one fade, when it takes a time above zero. -/
def fadeCall (method key : String) (c : Config) : List Call :=
  if c.positive (key ++ "Duration") then
    [⟨method, [.numeral (c.number (key ++ "Duration"))],
      transitionOf c (key ++ "Ease") (key ++ "Delay")⟩]
  else []

/-- The calls of fading in and out. -/
def fadeCalls (fadeIn fadeOut : String) (c : Config) : List Call :=
  fadeCall fadeIn "fadeIn" c ++ fadeCall fadeOut "fadeOut" c

/-- The options of fading. -/
def fadeDefaults : Fields :=
  [("fadeInDuration", whole 0), ("fadeInEase", blank), ("fadeInDelay", whole 0),
    ("fadeOutDuration", whole 0), ("fadeOutEase", blank), ("fadeOutDelay", whole 0)]

def fade : NodeType :=
  modifier "Fade (Visual)" "common" [.effect, .animation] fadeDefaults
    (fadeCalls "fadeIn" "fadeOut")

def fadeAudio : NodeType :=
  modifier "Fade (Audio)" "common" [.effect, .sound, .animation] fadeDefaults
    (fadeCalls "fadeInAudio" "fadeOutAudio")

/-- The calls of a bound in time: as a time above zero, and as a share whenever one is given. -/
def boundCalls (bound : String) (c : Config) : List Call :=
  positiveCall bound bound c ++ valueCall (bound ++ "Perc") c

def startTime : NodeType :=
  modifier "Start Time" "common" media [("startTime", whole 0), ("startTimePerc", whole 0)]
    (boundCalls "startTime")

def endTime : NodeType :=
  modifier "End Time" "common" media [("endTime", whole 0), ("endTimePerc", blank)]
    (boundCalls "endTime")

/-- The calls of a range of time, when it ends after it begins. -/
def timeRangeCalls (c : Config) : List Call :=
  let first := c.number "inMs"
  let last := c.number "outMs"
  if first < last then [⟨"timeRange", [.numeral first, .numeral last], []⟩] else []

def timeRange : NodeType :=
  modifier "Time Range" "common" media [("inMs", whole 0), ("outMs", whole 0)] timeRangeCalls

/-- The calls of a speed of playing, above zero and other than one. -/
def playbackRateCalls (c : Config) : List Call :=
  let rate := c.number "rate"
  if rate.isPositive ∧ ¬rate.Same .one then [⟨"playbackRate", [.numeral rate], []⟩] else []

def playbackRate : NodeType :=
  modifier "Playback Rate" "common" media [("rate", whole 1)] playbackRateCalls

def name : NodeType :=
  modifier "Name" "common" media [("name", blank)] (trimmedOption "name" "name")

/-- The calls of playing for some users only. -/
def forUsersCalls (c : Config) : List Call :=
  let users := splitItems (c.raw "users")
  if users.isEmpty then [] else [⟨"forUsers", [.quotedList users], []⟩]

def forUsers : NodeType := modifier "For Users" "common" media [("users", blank)] forUsersCalls

def audioChannel : NodeType :=
  modifier "Audio Channel" "sound" [.sound] [("channel", blank)]
    (trimmedOption "audioChannel" "channel")

/-- The calls of a sound with a place: its radius above zero, and the two switches where they differ
from what is usual. -/
def soundRadiusCalls (c : Config) : List Call :=
  positiveCall "radius" "radius" c ++
    (if c.flag "constrainedByWalls" then [⟨"constrainedByWalls", [.flag true], []⟩] else []) ++
    if c.flagOr "distanceEasing" true then [] else [⟨"distanceEasing", [.flag false], []⟩]

def soundRadius : NodeType :=
  modifier "Sound Radius" "sound" [.sound]
    [("radius", whole 0), ("constrainedByWalls", off), ("distanceEasing", on)] soundRadiusCalls

end CueGraph.Catalog
