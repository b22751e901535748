import CueGraph.Script.Text
import CueGraph.Text.Blank
import CueGraph.Text.Shown
import CueGraph.Text.Sorted
import CueGraph.Text.UpperCase

/-!
# Settings from variables

How scripts are written and how much the log shows can be settled by variables of the environment.
A flag is switched by one of a few words; a blank value leaves the default, and any other word is
ignored with a warning.

Main statement: `readFlag_blank` (a blank value is as good as none).
-/

namespace CueGraph

/-- What variables settle. -/
structure Settings where
  style : ScriptStyle := {}
  level : String := "WARNING"

/-- A variable whose value is no word for a flag. -/
structure FlagWarning where
  name : String
  value : String
  deriving DecidableEq

namespace Settings

def onWords : List String := ["1", "true", "yes", "on"]

def offWords : List String := ["0", "false", "no", "off"]

/-- What the value of a variable says about a flag. -/
inductive FlagReading where
  | absent
  | switched (on : Bool)
  | unknown (value : String)
  deriving DecidableEq

/-- Reads a flag. The words count in any mix of cases, with blanks around them. -/
def readFlag (value : Option String) : FlagReading :=
  match value with
  | none => .absent
  | some value =>
    if Text.isBlank value then .absent
    else
      let word := (Text.trim value).map Char.toLower
      if offWords.contains word then .switched false
      else if onWords.contains word then .switched true
      else .unknown value

/-- The state of a flag that is on by default. -/
def FlagReading.state : FlagReading → Bool
  | switched on => on
  | _ => true

/-- The warning about the variable of a flag. -/
def FlagReading.warnings (name : String) : FlagReading → List FlagWarning
  | unknown value => [⟨name, value⟩]
  | _ => []

/-- The variable for the lines that make and play the sequence. -/
def wrapName : String := "VISUALENCER_WRAP"

/-- The variable for the empty line between entries. -/
def separateName : String := "VISUALENCER_SEPARATE_ENTRIES"

/-- The variable for the level of the log. -/
def levelName : String := "VISUALENCER_LOG_LEVEL"

/-- The variables that settle something. -/
def names : List String := [wrapName, separateName, levelName]

/-- The level that the value of a variable names, in capitals and without the blanks around it. -/
def readLevel (value : Option String) : String :=
  let word := value.getD ""
  Text.upper (Text.trim (if word.isEmpty then "WARNING" else word))

/-- The settings that variables make, with the warnings about them. -/
def load (value? : String → Option String) : Settings × List FlagWarning :=
  let wrap := readFlag (value? wrapName)
  let separate := readFlag (value? separateName)
  ({ style := { wrap := wrap.state, separate := separate.state }
     level := readLevel (value? levelName) },
    wrap.warnings wrapName ++ separate.warnings separateName)

theorem readFlag_blank {value : String} (h : Text.isBlank value = true) :
    readFlag (some value) = readFlag none := by
  simp [readFlag, h]

end Settings

def FlagWarning.message (w : FlagWarning) : String :=
  "Ignoring " ++ w.name ++ "=" ++ Text.shown w.value ++ ": expected one of " ++
    Text.shownList (Text.sortedSet (Settings.onWords ++ Settings.offWords))

end CueGraph
