import CueGraph.Call
import CueGraph.NodeType.Basic

/-!
# Shapes of node types

Most node types depend on the options of the node alone. `modifier` is a child that adds calls,
`opener` a root that opens a chain with lines, and `statements` a utility that emits lines.
-/

namespace CueGraph

/-- A child that adds the calls which its options ask for. -/
def modifier (label category : String) (families : List Family) (defaults : Fields)
    (calls : Config → List Call) : NodeType where
  label
  category
  defaults
  behaviour := .child (families.map Family.key) fun node =>
    .pushAll ((calls (.of node.config)).map Call.line)

/-- A root that opens a chain of its family with lines; without lines there is no chain. -/
def opener (label : String) (family : Family) (defaults : Fields)
    (lines : Config → List String) : NodeType where
  label
  category := "sequencer"
  defaults
  behaviour := .root family.key fun node => .pushAll (lines (.of node.config))

/-- A utility that emits the lines which its options ask for. -/
def statements (label : String) (defaults : Fields) (lines : Config → List String) : NodeType where
  label
  category := "flow"
  defaults
  behaviour := .utility fun node => .emitAll (lines (.of node.config))

/-- A child that adds one call without arguments, whatever its options. -/
def bareModifier (label category : String) (families : List Family) (method : String) : NodeType :=
  modifier label category families [] fun _ => [⟨method, [], []⟩]

/-- The call with the number of the option that is named like it, when that is a number. -/
def valueCall (method : String) (c : Config) : List Call :=
  match c.number? method with
  | some x => [⟨method, [.numeral x], []⟩]
  | none => []

/-- A child that adds one call with the number of its only option, zero included. -/
def valueModifier (label category : String) (families : List Family) (method : String)
    (default : Value) : NodeType :=
  modifier label category families [(method, default)] (valueCall method)

/-- The options for which a call is written with `true` when they are set. -/
def trueSettings (c : Config) (keys : List String) : List Setting :=
  keys.flatMap fun key => settingIf (c.flag key) key (.flag true)

/-- An option that holds a number, when that is other than zero. -/
def numeralSetting (c : Config) (key : String) : List Setting :=
  settingIf (c.nonzero key) key (.numeral (c.number key))

/-- An option that holds a text, when that is more than blanks. -/
def textSetting (c : Config) (key : String) : List Setting :=
  settingIf (c.hasText key) key (.quoted (c.text key))

/-- The offset by `offsetX` and `offsetY`, when one of them is other than zero. -/
def offsetSetting (c : Config) : List Setting :=
  settingIf (c.nonzero "offsetX" || c.nonzero "offsetY") "offset"
    (.point (c.number "offsetX") (c.number "offsetY"))

/-- The options of a transition that a node holds under these names. -/
def transitionOf (c : Config) (ease delay : String) : List Setting :=
  transition (c.raw ease) (c.raw delay)

/-- The call with the target that the options select, when they select one. -/
def targetCall (c : Config) (modes : List TargetMode) (fallback : TargetMode) (method : String)
    (options : List Setting) : List Call :=
  match Target.resolve c (modes.map TargetMode.key) (some fallback.key) "mode" with
  | some t => [⟨method, [.target t], options⟩]
  | none => []

/-- A whole number as the default of an option. -/
def whole (i : Int) : Value := .int i

/-- A text as the default of an option. -/
def word (s : String) : Value := .str s

def blank : Value := .str ""

/-- A truth value as the default of an option. -/
def off : Value := .bool false

/-- A truth value as the default of an option. -/
def on : Value := .bool true

end CueGraph
