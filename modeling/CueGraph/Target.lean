import CueGraph.Config
import CueGraph.Text.Quoted

/-!
# Targets

A target is the entity that a node points at: the token or target selected by the user, a token or
tile that is looked up, a point, an entity stored under a name, or the object that the surrounding
section is bound to. `Target.resolve` reads it from the options of a node, `Target.render` is its
expression in the script.
-/

namespace CueGraph

def objectLiteral (fields : List String) : String :=
  "\x7b " ++ ", ".intercalate fields ++ " \x7d"

def pointLiteral (x y : Finite) : String := objectLiteral ["x: " ++ x.numeral, "y: " ++ y.numeral]

/-- A way to point at an entity. -/
inductive TargetMode where
  | selectedToken
  | selectedTarget
  | tokenId
  | tokenName
  | tileId
  | point
  | storedName
  | name
  | inToken
  | inTile
  deriving DecidableEq

namespace TargetMode

def key : TargetMode → String
  | selectedToken => "selected-token"
  | selectedTarget => "selected-target"
  | tokenId => "token-id"
  | tokenName => "token-name"
  | tileId => "tile-id"
  | point => "point"
  | storedName => "stored-name"
  | name => "name"
  | inToken => "inToken"
  | inTile => "inTile"

def all : List TargetMode :=
  [selectedToken, selectedTarget, tokenId, tokenName, tileId, point, storedName, name, inToken,
    inTile]

def ofKey? (s : String) : Option TargetMode := all.find? (·.key == s)

theorem ofKey?_key (mode : TargetMode) : ofKey? mode.key = some mode := by
  cases mode <;> decide +kernel

end TargetMode

inductive Target where
  | selectedToken
  | selectedTarget
  | token (id : String)
  | tokenNamed (name : String)
  | tile (id : String)
  | point (x y : Finite)
  | stored (name : String)
  | inToken
  | inTile

namespace Target

def render : Target → String
  | selectedToken => "canvas.tokens.controlled[0]"
  | selectedTarget => "Array.from(game.user.targets)[0]"
  | token id => "canvas.tokens.get(" ++ Text.quote id ++ ")"
  | tokenNamed name => "canvas.tokens.placeables.find(t => t.name === " ++ Text.quote name ++ ")"
  | tile id => "canvas.tiles.get(" ++ Text.quote id ++ ")"
  | point x y => pointLiteral x y
  | stored name => Text.quote name
  | inToken => "inToken"
  | inTile => "inTile"

/-- The target of a mode, unless the option that the mode needs is blank. -/
def ofMode? (c : Config) : TargetMode → Option Target
  | .selectedToken => some selectedToken
  | .selectedTarget => some selectedTarget
  | .tokenId => if c.hasText "tokenId" then some (token (c.text "tokenId")) else none
  | .tokenName => if c.hasText "tokenName" then some (tokenNamed (c.text "tokenName")) else none
  | .tileId => if c.hasText "tileId" then some (tile (c.text "tileId")) else none
  | .point => some (point (c.number "x") (c.number "y"))
  | .storedName | .name =>
    if c.hasText "storedName" then some (stored (c.trimmed "storedName"))
    else if c.hasText "name" then some (stored (c.trimmed "name"))
    else none
  | .inToken => some inToken
  | .inTile => some inTile

/-- The mode that the options select, as a text: the option `key`, or the fallback when that is
empty. -/
def modeText (c : Config) (fallback : Option String) (key : String) : Option String :=
  let mode := c.text key
  if mode.isEmpty then fallback else some mode

/-- The target that the options select, when its mode is one of the allowed ones and the option that
the mode needs is not blank. -/
def resolve (c : Config) (allowed : List String) (fallback : Option String) (key : String) :
    Option Target := do
  let mode ← modeText c fallback key
  if mode ∈ allowed then
    ofMode? c (← TargetMode.ofKey? mode)
  else none

end Target

end CueGraph
