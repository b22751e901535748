import CueGraph.Config
import CueGraph.Graph.Basic
import CueGraph.Script.Program
import CueGraph.Text.Sorted
import CueGraph.Vocabulary

/-!
# Node types

A node type says what its nodes do to the script. There are three roles. A root opens a chain of
some family in a block of its own, a child adds to the chain of a root whose family it accepts, and
a utility adds statements that stand on their own.
-/

namespace CueGraph

/-- The part that a node plays in a script. -/
inductive Role where
  | root
  | child
  | utility
  deriving DecidableEq

namespace Role

def key : Role → String
  | root => "root"
  | child => "child"
  | utility => "utility"

def ofKey? : String → Option Role
  | "root" => some root
  | "child" => some child
  | "utility" => some utility
  | _ => none

def vocabulary : Vocabulary Role := ⟨"NodeRole", ofKey?⟩

end Role

/-- The families of chains of the built-in types. Other types can have any other family. -/
inductive Family where
  | effect
  | sound
  | animation
  | scrollingText
  | canvasPan
  | crosshair
  deriving DecidableEq

namespace Family

def key : Family → String
  | effect => "effect"
  | sound => "sound"
  | animation => "animation"
  | scrollingText => "scrollingText"
  | canvasPan => "canvasPan"
  | crosshair => "crosshair"

/-- Every family of the built-in types. -/
def all : List Family := [effect, sound, animation, scrollingText, canvasPan, crosshair]

def ofKey? (s : String) : Option Family := all.find? (·.key == s)

def vocabulary : Vocabulary Family := ⟨"Family", ofKey?⟩

end Family

/-- What a type claims as its role: a role, or some other value, such as a text that names one. -/
inductive RoleClaim where
  | member (role : Role)
  | value (v : Value)

namespace RoleClaim

/-- The role that a claim names. A text can name one. -/
def role? : RoleClaim → Option Role
  | member role => some role
  | value v => Role.ofKey? v.named

/-- Whether the claim is this role. A text is none, though it may name one. -/
def isRole : RoleClaim → Role → Bool
  | member role, other => role == other
  | value _, _ => false

/-- The word for the role that a claim is. -/
def key? : RoleClaim → Option String
  | member role => some role.key
  | value _ => none

end RoleClaim

/-- What the nodes of a type do. -/
inductive Behaviour where
  | root (family : String) (compile : Node → Program Unit)
  | child (families : List String) (compile : Node → Program Unit)
  | utility (compile : Node → Program Unit)

def Behaviour.role : Behaviour → Role
  | root .. => .root
  | child .. => .child
  | utility .. => .utility

def Behaviour.compile : Behaviour → Node → Program Unit
  | root _ compile => compile
  | child _ compile => compile
  | utility compile => compile

/-- A node type: how it is presented, the options of a new node, what its nodes do, and the role that
it claims. -/
structure NodeType where
  label : String := ""
  category : String := ""
  defaults : Fields := []
  behaviour : Behaviour
  claim : RoleClaim := .member behaviour.role

namespace NodeType

/-- The role that the nodes of a type play. -/
def role (t : NodeType) : Role := t.behaviour.role

/-- The families that a type accepts; only a child accepts any. -/
def families (t : NodeType) : List String :=
  match t.behaviour with
  | .child families _ => families
  | _ => []

/-- Whether a child of this type can add to a chain of the family. -/
def accepts (t : NodeType) (family : String) : Bool := t.families.contains family

end NodeType

/-- A type as it is described to an editor, which is shown the role. -/
def NodeType.describe (id : String) (t : NodeType) : Option Fields :=
  let place : Fields :=
    match t.behaviour with
    | .root family _ => [("family", .str family)]
    | .child families _ => [("families", .list ((Text.sortedSet families).map .str))]
    | .utility _ => []
  t.claim.key?.map fun role =>
    [("label", .str t.label), ("category", .str t.category), ("role", .str role)] ++ place ++
      [("type", .str id), ("defaultConfig", .object t.defaults)]

end CueGraph
