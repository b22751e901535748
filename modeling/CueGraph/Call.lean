import CueGraph.Target
import CueGraph.Text.Pieces

/-!
# Calls of a chain

A chain is an opening line followed by calls, one a line. A `Call` has a method, arguments and
options; `Call.line` writes it with the options as one object at the end of the arguments, and
without an object when there is none.
-/

namespace CueGraph

/-- The text of a call from the texts of its parts. -/
def chainLine (method : String) (args options : List String) : String :=
  let args := if options.isEmpty then args else args ++ [objectLiteral options]
  "  ." ++ method ++ "(" ++ ", ".intercalate args ++ ")"

/-- An argument of a call. -/
inductive Arg where
  | numeral (x : Finite)
  | quoted (text : String)
  | quotedList (texts : List String)
  | template (text : String)
  /-- A name or another fixed word of the script. -/
  | word (w : String)
  /-- An object of two numbers under these names. -/
  | pair (first : String) (x : Finite) (second : String) (y : Finite)
  | target (t : Target)
  /-- Two numbers, with a blank on both sides of the comma. -/
  | span (low high : Finite)
  /-- A condition that holds with this probability. -/
  | chance (p : Finite)

namespace Arg

def render : Arg → String
  | numeral x => x.numeral
  | quoted text => Text.quote text
  | quotedList texts => "[" ++ ", ".intercalate (texts.map Text.quote) ++ "]"
  | template text => Text.templateLiteral text
  | word w => w
  | pair first x second y =>
    objectLiteral [first ++ ": " ++ x.numeral, second ++ ": " ++ y.numeral]
  | target t => t.render
  | span low high => low.numeral ++ " , " ++ high.numeral
  | chance p => "() => Math.random() < " ++ p.numeral

def point (x y : Finite) : Arg := pair "x" x "y" y

def flag (b : Bool) : Arg := word (if b then "true" else "false")

end Arg

/-- A named option of a call. -/
structure Setting where
  key : String
  value : Arg

def Setting.render (s : Setting) : String := s.key ++ ": " ++ s.value.render

structure Call where
  method : String
  args : List Arg := []
  options : List Setting := []

def Call.line (call : Call) : String :=
  chainLine call.method (call.args.map Arg.render) (call.options.map Setting.render)

/-- The option, when the condition holds. -/
def settingIf (condition : Bool) (key : String) (value : Arg) : List Setting :=
  if condition then [⟨key, value⟩] else []

/-- The options of a transition: how it eases, unless that is blank, and after which delay, unless
that is zero or no number. -/
def transition (ease delay : Value) : List Setting :=
  settingIf (ease.truthy && !Text.isBlank ease.text) "ease" (.quoted ease.text) ++
    match delay.toFinite? with
    | some d => settingIf (!d.isZero) "delay" (.numeral d)
    | none => []

/-- The call that writes a text, with a style by its name. -/
def textCall (text : String) (style : Option String) : Call :=
  ⟨"text", .template text :: (style.map Arg.word).toList, []⟩

/-- The items of a list, or of a text between its commas, without the blanks around them and without
the blank ones. -/
def splitItems : Value → List String
  | .list values => Text.items (values.map Value.text)
  | v => Text.commaItems v.text

end CueGraph
