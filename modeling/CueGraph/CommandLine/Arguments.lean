import CueGraph.Text.DecimalDigit
import CueGraph.Text.Shown

/-!
# Arguments of the command line

The command line takes the path of a graph document and some named options. An option may be
abbreviated as long as it is clear, its value follows it or an equals sign, and the last value
counts. After two dashes every argument is taken as it is.

`classify` says what an argument is on its own, `Draft.read` gives the arguments their parts from
left to right, and `Arguments.read` is both together.
-/

namespace CueGraph

/-- The named options. -/
inductive OptionName where
  | help
  | out
  | noWrap
  | compact
  | strict
  | level
  deriving DecidableEq

namespace OptionName

def spellings : List (String × OptionName) :=
  [("-h", help), ("--help", help), ("--out", out), ("--no-wrap", noWrap), ("--compact", compact),
    ("--strict", strict), ("--log-level", level)]

/-- All spellings of an option. -/
def title (o : OptionName) : String :=
  "/".intercalate ((spellings.filter (·.2 == o)).map (·.1))

def takesValue : OptionName → Bool
  | out | level => true
  | _ => false

end OptionName

/-- What is wrong with the arguments. -/
inductive UsageError where
  | ambiguous (argument : String) (spellings : List String)
  | valueExpected (o : OptionName)
  | valueIgnored (o : OptionName) (value : String)
  | inputMissing
  | unrecognized (arguments : List String)

def UsageError.message : UsageError → String
  | ambiguous argument spellings =>
    "ambiguous option: " ++ argument ++ " could match " ++ ", ".intercalate spellings
  | valueExpected o => "argument " ++ o.title ++ ": expected one argument"
  | valueIgnored o value =>
    "argument " ++ o.title ++ ": ignored explicit argument " ++ Text.shown value
  | inputMissing => "the following arguments are required: graph.json"
  | unrecognized arguments => "unrecognized arguments: " ++ " ".intercalate arguments

/-- Why the arguments lead to no run. -/
inductive Stop where
  | help
  | usage (e : UsageError)

/-- What an argument is on its own. -/
inductive Argument where
  | plain (text : String)
  | named (o : OptionName) (value : Option String)
  | unknown (text : String)
  /-- Two dashes: what follows is plain. -/
  | plainFromHere

namespace Argument

/-- A text cut at its first equals sign, if it has one. -/
def cutAtEquals (s : String) : String × Option String :=
  let name := s.toList.takeWhile (· != '=')
  match s.toList.drop name.length with
  | [] => (s, none)
  | _ :: value => (String.ofList name, some (String.ofList value))

/-- Whether a text is a number with a minus sign: digits, with a point in front of the last ones. A
line feed may follow. -/
def isNegativeNumber (s : String) : Bool :=
  let isDigit (c : Char) := (Text.digitValue? c).isSome
  let cs := if s.endsWith "\n" then s.toList.dropLast else s.toList
  match cs with
  | '-' :: digits =>
    match digits.dropWhile isDigit with
    | [] => !digits.isEmpty
    | '.' :: fraction => !fraction.isEmpty && fraction.all isDigit
    | _ => false
  | _ => false

/-- The value that an argument gives to the option of this name. For an option of one letter, more
of the same letter only repeat it, and what follows them is the value. -/
def valueFor? (name value : String) : Option String :=
  match name.toList with
  | ['-', letter] =>
    let rest := value.toList.dropWhile (· == letter)
    if rest.isEmpty && !value.isEmpty then none else some (String.ofList rest)
  | _ => some value

/-- The options that an argument can abbreviate, with the value after the equals sign. A value for
the option of one letter follows it straight away. -/
def candidates (s : String) : List (String × Argument) :=
  if s.startsWith "--" then
    let (start, value) := cutAtEquals s
    (OptionName.spellings.filter (·.1.startsWith start)).map fun spelling =>
      (spelling.1, .named spelling.2 value)
  else
    let name := String.ofList (s.toList.take 2)
    let value := String.ofList (s.toList.drop 2)
    (OptionName.spellings.filter (·.1 == name)).map fun spelling =>
      (spelling.1, .named spelling.2 (valueFor? name value))

/-- The option that an argument spells in full, with the value after the equals sign. -/
def spelled? (s : String) : Option Argument :=
  match OptionName.spellings.lookup s with
  | some o => some (.named o none)
  | none =>
    match cutAtEquals s with
    | (_, none) => none
    -- the spelling in front of the equals sign counts when it is complete
    | (name, some value) =>
      (OptionName.spellings.lookup name).map (.named · (valueFor? name value))

/-- What an argument is on its own. -/
def classify (s : String) : Except Stop Argument :=
  if !s.startsWith "-" || s == "-" then .ok (.plain s)
  else
    match spelled? s with
    | some argument => .ok argument
    | none =>
      match candidates s with
      | [] => .ok (if isNegativeNumber s || s.toList.contains ' ' then .plain s else .unknown s)
      | [(_, argument)] => .ok argument
      | many => .error (.usage (.ambiguous s (many.map (·.1))))

/-- What the arguments are on their own. -/
def classifyAll : List String → Except Stop (List Argument)
  | [] => .ok []
  | "--" :: rest => .ok (.plainFromHere :: rest.map .plain)
  | s :: rest => do
    let argument ← classify s
    let arguments ← classifyAll rest
    pure (argument :: arguments)

end Argument

/-- What the named options choose. -/
structure Choices where
  out : Option String := none
  noWrap : Bool := false
  compact : Bool := false
  strict : Bool := false
  level : Option String := none

namespace Choices

/-- Sets an option that takes a value. -/
def setValue (c : Choices) (o : OptionName) (value : String) : Choices :=
  match o with
  | .out => { c with out := some value }
  | .level => { c with level := some value }
  | _ => c

/-- Sets an option that takes no value. -/
def setFlag (c : Choices) (o : OptionName) : Choices :=
  match o with
  | .noWrap => { c with noWrap := true }
  | .compact => { c with compact := true }
  | .strict => { c with strict := true }
  | _ => c

end Choices

/-- What the arguments so far amount to. -/
structure Draft where
  input : Option String := none
  choices : Choices := {}
  extras : List String := []

namespace Draft

/-- Notes an argument that has no part to play. -/
def note (d : Draft) (text : String) : Draft := { d with extras := d.extras ++ [text] }

/-- Gives the arguments their parts. The first plain one is the path of the document; the two dashes
are left out next to it, and have no part to play elsewhere. -/
def read : Draft → List Argument → Except Stop Draft
  | d, [] => .ok d
  | d, .unknown text :: rest => (d.note text).read rest
  | d, .plain text :: rest =>
    -- the path takes the dashes behind it along
    match d.input, rest with
    | none, .plainFromHere :: rest => read { d with input := some text } rest
    | none, rest => read { d with input := some text } rest
    | some _, rest => (d.note text).read rest
  | d, .plainFromHere :: rest =>
    match d.input, rest with
    | none, .plain text :: rest => read { d with input := some text } rest
    | _, rest => (d.note "--").read rest
  | d, .named o (some value) :: rest =>
    if o.takesValue then read { d with choices := d.choices.setValue o value } rest
    else .error (.usage (.valueIgnored o value))
  | _, .named .help none :: _ => .error .help
  | d, .named o none :: rest =>
    if o.takesValue then
      match rest with
      | .plain value :: rest => read { d with choices := d.choices.setValue o value } rest
      | _ => .error (.usage (.valueExpected o))
    else read { d with choices := d.choices.setFlag o } rest

end Draft

structure Arguments extends Choices where
  input : String

def Arguments.read (arguments : List String) : Except Stop Arguments := do
  let d ← Draft.read {} (← Argument.classifyAll arguments)
  match d.input, d.extras with
  | none, _ => .error (.usage .inputMissing)
  | some input, [] => .ok { d.choices with input }
  | some _, extras => .error (.usage (.unrecognized extras))

end CueGraph
