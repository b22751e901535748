import CueGraph.Settings.Dotenv
import CueGraph.Text.Blank
import CueGraph.Text.Utf8

/-!
# Files of variables

A file of variables holds one statement a line: a name, and after an equals sign a value. A name may
have `export` in front and stand in single quotes; a value may stand in quotes and then reach over
several lines. A hash starts a comment, but inside a value only after a blank. A statement that
cannot be read is skipped to the end of its line. The last statement for a name counts, and one
without an equals sign leaves its name without a value.

A value may refer to other variables as `${NAME}` or `${NAME:-default}`. Variables of the
environment win over those of the file.

`EnvFile.dotenv` loads the nearest file of variables, from the present folder upwards.

Main statement: `dotenv_documented` (it does what a loader promises).
-/

namespace CueGraph.EnvFile

/-- A name and its value, if it has one. -/
structure Binding where
  name : String
  value : Option (List Char)

/-- What a statement amounts to: a binding, nothing at all, or a fault in the line of its start. -/
inductive Statement where
  | binding (b : Binding)
  | nothing
  | unreadable (line : Nat)

/-- A text whose lines all end in a line feed. -/
def lineFeeds : List Char → List Char
  | [] => []
  | '\r' :: '\n' :: rest => '\n' :: lineFeeds rest
  | '\r' :: rest => '\n' :: lineFeeds rest
  | c :: rest => c :: lineFeeds rest

/-- A blank character inside a line. -/
def isGap (c : Char) : Bool := Text.isBlankChar c && c != '\n'

/-- A character of a name without quotes. -/
def isNameChar (c : Char) : Bool := c != '=' && c != '#' && !Text.isBlankChar c

/-- The rest of the text after the end of a line. -/
def nextLine (cs : List Char) : List Char := (cs.dropWhile (· != '\n')).drop 1

/-- The text without the word `export` in front, if gaps follow it. -/
def dropExport (cs : List Char) : List Char :=
  let rest := cs.drop 6
  if String.ofList (cs.take 6) = "export" ∧ rest.head?.any isGap then rest.dropWhile isGap else cs

/-- The name of a statement and the rest; a comment has none. -/
def name? (cs : List Char) : Option (Option String × List Char) :=
  match cs with
  | '#' :: _ => some (none, cs)
  | '\'' :: rest =>
    let name := rest.takeWhile (· != '\'')
    match rest.dropWhile (· != '\'') with
    | _ :: rest => if name.isEmpty then none else some (some (String.ofList name), rest)
    | [] => none
  | cs =>
    let name := cs.takeWhile isNameChar
    if name.isEmpty then none else some (some (String.ofList name), cs.dropWhile isNameChar)

/-- The characters up to the closing quote, and the rest. A backslash belongs together with the
character after it, so a quote there does not close. -/
def closeQuote? (quote : Char) : List Char → Option (List Char × List Char)
  | [] => none
  | '\\' :: c :: rest =>
    (closeQuote? quote rest).map fun (body, rest) => ('\\' :: c :: body, rest)
  | c :: rest =>
    if c = quote then some ([], rest)
    else (closeQuote? quote rest).map fun (body, rest) => (c :: body, rest)

/-- What a backslash and a character stand for between single quotes. -/
def singleEscape? : Char → Option Char
  | '\\' => some '\\'
  | '\'' => some '\''
  | _ => none

/-- What a backslash and a character stand for between double quotes. -/
def doubleEscape? : Char → Option Char
  | '\\' => some '\\'
  | '\'' => some '\''
  | '"' => some '"'
  | 'a' => some '\x07'
  | 'b' => some '\x08'
  | 'f' => some '\x0c'
  | 'n' => some '\n'
  | 'r' => some '\r'
  | 't' => some '\t'
  | 'v' => some '\x0b'
  | _ => none

/-- The text with the escapes replaced by what they stand for. -/
def unescape (escape? : Char → Option Char) : List Char → List Char
  | [] => []
  | '\\' :: c :: rest =>
    match escape? c with
    | some c => c :: unescape escape? rest
    -- the backslash stays, and may come before another one
    | none => '\\' :: unescape escape? (c :: rest)
  | c :: rest => c :: unescape escape? rest

/-- The text in front of a hash that follows a blank character. -/
def dropComment (afterBlank : Bool) : List Char → List Char
  | [] => []
  | c :: rest =>
    if c = '#' && afterBlank then [] else c :: dropComment (Text.isBlankChar c) rest

/-- The value after an equals sign, and the rest. A gap between the two counts as a blank in front
of a hash. -/
def value? (afterGap : Bool) (cs : List Char) : Option (List Char × List Char) :=
  match cs with
  | '\'' :: rest =>
    (closeQuote? '\'' rest).map fun (body, rest) => (unescape singleEscape? body, rest)
  | '"' :: rest =>
    (closeQuote? '"' rest).map fun (body, rest) => (unescape doubleEscape? body, rest)
  | cs =>
    let line := cs.takeWhile (· != '\n')
    some (Text.dropBlankEnd (dropComment afterGap line), cs.dropWhile (· != '\n'))

/-- The rest after the end of a statement, where nothing but a comment may stand. -/
def finish? (cs : List Char) : Option (List Char) :=
  match cs.dropWhile isGap with
  | [] => some []
  | '#' :: rest => some (nextLine rest)
  | '\n' :: rest => some rest
  | _ => none

/-- Reads a statement: what it says and the rest, or where the reading failed. -/
def readStatement (cs : List Char) : Except (List Char) (Statement × List Char) := do
  let cs := dropExport cs
  let (name, cs) ← (name? cs).elim (.error cs) .ok
  let cs := cs.dropWhile isGap
  let (value, cs) ←
    match cs with
    | '=' :: rest =>
      let cs := rest.dropWhile isGap
      (value? (rest.head?.any isGap) cs).elim (.error cs) fun (value, rest) =>
        .ok (some value, rest)
    | cs => .ok (none, cs)
  let rest ← (finish? cs).elim (.error cs) .ok
  match name with
  | some name => pure (.binding { name, value }, rest)
  | none => pure (.nothing, rest)

/-- The statements of a text that starts in some line. Blank lines in front of a statement belong to
it, and each takes up at least a character. -/
def statementsFrom (line : Nat) (cs : List Char) : List Statement :=
  let start := cs.dropWhile Text.isBlankChar
  if start.isEmpty then []
  else
    let (statement, rest) :=
      match readStatement start with
      | .ok (statement, rest) => (statement, rest)
      | .error rest => (.unreadable line, nextLine rest)
    -- a statement takes up something, so the test only shows that the recursion ends
    if rest.length < cs.length then
      let read := cs.take (cs.length - rest.length)
      statement :: statementsFrom (line + read.count '\n') rest
    else [statement]
termination_by cs.length

/-- The statements of a file. A byte order mark in front of them does not count. -/
def statements (text : String) : List Statement :=
  statementsFrom 1 (lineFeeds (Text.dropByteOrderMark text.toList))

def bindings (statements : List Statement) : List Binding :=
  statements.filterMap fun
    | .binding b => some b
    | _ => none

/-- The lines where a statement starts that cannot be read. -/
def unreadableLines (statements : List Statement) : List Nat :=
  statements.filterMap fun
    | .unreadable line => some line
    | _ => none

/-- What the log says about a statement that cannot be read. -/
def unreadableMessage (line : Nat) : String :=
  Dotenv.title ++ " could not parse statement starting at line " ++ toString line

/-! ## References -/

/-- A piece of a value: a character as it is, or a reference to a variable. -/
inductive Piece where
  | plain (c : Char)
  | reference (name : String) (fallback : Option String)

/-- A reference at the start of the text after its opening brace: the name, the default, and how
many characters it takes up. -/
def reference? (cs : List Char) : Option (String × Option String × Nat) :=
  let name := cs.takeWhile fun c => c != '\x7d' && c != ':'
  match cs.drop name.length with
  | '\x7d' :: _ => some (String.ofList name, none, name.length + 1)
  | ':' :: '-' :: rest =>
    let fallback := rest.takeWhile (· != '\x7d')
    match rest.drop fallback.length with
    | _ :: _ =>
      some (String.ofList name, some (String.ofList fallback), name.length + fallback.length + 3)
    | [] => none
  | _ => none

/-- The pieces of a value. -/
def piecesOf : List Char → List Piece
  | [] => []
  | '$' :: '\x7b' :: rest =>
    match reference? rest with
    | some (name, fallback, length) => .reference name fallback :: piecesOf (rest.drop length)
    | none => .plain '$' :: piecesOf ('\x7b' :: rest)
  | c :: rest => .plain c :: piecesOf rest
termination_by cs => cs.length

/-- The names to which the values of bindings refer. -/
def references (bindings : List Binding) : List String :=
  bindings.flatMap fun b => (piecesOf (b.value.getD [])).filterMap fun
    | .reference name _ => some name
    | .plain _ => none

/-- Names with their values so far, the latest first. -/
abbrev Bound := List (String × Option String)

/-- The text of a piece. The environment is asked first, then the bindings so far; a name that is
bound without a value is empty, and an unknown one has its default. -/
def Piece.text (environment : Variables) (bound : Bound) : Piece → String
  | plain c => String.singleton c
  | reference name fallback =>
    match environment name with
    | some value => value
    | none =>
      match bound.lookup name with
      | some value => value.getD ""
      | none => fallback.getD ""

/-- Adds a binding to those so far, with its references replaced. -/
def bind (environment : Variables) (bound : Bound) (b : Binding) : Bound :=
  (b.name, b.value.map fun value =>
    String.join ((piecesOf value).map (·.text environment bound))) :: bound

/-- The values that a text gives next to the variables of an environment. -/
def valuesIn (text : String) (environment : Variables) : Variables :=
  fun name => (((bindings (statements text)).foldl (bind environment) []).lookup name).join

/-- What becomes of an environment when a text is loaded. -/
def loadText (text : String) (environment : Variables) : LoadedVariables where
  value := fun name => (environment name).or (valuesIn text environment name)
  said := (unreadableLines (statements text)).map unreadableMessage

theorem statements_empty : statements "" = [] := by
  rw [statements, statementsFrom]
  rfl

theorem loadText_empty (environment : Variables) : loadText "" environment = ⟨environment, []⟩ := by
  have hvalues : valuesIn "" environment = fun _ => none := by
    funext name
    rw [valuesIn, statements_empty]
    rfl
  rw [loadText, hvalues, statements_empty]
  simp [unreadableLines]

/-! ## The file on a disk -/

def fileName : String := ".env"

/-- What bears the name of the file in a folder or the nearest one above it. A folder of that name
does not count. The names of the folder come in reverse. -/
def nearest (d : Disk) : List String → Option FileEntry
  | [] => (d.entryAt [fileName]).filter (· != .folder)
  | name :: up =>
    (d.entryAt (fileName :: name :: up).reverse).filter (· != .folder) <|> nearest d up

/-- The text of the file, or an empty one when there is no file. -/
def textOn (d : Disk) : Except FileError String :=
  match nearest d d.present.reverse with
  | some .binary => .error .notText
  | some (.text text) => .ok text
  | _ => .ok ""

/-- The loader for the nearest file of variables. -/
def dotenv : Dotenv where
  values d environment := (textOn d).map (valuesIn · environment)
  load d environment := (textOn d).map (loadText · environment)

theorem values_dotenv (d : Disk) (environment : Variables) :
    dotenv.values d environment = (textOn d).map (valuesIn · environment) := rfl

theorem load_dotenv (d : Disk) (environment : Variables) :
    dotenv.load d environment = (textOn d).map (loadText · environment) := rfl

theorem dotenv_documented : dotenv.Documented where
  adds := by
    intro d environment values h
    rw [values_dotenv] at h
    rw [load_dotenv]
    cases htext : textOn d with
    | error e =>
      rw [htext] at h
      cases h
    | ok text =>
      rw [htext] at h
      obtain rfl := Except.ok.inj h
      exact ⟨(loadText text environment).said, rfl⟩
  titled := by
    intro d environment loaded h
    rw [load_dotenv] at h
    cases htext : textOn d with
    | error e =>
      rw [htext] at h
      cases h
    | ok text =>
      rw [htext] at h
      obtain rfl := Except.ok.inj h
      intro line hline
      obtain ⟨place, -, rfl⟩ := List.mem_map.1 hline
      exact ⟨_, String.append_assoc⟩

end CueGraph.EnvFile
