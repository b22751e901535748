import CueGraph.Catalog.Builtin
import CueGraph.CommandLine.Arguments
import CueGraph.CommandLine.Disk
import CueGraph.Compile.Graph
import CueGraph.Document.Graph
import CueGraph.Json.Document
import CueGraph.Settings.Dotenv
import CueGraph.Settings.Options

/-!
# A run of the command line

A run reads its arguments, the settings and the document, compiles it and delivers the script: to
the output, or to the file that the arguments name. Everything else that it says goes to the log.
What a run needs of its surroundings is a `Host`; `Disk.host` is the one made of a disk, the
variables of an environment and a loader of files of variables.

A run that cannot go on ends with a code, or with a `Fault` that nobody has provided for.
-/

namespace CueGraph

/-- The surroundings of a run: the variables, of which some are asked for, what a path leads to, and
the writing of a file with the folders on its way. -/
structure Host (m : Type → Type) where
  load : List String → m (Except FileError LoadedVariables)
  look : Path → m (Option FileEntry)
  save : Path → String → m (Except FileError Unit)

/-- What ends a run before it has a code to end with. -/
inductive Fault where
  | file (e : FileError)
  | level (e : Level.Misnomer)
  | document (e : DocumentError)

def Fault.message : Fault → String
  | file e => e.message
  | level e => e.message
  | document e => e.message

/-- How a run ends: with a code, or with a fault. -/
inductive Ending where
  | exit (code : Nat)
  | fault (e : Fault)

/-- The code with which a run ends, if it has one. -/
def Ending.code? : Ending → Option Nat
  | exit code => some code
  | fault _ => none

/-- What comes of a run: its end, the lines of the log, the warnings of the check, the output. -/
structure Report where
  ending : Ending
  log : List String := []
  warnings : List TypeWarning := []
  output : String := ""

namespace Run

/-- The name under which the program is called. -/
def programName : String := "visualencer-compile"

/-- A line of the log about the progress of a run. -/
def status (message : String) : String := "[" ++ programName ++ "] " ++ message

/-- A line of the log about what ended a run. -/
def failure (message : String) : String := "[error] " ++ message

def usage : String :=
  "usage: " ++ programName ++
    " [-h] [--out FILE] [--no-wrap] [--compact] [--strict] [--log-level LEVEL] graph.json"

/-- What comes of arguments that lead to no run. -/
def stopped : Stop → Report
  | .help => { ending := .exit 0, output := usage ++ "\n" }
  | .usage e =>
    { ending := .exit 2, log := [usage, programName ++ ": error: " ++ e.message] }

/-- The settings with what the arguments choose instead. An empty level chooses nothing. -/
def override (settings : Settings) (choices : Choices) : Settings :=
  { style :=
      { wrap := settings.style.wrap && !choices.noWrap
        separate := settings.style.separate && !choices.compact }
    level :=
      match choices.level with
      | some level => if level.isEmpty then settings.level else Text.upper level
      | none => settings.level }

/-- The settings of a run with these variables and choices, with the lines of the log about them. -/
def settle (choices : Choices) (loaded : LoadedVariables) : Settings × List String :=
  let (settings, warnings) := Settings.load loaded.value
  (override settings choices, loaded.said ++ warnings.map (·.message))

/-- The lines of the notices that a log with this threshold shows. -/
def shownNotices (threshold : Nat) (notices : List Notice) : List String :=
  (notices.filter fun n => threshold ≤ n.level.weight).map (·.line)

/-- The script of a document, or how a run ends without it, with what the run says about it. -/
structure Compilation where
  script : Except Ending String
  log : List String := []
  warnings : List TypeWarning := []

/-- What the log says about a document that is faulty. -/
def faultyDocument (message : String) : String := failure ("Schema validation failed: " ++ message)

/-- What comes of a document that does not pass its check. -/
def refuse (e : SchemaError) (warnings : List TypeWarning) : Compilation :=
  { script := .error (.exit 1), log := [faultyDocument e.message], warnings }

/-- Compiles a document with the built-in types. -/
def compileDocument (style : ScriptStyle) (threshold : Nat) (strict : Bool) (v : Value) :
    Compilation :=
  match Graph.load Registry.builtin.contains strict v with
  | (warnings, .error (.schema e)) => refuse e warnings
  | (warnings, .error e) => { script := .error (.fault (.document e)), warnings }
  | (warnings, .ok loaded) =>
    let compiled := Registry.builtin.compile style loaded.graph
    { script := .ok compiled.text
      log :=
        shownNotices threshold loaded.notices ++
          [status ("graph  : " ++ loaded.graph.name),
            status ("nodes  : " ++ toString loaded.graph.nodes.length)] ++
          shownNotices threshold compiled.notices ++
          compiled.diagnostics.map (·.line)
      warnings }

/-- Compiles the text of a document, which a path names. -/
def compileText (style : ScriptStyle) (threshold : Nat) (strict : Bool) (path : Path)
    (text : String) : Compilation :=
  match Json.read? text with
  | some v => compileDocument style threshold strict v
  | none => refuse (.badJson path.toString) []

/-- Puts out a script, if it can be encoded. -/
def putOut (report : Report) (script : String) : Report :=
  if Text.isEncodable script then { report with output := script }
  else { report with ending := .fault (.file .notEncodable) }

/-- Delivers a script: to the output, or to the file that a path names. -/
def deliver {m : Type → Type} [Monad m] (host : Host m) (out : Option String) (report : Report)
    (script : String) : m Report :=
  match out with
  | none => pure (putOut report script)
  | some out => do
    let path := Path.ofString out
    match ← host.save path script with
    | .ok () =>
      pure { report with log := report.log ++ [status ("wrote  : " ++ path.toString)] }
    | .error e => pure { report with ending := .fault (.file e) }

/-- Compiles the document that the arguments name. -/
def compileFile {m : Type → Type} [Monad m] (host : Host m) (arguments : Arguments)
    (settings : Settings) (log : List String) : m Report := do
  match Level.threshold settings.level with
  | .error e => pure { ending := .fault (.level e), log }
  | .ok threshold =>
    let path := Path.ofString arguments.input
    match ← host.look path with
    | none =>
      pure { ending := .exit 1, log := log ++ [failure ("File not found: " ++ path.toString)] }
    | some .folder => pure { ending := .fault (.file .isFolder), log }
    | some .binary => pure { ending := .fault (.file .notText), log }
    | some (.text text) =>
      let t := compileText settings.style threshold arguments.strict path text
      let report := { ending := .exit 0, log := log ++ t.log, warnings := t.warnings }
      match t.script with
      | .error ending => pure { report with ending }
      | .ok script => deliver host arguments.out report script

end Run

open Run in
def run {m : Type → Type} [Monad m] (host : Host m) (arguments : List String) : m Report := do
  match Arguments.read arguments with
  | .error stop => pure (stopped stop)
  | .ok arguments =>
    match ← host.load Settings.names with
    | .error e => pure { ending := .fault (.file e) }
    | .ok loaded =>
      let (settings, log) := settle arguments.toChoices loaded
      compileFile host arguments settings log

/-- The surroundings made of a disk, the variables of an environment and a loader for the file that
completes them. -/
def Disk.host (dotenv : Dotenv) (environment : Variables) : Host (StateM Disk) where
  load _ := do return dotenv.load (← get) environment
  look p := do return (← get).look p
  save p text := do
    match (← get).save p text with
    | .ok d => set d; pure (.ok ())
    | .error failure => set failure.left; pure (.error failure.error)

end CueGraph
