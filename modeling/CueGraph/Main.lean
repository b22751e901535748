import CueGraph.CommandLine.Run
import CueGraph.Settings.EnvFile

/-!
# The program

The outer layer of the command line: it runs on the files, the variables and the streams of the
system. Texts of the system are made of characters, so they are taken in with `Text.ofChars`, and
what goes out is what can be encoded.
-/

namespace CueGraph

/-- A text of the system as the library holds it. -/
def fromSystem (s : String) : String := Text.ofChars s.toList

/-- A text as a terminal shows it. -/
def onTerminal (s : String) : String := String.ofList (Text.displayed s)

/-- What a path of the system leads to. -/
def lookFile (path : Path) : IO (Option FileEntry) := do
  match Text.encode? path.toString with
  | none => return none
  | some name =>
    match ← (IO.FS.realPath (String.ofList name)).toBaseIO with
    | .error _ => return none
    | .ok file =>
      if ← file.isDir then return some .folder
      match String.fromUTF8? (← IO.FS.readBinFile file) with
      | some text => return some (.text (fromSystem text))
      | none => return some .binary

/-- Writes a file of the system, with the folders on its way. -/
def saveFile (path : Path) (text : String) : IO (Except FileError Unit) := do
  if (← lookFile path) = some .folder then return .error .isFolder
  match ← lookFile path.parent with
  | some .folder => pure ()
  | none => IO.FS.createDirAll (onTerminal path.parent.toString)
  | some _ => return .error .alreadyThere
  let chars := Text.encode? text
  IO.FS.writeFile (onTerminal path.toString) (String.ofList (chars.getD []))
  return if chars.isSome then .ok () else .error .notEncodable

/-- What bears the name of the file of variables in a folder or the nearest one above it. The names
of the folder come in reverse. -/
def nearestFile : List String → IO (Option FileEntry)
  | [] => fileIn []
  | name :: up => do
    match ← fileIn (name :: up) with
    | some file => return some file
    | none => nearestFile up
where
  fileIn (up : List String) : IO (Option FileEntry) := do
    return (← lookFile ⟨1, (EnvFile.fileName :: up).reverse⟩).filter (· != .folder)

/-- The variables of the system, completed from the nearest file of variables. Besides those that
are asked for, the environment is asked for those to which the file refers. -/
def systemVariables (names : List String) : IO (Except FileError LoadedVariables) := do
  let folder := Path.ofString (fromSystem (← IO.currentDir).toString)
  match ← nearestFile folder.names.reverse with
  | some .binary => return .error .notText
  | file =>
    let text :=
      match file with
      | some (.text text) => text
      | _ => ""
    let referred := EnvFile.references (EnvFile.bindings (EnvFile.statements text))
    let known ← (names ++ referred).filterMapM fun name => do
      return (← IO.getEnv (onTerminal name)).map fun value => (name, fromSystem value)
    return .ok (EnvFile.loadText text fun name => known.lookup name)

/-- The system as the surroundings of a run. -/
def systemHost : Host IO where
  load := systemVariables
  look := lookFile
  save := saveFile

end CueGraph

open CueGraph in
def main (arguments : List String) : IO UInt32 := do
  let report ← run systemHost (arguments.map fromSystem)
  for line in report.log do
    IO.eprintln (onTerminal line)
  for warning in report.warnings do
    IO.eprintln (onTerminal warning.message)
  IO.print (onTerminal report.output)
  match report.ending with
  | .exit code => return code.toUInt32
  | .fault e => do
    IO.eprintln (onTerminal e.message)
    return 1
