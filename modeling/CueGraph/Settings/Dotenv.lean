import CueGraph.CommandLine.Disk

/-!
# Loading files of variables

The variables of an environment can be completed from a file of variables. The loader that does this
is not part of this library: `Dotenv` is what a run needs of it, and `Dotenv.Documented` is what it
promises. `EnvFile.dotenv` is a loader that keeps the promise.
-/

namespace CueGraph

/-- The values of variables by their names. -/
abbrev Variables := String → Option String

/-- The variables when a file has been loaded, with the lines of the log about it. -/
structure LoadedVariables where
  value : Variables
  said : List String := []

/-- A loader of files of variables: the values that the file on a disk gives next to some
environment, and what becomes of this environment when the file is loaded. -/
structure Dotenv where
  values : Disk → Variables → Except FileError Variables
  load : Disk → Variables → Except FileError LoadedVariables

/-- The name that stands in front of what the loader says. -/
def Dotenv.title : String := "python-dotenv"

/-- What the documentation of the loader promises. Loading adds the values of the file to the
environment and does not override the variables that are there, and what it says begins with its
name. -/
structure Dotenv.Documented (dotenv : Dotenv) : Prop where
  adds : ∀ {d environment values}, dotenv.values d environment = .ok values →
    ∃ said, dotenv.load d environment =
      .ok ⟨fun name => (environment name).or (values name), said⟩
  titled : ∀ {d environment loaded}, dotenv.load d environment = .ok loaded →
    ∀ line ∈ loaded.said, ∃ rest, line = title ++ rest

end CueGraph
