import CueGraph.CommandLine.Path
import CueGraph.Text.Half

/-!
# Disks

A disk holds files and folders, each under the list of names that leads to it from the root. What a
path leads to is found by walking along its names, where two dots lead to the folder above.

Main statement: `entryAt_put` (an entry reads back what was put there last).
-/

namespace CueGraph

/-- What a path can lead to: a folder, a file with a text, or a file whose bytes are no text. -/
inductive FileEntry where
  | folder
  | text (s : String)
  | binary
  deriving DecidableEq

/-- Why a path cannot be used. -/
inductive FileError where
  | missing
  | notAFolder
  | alreadyThere
  | isFolder
  | notText
  | notEncodable
  deriving DecidableEq

def FileError.message : FileError → String
  | missing => "no such file or folder"
  | notAFolder => "not a folder"
  | alreadyThere => "there is a file of that name"
  | isFolder => "is a folder"
  | notText => "the bytes are not text"
  | notEncodable => "the text cannot be encoded"

/-- Files and folders by the names that lead to them, and the folder where paths start. -/
structure Disk where
  entries : List (List String × FileEntry) := []
  present : List String := []

namespace Disk

/-- What stands at a place. The root is a folder. -/
def entryAt (d : Disk) (place : List String) : Option FileEntry :=
  if place = [] then some .folder else d.entries.lookup place

def put (d : Disk) (place : List String) (entry : FileEntry) : Disk :=
  { d with entries := (place, entry) :: d.entries }

/-- The place to which a name leads from a place. -/
def step (place : List String) (name : String) : List String :=
  if name = ".." then place.dropLast else place ++ [name]

/-- The place to which names lead. Only a folder leads on. -/
def walk (d : Disk) : List String → List String → Except FileError (List String)
  | place, [] => .ok place
  | place, name :: rest =>
    if d.entryAt place = some .folder then
      if (d.entryAt (step place name)).isSome then d.walk (step place name) rest
      else .error .missing
    else .error .notAFolder

/-- Where a path starts. -/
def start (d : Disk) (p : Path) : List String := if p.slashes = 0 then d.present else []

/-- What a path leads to, if it leads anywhere. -/
def look (d : Disk) (p : Path) : Option FileEntry :=
  match d.walk (d.start p) p.names with
  | .ok place => d.entryAt place
  | .error _ => none

/-- The folder in which the last name of a path stands. -/
def folderOf (d : Disk) (p : Path) : Except FileError (List String) := do
  let place ← d.walk (d.start p) p.parent.names
  if d.entryAt place = some .folder then pure place else .error .notAFolder

/-- Makes the folder that a path names, in a folder that is there. A folder may be there already. -/
def makeFolder (d : Disk) (p : Path) : Except FileError Disk :=
  match p.names.getLast? with
  | none => .ok d
  | some name => do
    let place := step (← d.folderOf p) name
    match d.entryAt place with
    | none => pure (d.put place .folder)
    | some .folder => pure d
    | some _ => .error .alreadyThere

/-- Why a change to a disk failed, and the disk that is left: what the change did before it failed
is not undone. -/
structure Failure where
  error : FileError
  left : Disk

/-- A change that fails leaves the disk as it was before. -/
def orLeave (before : Disk) (change : Except FileError Disk) : Except Failure Disk :=
  change.mapError (⟨·, before⟩)

/-- Makes the folder of a path and, where it is missing, the one that holds it. The names of the
path come in reverse. -/
def makeFolders (d : Disk) (slashes : Nat) : List String → Except Failure Disk
  | [] => .ok d
  | name :: up =>
    match d.makeFolder ⟨slashes, (name :: up).reverse⟩ with
    | .error .missing => do
      let d ← makeFolders d slashes up
      d.orLeave (d.makeFolder ⟨slashes, (name :: up).reverse⟩)
    | made => d.orLeave made

/-- The place of the file that a path names, in a folder that is there. -/
def filePlace (d : Disk) (p : Path) : Except FileError (List String) :=
  match p.names.getLast? with
  | none => .error .isFolder
  | some name => do
    let place := step (← d.folderOf p) name
    if d.entryAt place = some .folder then .error .isFolder else pure place

/-- Writes a text to the file that a path names. The folders on the way are made. The file is
emptied before the text is encoded, and is left empty when that fails. -/
def save (d : Disk) (p : Path) (text : String) : Except Failure Disk := do
  let d ← d.makeFolders p.slashes p.parent.names.reverse
  let place ← (d.filePlace p).mapError (⟨·, d⟩)
  if Text.isEncodable text then pure (d.put place (.text text))
  else .error ⟨.notEncodable, d.put place (.text "")⟩

theorem entryAt_put (d : Disk) (place other : List String) (entry : FileEntry) (h : place ≠ []) :
    (d.put place entry).entryAt other = if other = place then some entry else d.entryAt other := by
  by_cases hr : other = []
  · subst hr
    simp [entryAt, Ne.symm h]
  · simp only [entryAt, put, hr, ↓reduceIte, List.lookup_cons]
    grind

end Disk

end CueGraph
