import Snippet.Settings.Basic
import Snippet.Text.Split

/-!
Files in directories, and the operations by which a file is replaced: it gets its new content by way of a temporary file
beside it, and what it held is kept in a third one. Settings are saved and loaded so.
-/

namespace Snippet

/-- The place of a file: the names of the directories around it, and its own name. -/
structure FileAddress where
  directory : List String
  name : String
deriving DecidableEq, Repr

namespace FileAddress

/-- The address that a path denotes, slashes between the names. -/
def ofPath? (path : String) : Option FileAddress :=
  let names := (Text.splitAt '/' path).filter fun part => part != "" && part != "."
  names.getLast?.map (⟨names.dropLast, ·⟩)

/-- The address of the file beside this one whose name has more at its end. -/
def beside (address : FileAddress) (ending : String) : FileAddress :=
  { address with name := address.name ++ ending }

/-- The names of the file as a directory. -/
def asDirectory (address : FileAddress) : List String := address.directory ++ [address.name]

end FileAddress

/-- Directories and files with their contents. The outermost directory always exists. -/
structure FileTree where
  directories : List (List String)
  files : List (FileAddress × String)

namespace FileTree

/-- The tree without files. -/
def empty : FileTree := ⟨[], []⟩

/-- The content of a file. -/
def content? (tree : FileTree) (address : FileAddress) : Option String := tree.files.lookup address

/-- Whether a directory exists. -/
def hasDirectory (tree : FileTree) (directory : List String) : Bool :=
  directory.isEmpty || tree.directories.contains directory

/-- Whether there is a file or a directory at an address. -/
def occupied (tree : FileTree) (address : FileAddress) : Bool :=
  (tree.content? address).isSome || tree.hasDirectory address.asDirectory

/-- The tree without a file. -/
def remove (tree : FileTree) (address : FileAddress) : FileTree :=
  { tree with files := tree.files.filter (·.1 != address) }

/-- The tree with a file of the given content. -/
def put (tree : FileTree) (address : FileAddress) (content : String) : FileTree :=
  { tree with files := (address, content) :: (tree.remove address).files }

/-- Whether there is nothing in a directory. -/
def isEmptyDirectory (tree : FileTree) (directory : List String) : Bool :=
  !(tree.files.any fun file => directory.isPrefixOf file.1.directory) &&
    !(tree.directories.any fun other => directory.isPrefixOf other && other != directory)

/-- The tree in which a directory, with everything in it, has got other names. -/
def moveDirectory (tree : FileTree) (source target : List String) : FileTree :=
  let moved (directory : List String) : List String :=
    if source.isPrefixOf directory then target ++ directory.drop source.length else directory
  ⟨tree.directories.map moved, tree.files.map fun file => ({ file.1 with directory := moved file.1.directory }, file.2)⟩

/-- Whether a directory can get an address: it is free there, or there is another directory without anything in it. A
directory is not moved into itself. -/
def admitsDirectory (tree : FileTree) (source target : FileAddress) : Bool :=
  tree.hasDirectory target.directory && (tree.content? target).isNone &&
    (source == target ||
      tree.isEmptyDirectory target.asDirectory && !source.asDirectory.isPrefixOf target.asDirectory)

/-- The names and contents of the files of a directory, by name. -/
def list (tree : FileTree) (directory : List String) : List (String × String) :=
  let inside := tree.files.filter (·.1.directory == directory)
  (inside.map fun (address, content) => (address.name, content)).mergeSort fun first second =>
    first.1 ≤ second.1

theorem content?_put (tree : FileTree) (address : FileAddress) (content : String) :
    (tree.put address content).content? address = some content := by
  simp [put, content?]

end FileTree

/-- A directory and the directories around it, the outermost first. -/
def enclosingDirectories (directory : List String) : List (List String) :=
  (List.range directory.length).map fun count => directory.take (count + 1)

/-- An operation on files. -/
inductive FileOperation where
  /-- Makes a directory and those around it. -/
  | makeDirectory (directory : List String)
  /-- Makes a file empty, whether or not it exists. -/
  | create (target : FileAddress)
  /-- Writes the content of a file that has been made empty. -/
  | fill (target : FileAddress) (content : String)
  /-- Waits until a file is stored. -/
  | settle (target : FileAddress)
  /-- Gives a file or a directory another address. A file takes the place of another one. -/
  | rename (source target : FileAddress)
deriving DecidableEq, Repr

namespace FileOperation

/-- The tree after an operation; none if it fails, which changes nothing. -/
def after? (tree : FileTree) : FileOperation → Option FileTree
  | makeDirectory directory =>
    let missing := (enclosingDirectories directory).filter (!tree.hasDirectory ·)
    if tree.files.any fun file => missing.contains file.1.asDirectory then none
    else some { tree with directories := missing ++ tree.directories }
  | create target =>
    if tree.hasDirectory target.directory && !tree.hasDirectory target.asDirectory then
      some (tree.put target "")
    else none
  | fill target content => (tree.content? target).map fun _ => tree.put target content
  | settle target => (tree.content? target).map fun _ => tree
  | rename source target =>
    match tree.content? source with
    | some content =>
      if tree.hasDirectory target.directory && !tree.hasDirectory target.asDirectory then
        some ((tree.remove source).put target content)
      else none
    | none =>
      if tree.hasDirectory source.asDirectory && tree.admitsDirectory source target then
        some (tree.moveDirectory source.asDirectory target.asDirectory)
      else none

end FileOperation

/-- An operation, and whether everything stops if it fails. -/
structure FileStep where
  operation : FileOperation
  isRequired : Bool
deriving DecidableEq, Repr

/-- Carries out steps in order. The result says whether no required step has failed; the changes
made before a failure remain. -/
def FileTree.perform (tree : FileTree) : List FileStep → Bool × FileTree
  | [] => (true, tree)
  | step :: rest =>
    match step.operation.after? tree with
    | some changed => changed.perform rest
    | none => if step.isRequired then (false, tree) else tree.perform rest

/-! ### Saving and loading -/

/-- Why settings could not be saved or loaded. -/
inductive SettingsFault where
  /-- An operation on files failed. -/
  | files
  /-- The file holds no settings. -/
  | content
deriving DecidableEq, Repr

/-- The steps that give a file new content: it is written beside the file, an existing file is set
aside if possible, and the new one takes its place. -/
def replaceSteps (address : FileAddress) (content : String) (isPresent : Bool) : List FileStep :=
  let temporary := address.beside ".tmp"
  let setAside : List FileStep := if isPresent then [⟨.rename address (address.beside ".bak"), false⟩] else []
  [⟨.create temporary, true⟩, ⟨.fill temporary content, true⟩, ⟨.settle temporary, true⟩] ++
    setAside ++ [⟨.rename temporary address, true⟩]

/-- The steps that save settings, which make the directory first. -/
def saveSteps (address : FileAddress) (settings : CompilerSettings) (isPresent : Bool) :
    List FileStep :=
  ⟨.makeDirectory address.directory, true⟩ :: replaceSteps address settings.toText isPresent

namespace FileTree

/-- The outcome of steps. -/
def outcome (result : Bool × FileTree) : Except SettingsFault PUnit × FileTree :=
  (if result.1 then .ok ⟨⟩ else .error .files, result.2)

/-- Gives a file new content. -/
def replace (tree : FileTree) (address : FileAddress) (content : String) :
    Except SettingsFault PUnit × FileTree :=
  outcome (tree.perform (replaceSteps address content (tree.occupied address)))

/-- Saves settings. -/
def save (tree : FileTree) (address : FileAddress) (settings : CompilerSettings) :
    Except SettingsFault PUnit × FileTree :=
  outcome (tree.perform (saveSteps address settings (tree.occupied address)))

/-- Loads settings; there are none without a file. -/
def load (tree : FileTree) (address : FileAddress) :
    Except SettingsFault (Option CompilerSettings) :=
  match tree.content? address with
  | some content =>
    match CompilerSettings.ofText? content with
    | some settings => .ok (some settings)
    | none => .error .content
  | none => if tree.hasDirectory address.asDirectory then .error .files else .ok none

end FileTree

end Snippet
