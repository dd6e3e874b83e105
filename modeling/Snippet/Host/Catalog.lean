import Snippet.Callable.Failure
import Snippet.Library.Core
import Snippet.Text.Split

/-!
The libraries that every compilation refers to: those of the platform's list of trusted libraries
that are known.
-/

namespace Snippet.Catalog

/-- The last component of a path. Empty components and single dots do not count, and two dots name
no file. -/
def fileName? (path : String) : Option String :=
  let components := (Text.splitAt '/' path).filter fun part => part != "" && part != "."
  components.getLast?.filter (· != "..")

/-- A text without an ending, if it has it. -/
def withoutEnding? (ending text : String) : Option String :=
  if ending.toList.isSuffixOf text.toList then
    some (String.ofList (text.toList.take (text.length - ending.length)))
  else none

/-- The name of the library at a path: the file name without the ending of libraries. -/
def libraryName? (path : String) : Option String := do
  let file ← fileName? path
  let name := (withoutEnding? ".dll" file <|> withoutEnding? ".DLL" file).getD file
  if name.isEmpty then none else some name

/-- The library at a path, if it is known. -/
def library? (path : String) : Option Library := do Core.library? (← libraryName? path)

/-- The libraries of a list of trusted libraries, a colon between two of them. Empty and unknown
entries are skipped. -/
def ofTrusted (list : String) : LibrarySet :=
  .ofList (((Text.splitAt ':' list).filter (· != "")).filterMap library?)

/-- The platform's own list of trusted libraries. -/
def platformList : String := String.intercalate ":" (Core.libraries.map (·.name ++ ".dll"))

/-- The libraries of the platform's list, which not every platform has. -/
def load (list : Option String) : Except Failure LibrarySet :=
  match list with
  | some list => .ok (ofTrusted list)
  | none => .error .noTrustedLibraries

/-- The libraries that are trusted when the environment may override the platform's list. -/
def ofEnvironment (override : Option String) : Except Failure LibrarySet :=
  load (some (override.getD platformList))

/-- The name of the environment variable that overrides the platform's list. -/
def overrideVariable : String := "DYNCOMPILE_TRUSTED_LIBRARIES"

end Snippet.Catalog
