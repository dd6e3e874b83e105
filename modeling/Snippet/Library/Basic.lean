import Snippet.Types.TypeDesc
import Snippet.Value.World

/-!
Host libraries: the types that a program may use, with their constants, fields and functions; and ordered sets of
libraries with different names.
-/

namespace Snippet

/-- A function of a host type, with the code that the host runs for it. -/
structure HostFunction where
  name : String
  parameters : List TypeDesc
  result : Option TypeDesc
  run : List Value → Action Value

/-- A constant of a host type. -/
structure HostConstant where
  name : String
  type : TypeDesc
  value : Value

/-- A field of the objects of a host type. -/
structure HostField where
  name : String
  type : TypeDesc

/-- What a host type is for. -/
inductive HostKind where
  /-- A basic type, which may have constants and functions. -/
  | primitive
  /-- Functions and constants only. -/
  | static
  /-- Objects with public fields. -/
  | data
  /-- The generic list. -/
  | list
deriving DecidableEq, Repr

/-- A host type. -/
structure HostType where
  space : String
  enclosing : List String
  name : String
  kind : HostKind
  functions : List HostFunction
  constants : List HostConstant
  fields : List HostField

namespace HostType

/-- A type without members. -/
def bare (space : String) (enclosing : List String) (name : String) (kind : HostKind) : HostType :=
  ⟨space, enclosing, name, kind, [], [], []⟩

/-- The full name: namespace, enclosing types and name, with dots. -/
def fullName (type : HostType) : String :=
  String.intercalate "." ((if type.space.isEmpty then [] else [type.space]) ++ type.enclosing ++ [type.name])

/-- The description of a host type. -/
def desc (type : HostType) : TypeDesc := .nested type.space type.enclosing type.name

/-- The overloads of a function. -/
def overloads (type : HostType) (name : String) : List HostFunction :=
  type.functions.filter (·.name == name)

/-- The constant of a name. -/
def constant? (type : HostType) (name : String) : Option HostConstant :=
  type.constants.find? (·.name == name)

/-- The field of a name. -/
def field? (type : HostType) (name : String) : Option HostField :=
  type.fields.find? (·.name == name)

/-- Whether any member has a name. -/
def hasMember (type : HostType) (name : String) : Bool :=
  type.functions.any (·.name == name) || (type.constant? name).isSome || (type.field? name).isSome

end HostType

/-- A named collection of host types with different full names. -/
structure Library where
  name : String
  types : List HostType

namespace Library

/-- The types without those whose full name an earlier type has. -/
def firstOfName : List HostType → List HostType
  | [] => []
  | type :: rest =>
    type :: (firstOfName rest).filter fun other => other.fullName != type.fullName

/-- The library of some types; of several types of one full name the first counts. -/
def ofTypes (name : String) (types : List HostType) : Library := ⟨name, firstOfName types⟩

/-- The type of a full name. -/
def find? (library : Library) (fullName : String) : Option HostType :=
  library.types.find? (·.fullName == fullName)

/-- The description of one of the library's types, which remembers the library. -/
def typeDesc? (library : Library) (fullName : String) : Option TypeDesc :=
  (library.find? fullName).map fun type => { type.desc with origin := some library.name }

end Library

/-! ### Sets of libraries -/

/-- The libraries that a program refers to, in order. -/
structure LibrarySet where
  libraries : List Library

namespace LibrarySet

/-- The set without libraries. -/
def empty : LibrarySet := ⟨[]⟩

/-- The library of a name. -/
def get? (set : LibrarySet) (name : String) : Option Library :=
  set.libraries.find? (·.name == name)

/-- Whether a library of this name is in the set. -/
def contains (set : LibrarySet) (name : String) : Bool := set.libraries.any (·.name == name)

/-- The set with one more library at its end, unless one of this name is in it. -/
def insert (set : LibrarySet) (library : Library) : LibrarySet :=
  if set.contains library.name then set else ⟨set.libraries ++ [library]⟩

/-- The set with more libraries, one after the other. -/
def extend (set : LibrarySet) (libraries : List Library) : LibrarySet := libraries.foldl insert set

/-- The set of some libraries. -/
def ofList (libraries : List Library) : LibrarySet := empty.extend libraries

/-- The names of the libraries in order. -/
def names (set : LibrarySet) : List String := set.libraries.map (·.name)

/-- The first type of a full name. -/
def findType? (set : LibrarySet) (fullName : String) : Option HostType :=
  set.libraries.findSome? (·.find? fullName)

/-- Whether some type lives in a namespace or in one below it. -/
def hasNamespace (set : LibrarySet) (space : String) : Bool :=
  set.libraries.any fun library => library.types.any fun type =>
    type.space == space || (space ++ ".").toList.isPrefixOf type.space.toList

end LibrarySet

end Snippet
