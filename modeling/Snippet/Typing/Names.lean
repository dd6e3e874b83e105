import Snippet.Diagnostic.Problem
import Snippet.Library.Basic
import Snippet.Typing.Ty

/-!
What names mean: the classes of a program, the namespaces and types around them, and the
resolution of simple names, dotted names and type names.
-/

namespace Snippet

/-- A class of the program under compilation. -/
structure ClassInfo where
  name : String
  modifiers : Modifiers
  /-- Namespace and name with dots, nested classes behind plus signs. -/
  fullName : String
  space : String
  /-- The index of the class around this one. -/
  parent : Option Nat
  /-- The namespaces whose types are in scope in the class. -/
  usings : List String
  /-- The nested classes by name. -/
  nested : List (String × Nat)

/-- The name of a class as diagnostics show it. -/
def ClassInfo.shown (info : ClassInfo) : String :=
  String.ofList (info.fullName.toList.map fun character => if character = '+' then '.' else character)

/-- A type that a name may mean. -/
inductive TypeSymbol where
  | host (definition : String) (arguments : List Ty)
  /-- A class of the program, by its index. -/
  | compiled (index : Nat)
deriving Repr

/-- What a name means. -/
inductive Meaning where
  | type (symbol : TypeSymbol)
  | space (name : String)
deriving Repr

/-- The result of looking a simple name up. -/
inductive Lookup where
  | found (meaning : Meaning)
  | ambiguous (first second : String)
  | missing

/-- A name inside a namespace, which may be the global one. -/
def qualify (space name : String) : String := if space.isEmpty then name else space ++ "." ++ name

/-- The parts of a dotted name. -/
def nameParts (name : String) : List String := (name.splitToList (· == '.'))

/-- The namespaces around a namespace with itself, the innermost first and the global one last. -/
def spaceChain (space : String) : List String :=
  let parts := if space.isEmpty then [] else nameParts space
  (List.range (parts.length + 1)).map fun count =>
    String.intercalate "." (parts.take (parts.length - count))

/-- The classes and libraries that a program is checked against. -/
structure Environment where
  libraries : LibrarySet
  classes : Array ClassInfo
  /-- The classes outside other classes by full name. -/
  topLevel : List (String × Nat)
  namespaces : List String

namespace Environment

/-- The class of an index. -/
def class? (environment : Environment) (index : Nat) : Option ClassInfo := environment.classes[index]?

/-- The shown name of a class. -/
def classShown (environment : Environment) (index : Nat) : String :=
  ((environment.class? index).map (·.shown)).getD ""

/-- The class of a name nested in a class. -/
def nestedClass? (environment : Environment) (index : Nat) (name : String) : Option Nat :=
  (environment.class? index).bind fun info => info.nested.lookup name

/-- The class with the classes around it, the innermost first. A class has a smaller index than
the classes in it, so the chain is no longer than the index. -/
def classChain (environment : Environment) (index : Nat) : List Nat :=
  go (index + 1) index
where
  go : Nat → Nat → List Nat
    | 0, _ => []
    | fuel + 1, index =>
      match environment.class? index with
      | none => []
      | some info =>
        match info.parent with
        | none => [index]
        | some parent => index :: go fuel parent

/-- Whether a namespace exists in the program or in a library. -/
def hasNamespace (environment : Environment) (space : String) : Bool :=
  environment.namespaces.contains space || environment.libraries.hasNamespace space

/-- The type of exactly this full name; a class of the program hides one of a library. -/
def typeNamed? (environment : Environment) (fullName : String) : Option TypeSymbol :=
  match environment.topLevel.lookup fullName with
  | some index => some (.compiled index)
  | none => (environment.libraries.findType? fullName).map fun _ => .host fullName []

/-- What a full name means, a type before a namespace. -/
def meaning? (environment : Environment) (fullName : String) : Option Meaning :=
  match environment.typeNamed? fullName with
  | some symbol => some (.type symbol)
  | none => if environment.hasNamespace fullName then some (.space fullName) else none

/-- The types of a name in some namespaces, each full name once. -/
def importedTypes (environment : Environment) (usings : List String) (name : String) :
    List (String × TypeSymbol) :=
  let add (found : List (String × TypeSymbol)) (space : String) : List (String × TypeSymbol) :=
    let full := qualify space name
    if found.any (·.1 == full) then found
    else
      match environment.typeNamed? full with
      | some symbol => found ++ [(full, symbol)]
      | none => found
  usings.foldl add []

/-- Looks a simple name up from a class outwards: nested classes, then the namespaces around the
class, then the namespaces in use. -/
def findSimple (environment : Environment) (index : Nat) (name : String) : Lookup :=
  match (environment.classChain index).findSome? (environment.nestedClass? · name) with
  | some nested => .found (.type (.compiled nested))
  | none =>
    let (space, usings) := match environment.class? index with
      | some info => (info.space, info.usings)
      | none => ("", [])
    match (spaceChain space).findSome? fun outer => environment.meaning? (qualify outer name) with
    | some meaning => .found meaning
    | none =>
      match environment.importedTypes usings name with
      | [] => .missing
      | [(_, symbol)] => .found (.type symbol)
      | (first, _) :: (second, _) :: _ => .ambiguous first second

/-- What a name means inside a namespace or a type. -/
def findMember? (environment : Environment) (container : Meaning) (name : String) : Option Meaning :=
  match container with
  | .space space => environment.meaning? (qualify space name)
  | .type (.compiled index) =>
    (environment.nestedClass? index name).map fun nested => .type (.compiled nested)
  | .type (.host definition _) =>
    let full := definition ++ "." ++ name
    (environment.libraries.findType? full).map fun _ => .type (.host full [])

/-- The name of a type as diagnostics show it. -/
def symbolShown (environment : Environment) : TypeSymbol → String
  | .compiled index => environment.classShown index
  | .host definition _ => definition

/-- The meaning of a name with type arguments: only the list takes any, and it takes one. -/
def withArguments (environment : Environment) (meaning : Meaning) (arguments : List Ty)
    (name : String) (span : Span) : Except Finding Meaning :=
  match meaning with
  | .type (.host definition held) =>
    if definition == TypeNames.list then
      if arguments.length = 1 then .ok (.type (.host definition arguments))
      else .error ⟨.listArity, span⟩
    else if arguments.isEmpty then .ok (.type (.host definition held))
    else .error ⟨.notGeneric definition, span⟩
  | .type (.compiled index) =>
    if arguments.isEmpty then .ok meaning
    else .error ⟨.notGeneric (environment.classShown index), span⟩
  | .space _ =>
    if arguments.isEmpty then .ok meaning else .error ⟨.missingType (name ++ "<>"), span⟩

/-- The problem of a name that a namespace or a type does not have. -/
def missingMember (environment : Environment) (container : Meaning) (name : String) : Problem :=
  match container with
  | .space space => .missingInNamespace name space
  | .type symbol => .missingInType name (environment.symbolShown symbol)

/-- The static type of a named type in a place of use. Classes of the program have no values, and
static types may not be used here. -/
def symbolType (environment : Environment) (use : StaticTypeUse) (span : Span) :
    TypeSymbol → Except Finding Ty
  | .compiled index =>
    .error (.unsupported ("values of the compiled class '" ++ environment.classShown index ++ "'") span)
  | .host definition arguments =>
    match Ty.ofDefinition definition arguments with
    | .data name =>
      if (environment.libraries.findType? name).any (·.kind == .static) then
        .error ⟨.staticType name use, span⟩
      else .ok (.data name)
    | type => .ok type

mutual

/-- The type that a type name means in a class. -/
def resolveSymbol (environment : Environment) (index : Nat) : TypeName → Except Finding TypeSymbol
  | .basic _ type => .ok (.host (Ty.ofBasic type).fullName [])
  | .named span [] => .error ⟨.identifierExpected, span⟩
  | .named span (segment :: rest) => do
    let first ← resolveFirst environment index span segment
    match ← resolveRest environment index span first rest with
    | .type symbol => .ok symbol
    | .space space => .error ⟨.namespaceAsType space, span⟩

/-- What the first part of a type name means. -/
def resolveFirst (environment : Environment) (index : Nat) (span : Span) :
    TypeSegment → Except Finding Meaning
  | .mk name arguments => do
    let arguments ← resolveArguments environment index arguments
    match environment.findSimple index name with
    | .found meaning => environment.withArguments meaning arguments name span
    | .ambiguous first second => .error ⟨.ambiguousName name first second, span⟩
    | .missing => .error ⟨.missingType name, span⟩

/-- What the further parts of a type name mean inside a namespace or a type. -/
def resolveRest (environment : Environment) (index : Nat) (span : Span) (container : Meaning) :
    List TypeSegment → Except Finding Meaning
  | [] => .ok container
  | segment :: rest => do
    let next ← resolveNext environment index span container segment
    resolveRest environment index span next rest

/-- What one further part of a type name means inside a namespace or a type. -/
def resolveNext (environment : Environment) (index : Nat) (span : Span) (container : Meaning) :
    TypeSegment → Except Finding Meaning
  | .mk name arguments => do
    let arguments ← resolveArguments environment index arguments
    match environment.findMember? container name with
    | some meaning => environment.withArguments meaning arguments name span
    | none => .error ⟨environment.missingMember container name, span⟩

/-- The static types of type arguments. -/
def resolveArguments (environment : Environment) (index : Nat) :
    List TypeName → Except Finding (List Ty)
  | [] => .ok []
  | type :: rest => do
    let symbol ← resolveSymbol environment index type
    let first ← environment.symbolType .typeArgument type.span symbol
    let others ← resolveArguments environment index rest
    return first :: others

end

/-- The static type that a type name means in a class and in a place of use. -/
def resolveType (environment : Environment) (index : Nat) (use : StaticTypeUse) (type : TypeName) :
    Except Finding Ty := do
  environment.symbolType use type.span (← environment.resolveSymbol index type)

end Environment

end Snippet
