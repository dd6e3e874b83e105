import Snippet.Value.Basic

/-!
Descriptions of host types: a definition with its type arguments, and the library it comes from.
-/

namespace Snippet

/-- A host type. An open type parameter has no namespace and so no full name. -/
structure TypeDesc where
  space : Option String
  enclosing : List String
  name : String
  arguments : List TypeDesc
  /-- The name of the library that the type was taken from. -/
  origin : Option String

namespace TypeDesc

/-- A type of a namespace; the global namespace is empty. -/
def plain (space name : String) : TypeDesc := ⟨some space, [], name, [], none⟩

/-- A type inside other types, the outermost first. -/
def nested (space : String) (enclosing : List String) (name : String) : TypeDesc :=
  ⟨some space, enclosing, name, [], none⟩

/-- An open type parameter. -/
def parameter (name : String) : TypeDesc := ⟨none, [], name, [], none⟩

/-- The type of every value. -/
def object : TypeDesc := plain "System" "Object"

/-- Truth values. -/
def boolean : TypeDesc := plain "System" "Boolean"

/-- 32-bit integers. -/
def int : TypeDesc := plain "System" "Int32"

/-- 64-bit integers. -/
def long : TypeDesc := plain "System" "Int64"

/-- Doubles. -/
def double : TypeDesc := plain "System" "Double"

/-- Texts. -/
def string : TypeDesc := plain "System" "String"

/-- Lists of an element type. -/
def list (element : TypeDesc) : TypeDesc :=
  { plain "System.Collections.Generic" "List" with arguments := [element] }

/-- The full name without type arguments: namespace, enclosing types and name, with dots. -/
def definitionName? (type : TypeDesc) : Option String :=
  type.space.map fun space =>
    String.intercalate "." ((if space.isEmpty then [] else [space]) ++ type.enclosing ++ [type.name])

mutual

/-- The full name, with type arguments in angle brackets; the first type without one otherwise. -/
def nameOrOpen : TypeDesc → Except String String
  | ⟨none, _, name, _, _⟩ => .error name
  | ⟨some space, enclosing, name, arguments, _⟩ => do
    let definition := String.intercalate "."
      ((if space.isEmpty then [] else [space]) ++ enclosing ++ [name])
    let arguments ← namesOrOpen arguments
    match arguments with
    | [] => return definition
    | names => return definition ++ "<" ++ String.intercalate ", " names ++ ">"

/-- The full names of types, or the first type without one. -/
def namesOrOpen : List TypeDesc → Except String (List String)
  | [] => .ok []
  | type :: rest => do
    let first ← type.nameOrOpen
    let others ← namesOrOpen rest
    return first :: others

end

/-- The full name, if the type and all its arguments have one. -/
def fullName? (type : TypeDesc) : Option String := type.nameOrOpen.toOption

/-- Whether slots of the type never hold null. -/
def isValueType (type : TypeDesc) : Bool := type.definitionName?.any TypeNames.isValueType

/-- The value of a slot to which nothing has been assigned. -/
def defaultValue (type : TypeDesc) : Value :=
  match type.definitionName? with
  | some name =>
    if name == TypeNames.boolean then .bool false
    else if name == TypeNames.int then .int 0
    else if name == TypeNames.long then .long 0
    else if name == TypeNames.double then .double 0.0
    else .null
  | none => .null

/-- Whether a slot of the type may hold a value: any value in a slot of the type of every value,
else null or a value whose type has exactly this name. -/
def accepts (type : TypeDesc) (value : Value) : Bool :=
  match type.fullName? with
  | none => false
  | some name =>
    if name == TypeNames.object then true
    else
      match value.typeName? with
      | none => !type.isValueType
      | some found => found == name

mutual

/-- The libraries of a type and of its arguments, in order and with repetitions. -/
def origins : TypeDesc → List String
  | ⟨_, _, _, arguments, origin⟩ => origin.toList ++ originsOfAll arguments

/-- The libraries of types, in order and with repetitions. -/
def originsOfAll : List TypeDesc → List String
  | [] => []
  | type :: rest => type.origins ++ originsOfAll rest

end

mutual

/-- Whether two descriptions denote the same type; the library does not matter. -/
def same : TypeDesc → TypeDesc → Bool
  | ⟨space, enclosing, name, arguments, _⟩, ⟨space', enclosing', name', arguments', _⟩ =>
    space == space' && enclosing == enclosing' && name == name' && sameAll arguments arguments'

/-- Whether two lists of descriptions denote the same types. -/
def sameAll : List TypeDesc → List TypeDesc → Bool
  | [], [] => true
  | first :: firsts, second :: seconds => first.same second && sameAll firsts seconds
  | _, _ => false

end

end TypeDesc

end Snippet
