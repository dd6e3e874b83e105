import Snippet.Callable.Failure
import Snippet.Types.PassMode

/-!
The shapes of callables, how their parameters are passed, and their types; and the declaration of a method of a given
shape: its parameter list, its result, and the using directives for its types.
-/

namespace Snippet

/-- A parameter of a shape. -/
structure ShapeParameter where
  mode : PassMode
  type : TypeDesc

/-- Parameters in order, and a result unless the callable has none. -/
structure CallableShape where
  parameters : List ShapeParameter
  result : Option TypeDesc

namespace CallableShape

/-- The number of parameters. -/
def arity (shape : CallableShape) : Nat := shape.parameters.length

/-- The shape whose parameters are passed by value. -/
def ofTypes (parameters : List TypeDesc) (result : Option TypeDesc) : CallableShape :=
  ⟨parameters.map (⟨.value, ·⟩), result⟩

/-- The types of the parameters and of the result. -/
def types (shape : CallableShape) : List TypeDesc :=
  shape.parameters.map (·.type) ++ shape.result.toList

/-- The names of the libraries of all types, in order and with repetitions. -/
def origins (shape : CallableShape) : List String := shape.types.flatMap (·.origins)

end CallableShape

/-- The full name of a type; a type without one is refused. -/
def TypeDesc.requireName (type : TypeDesc) : Except Failure String :=
  match type.nameOrOpen with
  | .ok name => .ok name
  | .error name => .error (.input (.openType name))

/-- The full name without type arguments; a type without one is refused. -/
def TypeDesc.requireDefinition (type : TypeDesc) : Except Failure String :=
  match type.definitionName? with
  | some name => .ok name
  | none => .error (.input (.openType type.name))

/-- The description of a library's type; a type that it lacks is refused. -/
def Library.requireType (library : Library) (fullName : String) : Except Failure TypeDesc :=
  match library.typeDesc? fullName with
  | some type => .ok type
  | none => .error (.input (.undefinedType library.name fullName))

/-! ### Declarations -/

/-- A parameter with the full name of its type. -/
structure ParameterDeclaration where
  mode : PassMode
  typeName : String

/-- What the declaration of a method contains. -/
structure Declaration where
  parameters : List ParameterDeclaration
  /-- The full name of the result type, or the keyword of a method without result. -/
  result : String
  /-- The different namespaces of the types, in order. -/
  spaces : List String

/-- The result of a method without one. -/
def noResult : String := "void"

namespace Declaration

/-- The different texts of a list in the order in which they come first. -/
def distinct (texts : List String) : List String :=
  (texts.foldl (fun seen text => if seen.contains text then seen else text :: seen) []).reverse

/-- The namespaces of types, without the global one. -/
def spacesOf (types : List TypeDesc) : List String :=
  distinct (types.filterMap fun type => type.space.filter (· != ""))

/-- The using directives for the namespaces, a line each. -/
def usings (declaration : Declaration) : String :=
  String.intercalate "\n" (declaration.spaces.map fun space => "using " ++ space ++ ";")

end Declaration

/-- The declaration of a parameter. -/
def ShapeParameter.declare (parameter : ShapeParameter) : Except Failure ParameterDeclaration := do
  return ⟨parameter.mode, ← parameter.type.requireName⟩

/-- The declaration of a method of a shape. Every type needs a full name. -/
def CallableShape.declare (shape : CallableShape) : Except Failure Declaration := do
  let parameters ← shape.parameters.mapM (·.declare)
  let result ← match shape.result with
    | some type => type.requireName
    | none => pure noResult
  return ⟨parameters, result, Declaration.spacesOf shape.types⟩

/-- The name of an only parameter that is not named. -/
def defaultArgumentName : String := "it"

/-- The names of parameters. Only an only parameter may be without one. -/
def argumentNames (names : Option (List String)) (count : Nat) : Except Failure (List String) :=
  match names with
  | some names =>
    if names.length = count then .ok names else .error (.input (.nameCount names.length count))
  | none =>
    match count with
    | 0 => .ok []
    | 1 => .ok [defaultArgumentName]
    | _ => .error (.input (.namesRequired count))

/-- The text of a parameter list. -/
def parameterList (parameters : List ParameterDeclaration) (names : List String) :
    Except Failure String :=
  if parameters.length = names.length then
    .ok (String.intercalate ", " ((parameters.zip names).map fun (parameter, name) =>
      parameter.mode.label parameter.typeName ++ " " ++ name))
  else .error (.input (.nameCount names.length parameters.length))

end Snippet
