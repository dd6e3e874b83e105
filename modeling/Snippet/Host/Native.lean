import Snippet.Compiler.Basic

/-!
Callables with types of the host. Values of these types are converted to values of the running
program and back; lists are copied in either direction.
-/

namespace Snippet

/-- A type of the host whose values can be passed to compiled code. -/
inductive NativeType where
  | int
  | long
  | double
  | bool
  | text
  /-- Every value of the running program. -/
  | any
  | list (element : NativeType)
deriving DecidableEq, Inhabited, Repr

namespace NativeType

/-- The values of a type of the host. -/
def Carrier : NativeType → Type
  | int => Int32
  | long => Int64
  | double => Float
  | bool => Bool
  | text => String
  | any => Value
  | list element => List element.Carrier

/-- The description of the type under which compiled code knows it. -/
def desc : NativeType → TypeDesc
  | int => .int
  | long => .long
  | double => .double
  | bool => .boolean
  | text => .string
  | any => .object
  | list element => .list element.desc

/-- The name under which a value of another type is refused. -/
def expected : NativeType → String
  | int => TypeNames.int
  | long => TypeNames.long
  | double => TypeNames.double
  | bool => TypeNames.boolean
  | text => TypeNames.string
  | any => TypeNames.object
  | list _ => TypeNames.list

/-- The name of the element type that a list of such elements carries. -/
def elementName (element : NativeType) : String :=
  element.desc.fullName?.getD element.desc.name

/-- The value of the running program for a value of the host. -/
def toValue : (type : NativeType) → type.Carrier → StateM World Value
  | int, number => return .int number
  | long, number => return .long number
  | double, number => return .double number
  | bool, truth => return .bool truth
  | text, content => return .text content
  | any, value => return value
  | list element, items => do
    let values ← items.mapM (toValue element)
    modifyGet fun world =>
      let (made, store) := world.store.newList element.elementName values.toArray
      (made, { world with store })

/-- The refusal of a value that is not of a type. -/
def refuse {α : Type} (type : NativeType) (value : Value) : Except Failure α :=
  .error (.argument (.host type.expected value.typeNameOrNull))

/-- The value of the host for a value of the running program, if it is of the type. -/
def ofValue (store : Store) : (type : NativeType) → Value → Except Failure type.Carrier
  | int, .int number => .ok number
  | long, .long number => .ok number
  | double, .double number => .ok number
  | bool, .bool truth => .ok truth
  | text, .text content => .ok content
  | any, value => .ok value
  | list element, .list _ reference => (store.items reference).toList.mapM (ofValue store element)
  | type, value => refuse type value

end NativeType

/-- A value of the host with its type. -/
structure NativeValue where
  type : NativeType
  value : type.Carrier

namespace NativeValue

/-- The value of the running program. -/
def toValue (native : NativeValue) : StateM World Value := native.type.toValue native.value

/-- The value of the host for a value of the running program. -/
def ofValue (store : Store) (type : NativeType) (value : Value) : Except Failure NativeValue :=
  (NativeType.ofValue store type value).map (⟨type, ·⟩)

end NativeValue

/-- The types of the host that a callable takes by value, and the type of its result. -/
structure NativeSignature where
  parameters : List NativeType
  result : Option NativeType

/-- The shape of a callable with types of the host. -/
def NativeSignature.shape (signature : NativeSignature) : CallableShape :=
  .ofTypes (signature.parameters.map (·.desc)) (signature.result.map (·.desc))

/-- A bound callable with types of the host. -/
structure NativeCallable where
  bound : BoundCallable
  result : Option NativeType

/-- Compiles a body to a callable with types of the host. -/
def Compiler.compileNative (compiler : Compiler) (signature : NativeSignature) (body : String)
    (options : CompileOptions) : Except Failure NativeCallable := do
  return ⟨← compiler.compileShape signature.shape body options, signature.result⟩

namespace NativeCallable

/-- The result of a call as a value of the host. -/
def convertResult (callable : NativeCallable) (store : Store)
    (result : Except Failure (Option Value)) : Except Failure (Option NativeValue) := do
  let value ← result
  match callable.result with
  | none => return none
  | some type => return some (← NativeValue.ofValue store type (value.getD .null))

/-- Calls with values of the host, for at most the given number of steps. -/
def invoke (callable : NativeCallable) (steps : Nat) (arguments : List NativeValue) :
    StateM World (Option (Except Failure (Option NativeValue))) := do
  let values ← arguments.mapM (·.toValue)
  let invocation ← callable.bound.invoke steps values
  let world ← get
  return invocation.map fun invocation => callable.convertResult world.store invocation.result

end NativeCallable

end Snippet
