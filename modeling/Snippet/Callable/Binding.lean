import Snippet.Callable.Failure
import Snippet.Callable.Shape
import Snippet.Machine.Step

/-!
Entry points: public static methods of modules, found by namespace, class and name. They are bound to shapes, and what
is bound is called with checked arguments.
-/

namespace Snippet

/-- A public static method of a module, with the names by which it was found. -/
structure EntryPoint where
  space : String
  className : String
  methodName : String
  module : Module
  index : UInt32
  signature : MethodSignature

/-- The full name of a class in a namespace; the global namespace is empty. -/
def classFullName (space className : String) : String :=
  if space.isEmpty then className else space ++ "." ++ className

/-- The first public static method of a name in the first class of a full name. -/
def Module.resolve (module : Module) (space className methodName : String) :
    Except Failure EntryPoint :=
  let fullName := classFullName space className
  match module.findClass? fullName with
  | none => .error (.classNotFound className fullName)
  | some type =>
    let found := do
      let index ← module.findMethod? type methodName
      return (index, (← module.method? index).signature)
    match found with
    | none => .error (.methodNotFound methodName className)
    | some (index, signature) => .ok ⟨space, className, methodName, module, index, signature⟩

/-- Calls the method with an argument for each parameter, for at most the given number of steps. -/
def EntryPoint.invoke (entry : EntryPoint) (steps : Nat) (arguments : List Value) :
    StateM World (Option CallOutcome) :=
  entry.module.invoke steps entry.index arguments

/-! ### Binding -/

/-- An entry point whose signature is that of a shape. -/
structure BoundCallable where
  entry : EntryPoint
  shape : CallableShape

namespace EntryPoint

/-- The method as messages name it. -/
def label (entry : EntryPoint) : String := entry.className ++ "." ++ entry.methodName

/-- Compares parameters with those of a shape, from a position on. -/
def bindParameters (label : String) (position : Nat) :
    List SignatureParameter → List ShapeParameter → Except Failure PUnit
  | parameter :: parameters, wanted :: others => do
    let requested ← wanted.type.requireName
    if parameter.mode != wanted.mode || parameter.typeName != requested then
      throw (.binding (.parameter position label (parameter.mode.label parameter.typeName)
        (wanted.mode.label requested)))
    bindParameters label (position + 1) parameters others
  | _, _ => .ok ⟨⟩

/-- The full name of the result type of a shape, if it has a result. -/
def requestedResult (shape : CallableShape) : Except Failure (Option String) :=
  match shape.result with
  | some type => some <$> type.requireName
  | none => .ok none

/-- Binds an entry point to a shape: number, modes and types of the parameters and the result type
are equal. -/
def bind (entry : EntryPoint) (shape : CallableShape) : Except Failure BoundCallable := do
  let signature := entry.signature
  if signature.parameters.length != shape.arity then
    throw (.binding (.parameterCount entry.label signature.parameters.length shape.arity))
  bindParameters entry.label 1 signature.parameters shape.parameters
  let requested ← requestedResult shape
  if signature.result != requested then
    throw (.binding (.result entry.label (signature.result.getD noResult)
      (requested.getD noResult)))
  return ⟨entry, shape⟩

end EntryPoint

/-- What a checked call gives: the result, if the shape has one, and the argument slots behind the
call. -/
structure Invocation where
  result : Except Failure (Option Value)
  arguments : List Value

namespace BoundCallable

/-- The argument slots for a call, from a position on, and what is wrong with the first argument
that does not fit. Slots of `out` parameters are set to the default of their type on the way. -/
def fillSlots (position : Nat) :
    List ShapeParameter → List Value → List Value × Option Failure
  | parameter :: parameters, argument :: arguments =>
    if parameter.mode == .out then
      let (slots, fault) := fillSlots (position + 1) parameters arguments
      (parameter.type.defaultValue :: slots, fault)
    else if parameter.type.accepts argument then
      let (slots, fault) := fillSlots (position + 1) parameters arguments
      (argument :: slots, fault)
    else
      let fault := match parameter.type.requireName with
        | .ok name => .argument (.type position name argument.typeNameOrNull)
        | .error failure => failure
      (argument :: arguments, some fault)
  | _, arguments => (arguments, none)

/-- Calls with one argument for each parameter, for at most the given number of steps. -/
def invoke (callable : BoundCallable) (steps : Nat) (arguments : List Value) :
    StateM World (Option Invocation) := do
  let arity := callable.shape.arity
  if arguments.length != arity then
    return some ⟨.error (.argument (.count arity arguments.length)), arguments⟩
  match fillSlots 1 callable.shape.parameters arguments with
  | (slots, some fault) => return some ⟨.error fault, slots⟩
  | (slots, none) =>
    let outcome ← callable.entry.invoke steps slots
    return outcome.map fun outcome =>
      match outcome.result with
      | .ok value => ⟨.ok (callable.shape.result.map fun _ => value), outcome.arguments⟩
      | .error exception => ⟨.error (.raised exception), outcome.arguments⟩

end BoundCallable

end Snippet
