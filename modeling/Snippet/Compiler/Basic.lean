import Snippet.Callable.Binding
import Snippet.Emit.Basic
import Snippet.Library.Basic
import Snippet.Skeleton.Generation

/-!
Compiling method bodies and source texts to entry points and bound callables.
-/

namespace Snippet

/-- A compiler: the libraries that every compilation refers to, the libraries from which described
types may come, and the number of calls that its modules may nest. -/
structure Compiler where
  catalog : Except Failure LibrarySet
  known : List Library
  maxDepth : Nat

/-- The choices of one compilation. -/
structure CompileOptions where
  /-- The names of the parameters; without them an only parameter has a default name. -/
  argumentNames : Option (List String)
  /-- More using directives. -/
  usings : String
  methodName : String
  className : String
  space : String
  skeleton : String
  /-- The libraries that the compilation refers to besides the catalog. -/
  references : List Library
  policy : WarningPolicy

namespace CompileOptions

/-- The options in which everything has its default. -/
def default : CompileOptions where
  argumentNames := none
  usings := ""
  methodName := GenerationRequest.default.methodName
  className := GenerationRequest.default.className
  space := GenerationRequest.default.space
  skeleton := defaultSkeleton
  references := []
  policy := .default

/-- The source text for a body under the options. -/
def generate (options : CompileOptions) (body parameters returnType usings : String) :
    Except Failure String :=
  GenerationRequest.generate ⟨some body, parameters, returnType, usings, options.methodName,
    options.className, options.space, options.skeleton⟩

end CompileOptions

/-- The name that compiled modules carry. -/
def moduleName : String := "snippet"

/-- Loads what a toolchain has produced: its diagnostics, and an image that it may have encoded
wrongly. Diagnostics that block come before everything else. -/
def loadProduct (diagnostics : List Diagnostic) (image : Option (Except ImageFault Image))
    (libraries : LibrarySet) (maxDepth : Nat) : Except Failure Module :=
  match diagnostics.filter (·.isBlocking) with
  | [] =>
    match image with
    | none => .error (.load .absent)
    | some (.error fault) => .error (.load (.undecodable fault))
    | some (.ok image) => (Module.load image libraries maxDepth).mapError .load
  | failures => .error (.compilation failures)

namespace Compiler

/-- Compiles a source text that refers to more libraries than the catalog. -/
def compileSource (compiler : Compiler) (source : String) (references : List Library)
    (policy : WarningPolicy) : Except Failure Module := do
  let libraries := (← compiler.catalog).extend references
  let emission := emit source libraries policy moduleName
  loadProduct emission.diagnostics (emission.image.map .ok) libraries compiler.maxDepth

/-- Compiles a source text; of the options only references and policy count. -/
def compileAssembly (compiler : Compiler) (source : String) (options : CompileOptions) :
    Except Failure Module :=
  compiler.compileSource source options.references options.policy

/-- Compiles a body with a written parameter list and result type. -/
def compileMethod (compiler : Compiler) (body parameters returnType : String)
    (options : CompileOptions) : Except Failure EntryPoint := do
  let source ← options.generate body parameters returnType options.usings
  let module ← compiler.compileAssembly source options
  module.resolve options.space options.className options.methodName

/-- The known libraries of the types of a shape. -/
def originsOf (compiler : Compiler) (shape : CallableShape) : List Library :=
  shape.origins.filterMap fun name => compiler.known.find? (·.name == name)

/-- The source text for a body as a method of a shape. -/
def shapeSource (shape : CallableShape) (body : String) (options : CompileOptions) :
    Except Failure String := do
  let declaration ← shape.declare
  let names ← argumentNames options.argumentNames shape.arity
  let parameters ← parameterList declaration.parameters names
  options.generate body parameters declaration.result
    (joinUsings options.skeleton options.usings declaration.usings)

/-- Compiles a body as a method of a shape and binds it to the shape. -/
def compileShape (compiler : Compiler) (shape : CallableShape) (body : String)
    (options : CompileOptions) : Except Failure BoundCallable := do
  let source ← shapeSource shape body options
  let references := options.references ++ compiler.originsOf shape
  let module ← compiler.compileSource source references options.policy
  let entry ← module.resolve options.space options.className options.methodName
  entry.bind shape

end Compiler

end Snippet
