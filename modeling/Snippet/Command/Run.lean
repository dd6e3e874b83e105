import Snippet.Command.Line
import Snippet.Compiler.Basic
import Snippet.Decimal.Reading
import Snippet.Host.Catalog
import Snippet.Settings.Basic
import Snippet.Settings.FileTree
import Snippet.Value.Written

/-!
Carrying out command lines. Files and the environment are given, and the result says what is
printed.
-/

namespace Snippet

/-- Why a file cannot be read. -/
inductive ReadFault where
  | missing
  | isDirectory
  /-- A file stands where the path needs a directory. -/
  | notDirectory
  /-- The content is not text. -/
  | notText
  | other (reason : String)
deriving DecidableEq, Repr

/-- The wording of a fault. -/
def ReadFault.message : ReadFault → String
  | missing => "No such file or directory (os error 2)"
  | isDirectory => "Is a directory (os error 21)"
  | notDirectory => "Not a directory (os error 20)"
  | notText => "stream did not contain valid UTF-8"
  | other reason => reason

namespace FileTree

/-- Whether a file stands where one of the directories around an address should be. -/
def blocks (tree : FileTree) (address : FileAddress) : Bool :=
  (enclosingDirectories address.directory).any fun directory =>
    tree.files.any fun file => file.1.asDirectory == directory

/-- The content of the file that a path denotes. -/
def readPath (tree : FileTree) (path : String) : Except ReadFault String :=
  match FileAddress.ofPath? path with
  | none => .error (if path.isEmpty then .missing else .isDirectory)
  | some address =>
    match tree.content? address with
    | some content =>
      if path.toList.getLast? == some '/' then .error .notDirectory else .ok content
    | none =>
      if tree.hasDirectory address.asDirectory then .error .isDirectory
      else if tree.blocks address then .error .notDirectory
      else .error .missing

end FileTree

/-- What a command needs to know about the world. -/
structure CommandContext where
  readFile : String → Except ReadFault String
  /-- The list of trusted libraries that overrides the platform's. -/
  trusted : Option String
  /-- The number of steps that a call may take. -/
  steps : Nat

/-- What a command prints, and its exit code. -/
structure CommandResult where
  exitCode : Nat
  output : String
  errors : String
deriving DecidableEq, Repr

namespace CommandResult

/-- The result of a command that succeeds. -/
def success (output : String) : CommandResult := ⟨0, output, ""⟩

/-- The result of a command that reports an error. -/
def error (message : String) : CommandResult := ⟨1, "", "Error: " ++ message ++ "\n"⟩

/-- The result of a command that fails behind some output. -/
def failed (asJson : Bool) (printed : String) (failure : Failure) : CommandResult :=
  if asJson then ⟨1, printed ++ failure.toJson.pretty 0 ++ "\n", ""⟩
  else { error failure.message with output := printed }

end CommandResult

/-! ### Words as arguments -/

/-- The value of a word as an argument of a type. -/
def readWord (type word : String) : Except ArgumentFault Value :=
  let whole (low high : Int) (toValue : Int → Value) : Except ArgumentFault Value :=
    match Decimal.readInteger low high word with
    | .ok number => .ok (toValue number)
    | .error fault => .error (.unreadable word type fault.message)
  if type == TypeNames.int then
    whole Int32.minValue.toInt Int32.maxValue.toInt fun number => .int (.ofInt number)
  else if type == TypeNames.long then
    whole Int64.minValue.toInt Int64.maxValue.toInt fun number => .long (.ofInt number)
  else if type == TypeNames.double then
    match Decimal.readFloat? word with
    | some number => .ok (.double number)
    | none =>
      let reason := if word.isEmpty then "cannot parse float from empty string" else "invalid float literal"
      .error (.unreadable word type reason)
  else if type == TypeNames.boolean then
    match String.ofList (word.toList.map Char.toLower) with
    | "true" => .ok (.bool true)
    | "false" => .ok (.bool false)
    | _ => .error (.unreadable word type "provided string was not `true` or `false`")
  else if type == TypeNames.string || type == TypeNames.object then
    .ok (if word == "null" then .null else .text word)
  else .error (.unwritable type)

/-- The arguments for parameters; an `out` parameter takes no word. -/
def readWords : List SignatureParameter → List String → Except ArgumentFault (List Value)
  | [], _ => .ok []
  | parameter :: parameters, words =>
    if parameter.mode == .out then do
      return .null :: (← readWords parameters words)
    else do
      let value ← readWord parameter.typeName (words.headD "")
      return value :: (← readWords parameters words.tail)

namespace EntryPoint

/-- The arguments for a call, one word for each parameter that takes one. -/
def argumentsOf (entry : EntryPoint) (words : List String) : Except Failure (List Value) :=
  let parameters := entry.signature.parameters
  let wanted := parameters.countP (·.mode != .out)
  if words.length != wanted then .error (.argument (.wordCount wanted words.length))
  else (readWords parameters words).mapError .argument

/-- The names of the parameters that are written back, with their values. -/
def outputsOf (entry : EntryPoint) (arguments : List Value) : List (String × Value) :=
  ((entry.signature.parameters.zip arguments).filter (·.1.mode.writesBack)).map
    fun (parameter, value) => (parameter.name, value)

/-- The result and the outputs of a call, line by line. -/
def reportLines (entry : EntryPoint) (result : Value) (arguments : List Value) : String :=
  let resultLine := if entry.signature.result.isSome then result.shown ++ "\n" else ""
  let outputLines := (entry.outputsOf arguments).map fun (name, value) =>
    name ++ " = " ++ value.shown ++ "\n"
  resultLine ++ String.join outputLines

/-- The result and the outputs of a call in their written form; none if one of them has none. -/
def reportJson (entry : EntryPoint) (store : Store) (result : Value) (arguments : List Value) :
    Option Json := do
  let outputs ← (entry.outputsOf arguments).mapM fun (name, value) => do
    return (name, ← value.written? store)
  let result ← if entry.signature.result.isSome then result.written? store else some .null
  return .object [("outputs", .object (Json.sortMembers outputs)), ("result", result)]

/-- Calls an entry point with words as arguments; none if the call or the writing of its report does
not end. -/
def command (entry : EntryPoint) (words : List String) (asJson : Bool) (steps : Nat) :
    Option CommandResult :=
  match entry.argumentsOf words with
  | .error failure => some (.failed asJson "" failure)
  | .ok arguments =>
    let (outcome, world) := (entry.invoke steps arguments).run .empty
    outcome.bind fun outcome =>
      match outcome.result with
      | .error exception => some (.failed asJson world.printed (.raised exception))
      | .ok result =>
        if asJson then
          (entry.reportJson world.store result outcome.arguments).map fun report =>
            .success (world.printed ++ report.pretty 0 ++ "\n")
        else some (.success (world.printed ++ entry.reportLines result outcome.arguments))

end EntryPoint

/-! ### Tasks -/

namespace MethodOptions

/-- The options of a compilation. -/
def compileOptions (method : MethodOptions) (policy : WarningPolicy) : CompileOptions :=
  let default := CompileOptions.default
  { default with
    usings := method.usings
    space := method.space.getD default.space
    className := method.className.getD default.className
    methodName := method.methodName.getD default.methodName
    policy }

/-- The text of the parameter list. -/
def parameterList (method : MethodOptions) : String := String.intercalate ", " method.parameters

end MethodOptions

namespace CommandLine

/-- The settings of a command. -/
def loadSettings (line : CommandLine) (context : CommandContext) :
    Except CommandResult CompilerSettings :=
  match line.settings with
  | none => .ok .default
  | some path =>
    match context.readFile path with
    | .error .missing | .error .notDirectory =>
      .error (.error s!"settings file {path} not found")
    | .error fault => .error (.error ("I/O error: " ++ fault.message))
    | .ok text =>
      match CompilerSettings.ofText? text with
      | some settings => .ok settings
      | none => .error (.error "JSON error: ...")

/-- Prints the source text around a body. -/
def generate (line : CommandLine) (method : MethodOptions) (policy : WarningPolicy) :
    CommandResult :=
  let source := (method.compileOptions policy).generate method.body method.parameterList
    method.returnType method.usings
  match source with
  | .error failure => .failed line.asJson "" failure
  | .ok source =>
    if line.asJson then .success ((Json.object [("source", .string source)]).compact ++ "\n")
    else .success (source ++ "\n")

/-- Calls what a compilation gives. -/
def callCompiled (line : CommandLine) (context : CommandContext) (words : List String)
    (compiled : Except Failure EntryPoint) : Option CommandResult :=
  match compiled with
  | .error failure => some (.failed line.asJson "" failure)
  | .ok entry => entry.command words line.asJson context.steps

/-- Carries out a task under settings. -/
def perform (line : CommandLine) (context : CommandContext) (settings : CompilerSettings) :
    Option CommandResult :=
  let compiler : Compiler :=
    ⟨Catalog.ofEnvironment context.trusted, [], settings.maxCallDepth.toNat⟩
  match line.task with
  | .generate method => some (line.generate method settings.policy)
  | .run method words =>
    line.callCompiled context words <|
      compiler.compileMethod method.body method.parameterList method.returnType
        (method.compileOptions settings.policy)
  | .assembly file space className methodName words =>
    match context.readFile file with
    | .error fault => some (.error s!"cannot read {file}: {fault.message}")
    | .ok source =>
      line.callCompiled context words do
        let options := { CompileOptions.default with policy := settings.policy }
        let module ← compiler.compileAssembly source options
        module.resolve space className methodName

/-- Carries out a command line; none if a call or the writing of its report does not end. -/
def run (line : CommandLine) (context : CommandContext) : Option CommandResult :=
  match line.loadSettings context with
  | .error result => some result
  | .ok settings => line.perform context settings

/-- The paths of the files that a command may read. -/
def paths (line : CommandLine) : List String :=
  line.settings.toList ++
    match line.task with
    | .assembly file _ _ _ _ => [file]
    | _ => []

end CommandLine

end Snippet
