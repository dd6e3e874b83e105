import Snippet.Diagnostic.Basic
import Snippet.Json.Basic
import Snippet.Machine.Module

/-!
Why a method body could not be compiled, bound or called. A failure states its cause; its code, its
wording and the stage that it ends are functions of the cause.
-/

namespace Snippet

/-- How far a request had come when it failed. -/
inductive Stage where
  | requested
  | generated
  | compiled
  | resolved
  | bound
deriving DecidableEq, Repr

/-- The name of a stage. -/
def Stage.name : Stage → String
  | requested => "Requested"
  | generated => "Generated"
  | compiled => "Compiled"
  | resolved => "Resolved"
  | bound => "Bound"

/-- What is wrong with a request. -/
inductive InputFault where
  | openType (name : String)
  | undefinedType (library type : String)
  | missingBody
  | nameCount (names parameters : Nat)
  | namesRequired (parameters : Nat)
deriving DecidableEq, Repr

/-- The wording of a fault. -/
def InputFault.message : InputFault → String
  | openType name => s!"The type '{name}' has no fully qualified name."
  | undefinedType library type => s!"The library {library} does not define the type {type}."
  | missingBody => "A method body is required."
  | nameCount names parameters =>
    s!"The number of argument names ({names}) does not match the number of parameters ({parameters})."
  | namesRequired parameters => s!"Argument names are required for {parameters} parameters."

/-- How a method differs from the shape that was asked for. -/
inductive BindingFault where
  | parameterCount (method : String) (found requested : Nat)
  /-- A parameter, counted from one; both forms contain the passing mode. -/
  | parameter (position : Nat) (method found requested : String)
  | result (method found requested : String)
deriving DecidableEq, Repr

/-- The wording of a fault. -/
def BindingFault.message : BindingFault → String
  | parameterCount method found requested =>
    s!"The method {method} takes {found} parameters but {requested} were requested."
  | parameter position method found requested =>
    s!"Parameter {position} of {method} is '{found}' but '{requested}' was requested."
  | result method found requested =>
    s!"The method {method} returns {found} but {requested} was requested."

/-- What is wrong with the arguments of a call. -/
inductive ArgumentFault where
  | count (expected found : Nat)
  /-- An argument, counted from one. -/
  | type (position : Nat) (expected found : String)
  /-- A value that is not of the type that the host asks for. -/
  | host (expected found : String)
  | wordCount (expected found : Nat)
  | unreadable (word type reason : String)
  | unwritable (type : String)
deriving DecidableEq, Repr

/-- The wording of a fault. -/
def ArgumentFault.message : ArgumentFault → String
  | count expected found => s!"Expected {expected} arguments but got {found}."
  | type position expected found => s!"Argument {position}: expected {expected} but got {found}."
  | host expected found => s!"Expected a value of type {expected} but got {found}."
  | wordCount expected found => s!"expected {expected} arguments, got {found}"
  | unreadable word target reason => s!"cannot read '{word}' as {target}: {reason}"
  | unwritable target => s!"parameters of type {target} cannot be given on the command line"

/-- Why a request failed. -/
inductive Failure where
  /-- The platform does not say which libraries it trusts. -/
  | noTrustedLibraries
  | input (fault : InputFault)
  /-- The diagnostics that block. -/
  | compilation (diagnostics : List Diagnostic)
  | load (fault : LoadFault)
  | classNotFound (className fullName : String)
  | methodNotFound (methodName className : String)
  | binding (fault : BindingFault)
  | argument (fault : ArgumentFault)
  | raised (exception : Exception)
deriving DecidableEq, Repr

namespace Failure

/-- The code of a failure. -/
def code : Failure → String
  | noTrustedLibraries => "PlatformUnsupported"
  | input _ => "InvalidInput"
  | compilation _ => "CompilationFailed"
  | load _ => "LoadFailed"
  | classNotFound _ _ => "TypeNotFound"
  | methodNotFound _ _ => "MethodNotFound"
  | binding _ => "BindingMismatch"
  | argument _ => "ArgumentMismatch"
  | raised _ => "Runtime"

/-- The wording of a failure. -/
def message : Failure → String
  | noTrustedLibraries => "The host platform does not expose a list of trusted libraries."
  | input fault => fault.message
  | compilation diagnostics =>
    String.intercalate "\n"
      ("One or more errors happened during compilation:" :: diagnostics.map (·.text))
  | load fault => "Failed to load compiled image: " ++ fault.message
  | classNotFound className _ => s!"Cannot find the class {className} in the given assembly."
  | methodNotFound methodName className =>
    s!"Cannot find the method {methodName} of the class {className} in the given assembly, although the class is present."
  | binding fault => fault.message
  | argument fault => fault.message
  | raised exception => exception.text

/-- The stage that a failure ends. -/
def stage : Failure → Stage
  | noTrustedLibraries | input _ => .requested
  | compilation _ | load _ => .generated
  | classNotFound _ _ | methodNotFound _ _ => .compiled
  | binding _ => .resolved
  | argument _ | raised _ => .bound

end Failure

/-- The written form of a location. -/
def Location.toJson (location : Location) : Json :=
  .object [("line", .int location.line), ("column", .int location.column)]

/-- The written form of a diagnostic. -/
def Diagnostic.toJson (diagnostic : Diagnostic) : Json :=
  .object [("code", .string diagnostic.code), ("message", .string diagnostic.message),
    ("severity", .string (if diagnostic.severity == .error then "Error" else "Warning")),
    ("is_warning_as_error", .bool diagnostic.escalated),
    ("location", diagnostic.location.elim .null (·.toJson))]

namespace Failure

/-- What a failure concerns, in its written form. -/
def detail : Failure → Json
  | compilation diagnostics =>
    .object [("diagnostics", .array (diagnostics.map (·.toJson)))]
  | load fault => .object [("message", .string fault.message)]
  | classNotFound className fullName =>
    .object [("class_name", .string className), ("full_name", .string fullName)]
  | methodNotFound methodName className =>
    .object [("method_name", .string methodName), ("class_name", .string className)]
  | raised exception =>
    .object [("exception", .string exception.kind.name), ("message", .string exception.message)]
  | failure => .object [("message", .string failure.message)]

/-- The written form of a failure. -/
def toJson (failure : Failure) : Json :=
  .object [("code", .string failure.code), ("detail", failure.detail)]

end Failure

end Snippet
