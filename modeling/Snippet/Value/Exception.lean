/-!
What can go wrong while a program runs.
-/

namespace Snippet

/-- The kinds of exceptions. -/
inductive ExceptionKind where
  | nullReference
  | divideByZero
  | invalidCast
  | stackOverflow
  | invalidOperation
  | argumentNull
  | argumentOutOfRange
  | host
deriving DecidableEq, Repr

/-- The name of a kind. -/
def ExceptionKind.name : ExceptionKind → String
  | nullReference => "NullReference"
  | divideByZero => "DivideByZero"
  | invalidCast => "InvalidCast"
  | stackOverflow => "StackOverflow"
  | invalidOperation => "InvalidOperation"
  | argumentNull => "ArgumentNull"
  | argumentOutOfRange => "ArgumentOutOfRange"
  | host => "Host"

/-- A defect of an image that shows when its code runs, with the operands concerned. -/
inductive ImageDefect (Operand : Type) where
  | stackUnderflow
  | ranPastEnd
  | noMethod (index : Nat)
  | noConstant (index : Nat)
  | noLocal (index : Nat)
  | noString (index : Nat)
  | noImport (index : Nat)
  | notAFunction (index : Nat)
  | notAType (index : Nat)
  | boolExpected (found : Operand)
  | notANumber (found : Operand)
  | badOperands (operation : String) (first second : Operand)
  | noFieldOn (field : String) (found : Operand)
deriving DecidableEq, Repr

/-- The defect with other operands. -/
def ImageDefect.map {α β : Type} (change : α → β) : ImageDefect α → ImageDefect β
  | stackUnderflow => .stackUnderflow
  | ranPastEnd => .ranPastEnd
  | noMethod index => .noMethod index
  | noConstant index => .noConstant index
  | noLocal index => .noLocal index
  | noString index => .noString index
  | noImport index => .noImport index
  | notAFunction index => .notAFunction index
  | notAType index => .notAType index
  | boolExpected found => .boolExpected (change found)
  | notANumber found => .notANumber (change found)
  | badOperands operation first second => .badOperands operation (change first) (change second)
  | noFieldOn field found => .noFieldOn field (change found)

/-- The wording of a defect whose operands have been put into words. -/
def ImageDefect.message : ImageDefect String → String
  | stackUnderflow => "stack underflow"
  | ranPastEnd => "execution ran past the end of a method"
  | noMethod index => s!"no method {index}"
  | noConstant index => s!"no constant {index}"
  | noLocal index => s!"no local {index}"
  | noString index => s!"no string {index}"
  | noImport index => s!"no import {index}"
  | notAFunction index => s!"import {index} is not a function"
  | notAType index => s!"import {index} is not a class"
  | boolExpected found => s!"expected a bool, found {found}"
  | notANumber found => s!"cannot negate {found}"
  | badOperands operation first second => s!"{operation} on {first} and {second}"
  | noFieldOn field found => s!"no field '{field}' on {found}"

/-- The cause that ends a run, with the operands concerned. -/
inductive Cause (Operand : Type) where
  | nullReference (member : String)
  | divideByZero
  | invalidCast (source target : String)
  | stackOverflow (limit : Nat)
  | missingField (field : String)
  | undefinedMember (member type : String)
  | argumentCount (expected actual : Nat)
  | argumentNull (parameter : String)
  | argumentOutOfRange (parameter : String)
  | emptyPattern
  | badImage (defect : ImageDefect Operand)
  /-- Raised by a function of a host library, which chooses kind and wording. -/
  | host (kind : ExceptionKind) (message : String)
deriving DecidableEq, Repr

/-- The cause with other operands. -/
def Cause.map {α β : Type} (change : α → β) : Cause α → Cause β
  | nullReference member => .nullReference member
  | divideByZero => .divideByZero
  | invalidCast source target => .invalidCast source target
  | stackOverflow limit => .stackOverflow limit
  | missingField field => .missingField field
  | undefinedMember member type => .undefinedMember member type
  | argumentCount expected actual => .argumentCount expected actual
  | argumentNull parameter => .argumentNull parameter
  | argumentOutOfRange parameter => .argumentOutOfRange parameter
  | emptyPattern => .emptyPattern
  | badImage defect => .badImage (defect.map change)
  | host kind message => .host kind message

/-- The cause that ended a run. Operands appear in their report form. -/
abbrev Exception := Cause String

namespace Exception

/-- The kind of an exception. -/
def kind : Exception → ExceptionKind
  | .nullReference _ => .nullReference
  | .divideByZero => .divideByZero
  | .invalidCast _ _ => .invalidCast
  | .stackOverflow _ => .stackOverflow
  | .missingField _ | .undefinedMember _ _ | .argumentCount _ _ | .badImage _ => .invalidOperation
  | .argumentNull _ => .argumentNull
  | .argumentOutOfRange _ | .emptyPattern => .argumentOutOfRange
  | .host kind _ => kind

/-- The wording of an exception. -/
def message : Exception → String
  | .nullReference member =>
    s!"Object reference not set to an instance of an object (accessing '{member}')."
  | .divideByZero => "Attempted to divide by zero."
  | .invalidCast source target => s!"Unable to cast object of type '{source}' to type '{target}'."
  | .stackOverflow limit =>
    s!"Operation caused a stack overflow (more than {limit} nested calls)."
  | .missingField field => s!"no field '{field}'"
  | .undefinedMember member type => s!"'{member}' is not defined on {type}"
  | .argumentCount expected actual => s!"expected {expected} arguments, got {actual}"
  | .argumentNull parameter => s!"Value cannot be null. (Parameter '{parameter}')"
  | .argumentOutOfRange parameter =>
    s!"Specified argument was out of the range of valid values. (Parameter '{parameter}')"
  | .emptyPattern => "String cannot be of zero length. (Parameter 'oldValue')"
  | .badImage defect => "invalid module image: " ++ defect.message
  | .host _ message => message

/-- The kind and the wording, as a listing shows them. -/
def text (exception : Exception) : String :=
  exception.kind.name ++ "Exception: " ++ exception.message

end Exception

end Snippet
