import Snippet.Types.PassMode
import Snippet.Typing.Tree

/-!
Images: compiled programs in the form in which they are stored, not yet connected to libraries. The instructions of
compiled methods work on a stack of values and on the slots of a frame; constants, names and imports are given by their
index in the image.
-/

namespace Snippet

/-- An instruction. -/
inductive Instruction where
  /-- Pushes a constant. -/
  | const (index : UInt32)
  /-- Pushes the value of a slot. -/
  | load (slot : UInt16)
  /-- Pops a value into a slot. -/
  | store (slot : UInt16)
  | duplicate
  | drop
  /-- Pops two operands and pushes the result. -/
  | operate (operation : Operation)
  | negate
  | not
  | convert (conversion : NumericConversion)
  /-- Checks that the top value belongs to a named type. -/
  | cast (type : UInt32)
  | jump (target : UInt32)
  /-- Pops a truth value and jumps if it is false. -/
  | jumpIfFalse (target : UInt32)
  /-- Pops a truth value and jumps if it is true. -/
  | jumpIfTrue (target : UInt32)
  /-- Pops the arguments, runs a method and pushes its result, if any, and then the final values of
  the parameters that are written back. -/
  | call (method : UInt32)
  /-- Pops the arguments of an imported function and pushes its result, if any. -/
  | hostCall (function : UInt32)
  /-- Pops the arguments and the receiver of a member and pushes its result, if any. -/
  | builtin (member : BuiltinMember)
  /-- Pushes a new list with a named element type. -/
  | newList (element : UInt32)
  /-- Pushes a new object of an imported class. -/
  | newObject (type : UInt32)
  /-- Pops an object and pushes the value of its field. -/
  | loadField (name : UInt32)
  /-- Pops a value and an object, sets the field and pushes the value. -/
  | storeField (name : UInt32)
  /-- Ends the method with the top value. -/
  | giveBack
  /-- Ends the method without a value. -/
  | giveBackNothing
deriving DecidableEq, Repr

/-- The name of an operation in images. -/
def Operation.code : Operation → String
  | add => "Add"
  | subtract => "Sub"
  | multiply => "Mul"
  | divide => "Div"
  | remainder => "Rem"
  | concat => "Concat"
  | equal => "Eq"
  | notEqual => "Ne"
  | less => "Lt"
  | lessEqual => "Le"
  | greater => "Gt"
  | greaterEqual => "Ge"

/-- Every operation. -/
def Operation.all : List Operation :=
  [add, subtract, multiply, divide, remainder, concat, equal, notEqual, less, lessEqual, greater,
    greaterEqual]

/-- The operation with a name in images. -/
def Operation.ofCode? (code : String) : Option Operation := all.find? (·.code == code)

/-! ### Images -/

/-- A parameter of a compiled method, with the full name of its type. -/
structure SignatureParameter where
  name : String
  mode : PassMode
  typeName : String
deriving DecidableEq, Repr

/-- The parameters and the result of a compiled method. -/
structure MethodSignature where
  parameters : List SignatureParameter
  /-- The full name of the result type; a void method has none. -/
  result : Option String
deriving DecidableEq, Repr

/-- The signature as it is displayed: the result, and in parentheses the types. -/
def MethodSignature.shown (signature : MethodSignature) : String :=
  let parameters := signature.parameters.map fun parameter => parameter.mode.label parameter.typeName
  signature.result.getD "void" ++ "(" ++ String.intercalate ", " parameters ++ ")"

/-- What an image needs from the host's libraries. -/
inductive Import where
  | function (function : FunctionImport)
  /-- A class of which the program makes objects. -/
  | type (typeName : String)
deriving DecidableEq, Repr

/-- A class in an image. -/
structure ClassImage where
  fullName : String
  isPublic : Bool
  isStatic : Bool
  methods : List UInt32
deriving DecidableEq, Repr

/-- A method in an image. -/
structure MethodImage where
  name : String
  /-- The index of the class. -/
  owner : UInt32
  isPublic : Bool
  isStatic : Bool
  signature : MethodSignature
  /-- The parameters come first, then variables, then temporaries. -/
  slotCount : UInt16
  code : List Instruction
deriving DecidableEq, Repr

/-- A compiled program. -/
structure Image where
  formatVersion : UInt32
  moduleName : String
  constants : List Constant
  /-- The names of types and fields to which the code refers. -/
  strings : List String
  imports : List Import
  classes : List ClassImage
  methods : List MethodImage
deriving DecidableEq, Repr

/-- The version of images that this library writes and reads. -/
def Image.currentVersion : UInt32 := 1

end Snippet
