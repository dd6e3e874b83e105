import Snippet.Grammar.Tree
import Snippet.Types.TypeDesc
import Snippet.Value.Basic
import Snippet.Value.BuiltinMember
import Snippet.Value.Constant

/-!
The static types of expressions, and the conversions between them.
-/

namespace Snippet

/-- The static type of an expression or a variable. -/
inductive Ty where
  | void
  /-- The type of the null literal. -/
  | null
  | bool
  | int
  | long
  | double
  | string
  | object
  | list (element : Ty)
  /-- A host type with objects, by its full name. -/
  | data (name : String)
  /-- The type behind an error that is already reported; it converts to and from every type. -/
  | error
deriving DecidableEq, Repr, Inhabited

namespace Ty

/-- The full name, as values and signatures carry it. -/
def fullName : Ty → String
  | void => "System.Void"
  | null => "<null>"
  | bool => TypeNames.boolean
  | int => TypeNames.int
  | long => TypeNames.long
  | double => TypeNames.double
  | string => TypeNames.string
  | object => TypeNames.object
  | list element => TypeNames.listOf element.fullName
  | data name => name
  | error => "?"

/-- The name that diagnostics show. -/
def shown : Ty → String
  | void => "void"
  | bool => "bool"
  | int => "int"
  | long => "long"
  | double => "double"
  | string => "string"
  | object => "object"
  | list element => "List<" ++ element.shown ++ ">"
  | null => "<null>"
  | data name => name
  | error => "?"

/-- The static type with a definition name and type arguments. -/
def ofDefinition (name : String) (arguments : List Ty) : Ty :=
  if name == TypeNames.boolean then bool
  else if name == TypeNames.int then int
  else if name == TypeNames.long then long
  else if name == TypeNames.double then double
  else if name == TypeNames.string then string
  else if name == TypeNames.object then object
  else if name == TypeNames.list then list (arguments.head?.getD error)
  else data name

mutual

/-- The static type of a described host type. -/
def ofDesc : TypeDesc → Ty
  | ⟨none, _, _, _, _⟩ => error
  | ⟨some space, enclosing, name, arguments, _⟩ =>
    ofDefinition
      (String.intercalate "." ((if space.isEmpty then [] else [space]) ++ enclosing ++ [name]))
      (ofDescs arguments)

/-- The static types of described host types. -/
def ofDescs : List TypeDesc → List Ty
  | [] => []
  | type :: rest => ofDesc type :: ofDescs rest

end

/-- The static type of a basic type. -/
def ofBasic : BasicType → Ty
  | .bool => bool
  | .int => int
  | .long => long
  | .double => double
  | .string => string
  | .object => object

/-- The static type of a constant. -/
def ofConstant : Constant → Ty
  | .null => null
  | .bool _ => bool
  | .int _ => int
  | .long _ => long
  | .double _ => double
  | .text _ => string

/-- The number types in the order in which they widen. -/
def rank? : Ty → Option Nat
  | int => some 0
  | long => some 1
  | double => some 2
  | _ => none

/-- Whether the values are numbers. -/
def isNumeric (type : Ty) : Bool := type.rank?.isSome

/-- Whether null belongs to the type. -/
def isReference : Ty → Bool
  | null | string | object | list _ | data _ => true
  | _ => false

/-- The kind of value whose built-in members the type has. -/
def owner? : Ty → Option MemberOwner
  | string => some .text
  | list _ => some .list
  | _ => none

/-- The constant of a variable to which nothing has been assigned. -/
def defaultConstant : Ty → Constant
  | bool => .bool false
  | int => .int 0
  | long => .long 0
  | double => .double 0
  | _ => .null

/-- The type of a slot of a member called on a value of this type. -/
def slot (receiver : Ty) : MemberSlot → Ty
  | .void => void
  | .bool => bool
  | .int => int
  | .text => string
  | .object => object
  | .element =>
    match receiver with
    | list element => element
    | _ => object

end Ty

/-- A conversion that does something when the program runs. -/
inductive Conversion where
  | numeric (conversion : NumericConversion)
  /-- A checked conversion of any value to the type of a full name. -/
  | cast (target : String)
deriving DecidableEq, Repr

/-- The way in which a value of one type is used as one of another type. -/
inductive Coercion where
  | identity
  /-- Only the static type changes. -/
  | reference
  | convert (conversion : Conversion)
deriving DecidableEq, Repr

namespace Coercion

/-- The conversion to a wider number type. -/
def widening? : Ty → Ty → Option NumericConversion
  | .int, .long => some .intToLong
  | .int, .double => some .intToDouble
  | .long, .double => some .longToDouble
  | _, _ => none

/-- The conversion to a narrower number type. -/
def narrowing? : Ty → Ty → Option NumericConversion
  | .long, .int => some .longToInt
  | .double, .int => some .doubleToInt
  | .double, .long => some .doubleToLong
  | _, _ => none

/-- The coercion that needs no cast. -/
def implicit? (source target : Ty) : Option Coercion :=
  if source = target ∨ source = .error ∨ target = .error then some identity
  else
    match widening? source target with
    | some conversion => some (convert (.numeric conversion))
    | none =>
      match source, target with
      | .null, target => if target.isReference then some reference else none
      | .void, .object => none
      | _, .object => some reference
      | _, _ => none

/-- The coercion that a cast may ask for. -/
def explicit? (source target : Ty) : Option Coercion :=
  match implicit? source target with
  | some coercion => some coercion
  | none =>
    match narrowing? source target with
    | some conversion => some (convert (.numeric conversion))
    | none =>
      match source, target with
      | .object, .void | .object, .null => none
      | .object, target => some (convert (.cast target.fullName))
      | _, _ => none

end Coercion

end Snippet
