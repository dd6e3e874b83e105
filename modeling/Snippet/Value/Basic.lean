import Snippet.Decimal.Layout

/-!
Values of the running program, the full names of their types, and the conversions between the number types.
Lists and objects are references into a store; a reference carries the name of its type, which never changes.
-/

namespace Snippet

/-! ### Names of types -/

namespace TypeNames

/-- The type of every value. -/
def object : String := "System.Object"

/-- The type of truth values. -/
def boolean : String := "System.Boolean"

/-- The type of 32-bit integers. -/
def int : String := "System.Int32"

/-- The type of 64-bit integers. -/
def long : String := "System.Int64"

/-- The type of doubles. -/
def double : String := "System.Double"

/-- The type of texts. -/
def string : String := "System.String"

/-- The generic list, without its argument. -/
def list : String := "System.Collections.Generic.List"

/-- The list of an element type. -/
def listOf (element : String) : String := list ++ "<" ++ element ++ ">"

/-- The types whose slots never hold null. -/
def isValueType (name : String) : Bool :=
  name == boolean || name == int || name == long || name == double

end TypeNames

/-! ### Values -/

/-- A value. -/
inductive Value where
  | null
  | bool (value : Bool)
  | int (value : Int32)
  | long (value : Int64)
  | double (value : Float)
  | text (value : String)
  /-- A list in the store, with the full name of its element type. -/
  | list (element : String) (reference : Nat)
  /-- An object in the store, with the full name of its type. -/
  | object (type : String) (reference : Nat)
deriving Inhabited

namespace Value

/-- Whether a value is null. -/
def isNull : Value → Bool
  | null => true
  | _ => false

/-- The full name of a value's type; null has none. -/
def typeName? : Value → Option String
  | null => none
  | bool _ => some TypeNames.boolean
  | int _ => some TypeNames.int
  | long _ => some TypeNames.long
  | double _ => some TypeNames.double
  | text _ => some TypeNames.string
  | list element _ => some (TypeNames.listOf element)
  | object type _ => some type

/-- The full name of a value's type, or the word for null. -/
def typeNameOrNull (value : Value) : String := value.typeName?.getD "null"

/-- Whether two values are equal: lists and objects are when they are the same one. -/
def same : Value → Value → Bool
  | null, null => true
  | bool first, bool second => first == second
  | int first, int second => first == second
  | long first, long second => first == second
  | double first, double second => first == second
  | text first, text second => first == second
  | list _ first, list _ second => first == second
  | object _ first, object _ second => first == second
  | _, _ => false

/-- The text form of a value. -/
def shown : Value → String
  | null => ""
  | bool value => if value then "True" else "False"
  | int value => toString value.toInt
  | long value => toString value.toInt
  | double value => Decimal.Layout.plain.write value
  | text value => value
  | list element _ => TypeNames.listOf element
  | object type _ => type

end Value

/-! ### Conversions between the number types -/

/-- A conversion from one number type to another. -/
inductive NumericConversion where
  | intToLong
  | intToDouble
  | longToDouble
  | longToInt
  | doubleToInt
  | doubleToLong
deriving DecidableEq, Repr

namespace NumericConversion

/-- Every conversion. -/
def all : List NumericConversion :=
  [intToLong, intToDouble, longToDouble, longToInt, doubleToInt, doubleToLong]

/-- The name of a conversion in images. -/
def name : NumericConversion → String
  | intToLong => "IntToLong"
  | intToDouble => "IntToDouble"
  | longToDouble => "LongToDouble"
  | longToInt => "LongToInt"
  | doubleToInt => "DoubleToInt"
  | doubleToLong => "DoubleToLong"

/-- The conversion of a name. -/
def ofName? (name : String) : Option NumericConversion := all.find? (·.name == name)

/-- Converts a value of the source type and leaves others as they are. Integers lose their high
bits; doubles lose their fraction and stop at the ends of the range, the undefined value at zero. -/
def apply : NumericConversion → Value → Value
  | intToLong, .int value => .long value.toInt64
  | intToDouble, .int value => .double value.toFloat
  | longToDouble, .long value => .double value.toFloat
  | longToInt, .long value => .int value.toInt32
  | doubleToInt, .double value => .int value.toInt32
  | doubleToLong, .double value => .long value.toInt64
  | _, other => other

end NumericConversion

end Snippet
