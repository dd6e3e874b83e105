import Snippet.Decimal.Reading
import Snippet.Library.Basic
import Snippet.Text.Split

/-!
The libraries that every compilation refers to: the basic types with mathematics, the console and
the collections.
-/

namespace Snippet.Core

/-! ### Arguments of host functions -/

/-- An argument by its position. -/
def argument (arguments : List Value) (index : Nat) : Action Value :=
  match arguments[index]? with
  | some value => pure value
  | none => throw (.host .host s!"missing argument {index}")

/-- The refusal of an argument of another type. -/
def refuse {α : Type} (value : Value) (target : String) : Action α :=
  throw (.invalidCast value.typeNameOrNull target)

/-- A 32-bit argument. -/
def intArgument (arguments : List Value) (index : Nat) : Action Int32 := do
  match ← argument arguments index with
  | .int value => return value
  | other => refuse other TypeNames.int

/-- A 64-bit argument. -/
def longArgument (arguments : List Value) (index : Nat) : Action Int64 := do
  match ← argument arguments index with
  | .long value => return value
  | other => refuse other TypeNames.long

/-- A double argument. -/
def doubleArgument (arguments : List Value) (index : Nat) : Action Float := do
  match ← argument arguments index with
  | .double value => return value
  | other => refuse other TypeNames.double

/-- A text argument, which may be null. -/
def textArgument (arguments : List Value) (index : Nat) : Action (Option String) := do
  match ← argument arguments index with
  | .null => return none
  | .text value => return some value
  | other => refuse other TypeNames.string

/-! ### Mathematics -/

/-- The exception for the absolute value of the least integer. -/
def negatedLeast : Exception :=
  .host .host "Negating the minimum value of a twos complement number is invalid."

/-- The larger double; a number beats the undefined value, and the first of equal ones counts. -/
def larger (first second : Float) : Float :=
  if first.isNaN then second else if first < second then second else first

/-- The smaller double; a number beats the undefined value, and the first of equal ones counts. -/
def smaller (first second : Float) : Float :=
  if first.isNaN then second else if second < first then second else first

/-- The nearest whole double, an even one if two are nearest; the sign stays. -/
def roundToEven (value : Float) : Float :=
  if !value.isFinite then value
  else
    let lower := value.floor
    let excess := value - lower
    let isEven := (lower / 2.0).floor * 2.0 == lower
    let rounded :=
      if excess < 0.5 || (excess == 0.5 && isEven) then lower else lower + 1.0
    if rounded == 0.0 && Decimal.isNegative value.toBits then -0.0 else rounded

/-- A function of one double. -/
def doubleFunction (name : String) (compute : Float → Float) : HostFunction where
  name := name
  parameters := [.double]
  result := some .double
  run arguments := return .double (compute (← doubleArgument arguments 0))

/-- A function of two doubles. -/
def doublesFunction (name : String) (compute : Float → Float → Float) : HostFunction where
  name := name
  parameters := [.double, .double]
  result := some .double
  run arguments := do
    let first ← doubleArgument arguments 0
    let second ← doubleArgument arguments 1
    return .double (compute first second)

/-- A function of two 32-bit integers. -/
def intsFunction (name : String) (compute : Int32 → Int32 → Int32) : HostFunction where
  name := name
  parameters := [.int, .int]
  result := some .int
  run arguments := do
    let first ← intArgument arguments 0
    let second ← intArgument arguments 1
    return .int (compute first second)

/-- A function of two 64-bit integers. -/
def longsFunction (name : String) (compute : Int64 → Int64 → Int64) : HostFunction where
  name := name
  parameters := [.long, .long]
  result := some .long
  run arguments := do
    let first ← longArgument arguments 0
    let second ← longArgument arguments 1
    return .long (compute first second)

/-- The absolute value of a 32-bit integer. -/
def absInt : HostFunction where
  name := "Abs"
  parameters := [.int]
  result := some .int
  run arguments := do
    let value ← intArgument arguments 0
    if value == Int32.minValue then throw negatedLeast
    return .int (if value < 0 then -value else value)

/-- The absolute value of a 64-bit integer. -/
def absLong : HostFunction where
  name := "Abs"
  parameters := [.long]
  result := some .long
  run arguments := do
    let value ← longArgument arguments 0
    if value == Int64.minValue then throw negatedLeast
    return .long (if value < 0 then -value else value)

/-- The class of mathematical functions. -/
def math : HostType where
  space := "System"
  enclosing := []
  name := "Math"
  kind := .static
  functions := [
    absInt, absLong, doubleFunction "Abs" Float.abs,
    intsFunction "Max" fun first second => if first < second then second else first,
    longsFunction "Max" fun first second => if first < second then second else first,
    doublesFunction "Max" larger,
    intsFunction "Min" fun first second => if second < first then second else first,
    longsFunction "Min" fun first second => if second < first then second else first,
    doublesFunction "Min" smaller,
    doubleFunction "Sqrt" Float.sqrt, doublesFunction "Pow" Float.pow,
    doubleFunction "Floor" Float.floor, doubleFunction "Ceiling" Float.ceil,
    doubleFunction "Round" roundToEven]
  constants := [⟨"PI", .double, .double 3.141592653589793⟩, ⟨"E", .double, .double 2.718281828459045⟩]
  fields := []

/-! ### Basic types -/

/-- Reads a 32-bit integer from a text between white space. -/
def parseInt : HostFunction where
  name := "Parse"
  parameters := [.string]
  result := some .int
  run arguments := do
    match ← textArgument arguments 0 with
    | none => throw (.host .host "Value cannot be null.")
    | some text =>
      match Decimal.readInteger Int32.minValue.toInt Int32.maxValue.toInt (Text.trim text) with
      | .ok number => return .int (.ofInt number)
      | .error _ =>
        throw (.host .host s!"The input string '{text}' was not in a correct format.")

/-- Whether a text is null or empty. -/
def isNullOrEmpty : HostFunction where
  name := "IsNullOrEmpty"
  parameters := [.string]
  result := some .boolean
  run arguments := return .bool ((← textArgument arguments 0).all String.isEmpty)

/-- Two texts, one behind the other; null counts as empty. -/
def concat : HostFunction where
  name := "Concat"
  parameters := [.string, .string]
  result := some .string
  run arguments := do
    let first ← textArgument arguments 0
    let second ← textArgument arguments 1
    return .text (first.getD "" ++ second.getD "")

/-- A basic type of the system namespace. -/
def primitive (name : String) (constants : List HostConstant) (functions : List HostFunction) :
    HostType :=
  ⟨"System", [], name, .primitive, functions, constants, []⟩

/-- The library of the basic types and mathematics. -/
def basics : Library := .ofTypes "System.Private.CoreLib" [
  primitive "Object" [] [],
  primitive "Boolean" [] [],
  primitive "Int32"
    [⟨"MaxValue", .int, .int Int32.maxValue⟩, ⟨"MinValue", .int, .int Int32.minValue⟩] [parseInt],
  primitive "Int64"
    [⟨"MaxValue", .long, .long Int64.maxValue⟩, ⟨"MinValue", .long, .long Int64.minValue⟩] [],
  primitive "Double"
    [⟨"NaN", .double, .double (0.0 / 0.0)⟩, ⟨"PositiveInfinity", .double, .double (1.0 / 0.0)⟩,
      ⟨"NegativeInfinity", .double, .double (-1.0 / 0.0)⟩] [],
  primitive "String" [⟨"Empty", .string, .text ""⟩] [isNullOrEmpty, concat],
  math]

/-! ### Console and collections -/

/-- A function that prints the text form of its argument. -/
def printing (name : String) (parameter : TypeDesc) (ending : String) : HostFunction where
  name := name
  parameters := [parameter]
  result := none
  run arguments := do
    let value ← argument arguments 0
    Action.print (value.shown ++ ending)
    return .null

/-- A function that ends the line. -/
def endLine : HostFunction where
  name := "WriteLine"
  parameters := []
  result := none
  run _ := do
    Action.print "\n"
    return .null

/-- The library of the console. -/
def console : Library := .ofTypes "System.Console" [
  ⟨"System", [], "Console", .static,
    [endLine, printing "WriteLine" .string "\n", printing "WriteLine" .object "\n",
      printing "Write" .string "", printing "Write" .object ""], [], []⟩]

/-- The generic list. -/
def genericList : HostType := .bare "System.Collections.Generic" [] "List" .list

/-- The library of the generic list. -/
def collections : Library := .ofTypes "System.Collections" [genericList]

/-- The libraries in the order in which they are referred to. -/
def libraries : List Library := [basics, console, collections]

/-- The library of a name. -/
def library? (name : String) : Option Library := libraries.find? (·.name == name)

end Snippet.Core
