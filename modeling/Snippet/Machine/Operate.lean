import Snippet.Decimal.Binary
import Snippet.Image.Basic
import Snippet.Value.World

/-!
What operations, negation and casts do to values. Integers wrap around, and only integers cannot
be divided by zero.
-/

namespace Snippet

/-- What the arithmetic and comparing operations are on one type of numbers. -/
structure Arithmetic (α : Type) where
  add : α → α → α
  subtract : α → α → α
  multiply : α → α → α
  /-- Quotients and remainders exist for divisors that are not refused. -/
  divide : α → α → α
  remainder : α → α → α
  refuses : α → Bool
  less : α → α → Bool
  lessEqual : α → α → Bool

/-- 32-bit arithmetic. -/
def Arithmetic.int : Arithmetic Int32 where
  add := (· + ·)
  subtract := (· - ·)
  multiply := (· * ·)
  divide := (· / ·)
  remainder := (· % ·)
  refuses := (· == 0)
  less first second := decide (first < second)
  lessEqual first second := decide (first ≤ second)

/-- 64-bit arithmetic. -/
def Arithmetic.long : Arithmetic Int64 where
  add := (· + ·)
  subtract := (· - ·)
  multiply := (· * ·)
  divide := (· / ·)
  remainder := (· % ·)
  refuses := (· == 0)
  less first second := decide (first < second)
  lessEqual first second := decide (first ≤ second)

/-- Arithmetic on doubles. -/
def Arithmetic.double : Arithmetic Float where
  add := (· + ·)
  subtract := (· - ·)
  multiply := (· * ·)
  divide := (· / ·)
  remainder := Decimal.remainder
  refuses _ := false
  less first second := decide (first < second)
  lessEqual first second := decide (first ≤ second)

namespace Arithmetic

/-- The result of an operation on two numbers of one type; other operations have none. -/
def result? {α : Type} (arithmetic : Arithmetic α) (number : α → Value) (operation : Operation)
    (first second : α) : Option (Except Fault Value) :=
  let division (compute : α → α → α) : Option (Except Fault Value) :=
    if arithmetic.refuses second then some (.error .divideByZero)
    else some (.ok (number (compute first second)))
  match operation with
  | .add => some (.ok (number (arithmetic.add first second)))
  | .subtract => some (.ok (number (arithmetic.subtract first second)))
  | .multiply => some (.ok (number (arithmetic.multiply first second)))
  | .divide => division arithmetic.divide
  | .remainder => division arithmetic.remainder
  | .less => some (.ok (.bool (arithmetic.less first second)))
  | .lessEqual => some (.ok (.bool (arithmetic.lessEqual first second)))
  | .greater => some (.ok (.bool (arithmetic.less second first)))
  | .greaterEqual => some (.ok (.bool (arithmetic.lessEqual second first)))
  | .concat | .equal | .notEqual => none

end Arithmetic

/-- The result of an operation on two numbers of one type. -/
def Operation.onNumbers? (operation : Operation) (first second : Value) :
    Option (Except Fault Value) :=
  match first, second with
  | .int first, .int second => Arithmetic.int.result? .int operation first second
  | .long first, .long second => Arithmetic.long.result? .long operation first second
  | .double first, .double second => Arithmetic.double.result? .double operation first second
  | _, _ => none

/-- The result of an operation. All values can be compared for equality and joined as texts. -/
def Operation.apply (operation : Operation) (first second : Value) : Except Fault Value :=
  match operation with
  | .equal => .ok (.bool (first.same second))
  | .notEqual => .ok (.bool (!first.same second))
  | .concat => .ok (.text (first.shown ++ second.shown))
  | operation =>
    (operation.onNumbers? first second).getD
      (.error (.badImage (.badOperands operation.code first second)))

namespace Value

/-- The negation of a number. -/
def negate : Value → Except Fault Value
  | int value => .ok (int (-value))
  | long value => .ok (long (-value))
  | double value => .ok (double (-value))
  | other => .error (.badImage (.notANumber other))

/-- The value as one of a type of the given name. Every value belongs to the type of all values;
null belongs to every type but the basic value types. -/
def castTo (value : Value) (target : String) : Except Fault Value :=
  if target == TypeNames.object then .ok value
  else
    match value.typeName? with
    | none => if TypeNames.isValueType target then .error (.nullReference target) else .ok null
    | some found =>
      if found == target then .ok value else .error (.invalidCast found target)

end Value

end Snippet
