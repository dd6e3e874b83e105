import Snippet.Decimal.Binary
import Snippet.Diagnostic.Problem
import Snippet.Typing.Tree

/-!
The typing of operators on two operands, and operations on constants, which are carried out while a program is checked:
integers are computed exactly and refused if the result does not fit.
-/

namespace Snippet

/-- How an operator on two operands runs: its operation, the type that both operands are converted
to, if they are, and the type of the result. -/
structure OperatorTyping where
  operation : Operation
  operands : Option Ty
  result : Ty
deriving DecidableEq, Repr

namespace OperatorTyping

/-- The operation of an operator; the logical operators have none. -/
def operation? : BinaryOperator → Option Operation
  | .add => some .add
  | .subtract => some .subtract
  | .multiply => some .multiply
  | .divide => some .divide
  | .remainder => some .remainder
  | .less => some .less
  | .greater => some .greater
  | .lessEqual => some .lessEqual
  | .greaterEqual => some .greaterEqual
  | .equal => some .equal
  | .notEqual => some .notEqual
  | .and | .or => none

/-- Whether an operator asks for equality. -/
def testsEquality (operator : BinaryOperator) : Bool := operator == .equal || operator == .notEqual

/-- Whether one of two types converts to the other without a cast. -/
def related (left right : Ty) : Bool :=
  (Coercion.implicit? left right).isSome || (Coercion.implicit? right left).isSome

/-- The wider of two number types. -/
def wider? (left right : Ty) : Option Ty := do
  let first ← left.rank?
  let second ← right.rank?
  return if second ≤ first then left else right

/-- The typing of an operator on operands of two types. A plus sign with a text joins texts,
numbers are widened to one type, and truth values and related references are tested for equality. -/
def of? (operator : BinaryOperator) (left right : Ty) : Option OperatorTyping := do
  let operation ← operation? operator
  if operator == .add && (left == .string || right == .string) && left != .void && right != .void then
    return ⟨.concat, none, .string⟩
  match wider? left right with
  | some type => return ⟨operation, some type, if operator.compares then .bool else type⟩
  | none =>
    if testsEquality operator && left == .bool && right == .bool then
      return ⟨operation, some .bool, .bool⟩
    else if testsEquality operator && left.isReference && right.isReference && related left right then
      return ⟨operation, none, .bool⟩
    else none

end OperatorTyping

/-! ### Operations on constants -/

namespace Folding

/-- The result of an operation on whole numbers: a number or a truth value. -/
inductive Whole where
  | number (value : Int)
  | truth (value : Bool)
deriving DecidableEq, Repr

/-- An operation on whole numbers, if it is one. -/
def whole? (operation : Operation) (left right : Int) : Except Problem (Option Whole) :=
  match operation with
  | .add => .ok (some (.number (left + right)))
  | .subtract => .ok (some (.number (left - right)))
  | .multiply => .ok (some (.number (left * right)))
  | .divide =>
    if right = 0 then .error .divisionByZero else .ok (some (.number (left.tdiv right)))
  | .remainder =>
    if right = 0 then .error .divisionByZero else .ok (some (.number (left.tmod right)))
  | .equal => .ok (some (.truth (left == right)))
  | .notEqual => .ok (some (.truth (left != right)))
  | .less => .ok (some (.truth (decide (left < right))))
  | .lessEqual => .ok (some (.truth (decide (left ≤ right))))
  | .greater => .ok (some (.truth (decide (right < left))))
  | .greaterEqual => .ok (some (.truth (decide (right ≤ left))))
  | .concat => .ok none

/-- The constant of a result, if a number lies between two bounds. -/
def wholeConstant (low high : Int) (ofInt : Int → Constant) : Option Whole →
    Except Problem (Option Constant)
  | none => .ok none
  | some (.truth value) => .ok (some (.bool value))
  | some (.number value) =>
    if low ≤ value ∧ value ≤ high then .ok (some (ofInt value))
    else .error .constantOverflow

/-- An operation on doubles, by their bits. -/
def double? (operation : Operation) (left right : UInt64) : Option Constant :=
  let first := Float.ofBits left
  let second := Float.ofBits right
  match operation with
  | .add => some (.double (Decimal.onBits (· + ·) left right))
  | .subtract => some (.double (Decimal.onBits (· - ·) left right))
  | .multiply => some (.double (Decimal.onBits (· * ·) left right))
  | .divide => some (.double (Decimal.onBits (· / ·) left right))
  | .remainder => some (.double (Decimal.onBits Decimal.remainder left right))
  | .equal => some (.bool (first == second))
  | .notEqual => some (.bool (first != second))
  | .less => some (.bool (decide (first < second)))
  | .lessEqual => some (.bool (decide (first ≤ second)))
  | .greater => some (.bool (decide (second < first)))
  | .greaterEqual => some (.bool (decide (second ≤ first)))
  | .concat => none

/-- An operation on two constants, if both have the same type and it is defined on them. Null
counts as empty behind a text or in front of it. -/
def fold (operation : Operation) (left right : Constant) : Except Problem (Option Constant) :=
  match left, right with
  | .int first, .int second => do
    wholeConstant Int32.minValue.toInt Int32.maxValue.toInt (.int <| .ofInt ·)
      (← whole? operation first.toInt second.toInt)
  | .long first, .long second => do
    wholeConstant Int64.minValue.toInt Int64.maxValue.toInt (.long <| .ofInt ·)
      (← whole? operation first.toInt second.toInt)
  | .double first, .double second => .ok (double? operation first second)
  | .text first, .text second =>
    match operation with
    | .concat => .ok (some (.text (first ++ second)))
    | .equal => .ok (some (.bool (first == second)))
    | .notEqual => .ok (some (.bool (first != second)))
    | _ => .ok none
  | .text value, .null | .null, .text value =>
    match operation with
    | .concat => .ok (some (.text value))
    | _ => .ok none
  | .bool first, .bool second =>
    match operation with
    | .equal => .ok (some (.bool (first == second)))
    | .notEqual => .ok (some (.bool (first != second)))
    | _ => .ok none
  | _, _ => .ok none

/-- The negation of a constant number, if it fits. -/
def negate? : Constant → Except Problem (Option Constant)
  | .int value =>
    if value = Int32.minValue then .error .constantOverflow else .ok (some (.int (-value)))
  | .long value =>
    if value = Int64.minValue then .error .constantOverflow else .ok (some (.long (-value)))
  | .double bits => .ok (some (.double (Decimal.negateBits bits)))
  | _ => .ok none

end Folding

end Snippet
