import Snippet.Value.Basic

/-!
Constants: the values with a literal form. Doubles are held by their bits, so that equality tells
zeros and undefined values apart. Main statement: a constant comes back from its value, except for
the undefined values, which values do not tell apart.
-/

namespace Snippet

/-- A constant. -/
inductive Constant where
  | null
  | bool (value : Bool)
  | int (value : Int32)
  | long (value : Int64)
  | double (bits : UInt64)
  | text (value : String)
deriving DecidableEq, Repr

namespace Constant

/-- The value of a constant. -/
def toValue : Constant → Value
  | null => .null
  | bool value => .bool value
  | int value => .int value
  | long value => .long value
  | double bits => .double (Float.ofBits bits)
  | text value => .text value

/-- The constant of a value; lists and objects have none. -/
def ofValue? : Value → Option Constant
  | .null => some null
  | .bool value => some (bool value)
  | .int value => some (int value)
  | .long value => some (long value)
  | .double value => some (double value.toBits)
  | .text value => some (text value)
  | .list _ _ | .object _ _ => none

theorem ofValue?_toValue (constant : Constant) (exact : ∀ bits, constant ≠ double bits) :
    ofValue? constant.toValue = some constant := by
  cases constant <;> first | rfl | exact absurd rfl (exact _)

end Constant

end Snippet
