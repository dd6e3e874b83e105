/-!
The exact value of a double: a sign and a whole number of powers of two, or one of the special
values. The exact remainder of doubles, and arithmetic on bit patterns that keeps track of the sign of
the undefined value.
-/

namespace Snippet.Decimal

/-- The magnitude of a double. -/
inductive Magnitude where
  | nan
  | infinite
  | zero
  /-- The value `mantissa * 2 ^ exponent`, with a positive mantissa. -/
  | finite (mantissa : Nat) (exponent : Int)
deriving DecidableEq, Repr

/-- The sign bit of a double's bit pattern. -/
def isNegative (bits : UInt64) : Bool := bits.toNat / Nat.pow 2 63 == 1

/-- The magnitude that a bit pattern encodes. -/
def magnitude (bits : UInt64) : Magnitude :=
  let fraction : Nat := bits.toNat % Nat.pow 2 52
  let biased : Nat := bits.toNat / Nat.pow 2 52 % 2048
  if biased = 2047 then
    if fraction = 0 then .infinite else .nan
  else if biased = 0 then
    if fraction = 0 then .zero else .finite fraction (-1074)
  else .finite (Nat.pow 2 52 + fraction) ((biased : Int) - 1075)

/-! ### Remainders and bit patterns -/

/-- `mantissa * 2 ^ exponent` reduced by `modulus * 2 ^ power`, over the smaller power of two. -/
def reduce (mantissa : Nat) (exponent : Int) (modulus : Nat) (power : Int) : Nat × Int :=
  let low := min exponent power
  (mantissa * Nat.pow 2 (exponent - low).toNat % (modulus * Nat.pow 2 (power - low).toNat), low)

/-- The remainder of a division that truncates toward zero; it has the sign of the dividend. -/
def remainder (dividend divisor : Float) : Float :=
  match magnitude dividend.toBits, magnitude divisor.toBits with
  | .nan, _ | _, .nan | .infinite, _ | _, .zero => 0.0 / 0.0
  | .zero, _ | _, .infinite => dividend
  | .finite mantissa exponent, .finite modulus power =>
    let (rest, scale) := reduce mantissa exponent modulus power
    let size := (Float.ofNat rest).scaleB scale
    if isNegative dividend.toBits then -size else size

/-- Whether a bit pattern encodes an undefined value. -/
def isUndefined (bits : UInt64) : Bool := magnitude bits == .nan

/-- The bit pattern of the undefined value that an operation on numbers gives. -/
def undefinedResult : UInt64 := 0xFFF8000000000000

/-- An operation on bit patterns. An undefined operand is passed on, the first one before the
second. -/
def onBits (compute : Float → Float → Float) (first second : UInt64) : UInt64 :=
  if isUndefined first then first
  else if isUndefined second then second
  else
    let result := compute (Float.ofBits first) (Float.ofBits second)
    if result.isNaN then undefinedResult else result.toBits

/-- The bit pattern with the other sign. -/
def negateBits (bits : UInt64) : UInt64 := bits ^^^ 0x8000000000000000

end Snippet.Decimal
