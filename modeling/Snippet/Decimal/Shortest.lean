import Snippet.Decimal.Binary

/-!
The shortest decimal that reads back to a double. The reals that round to a double form an
interval; of the decimal grids with one, two, … digits the first that meets the interval is
taken, and of its points in the interval the one nearest to the double.
-/

namespace Snippet.Decimal

/-- The number `coefficient * 10 ^ exponent`. -/
structure Scaled where
  coefficient : Nat
  exponent : Int
deriving DecidableEq, Repr

/-- The way to go from a point that lies halfway between two decimals. -/
inductive Tie where
  | up
  | even
deriving DecidableEq, Repr

/-- A positive fraction with the interval of fractions over the same denominator that round to it. -/
structure Rounding where
  low : Nat
  value : Nat
  high : Nat
  denominator : Nat
  /-- Whether the ends belong to the interval. -/
  closed : Bool

namespace Rounding

/-- The interval of `mantissa * 2 ^ exponent`. Below a power of two the doubles lie twice as dense. -/
def ofBinary (mantissa : Nat) (exponent : Int) : Rounding :=
  let below := if mantissa = Nat.pow 2 52 ∧ exponent ≠ -1074 then 1 else 2
  let up := Nat.pow 2 (exponent - 2).toNat
  ⟨(4 * mantissa - below) * up, 4 * mantissa * up, (4 * mantissa + 2) * up,
    Nat.pow 2 (2 - exponent).toNat, mantissa % 2 == 0⟩

/-- The interval after multiplication by `10 ^ power`. -/
def scale (rounding : Rounding) (power : Int) : Rounding :=
  let up := Nat.pow 10 power.toNat
  ⟨rounding.low * up, rounding.value * up, rounding.high * up,
    rounding.denominator * Nat.pow 10 (-power).toNat, rounding.closed⟩

/-- Whether a whole number lies in the interval. -/
def contains (rounding : Rounding) (point : Nat) : Bool :=
  let scaled := point * rounding.denominator
  if rounding.closed then decide (rounding.low ≤ scaled ∧ scaled ≤ rounding.high)
  else decide (rounding.low < scaled ∧ scaled < rounding.high)

/-- The whole number in the interval that is nearest to the value, if its neighbours reach it. -/
def nearest? (rounding : Rounding) (tie : Tie) : Option Nat :=
  let lower := rounding.value / rounding.denominator
  let excess := 2 * (rounding.value % rounding.denominator)
  let preferUpper :=
    if excess = rounding.denominator then
      match tie with
      | .up => true
      | .even => lower % 2 == 1
    else decide (excess > rounding.denominator)
  match rounding.contains lower, rounding.contains (lower + 1) with
  | true, true => some (if preferUpper then lower + 1 else lower)
  | true, false => some lower
  | false, true => some (lower + 1)
  | false, false => none

/-- The number of decimal digits of a whole number. -/
def digitCount (number : Nat) : Nat := (Nat.toDigits 10 number).length

/-- The decimal point's place: the value lies below `10 ^ place` and not below a tenth of that. -/
def place (rounding : Rounding) : Int :=
  if rounding.denominator ≤ rounding.value then
    digitCount (rounding.value / rounding.denominator)
  else
    let size := digitCount (rounding.denominator / rounding.value)
    if rounding.denominator ≤ rounding.value * Nat.pow 10 (size - 1) then 2 - size else 1 - size

/-- The first grid of at least `digits` digits that meets the interval. -/
def search (rounding : Rounding) (tie : Tie) (place : Int) : Nat → Nat → Scaled
  | 0, _ => ⟨rounding.value / rounding.denominator, 0⟩
  | fuel + 1, digits =>
    match (rounding.scale (digits - place)).nearest? tie with
    | some point => ⟨point, place - digits⟩
    | none => search rounding tie place fuel (digits + 1)

end Rounding

/-- The same number without zeros at the end of its coefficient. -/
def Scaled.trim (scaled : Scaled) : Scaled :=
  go (Rounding.digitCount scaled.coefficient) scaled
where
  go : Nat → Scaled → Scaled
    | 0, scaled => scaled
    | fuel + 1, scaled =>
      if scaled.coefficient ≠ 0 ∧ scaled.coefficient % 10 = 0 then
        go fuel ⟨scaled.coefficient / 10, scaled.exponent + 1⟩
      else scaled

/-- The shortest decimal that rounds to `mantissa * 2 ^ exponent`; seventeen digits always do. -/
def shortest (mantissa : Nat) (exponent : Int) (tie : Tie) : Scaled :=
  let rounding := Rounding.ofBinary mantissa exponent
  (rounding.search tie rounding.place 17 1).trim

end Snippet.Decimal
