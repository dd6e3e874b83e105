import Snippet.Decimal.Shortest

/-!
Written forms of doubles. All share the shortest digits; a layout decides where a decimal point
or an exponent stands and how the special values are spelt.
-/

namespace Snippet.Decimal

/-- The decisions of a written form. -/
structure Layout where
  nan : String
  infinity : String
  /-- The places of the decimal point that are written without an exponent; all when absent. -/
  positional : Option (Int × Int)
  /-- Whether a whole number ends in `.0`. -/
  showsFraction : Bool
  /-- Whether a positive exponent has a sign. -/
  signsExponent : Bool
  tie : Tie

/-- The text form of a double: always positional, no fraction for a whole number. -/
def Layout.plain : Layout := ⟨"NaN", "∞", none, false, false, .up⟩

/-- The form of a literal in messages: as the text form, with the infinite value spelt out. -/
def Layout.literal : Layout := ⟨"NaN", "inf", none, false, false, .up⟩

/-- The form in failure reports: an exponent from `10 ^ 16` on and below `10 ^ -4`. -/
def Layout.report : Layout := ⟨"NaN", "inf", some (-3, 16), true, false, .up⟩

/-- The form in JSON text: a signed exponent from `10 ^ 16` on and below `10 ^ -5`. -/
def Layout.json : Layout := ⟨"NaN", "inf", some (-4, 16), true, true, .even⟩

namespace Scaled

/-- The place of the decimal point, counted from before the first digit. -/
def point (scaled : Scaled) : Int := Rounding.digitCount scaled.coefficient + scaled.exponent

/-- The digits with the decimal point at its place, filled with zeros. -/
def positional (scaled : Scaled) (showsFraction : Bool) : String :=
  let digits := Nat.toDigits 10 scaled.coefficient
  let tail := if showsFraction then ".0" else ""
  if scaled.point ≤ 0 then
    "0." ++ String.ofList (List.replicate (-scaled.point).toNat '0' ++ digits)
  else if 0 ≤ scaled.exponent then
    String.ofList (digits ++ List.replicate scaled.exponent.toNat '0') ++ tail
  else
    let whole := scaled.point.toNat
    String.ofList (digits.take whole) ++ "." ++ String.ofList (digits.drop whole)

/-- One digit before the decimal point, then a power of ten. -/
def exponential (scaled : Scaled) (signsExponent : Bool) : String :=
  let digits := Nat.toDigits 10 scaled.coefficient
  let power := scaled.point - 1
  let fraction := if digits.length = 1 then "" else "." ++ String.ofList (digits.drop 1)
  let sign := if power < 0 then "-" else if signsExponent then "+" else ""
  String.ofList (digits.take 1) ++ fraction ++ "e" ++ sign ++ toString power.natAbs

end Scaled

namespace Layout

/-- A positive decimal in this layout. -/
def writeScaled (layout : Layout) (scaled : Scaled) : String :=
  match layout.positional with
  | none => scaled.positional layout.showsFraction
  | some (first, last) =>
    if first ≤ scaled.point ∧ scaled.point ≤ last then scaled.positional layout.showsFraction
    else scaled.exponential layout.signsExponent

/-- A bit pattern in this layout. -/
def writeBits (layout : Layout) (bits : UInt64) : String :=
  let sign := if isNegative bits then "-" else ""
  match magnitude bits with
  | .nan => layout.nan
  | .infinite => sign ++ layout.infinity
  | .zero => sign ++ (if layout.showsFraction then "0.0" else "0")
  | .finite mantissa exponent => sign ++ layout.writeScaled (shortest mantissa exponent layout.tie)

/-- A double in this layout. -/
def write (layout : Layout) (value : Float) : String := layout.writeBits value.toBits

end Layout

end Snippet.Decimal
