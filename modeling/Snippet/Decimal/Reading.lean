import Snippet.Decimal.Shortest

/-!
Reading of decimal text: whole numbers with an optional sign, the double nearest to a decimal, and the
grammar of a decimal number with optional sign, fraction and exponent.
-/

namespace Snippet.Decimal

/-! ### Whole numbers -/

/-- Why a text denotes no whole number of a range. -/
inductive IntegerFault where
  | empty
  | badDigit
  | tooLarge
  | tooSmall
deriving DecidableEq, Repr

/-- The wording of a fault. -/
def IntegerFault.message : IntegerFault → String
  | empty => "cannot parse integer from empty string"
  | badDigit => "invalid digit found in string"
  | tooLarge => "number too large to fit in target type"
  | tooSmall => "number too small to fit in target type"

/-- The number that goes on with some digits. The first digit that is none, or behind which the
number leaves the range, decides. -/
def readDigits (low high : Int) (negative : Bool) (number : Int) :
    List Char → Except IntegerFault Int
  | [] => .ok number
  | character :: rest =>
    if character.isDigit then
      let digit : Int := character.toNat - '0'.toNat
      let next := if negative then 10 * number - digit else 10 * number + digit
      if high < next then .error .tooLarge
      else if next < low then .error .tooSmall
      else readDigits low high negative next rest
    else .error .badDigit

/-- The whole number that a text denotes, between `low` and `high`. -/
def readInteger (low high : Int) (text : String) : Except IntegerFault Int :=
  match text.toList with
  | [] => .error .empty
  | ['-'] | ['+'] => .error .badDigit
  | '-' :: digits => readDigits low high true 0 digits
  | '+' :: digits => readDigits low high false 0 digits
  | digits => readDigits low high false 0 digits

/-! ### Doubles -/

/-- The double nearest to a decimal. Beyond 310 places it is infinite, below -330 places zero. -/
def Scaled.toFloat (scaled : Scaled) : Float :=
  if scaled.coefficient = 0 then 0.0
  else
    let place := Rounding.digitCount scaled.coefficient + scaled.exponent
    if 310 < place then 1.0 / 0.0
    else if place < -330 then 0.0
    else if 0 ≤ scaled.exponent then Float.ofScientific scaled.coefficient false scaled.exponent.toNat
    else Float.ofScientific scaled.coefficient true (-scaled.exponent).toNat

/-- The number that a list of decimal digits denotes. -/
def ofDigits (digits : List Char) : Nat :=
  digits.foldl (fun number digit => 10 * number + (digit.toNat - '0'.toNat)) 0

/-- The decimal with the given whole digits, fraction digits and exponent. -/
def Scaled.ofParts (whole fraction : List Char) (exponent : Int) : Scaled :=
  ⟨ofDigits (whole ++ fraction), exponent - fraction.length⟩

/-- An exponent part up to the end of the text; no text means none. -/
def readExponent? : List Char → Option Int
  | [] => some 0
  | mark :: rest =>
    if mark ≠ 'e' ∧ mark ≠ 'E' then none
    else
      let (negative, digits) := match rest with
        | '-' :: digits => (true, digits)
        | '+' :: digits => (false, digits)
        | digits => (false, digits)
      if digits.isEmpty ∨ ¬ digits.all Char.isDigit then none
      else some (if negative then -(ofDigits digits : Int) else ofDigits digits)

/-- An unsigned decimal with at least one digit before or behind the point. -/
def readUnsigned? (text : List Char) : Option Scaled :=
  let whole := text.takeWhile Char.isDigit
  let rest := text.dropWhile Char.isDigit
  let (fraction, rest) := match rest with
    | '.' :: rest => (rest.takeWhile Char.isDigit, rest.dropWhile Char.isDigit)
    | rest => ([], rest)
  if whole.isEmpty ∧ fraction.isEmpty then none
  else (readExponent? rest).map (Scaled.ofParts whole fraction)

/-- The double that a text denotes: a decimal, or a name of infinity or of the undefined value. -/
def readFloat? (text : String) : Option Float :=
  let (negative, rest) := match text.toList with
    | '-' :: rest => (true, rest)
    | '+' :: rest => (false, rest)
    | rest => (false, rest)
  let signed (value : Float) : Float := if negative then -value else value
  match String.ofList (rest.map Char.toLower) with
  | "inf" | "infinity" => some (signed (1.0 / 0.0))
  | "nan" => some (0.0 / 0.0)
  | _ => (readUnsigned? rest).map fun scaled => signed scaled.toFloat

end Snippet.Decimal
