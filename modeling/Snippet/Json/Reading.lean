import Snippet.Decimal.Reading
import Snippet.Json.Basic
import Snippet.Text.CharClass

/-!
Reading of JSON text. Every reader returns the value and the characters behind it; `Json.read?`
accepts exactly one value between blanks.
-/

namespace Snippet.Json

open Text

/-- The characters behind the blanks. -/
def skipBlanks (characters : List Char) : List Char := characters.dropWhile isLayout

/-- The character that a one-letter escape denotes. -/
def unescape? : Char → Option Char
  | '"' => some '"'
  | '\\' => some '\\'
  | '/' => some '/'
  | 'b' => some '\x08'
  | 'f' => some '\x0c'
  | 'n' => some '\n'
  | 'r' => some '\r'
  | 't' => some '\t'
  | _ => none

/-- The content of a string literal; a broken one holds half of a surrogate pair. -/
structure Body where
  characters : List Char
  broken : Bool

/-- The body with one more character in front. -/
def Body.push (body : Body) (character : Char) : Body :=
  { body with characters := character :: body.characters }

/-- Whether a number is the first half of a surrogate pair. -/
def isHighSurrogate (point : Nat) : Bool := 0xD800 ≤ point && point < 0xDC00

/-- Whether a number is the second half of a surrogate pair. -/
def isLowSurrogate (point : Nat) : Bool := 0xDC00 ≤ point && point < 0xE000

/-- The character that a surrogate pair denotes. -/
def ofSurrogates (high low : Nat) : Char :=
  Char.ofNat (0x10000 + (high - 0xD800) * 0x400 + (low - 0xDC00))

/-- A string literal behind its first quote. -/
def readBody : List Char → Option (Body × List Char)
  | [] => none
  | '"' :: rest => some (⟨[], false⟩, rest)
  | '\\' :: 'u' :: a :: b :: c :: d :: '\\' :: 'u' :: e :: f :: g :: h :: rest =>
    match hexNumber? [a, b, c, d], hexNumber? [e, f, g, h] with
    | some high, some low =>
      if isHighSurrogate high && isLowSurrogate low then
        (readBody rest).map fun (body, behind) => (body.push (ofSurrogates high low), behind)
      else
        (readBody ('\\' :: 'u' :: e :: f :: g :: h :: rest)).map fun (body, behind) =>
          match scalar? high with
          | some character => (body.push character, behind)
          | none => ({ body with broken := true }, behind)
    | _, _ => none
  | '\\' :: 'u' :: a :: b :: c :: d :: rest =>
    match hexNumber? [a, b, c, d] with
    | some point =>
      (readBody rest).map fun (body, behind) =>
        match scalar? point with
        | some character => (body.push character, behind)
        | none => ({ body with broken := true }, behind)
    | none => none
  | '\\' :: letter :: rest =>
    match unescape? letter with
    | some character => (readBody rest).map fun (body, behind) => (body.push character, behind)
    | none => none
  | character :: rest =>
    if character.toNat < 32 ∨ character = '\\' then none
    else (readBody rest).map fun (body, behind) => (body.push character, behind)

/-- The digits at the front, of which there must be one. -/
def readDigits? (characters : List Char) : Option (List Char × List Char) :=
  match characters.takeWhile Char.isDigit with
  | [] => none
  | digits => some (digits, characters.dropWhile Char.isDigit)

/-- The digits in front of the point: no zero leads others. -/
def readWhole? (characters : List Char) : Option (List Char × List Char) :=
  match characters with
  | '0' :: rest => if rest.head?.any Char.isDigit then none else some (['0'], rest)
  | _ => readDigits? characters

/-- The fraction, if a point follows. -/
def readFraction? (characters : List Char) : Option (Option (List Char) × List Char) :=
  match characters with
  | '.' :: rest => (readDigits? rest).map fun (digits, behind) => (some digits, behind)
  | _ => some (none, characters)

/-- The exponent, if its letter follows. -/
def readPower? (characters : List Char) : Option (Option Int × List Char) :=
  let signed (negative : Bool) (digits : List Char) : Option Int :=
    some (if negative then -(Decimal.ofDigits digits : Int) else Decimal.ofDigits digits)
  let behindLetter (rest : List Char) : Option (Option Int × List Char) :=
    match rest with
    | '-' :: rest => (readDigits? rest).map fun (digits, behind) => (signed true digits, behind)
    | '+' :: rest => (readDigits? rest).map fun (digits, behind) => (signed false digits, behind)
    | _ => (readDigits? rest).map fun (digits, behind) => (signed false digits, behind)
  match characters with
  | 'e' :: rest | 'E' :: rest => behindLetter rest
  | _ => some (none, characters)

/-- A number behind its sign: whole unless a fraction or an exponent is written. -/
def readNumber? (negative : Bool) (characters : List Char) : Option (Json × List Char) := do
  let (whole, rest) ← readWhole? characters
  let (fraction, rest) ← readFraction? rest
  let (power, rest) ← readPower? rest
  let magnitude := Decimal.ofDigits whole
  if fraction.isNone ∧ power.isNone ∧ ¬ (negative ∧ magnitude = 0) then
    return (.int (if negative then -(magnitude : Int) else magnitude), rest)
  else
    let value := (Decimal.Scaled.ofParts whole (fraction.getD []) (power.getD 0)).toFloat
    return (.real (if negative then -value else value), rest)

/-- The characters behind an expected word. -/
def skipWord? : List Char → List Char → Option (List Char)
  | [], characters => some characters
  | _ :: _, [] => none
  | expected :: word, character :: rest =>
    if expected = character then skipWord? word rest else none

mutual

/-- A value at the front; `fuel` bounds the number of values inside it. -/
def readValue : Nat → List Char → Option (Json × List Char)
  | 0, _ => none
  | fuel + 1, characters =>
    match characters with
    | 'n' :: rest => (skipWord? ['u', 'l', 'l'] rest).map (.null, ·)
    | 't' :: rest => (skipWord? ['r', 'u', 'e'] rest).map (.bool true, ·)
    | 'f' :: rest => (skipWord? ['a', 'l', 's', 'e'] rest).map (.bool false, ·)
    | '"' :: rest =>
      (readBody rest).map fun (body, behind) =>
        (if body.broken then .brokenString else .string (String.ofList body.characters), behind)
    | '-' :: rest => readNumber? true rest
    | '[' :: rest =>
      match skipBlanks rest with
      | ']' :: behind => some (.array [], behind)
      | rest => (readItems fuel rest).map fun (items, behind) => (.array items, behind)
    | '\x7b' :: rest =>
      match skipBlanks rest with
      | '\x7d' :: behind => some (.object [], behind)
      | rest => (readMembers fuel rest).map fun (members, behind) => (.object members, behind)
    | _ => readNumber? false characters

/-- The items of an array up to its closing bracket. -/
def readItems : Nat → List Char → Option (List Json × List Char)
  | 0, _ => none
  | fuel + 1, characters => do
    let (item, rest) ← readValue fuel characters
    match skipBlanks rest with
    | ']' :: behind => return ([item], behind)
    | ',' :: rest =>
      let (items, behind) ← readItems fuel (skipBlanks rest)
      return (item :: items, behind)
    | _ => none

/-- The members of an object up to its closing brace. -/
def readMembers : Nat → List Char → Option (List (String × Json) × List Char)
  | 0, _ => none
  | fuel + 1, characters => do
    let '"' :: rest := characters | none
    let (body, rest) ← readBody rest
    if body.broken then none
    let name := String.ofList body.characters
    let ':' :: rest := skipBlanks rest | none
    let (value, rest) ← readValue fuel (skipBlanks rest)
    match skipBlanks rest with
    | '\x7d' :: behind => return ([(name, value)], behind)
    | ',' :: rest =>
      let (members, behind) ← readMembers fuel (skipBlanks rest)
      return ((name, value) :: members, behind)
    | _ => none

end

/-- The value that a text denotes. Every nested value takes a character, which bounds the fuel. -/
def read? (text : String) : Option Json := do
  let characters := skipBlanks text.toList
  let (value, rest) ← readValue (2 * characters.length + 2) characters
  if (skipBlanks rest).isEmpty then some value else none

end Snippet.Json
