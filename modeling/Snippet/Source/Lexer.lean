import Snippet.Decimal.Reading
import Snippet.Diagnostic.Problem
import Snippet.Source.Token
import Snippet.Text.CharClass

/-!
From text to tokens. Each reader takes the characters that are left and their byte offset and
returns what it read with the characters behind it. Main statements: skipping layout and reading a
lexeme never lengthen the text that is left, and a lexeme takes at least one character.
-/

namespace Snippet

open Text

/-- What is left of a source text, with the byte offset at which it starts. -/
structure Cursor where
  rest : List Char
  offset : Nat

/-- The number of bytes of characters in UTF-8. -/
def byteSize (characters : List Char) : Nat :=
  characters.foldr (fun character size => character.utf8Size + size) 0

namespace Cursor

/-- The cursor behind the first characters. -/
def drop (cursor : Cursor) (count : Nat) : Cursor :=
  ⟨cursor.rest.drop count, cursor.offset + byteSize (cursor.rest.take count)⟩

/-- The leading characters of a class. -/
def run (cursor : Cursor) (inClass : Char → Bool) : List Char := cursor.rest.takeWhile inClass

/-- The cursor behind the leading characters of a class. -/
def skip (cursor : Cursor) (inClass : Char → Bool) : Cursor :=
  ⟨cursor.rest.dropWhile inClass, cursor.offset + byteSize (cursor.run inClass)⟩

theorem length_drop_le (cursor : Cursor) (count : Nat) :
    (cursor.drop count).rest.length ≤ cursor.rest.length := by
  simp [drop]

theorem length_skip_le (cursor : Cursor) (inClass : Char → Bool) :
    (cursor.skip inClass).rest.length ≤ cursor.rest.length :=
  (List.dropWhile_sublist inClass).length_le

end Cursor

/-- One result of reading: a token, or something wrong. -/
inductive Lexeme where
  | token (placed : PlacedToken)
  | finding (finding : Finding)

/-- The results of reading one lexeme, and what is left. -/
structure Reading where
  found : List Lexeme
  cursor : Cursor

namespace Reading

/-- A token that reaches from `start` to the cursor. -/
def token (token : Token) (start : Nat) (cursor : Cursor) : Reading :=
  ⟨[.token ⟨token, ⟨start, cursor.offset⟩⟩], cursor⟩

/-- A problem that reaches from `start` to the cursor. -/
def problem (problem : Problem) (start : Nat) (cursor : Cursor) : Reading :=
  ⟨[.finding ⟨problem, ⟨start, cursor.offset⟩⟩], cursor⟩

end Reading

namespace Lexer

/-! ### Layout -/

/-- What the next character is part of while layout is skipped. -/
inductive LayoutMode where
  | blank
  | line
  | block (start : Nat)

/-- Skips blanks and comments; a comment that is never closed is reported. -/
def skipLayout : LayoutMode → List Char → Nat → Option Finding × Cursor
  | .blank, [], offset => (none, ⟨[], offset⟩)
  | .blank, '/' :: '/' :: rest, offset => skipLayout .line rest (offset + 2)
  | .blank, '/' :: '*' :: rest, offset => skipLayout (.block offset) rest (offset + 2)
  | .blank, character :: rest, offset =>
    if isLayout character then skipLayout .blank rest (offset + 1)
    else (none, ⟨character :: rest, offset⟩)
  | .line, [], offset => (none, ⟨[], offset⟩)
  | .line, character :: rest, offset =>
    if character = '\n' then skipLayout .blank rest (offset + 1)
    else skipLayout .line rest (offset + character.utf8Size)
  | .block start, [], offset => (some ⟨.unterminatedComment, ⟨start, offset⟩⟩, ⟨[], offset⟩)
  | .block _, '*' :: '/' :: rest, offset => skipLayout .blank rest (offset + 2)
  | .block start, character :: rest, offset =>
    skipLayout (.block start) rest (offset + character.utf8Size)

theorem length_skipLayout_le (mode : LayoutMode) (characters : List Char) (offset : Nat) :
    (skipLayout mode characters offset).2.rest.length ≤ characters.length := by
  fun_induction skipLayout mode characters offset <;> simp_all <;> omega

/-! ### Text literals -/

/-- The content of a text literal, what is wrong with it, and what is left. -/
structure Literal where
  value : List Char
  findings : List Finding
  cursor : Cursor

namespace Literal

/-- The literal with one more character in front. -/
def push (literal : Literal) (character : Char) : Literal :=
  { literal with value := character :: literal.value }

/-- The literal with one more problem in front. -/
def report (literal : Literal) (problem : Problem) (start stop : Nat) : Literal :=
  { literal with findings := ⟨problem, ⟨start, stop⟩⟩ :: literal.findings }

/-- The problems of a literal followed by its token. -/
def reading (literal : Literal) (start : Nat) : Reading :=
  ⟨literal.findings.map .finding ++
    [.token ⟨.text (String.ofList literal.value), ⟨start, literal.cursor.offset⟩⟩], literal.cursor⟩

end Literal

/-- The character that a one-letter escape denotes. -/
def escape? : Char → Option Char
  | 'n' => some '\n'
  | 't' => some '\t'
  | 'r' => some '\r'
  | '0' => some '\x00'
  | '\\' => some '\\'
  | '"' => some '"'
  | '\'' => some '\''
  | _ => none

/-- The code point of a four-character escape; a plus sign may stand for its first digit. -/
def escapedPoint? (characters : List Char) : Option Nat :=
  match characters with
  | '+' :: digits => hexNumber? digits
  | digits => hexNumber? digits

/-- The content of a literal in quotes that started at `start`. -/
def readText (start : Nat) : List Char → Nat → Literal
  | [], offset => ⟨[], [⟨.newlineInLiteral, ⟨start, offset⟩⟩], ⟨[], offset⟩⟩
  | '\\' :: 'u' :: first :: second :: third :: fourth :: rest, offset =>
    match escapedPoint? [first, second, third, fourth] with
    | some point =>
      match scalar? point with
      | some character => (readText start rest (offset + 6)).push character
      | none => (readText start rest (offset + 6)).report .badEscape offset (offset + 6)
    | none =>
      (readText start (first :: second :: third :: fourth :: rest) (offset + 2)).report
        .badEscape offset (offset + 2)
  | '\\' :: letter :: rest, offset =>
    let behind := offset + 1 + letter.utf8Size
    match escape? letter with
    | some character => (readText start rest behind).push character
    | none => (readText start rest behind).report .badEscape offset behind
  | ['\\'], offset => (readText start [] (offset + 1)).report .badEscape offset (offset + 1)
  | character :: rest, offset =>
    if character = '"' then ⟨[], [], ⟨rest, offset + 1⟩⟩
    else if character = '\n' ∨ character = '\r' then
      ⟨[], [⟨.newlineInLiteral, ⟨start, offset⟩⟩], ⟨character :: rest, offset⟩⟩
    else (readText start rest (offset + character.utf8Size)).push character

theorem length_readText_le (start : Nat) (characters : List Char) (offset : Nat) :
    (readText start characters offset).cursor.rest.length ≤ characters.length := by
  fun_induction readText start characters offset <;>
    simp_all [Literal.push, Literal.report] <;> omega

/-- The content of a verbatim literal that started at `start`: two quotes stand for one. -/
def readVerbatim (start : Nat) : List Char → Nat → Literal
  | [], offset => ⟨[], [⟨.unterminatedLiteral, ⟨start, offset⟩⟩], ⟨[], offset⟩⟩
  | '"' :: '"' :: rest, offset => (readVerbatim start rest (offset + 2)).push '"'
  | character :: rest, offset =>
    if character = '"' then ⟨[], [], ⟨rest, offset + 1⟩⟩
    else (readVerbatim start rest (offset + character.utf8Size)).push character

theorem length_readVerbatim_le (start : Nat) (characters : List Char) (offset : Nat) :
    (readVerbatim start characters offset).cursor.rest.length ≤ characters.length := by
  fun_induction readVerbatim start characters offset <;> simp_all [Literal.push] <;> omega

/-- The place behind a character literal, whose first quote has been read. -/
def skipCharacterLiteral : List Char → Nat → Cursor
  | [], offset => ⟨[], offset⟩
  | '\\' :: escaped :: rest, offset => skipCharacterLiteral rest (offset + 1 + escaped.utf8Size)
  | character :: rest, offset =>
    if character = '\'' then ⟨rest, offset + 1⟩
    else if character = '\n' then ⟨character :: rest, offset⟩
    else skipCharacterLiteral rest (offset + character.utf8Size)

theorem length_skipCharacterLiteral_le (characters : List Char) (offset : Nat) :
    (skipCharacterLiteral characters offset).rest.length ≤ characters.length := by
  fun_induction skipCharacterLiteral characters offset <;> simp_all <;> omega

/-! ### Numbers -/

/-- The characters of a run of digits. -/
def isDigitOrGap (character : Char) : Bool := character.isDigit || character == '_'

/-- Whether a character is a hexadecimal digit. -/
def isHexDigit (character : Char) : Bool := (hexDigit? character).isSome

/-- The digits at a cursor, without the gaps between them. -/
def digitsAt (cursor : Cursor) : List Char := (cursor.run isDigitOrGap).filter Char.isDigit

/-- A decimal number as it is written. -/
structure Numeral where
  whole : List Char
  fraction : List Char
  exponent : Int
  /-- Whether a point or an exponent was written. -/
  isReal : Bool
  cursor : Cursor

/-- Reads a fraction: a point counts only in front of a digit. -/
def readFraction (whole : List Char) (cursor : Cursor) : Numeral :=
  match cursor.rest with
  | '.' :: digit :: _ =>
    if digit.isDigit then
      let behind := cursor.drop 1
      ⟨whole, digitsAt behind, 0, true, behind.skip isDigitOrGap⟩
    else ⟨whole, [], 0, false, cursor⟩
  | _ => ⟨whole, [], 0, false, cursor⟩

/-- Reads an exponent: its letter counts only in front of a digit or a signed digit. -/
def readExponent (numeral : Numeral) : Numeral :=
  let cursor := numeral.cursor
  let accept (negative : Bool) (behind : Cursor) : Numeral :=
    if behind.rest.head?.any Char.isDigit then
      let power : Int := Decimal.ofDigits (digitsAt behind)
      { numeral with
        exponent := if negative then -power else power
        isReal := true
        cursor := behind.skip isDigitOrGap }
    else numeral
  match cursor.rest with
  | mark :: rest =>
    if mark = 'e' ∨ mark = 'E' then
      match rest with
      | '-' :: _ => accept true (cursor.drop 2)
      | '+' :: _ => accept false (cursor.drop 2)
      | _ => accept false (cursor.drop 1)
    else numeral
  | [] => numeral

/-- The longest decimal number at a cursor. -/
def readNumeral (cursor : Cursor) : Numeral :=
  readExponent (readFraction (digitsAt cursor) (cursor.skip isDigitOrGap))

/-- The double that a written number denotes. -/
def Numeral.toFloat (numeral : Numeral) : Float :=
  (Decimal.Scaled.ofParts numeral.whole numeral.fraction numeral.exponent).toFloat

/-- An integer literal: an `int` if it fits and has no suffix, else a `long` if that fits. -/
def readInteger (start : Nat) (value : Option Nat) (cursor : Cursor) : Reading :=
  let isLong := cursor.rest.head?.any fun suffix => suffix == 'l' || suffix == 'L'
  let cursor := if isLong then cursor.drop 1 else cursor
  if cursor.rest.head?.any fun suffix => suffix == 'u' || suffix == 'U' then
    .problem (.unsupported "unsigned literals") start (cursor.drop 1)
  else
    match value with
    | some number =>
      if !isLong && number < 0x80000000 then .token (.int (.ofNat number)) start cursor
      else if number < 0x8000000000000000 then .token (.long (.ofNat number)) start cursor
      else .problem .integerTooLarge start cursor
    | none => .problem .integerTooLarge start cursor

theorem length_readInteger_le (start : Nat) (value : Option Nat) (cursor : Cursor) :
    (readInteger start value cursor).cursor.rest.length ≤ cursor.rest.length := by
  unfold readInteger
  dsimp only
  split <;> split <;> (try split) <;> (try split) <;> (try split) <;>
    simp [Reading.problem, Reading.token, Cursor.drop]

/-- A number in decimal digits, with its suffix. -/
def readDecimal (cursor : Cursor) : Reading :=
  let start := cursor.offset
  let numeral := readNumeral cursor
  let behind := numeral.cursor
  match behind.rest.head? with
  | some suffix =>
    if suffix == 'd' || suffix == 'D' then .token (.double numeral.toFloat) start (behind.drop 1)
    else if suffix == 'f' || suffix == 'F' || suffix == 'm' || suffix == 'M' then
      .problem (.unsupported "float and decimal literals") start (behind.drop 1)
    else if numeral.isReal then .token (.double numeral.toFloat) start behind
    else readInteger start (some (Decimal.ofDigits numeral.whole)) behind
  | none =>
    if numeral.isReal then .token (.double numeral.toFloat) start behind
    else readInteger start (some (Decimal.ofDigits numeral.whole)) behind

/-- A number in hexadecimal digits, behind the two characters that announce it. -/
def readHexadecimal (start : Nat) (cursor : Cursor) : Reading :=
  let digits := cursor.run isHexDigit
  let value := if digits.isEmpty then none else hexNumber? digits
  readInteger start value (cursor.skip isHexDigit)

/-- A number literal. -/
def readNumber (cursor : Cursor) : Reading :=
  match cursor.rest with
  | '0' :: 'x' :: _ | '0' :: 'X' :: _ => readHexadecimal cursor.offset (cursor.drop 2)
  | _ => readDecimal cursor

/-! ### Names and symbols -/

/-- The token of a word. -/
def wordToken (word : String) : Token :=
  match Keyword.ofSpelling? word with
  | some keyword => .keyword keyword
  | none => .name word

/-- A name or a reserved word. -/
def readWord (cursor : Cursor) : Reading :=
  .token (wordToken (String.ofList (cursor.run continuesName))) cursor.offset
    (cursor.skip continuesName)

/-- The symbol at the front of two characters, the longer one first, and its length. -/
def symbol? (first : Char) (second : Option Char) : Option (Symbol × Nat) :=
  match second.bind (Symbol.pair? first) with
  | some sign => some (sign, 2)
  | none => (Symbol.single? first).map (·, 1)

/-- The operators on bits, which are recognised to be refused. -/
def isBitOperator (character : Char) : Bool :=
  character == '&' || character == '|' || character == '^' || character == '~'

/-- Whether a number starts here. -/
def startsNumber (first : Char) (second : Option Char) : Bool :=
  first.isDigit || (first == '.' && second.any Char.isDigit)

/-- The lexeme that starts with `first`, given what stands behind that character. -/
def readLexeme (first : Char) (rest : List Char) (offset : Nat) : Reading :=
  let cursor : Cursor := ⟨first :: rest, offset⟩
  let next := cursor.drop 1
  if startsNumber first rest.head? then readNumber cursor
  else if first = '"' then (readText offset rest next.offset).reading offset
  else if first = '@' ∧ rest.head? = some '"' then
    (readVerbatim offset (rest.drop 1) (offset + 2)).reading offset
  else if first = '\'' then
    .problem (.unsupported "character literal") offset (skipCharacterLiteral rest next.offset)
  else if startsName first then readWord cursor
  else
    match symbol? first rest.head? with
    | some (sign, size) => .token (.symbol sign) offset (cursor.drop size)
    | none =>
      if isBitOperator first then
        .problem (.unsupported ("bitwise operator '" ++ toString first ++ "'")) offset next
      else .problem (.unexpectedCharacter first) offset next

end Lexer

end Snippet
