import Snippet.Decimal.Layout

/-!
JSON values and their written forms, compact and indented.
-/

namespace Snippet

/-- A JSON value. Members of an object keep their order, and a name may occur twice. -/
inductive Json where
  | null
  | bool (value : Bool)
  | int (value : Int)
  | real (value : Float)
  | string (value : String)
  /-- A string literal that escapes half of a surrogate pair; it denotes no text. -/
  | brokenString
  | array (items : List Json)
  | object (members : List (String × Json))

namespace Json

/-- The two hexadecimal digits of a number below 256. -/
def hexByte (number : Nat) : List Char :=
  [Nat.digitChar (number / 16), Nat.digitChar (number % 16)]

/-- A character inside quotes: quotes, backslashes and control characters are escaped. -/
def escape (character : Char) : List Char :=
  match character with
  | '"' => ['\\', '"']
  | '\\' => ['\\', '\\']
  | '\n' => ['\\', 'n']
  | '\r' => ['\\', 'r']
  | '\t' => ['\\', 't']
  | '\x08' => ['\\', 'b']
  | '\x0c' => ['\\', 'f']
  | _ =>
    if character.toNat < 32 then ['\\', 'u', '0', '0'] ++ hexByte character.toNat else [character]

/-- A text in quotes. -/
def quote (text : String) : String :=
  "\"" ++ String.ofList (text.toList.flatMap escape) ++ "\""

/-- A double; the values that no decimal denotes become null. -/
def writeFloat (value : Float) : String :=
  if value.isFinite then Decimal.Layout.json.write value else "null"

mutual

/-- The written form without blanks. -/
def compact : Json → String
  | null => "null"
  | bool value => if value then "true" else "false"
  | int value => toString value
  | real value => writeFloat value
  | string value => quote value
  | brokenString => "\"\""
  | array items => "[" ++ String.intercalate "," (compactItems items) ++ "]"
  | object members => "\x7b" ++ String.intercalate "," (compactMembers members) ++ "\x7d"

/-- The written forms of the items of an array. -/
def compactItems : List Json → List String
  | [] => []
  | item :: rest => item.compact :: compactItems rest

/-- The written forms of the members of an object. -/
def compactMembers : List (String × Json) → List String
  | [] => []
  | (name, value) :: rest => (quote name ++ ":" ++ value.compact) :: compactMembers rest

end

/-- Parts on lines of their own, one level deeper than the brackets around them. -/
def indented (depth : Nat) (first last : String) (parts : List String) : String :=
  let line (depth : Nat) := "\n" ++ String.ofList (List.replicate (2 * depth) ' ')
  match parts with
  | [] => first ++ last
  | parts =>
    first ++ String.intercalate "," (parts.map (line (depth + 1) ++ ·)) ++ line depth ++ last

mutual

/-- The written form on indented lines, two blanks a level. -/
def pretty (depth : Nat) : Json → String
  | array items => indented depth "[" "]" (prettyItems (depth + 1) items)
  | object members => indented depth "\x7b" "\x7d" (prettyMembers (depth + 1) members)
  | other => other.compact

/-- The indented forms of the items of an array. -/
def prettyItems (depth : Nat) : List Json → List String
  | [] => []
  | item :: rest => item.pretty depth :: prettyItems depth rest

/-- The indented forms of the members of an object. -/
def prettyMembers (depth : Nat) : List (String × Json) → List String
  | [] => []
  | (name, value) :: rest =>
    (quote name ++ ": " ++ value.pretty depth) :: prettyMembers depth rest

end

/-- The members of an object, by name; the last of several members of one name counts. -/
def sortMembers (members : List (String × Json)) : List (String × Json) :=
  let put (sorted : List (String × Json)) (member : String × Json) : List (String × Json) :=
    sorted.takeWhile (·.1 < member.1) ++ member :: sorted.dropWhile (·.1 ≤ member.1)
  members.foldl put []

end Json

end Snippet
