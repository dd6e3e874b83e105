/-!
Places in a source text: ranges of byte offsets, and the line and column of an offset.
-/

namespace Snippet

/-- A range of byte offsets in the UTF-8 form of a source text. -/
structure Span where
  start : Nat
  stop : Nat
deriving DecidableEq, Repr, Inhabited

/-- The least range that covers both ranges. -/
def Span.join (first second : Span) : Span :=
  ⟨min first.start second.start, max first.stop second.stop⟩

/-- A line and a column of a text, both counted from one; columns count characters. -/
structure Location where
  line : Nat
  column : Nat
deriving DecidableEq, Repr, Inhabited

namespace Location

/-- The location behind a character: a line feed opens a new line. -/
def after (location : Location) (character : Char) : Location :=
  if character = '\n' then ⟨location.line + 1, 1⟩ else ⟨location.line, location.column + 1⟩

/-- The location reached from `location` by the characters that start below `distance` bytes. -/
def advance (location : Location) : List Char → Nat → Location
  | [], _ => location
  | character :: rest, distance =>
    if distance = 0 then location
    else advance (location.after character) rest (distance - character.utf8Size)

/-- The location of a byte offset in a text; offsets behind the end give the end's location. -/
def ofOffset (text : String) (offset : Nat) : Location :=
  advance ⟨1, 1⟩ text.toList offset

end Location

end Snippet
