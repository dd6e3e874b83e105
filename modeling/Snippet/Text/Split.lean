/-!
Searching in texts, by characters; white space, and texts without it at their ends; splitting texts at a character,
joining them, and their lines. A line ends at a newline, and a carriage return in front of it belongs to the line's end.
Main statements: an index that is found has the pattern behind it, and none in front of it has; the parts joined with
the character are the text.
-/

namespace Snippet.Text

/-- Whether a character has the Unicode property White_Space. -/
def isWhiteSpace (character : Char) : Bool :=
  let point := character.toNat
  (9 ≤ point && point ≤ 13) || point == 0x20 || point == 0x85 || point == 0xA0 ||
    point == 0x1680 || (0x2000 ≤ point && point ≤ 0x200A) || point == 0x2028 || point == 0x2029 ||
    point == 0x202F || point == 0x205F || point == 0x3000

/-- The characters without white space in front. -/
def trimFront (characters : List Char) : List Char := characters.dropWhile isWhiteSpace

/-- The characters without white space at either end. -/
def trimEnds (characters : List Char) : List Char :=
  (trimFront (trimFront characters).reverse).reverse

/-- The text without white space at either end. -/
def trim (text : String) : String := String.ofList (trimEnds text.toList)

/-! ### Parts -/

/-- The parts of characters between the occurrences of a separator. -/
def splitCharacters (separator : Char) : List Char → List (List Char)
  | [] => [[]]
  | character :: rest =>
    match splitCharacters separator rest with
    | [] => [[character]]
    | part :: parts =>
      if character = separator then [] :: part :: parts else (character :: part) :: parts

/-- The parts of a text between the occurrences of a separator. -/
def splitAt (separator : Char) (text : String) : List String :=
  (splitCharacters separator text.toList).map String.ofList

theorem splitCharacters_ne_nil (separator : Char) (characters : List Char) :
    splitCharacters separator characters ≠ [] := by
  cases characters with
  | nil => simp [splitCharacters]
  | cons character rest =>
    unfold splitCharacters
    split
    · simp
    · split <;> simp

theorem intercalate_splitCharacters (separator : Char) (characters : List Char) :
    [separator].intercalate (splitCharacters separator characters) = characters := by
  induction characters with
  | nil => rfl
  | cons character rest ih =>
    unfold splitCharacters
    split
    · next empty => exact absurd empty (splitCharacters_ne_nil separator rest)
    · next part parts found =>
      rw [found] at ih
      split
      · next same =>
        subst same
        simpa [List.intercalate] using ih
      · cases parts with
        | nil => simpa [List.intercalate] using ih
        | cons next others => simpa [List.intercalate] using ih

/-! ### Joined texts -/

variable {α : Type} {separator : List α}

/-- Joined parts are the first one with the separator in front of each further one. -/
theorem intercalate_cons (separator first : List α) (rest : List (List α)) :
    separator.intercalate (first :: rest) = first ++ rest.flatMap (separator ++ ·) := by
  induction rest generalizing first with
  | nil => simp [List.intercalate]
  | cons second rest ih =>
    rw [List.intercalate_cons_cons, ih, List.flatMap_cons, List.append_assoc, List.append_assoc]

/-- What is in joined parts is in the separator or in a part. -/
theorem mem_of_mem_intercalate {parts : List (List α)} {entry : α} (member : entry ∈ separator.intercalate parts) :
    entry ∈ separator ∨ ∃ part ∈ parts, entry ∈ part := by
  cases parts with
  | nil => cases member
  | cons first rest =>
    rw [intercalate_cons, List.mem_append, List.mem_flatMap] at member
    rcases member with inFirst | ⟨part, isPart, inPart⟩
    · exact .inr ⟨first, List.mem_cons_self, inFirst⟩
    · rcases List.mem_append.1 inPart with inSeparator | inPart
      · exact .inl inSeparator
      · exact .inr ⟨part, List.mem_cons_of_mem first isPart, inPart⟩

/-! ### Lines -/

/-- The characters of a line without the carriage return at its end. -/
def withoutReturn (line : List Char) : List Char :=
  if line.getLast? == some '\r' then line.dropLast else line

/-- The lines of characters behind the start of a line, which is given backward. A text that ends
with a newline has no empty line behind it. -/
def linesFrom (started : List Char) : List Char → List (List Char)
  | [] => if started.isEmpty then [] else [started.reverse]
  | '\n' :: rest => withoutReturn started.reverse :: linesFrom [] rest
  | character :: rest => linesFrom (character :: started) rest

/-- The lines of a text. -/
def lines (text : String) : List String := (linesFrom [] text.toList).map String.ofList

/-! ### Searching -/

/-- The number of characters in front of the first occurrence of a pattern. -/
def indexIn? (pattern : List Char) : List Char → Option Nat
  | [] => if pattern.isEmpty then some 0 else none
  | character :: rest =>
    if pattern.isPrefixOf (character :: rest) then some 0 else (indexIn? pattern rest).map (· + 1)

/-- The number of characters in front of the first occurrence of a text in another one. -/
def indexOf? (text pattern : String) : Option Nat := indexIn? pattern.toList text.toList

/-- Whether a text occurs in another one. -/
def occursIn (pattern text : String) : Bool := (indexOf? text pattern).isSome

/-- Whether a text begins with another one. -/
def beginsWith (text pattern : String) : Bool := pattern.toList.isPrefixOf text.toList

/-- Whether a text ends with another one. -/
def endsWith (text pattern : String) : Bool := pattern.toList.isSuffixOf text.toList

/-- The characters behind `skipped` more ones of an occurrence, with every further occurrence of a
nonempty pattern replaced. Occurrences are found from the front and do not overlap. -/
def replaceIn (pattern replacement : List Char) (skipped : Nat) : List Char → List Char
  | [] => []
  | character :: rest =>
    match skipped with
    | skipped + 1 => replaceIn pattern replacement skipped rest
    | 0 =>
      if pattern.isPrefixOf (character :: rest) then
        replacement ++ replaceIn pattern replacement (pattern.length - 1) rest
      else character :: replaceIn pattern replacement 0 rest

/-- The text with every occurrence of a nonempty pattern replaced. -/
def replaceAll (text pattern replacement : String) : String :=
  String.ofList (replaceIn pattern.toList replacement.toList 0 text.toList)

theorem indexIn?_isPrefixOf {pattern characters : List Char} {index : Nat}
    (found : indexIn? pattern characters = some index) :
    pattern.isPrefixOf (characters.drop index) = true := by
  induction characters generalizing index with
  | nil =>
    simp only [indexIn?] at found
    split at found <;> simp_all
  | cons character rest ih =>
    simp only [indexIn?] at found
    split at found
    · next starts =>
      obtain rfl := Option.some.inj found
      exact starts
    · obtain ⟨before, here, rfl⟩ := Option.map_eq_some_iff.1 found
      exact ih here

theorem not_isPrefixOf_of_lt {pattern characters : List Char} {index : Nat}
    (found : indexIn? pattern characters = some index) (earlier : Nat) (before : earlier < index) :
    pattern.isPrefixOf (characters.drop earlier) = false := by
  induction characters generalizing index earlier with
  | nil =>
    simp only [indexIn?] at found
    split at found
    · obtain rfl := Option.some.inj found
      omega
    · cases found
  | cons character rest ih =>
    simp only [indexIn?] at found
    split at found
    · obtain rfl := Option.some.inj found
      omega
    · next starts =>
      obtain ⟨inner, here, rfl⟩ := Option.map_eq_some_iff.1 found
      cases earlier with
      | zero => exact Bool.eq_false_iff.2 starts
      | succ earlier => exact ih here earlier (by omega)

end Snippet.Text
