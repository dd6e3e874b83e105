import Snippet.Proofs.Source.Respacing

/-!
Where tokens and problems stand in a text: on boundaries of characters, one token behind the other, with nothing but
blanks and complete comments between them (`tokenize_tiles`, `findings_lieIn`).

Then scanning by byte positions: loops that move a position over the bytes of a text, and slices of the text between
two positions. A scan has no result if a loop does not move on, or if a slice does not lie in the text on boundaries
of characters. Main definition: `Bytes.tokenize`.
-/

namespace Snippet

/-! ### Ranges -/

/-- Whether a range lies in a text, between two boundaries of characters. -/
structure Span.LiesIn (span : Span) (source : String) : Prop where
  ordered : span.start ≤ span.stop
  starts : (String.Pos.Raw.mk span.start).IsValid source
  stops : (String.Pos.Raw.mk span.stop).IsValid source

/-- Whether a cursor stands in a text. -/
def Cursor.IsIn (cursor : Cursor) (source : String) : Prop := Cursor.IsBefore ⟨source.toList, 0⟩ cursor

namespace Cursor.IsIn

variable {source : String} {cursor behind : Cursor}

theorem start (source : String) : IsIn ⟨source.toList, 0⟩ source := Cursor.isBefore_refl _

theorem exists_front (isIn : cursor.IsIn source) :
    ∃ front : List Char, source.toList = front ++ cursor.rest ∧ cursor.offset = byteSize front := by
  obtain ⟨front, isSource, isOffset⟩ := isIn
  exact ⟨front, isSource, isOffset.trans (Nat.zero_add _)⟩

theorem isValid (isIn : cursor.IsIn source) : (String.Pos.Raw.mk cursor.offset).IsValid source := by
  obtain ⟨front, isSource, isOffset⟩ := isIn.exists_front
  refine String.Pos.Raw.isValid_iff_exists_append.2 ⟨.ofList front, .ofList cursor.rest, ?_, ?_⟩
  · rw [← String.ofList_append, ← isSource, String.ofList_toList]
  · rw [isOffset, ← Cursor.utf8ByteSize_ofList]
    rfl

theorem liesIn (isIn : cursor.IsIn source) (before : cursor.IsBefore behind) :
    (Span.mk cursor.offset behind.offset).LiesIn source := by
  refine ⟨?_, isIn.isValid, IsIn.isValid (isIn.trans before)⟩
  obtain ⟨used, _, isOffset⟩ := before
  rw [isOffset]
  exact Nat.le_add_right _ _

/-- The characters between two cursors are those that are taken. -/
theorem textIn {used : List Char} (isIn : cursor.IsIn source) (reaches : cursor.Reaches used behind) :
    (Span.mk cursor.offset behind.offset).textIn source = used := by
  obtain ⟨front, isSource, isOffset⟩ := isIn.exists_front
  rw [Span.textIn, isSource, reaches.1, reaches.2, isOffset, dropBytes_append, Nat.add_sub_cancel_left, takeBytes_append]

/-- Behind the last character stands the end of the text. -/
theorem offset_eq (isIn : cursor.IsIn source) : cursor.offset + byteSize cursor.rest = source.utf8ByteSize := by
  obtain ⟨front, isSource, isOffset⟩ := isIn.exists_front
  rw [isOffset, ← Cursor.byteSize_append, ← isSource, ← Cursor.utf8ByteSize_ofList, String.ofList_toList]

end Cursor.IsIn

theorem Cursor.Covers.liesIn {source : String} {span : Span} (covers : Cursor.Covers ⟨source.toList, 0⟩ span) :
    span.LiesIn source := by
  obtain ⟨first, behind, isFirst, isBehind, rfl⟩ := covers
  exact Cursor.IsIn.liesIn isFirst isBehind

/-! ### Tokens -/

/-- The ranges in front of tokens, each from the end of the token before it or from a position on. -/
def gapsFrom (start : Nat) (tokens : List PlacedToken) : List Span :=
  List.zipWith Span.mk (start :: tokens.map (·.span.stop)) (tokens.map (·.span.start))

/-- Whether tokens stand in a text from a position on: one behind the other on boundaries of characters, with nothing
but blanks and complete comments in front of each. -/
structure Tiles (source : String) (start : Nat) (tokens : List PlacedToken) : Prop where
  lie : ∀ placed ∈ tokens, placed.span.LiesIn source ∧ start ≤ placed.span.start
  increase : tokens.Pairwise fun first second =>
    first.span.start < second.span.start ∧ first.span.stop ≤ second.span.start
  gaps : ∀ gap ∈ gapsFrom start tokens, IsGap (gap.stop = source.utf8ByteSize) (gap.textIn source)

theorem IsGap.mono {first second : Prop} (implies : first → second) {gap : List Char} (isGap : IsGap first gap) :
    IsGap second gap := by
  induction isGap with
  | none => exact .none
  | filler isComplete _ ih => exact .filler isComplete ih
  | remark ends remark => exact .remark (implies ends) remark

/-- A token and the layout in front of it come first. -/
theorem Tiles.cons {source : String} {start : Nat} {placed : PlacedToken} {tokens : List PlacedToken}
    (lies : placed.span.LiesIn source) (behind : start ≤ placed.span.start) (takes : placed.span.start < placed.span.stop)
    (isGap : IsGap (placed.span.start = source.utf8ByteSize) ((Span.mk start placed.span.start).textIn source))
    (others : Tiles source placed.span.stop tokens) : Tiles source start (placed :: tokens) where
  lie := by
    refine List.forall_mem_cons.2 ⟨⟨lies, behind⟩, fun other member => ?_⟩
    obtain ⟨lies', behind'⟩ := others.lie other member
    exact ⟨lies', by omega⟩
  increase := by
    refine List.pairwise_cons.2 ⟨fun other member => ?_, others.increase⟩
    have behind' := (others.lie other member).2
    exact ⟨by omega, behind'⟩
  gaps := List.forall_mem_cons.2 ⟨isGap, others.gaps⟩

/-- Tokens that stand in the characters of a text tile it up to its end. -/
theorem Lexer.StandsIn.tiles {source : String} {characters : List Char} {offset stop : Nat}
    {entries : List (PlacedToken × List Char)} (stands : StandsIn characters offset entries stop)
    (isIn : Cursor.IsIn ⟨characters, offset⟩ source) :
    stop = source.utf8ByteSize ∧ (∀ entry ∈ entries, entry.1.token ≠ .endOfFile) ∧
      Tiles source offset (entries.map (·.1) ++ [⟨.endOfFile, ⟨stop, stop⟩⟩]) := by
  induction stands with
  | @done gap isGap offset =>
    have skips : Cursor.Reaches ⟨gap, offset⟩ gap ⟨[], offset + byteSize gap⟩ := ⟨(List.append_nil gap).symm, rfl⟩
    have ends : offset + byteSize gap = source.utf8ByteSize := isIn.offset_eq
    have isEnd : Cursor.IsIn ⟨[], offset + byteSize gap⟩ source := isIn.trans ⟨gap, skips⟩
    refine ⟨ends, fun _ member => absurd member List.not_mem_nil, ?_, List.pairwise_singleton _ _, ?_⟩
    · exact List.forall_mem_singleton.2 ⟨isEnd.liesIn (Cursor.isBefore_refl _), Nat.le_add_right _ _⟩
    · refine List.forall_mem_singleton.2 ?_
      rw [isIn.textIn skips]
      exact isGap.mono fun _ => ends
  | @token gap text rest token offset stop entries isGap isRead isText others ih =>
    have skips : Cursor.Reaches ⟨gap ++ (text ++ rest), offset⟩ gap ⟨text ++ rest, offset + byteSize gap⟩ := ⟨rfl, rfl⟩
    have starts : Cursor.IsIn ⟨text ++ rest, offset + byteSize gap⟩ source := isIn.trans ⟨gap, skips⟩
    have taken := Cursor.isBefore_append text rest (offset + byteSize gap)
    have takes : 0 < byteSize text := by
      obtain ⟨first, used, rfl⟩ := List.exists_cons_of_ne_nil isText.1
      rw [Cursor.byteSize_cons]
      exact Nat.add_pos_left first.utf8Size_pos _
    obtain ⟨ends, areRead, tiles⟩ := ih (starts.trans taken)
    refine ⟨ends, List.forall_mem_cons.2 ⟨isRead, areRead⟩, tiles.cons (starts.liesIn taken) ?_ ?_ ?_⟩
    · exact Nat.le_add_right _ _
    · exact Nat.lt_add_of_pos_right takes
    · rw [isIn.textIn skips]
      exact isGap.mono False.elim

/-- The tokens of a text tile it, and the last of them is its only end. -/
theorem tokenize_tiles {source : String} {tokens : List PlacedToken} (lexes : tokenize source = .ok tokens) :
    (∃ front : List PlacedToken, tokens = front ++ [⟨.endOfFile, ⟨source.utf8ByteSize, source.utf8ByteSize⟩⟩] ∧
      ∀ placed ∈ front, placed.token ≠ .endOfFile) ∧ Tiles source 0 tokens := by
  obtain ⟨entries, stop, stands, rfl⟩ := exists_standsIn_of_tokenize lexes
  obtain ⟨rfl, areRead, tiles⟩ := stands.tiles (.start source)
  exact ⟨⟨_, rfl, List.forall_mem_map.2 areRead⟩, tiles⟩

/-- The problems of a text lie in it on boundaries of characters. -/
theorem findings_lieIn {source : String} {findings : List Finding} (fails : tokenize source = .error findings) :
    ∀ finding ∈ findings, finding.span.LiesIn source := by
  obtain ⟨rfl, _⟩ := tokenize_eq_error_iff.1 fails
  intro finding member
  obtain stands | ⟨span, isEnd⟩ := Lexer.lexemes_standsBehind _ _ (Lexeme.mem_findings.1 member)
  · cases stands with
    | finding isError covers => exact covers.liesIn
  · cases isEnd

/-! ### Scanning by bytes -/

open Text Lexer

instance (span : Span) (source : String) : Decidable (span.LiesIn source) :=
  decidable_of_iff (span.start ≤ span.stop ∧ (String.Pos.Raw.mk span.start).isValid source = true ∧
    (String.Pos.Raw.mk span.stop).isValid source = true) <| by
      simp only [String.Pos.Raw.isValid_eq_true_iff]
      exact ⟨fun ⟨ordered, starts, stops⟩ => ⟨ordered, starts, stops⟩, fun lies => ⟨lies.ordered, lies.starts, lies.stops⟩⟩

namespace Bytes

/-! ### Bytes and slices -/

section

variable (source : String)

/-- The byte at a position, as the character of its number. -/
def byteAt? (pos : Nat) : Option Char := source.toByteArray.data[pos]?.map fun byte => Char.ofNat byte.toNat

/-- The characters between two positions, if these are boundaries of characters in order. -/
def slice? (start stop : Nat) : Option (List Char) :=
  if (Span.mk start stop).LiesIn source then some ((Span.mk start stop).textIn source) else none

example : slice? "é" 0 2 = some ['é'] ∧ slice? "é" 1 2 = none := by decide

/-- The character at a position, unless the text ends there. -/
def next? (pos : Nat) : Option (Option Char) := (slice? source pos source.utf8ByteSize).map List.head?

/-- What a loop comes to from the next position on. It goes on from a position in the text to one further on only: a loop
that stays where it is goes on forever, and has no result. -/
def goOn {α : Type} (pos next : Nat) (rest : pos < next ∧ pos < source.utf8ByteSize → Option α) : Option α :=
  if moves : pos < next ∧ pos < source.utf8ByteSize then rest moves else none

/-- The position behind the bytes of a class. -/
def skipWhile (inClass : Char → Bool) (pos : Nat) : Option Nat :=
  if (byteAt? source pos).any inClass then goOn source pos (pos + 1) fun _ => skipWhile inClass (pos + 1) else some pos
termination_by source.utf8ByteSize - pos

end

/-- A token from one position to another one, behind which the text is left. -/
def token (token : Token) (start stop : Nat) : List Lexeme × Nat := ([.token ⟨token, ⟨start, stop⟩⟩], stop)

/-- A problem from one position to another one, behind which the text is left. -/
def problem (problem : Problem) (start stop : Nat) : List Lexeme × Nat := ([.finding ⟨problem, ⟨start, stop⟩⟩], stop)

/-! ### Layout -/

section

variable (source : String)

/-- Skips a comment that has been opened. -/
def skipBlock (start pos : Nat) : Option (List Lexeme × Nat) :=
  if source.utf8ByteSize ≤ pos + 1 then some (problem .unterminatedComment start source.utf8ByteSize)
  else if byteAt? source pos = some '*' ∧ byteAt? source (pos + 1) = some '/' then some ([], pos + 2)
  else goOn source pos (pos + 1) fun _ => skipBlock start (pos + 1)
termination_by source.utf8ByteSize - pos

/-- Skips blanks and comments. -/
def skipLayout (pos : Nat) : Option (List Lexeme × Nat) :=
  if (byteAt? source pos).any isLayout then goOn source pos (pos + 1) fun _ => skipLayout (pos + 1)
  else if byteAt? source pos = some '/' ∧ byteAt? source (pos + 1) = some '/' then do
    let stop ← skipWhile source (· != '\n') pos
    goOn source pos stop fun _ => skipLayout stop
  else if byteAt? source pos = some '/' ∧ byteAt? source (pos + 1) = some '*' then do
    let (reports, stop) ← skipBlock source pos (pos + 2)
    let (others, stop) ← goOn source pos stop fun _ => skipLayout stop
    some (reports ++ others, stop)
  else some ([], pos)
termination_by source.utf8ByteSize - pos

end

/-! ### Text literals -/

/-- The content of a text literal, what is wrong with it, and the position behind it. -/
structure Content where
  value : List Char
  findings : List Finding
  stop : Nat

namespace Content

/-- The content with one more character in front. -/
def push (content : Content) (character : Char) : Content := { content with value := character :: content.value }

/-- The content with one more problem in front. -/
def report (content : Content) (problem : Problem) (start stop : Nat) : Content :=
  { content with findings := ⟨problem, ⟨start, stop⟩⟩ :: content.findings }

/-- The problems of a literal followed by its token. -/
def lexemes (content : Content) (start : Nat) : List Lexeme × Nat :=
  (content.findings.map .finding ++ [.token ⟨.text (String.ofList content.value), ⟨start, content.stop⟩⟩], content.stop)

end Content

section

variable (source : String)

/-- Reads what stands behind the backslash of an escape. -/
def readEscape (pos : Nat) : Option (Option Char × Nat) := do
  match ← next? source pos with
  | none => some (none, pos)
  | some letter =>
    if letter = 'u' then
      match (slice? source (pos + 1) (pos + 1 + 4)).bind escapedPoint? with
      | none => some (none, pos + 1)
      | some point => some (scalar? point, pos + 1 + 4)
    else some (escape? letter, pos + letter.utf8Size)

/-- Reads the content of a literal in quotes that started at `start`. -/
def readText (start pos : Nat) : Option Content := do
  match ← next? source pos with
  | none => some ⟨[], [⟨.newlineInLiteral, ⟨start, pos⟩⟩], pos⟩
  | some character =>
    if character = '"' then some ⟨[], [], pos + 1⟩
    else if character = '\n' ∨ character = '\r' then some ⟨[], [⟨.newlineInLiteral, ⟨start, pos⟩⟩], pos⟩
    else if character = '\\' then
      let (escaped, behind) ← readEscape source (pos + 1)
      let content ← goOn source pos behind fun _ => readText start behind
      match escaped with
      | some character => some (content.push character)
      | none => some (content.report .badEscape pos behind)
    else
      let content ← goOn source pos (pos + character.utf8Size) fun _ => readText start (pos + character.utf8Size)
      some (content.push character)
termination_by source.utf8ByteSize - pos

/-- Reads the content of a verbatim literal that started at `start`. -/
def readVerbatim (start pos : Nat) : Option Content := do
  match ← next? source pos with
  | none => some ⟨[], [⟨.unterminatedLiteral, ⟨start, pos⟩⟩], pos⟩
  | some character =>
    if character = '"' then
      if byteAt? source (pos + 1) = some '"' then
        let content ← goOn source pos (pos + 2) fun _ => readVerbatim start (pos + 2)
        some (content.push '"')
      else some ⟨[], [], pos + 1⟩
    else
      let content ← goOn source pos (pos + character.utf8Size) fun _ => readVerbatim start (pos + character.utf8Size)
      some (content.push character)
termination_by source.utf8ByteSize - pos

/-- The position at which a character literal ends; behind a last backslash it lies outside of the text. -/
def skipCharacter (pos : Nat) : Option Nat :=
  match byteAt? source pos with
  | none => some pos
  | some character =>
    if character = '\'' ∨ character = '\n' then some pos
    else if character = '\\' then goOn source pos (pos + 2) fun _ => skipCharacter (pos + 2)
    else goOn source pos (pos + 1) fun _ => skipCharacter (pos + 1)
termination_by source.utf8ByteSize - pos

/-- Reads a character literal. -/
def readCharacter (start : Nat) : Option (List Lexeme × Nat) := do
  let stop ← skipCharacter source (start + 1)
  let behind := if byteAt? source stop = some '\'' then stop + 1 else stop
  some (problem (.unsupported "character literal") start (min behind source.utf8ByteSize))

end

/-! ### Numbers -/

section

variable (source : String)

/-- Ends an integer literal behind its digits and the suffix of a `long`. -/
def endInteger (start : Nat) (value : Option Nat) (isLong : Bool) (stop : Nat) : List Lexeme × Nat :=
  if (byteAt? source stop).any fun suffix => suffix == 'u' || suffix == 'U' then
    problem (.unsupported "unsigned literals") start (stop + 1)
  else
    match value with
    | some number =>
      if !isLong && number < 0x80000000 then token (.int (.ofNat number)) start stop
      else if number < 0x8000000000000000 then token (.long (.ofNat number)) start stop
      else problem .integerTooLarge start stop
    | none => problem .integerTooLarge start stop

/-- Reads the suffix of an integer literal. -/
def readSuffix (start : Nat) (value : Option Nat) (pos : Nat) : List Lexeme × Nat :=
  let isLong := (byteAt? source pos).any isLongSuffix
  endInteger source start value isLong (if isLong then pos + 1 else pos)

/-- Whether a fraction starts at a position. -/
def startsFraction (pos : Nat) : Bool := byteAt? source pos == some '.' && (byteAt? source (pos + 1)).any Char.isDigit

/-- The position behind the fraction that may start at a position. -/
def skipFraction (pos : Nat) : Option Nat :=
  if startsFraction source pos then skipWhile source isDigitOrGap (pos + 1) else some pos

/-- The position of the digits of the exponent that starts at a position. -/
def exponentDigits? (pos : Nat) : Option Nat :=
  if byteAt? source pos = some 'e' ∨ byteAt? source pos = some 'E' then
    let digits := if byteAt? source (pos + 1) = some '+' ∨ byteAt? source (pos + 1) = some '-' then pos + 2 else pos + 1
    if (byteAt? source digits).any Char.isDigit then some digits else none
  else none

/-- Whether the decimal number at a position has a fraction or an exponent, and the position behind it. -/
def skipNumeral (start : Nat) : Option (Bool × Nat) := do
  let whole ← skipWhile source isDigitOrGap start
  let fraction ← skipFraction source whole
  match exponentDigits? source fraction with
  | none => some (startsFraction source whole, fraction)
  | some digits =>
    let stop ← skipWhile source isDigitOrGap digits
    some (true, stop)

/-- Reads a hexadecimal number, from its digits on. -/
def readHexadecimal (start pos : Nat) : Option (List Lexeme × Nat) := do
  let stop ← skipWhile source isHexDigit pos
  let digits ← slice? source pos stop
  some (readSuffix source start (if digits.isEmpty then none else hexNumber? digits) stop)

/-- Reads a decimal number. -/
def readDecimal (start : Nat) : Option (List Lexeme × Nat) := do
  let (isReal, stop) ← skipNumeral source start
  let text ← slice? source start stop
  let numeral := readNumeral ⟨text, start⟩
  if (byteAt? source stop).any isDoubleSuffix then some (token (.double numeral.toFloat) start (stop + 1))
  else if (byteAt? source stop).any isRefusedSuffix then
    some (problem (.unsupported "float and decimal literals") start (stop + 1))
  else if isReal then some (token (.double numeral.toFloat) start stop)
  else some (readSuffix source start (some (Decimal.ofDigits numeral.whole)) stop)

/-- Reads a number literal. -/
def readNumber (start : Nat) : Option (List Lexeme × Nat) :=
  if byteAt? source start = some '0' ∧
      (byteAt? source (start + 1) = some 'x' ∨ byteAt? source (start + 1) = some 'X') then
    readHexadecimal source start (start + 2)
  else readDecimal source start

end

/-! ### Texts -/

section

variable (source : String)

/-- The position behind the characters that go on with a name. -/
def skipName (pos : Nat) : Option Nat := do
  match ← next? source pos with
  | none => some pos
  | some character =>
    if continuesName character then
      goOn source pos (pos + character.utf8Size) fun _ => skipName (pos + character.utf8Size)
    else some pos
termination_by source.utf8ByteSize - pos

/-- Reads a name or a reserved word. -/
def readWord (start : Nat) : Option (List Lexeme × Nat) := do
  let stop ← skipName source start
  let word ← slice? source start stop
  some (token (wordToken (String.ofList word)) start stop)

/-- Reads the lexeme at a position. -/
def readLexeme (start : Nat) : Option (List Lexeme × Nat) := do
  let first ← byteAt? source start
  let second := byteAt? source (start + 1)
  if startsNumber first second then readNumber source start
  else if first = '"' then
    let content ← readText source start (start + 1)
    some (content.lexemes start)
  else if first = '@' ∧ second = some '"' then
    let content ← readVerbatim source start (start + 2)
    some (content.lexemes start)
  else if first = '\'' then readCharacter source start
  else
    match symbol? first second with
    | some (sign, size) => some (token (.symbol sign) start (start + size))
    | none =>
      if isBitOperator first then
        some (problem (.unsupported ("bitwise operator '" ++ toString first ++ "'")) start (start + 1))
      else
        let character := (← next? source start).getD '\uFFFD'
        if startsName character then readWord source start
        else some (problem (.unexpectedCharacter character) start (start + character.utf8Size))

/-- All lexemes from a position on, up to the end of the text. -/
def lexemes (pos : Nat) : Option (List Lexeme) := do
  if source.utf8ByteSize ≤ pos then some [.token ⟨.endOfFile, ⟨pos, pos⟩⟩]
  else
    let (reports, start) ← skipLayout source pos
    if source.utf8ByteSize ≤ start then some (reports ++ [.token ⟨.endOfFile, ⟨start, start⟩⟩])
    else
      let (found, behind) ← readLexeme source start
      let others ← goOn source pos behind fun _ => lexemes behind
      some (reports ++ found ++ others)
termination_by source.utf8ByteSize - pos

/-- The tokens of a text, or all that is wrong with it. -/
def tokenize : Option (Except (List Finding) (List PlacedToken)) := do
  let lexemes ← lexemes source 0
  match lexemes.filterMap Lexeme.finding? with
  | [] => some (.ok (lexemes.filterMap Lexeme.token?))
  | findings => some (.error findings)

end

end Bytes

end Snippet
