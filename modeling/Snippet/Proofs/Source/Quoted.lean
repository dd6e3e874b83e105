import Snippet.Proofs.Source.Integer

/-!
Text literals. Main statements: every text is read back from its literal in quotes and from its verbatim literal
(`tokenize_quoted`), and every literal in quotes is made up of plain characters and escapes, of which its value is put
together (`tokenize_text_pieces`). An escape of a code point has four hexadecimal digits, or a plus sign and three.
-/

namespace Snippet

open Text

/-! ### Pieces -/

/-- The escapes of one letter, each with the character that it denotes. -/
def escapes : List (Char × Char) :=
  [('n', '\n'), ('t', '\t'), ('r', '\r'), ('0', '\x00'), ('\\', '\\'), ('"', '"'), ('\'', '\'')]

/-- Whether a piece of a literal in quotes denotes a character. -/
inductive Denotes : List Char → Char → Prop
  | plain {character : Char} (isPlain : character ∉ ['"', '\\', '\n', '\r']) : Denotes [character] character
  | escape {letter character : Char} (isEscape : (letter, character) ∈ escapes) : Denotes ['\\', letter] character
  | point {first second third fourth character : Char} {a b c d : Nat} (isFirst : IsHexDigitOf first a)
      (isSecond : IsHexDigitOf second b) (isThird : IsHexDigitOf third c) (isFourth : IsHexDigitOf fourth d)
      (isPoint : character.toNat = 16 * (16 * (16 * a + b) + c) + d) :
      Denotes ['\\', 'u', first, second, third, fourth] character

/-- Whether a piece denotes a character by a plus sign and three hexadecimal digits. -/
inductive DenotesSigned : List Char → Char → Prop
  | point {second third fourth character : Char} {b c d : Nat} (isSecond : IsHexDigitOf second b)
      (isThird : IsHexDigitOf third c) (isFourth : IsHexDigitOf fourth d)
      (isPoint : character.toNat = 16 * (16 * b + c) + d) : DenotesSigned ['\\', 'u', '+', second, third, fourth] character

/-- A piece of a literal in quotes with the character that it denotes. -/
abbrev TextPiece := List Char × Char

namespace Lexer

theorem escape?_eq_some_iff {letter character : Char} :
    escape? letter = some character ↔ (letter, character) ∈ escapes := by
  constructor
  · intro isEscape
    unfold escape? at isEscape
    split at isEscape <;> cases isEscape <;> decide
  · intro member
    simp only [escapes, List.mem_cons, Prod.mk.injEq, List.not_mem_nil, or_false] at member
    rcases member with ⟨rfl, rfl⟩ | ⟨rfl, rfl⟩ | ⟨rfl, rfl⟩ | ⟨rfl, rfl⟩ | ⟨rfl, rfl⟩ | ⟨rfl, rfl⟩ | ⟨rfl, rfl⟩ <;> rfl

theorem scalar?_eq_some_iff {point : Nat} {character : Char} :
    scalar? point = some character ↔ character.toNat = point := by
  constructor
  · intro isScalar
    unfold scalar? at isScalar
    split at isScalar
    · next isValid =>
      cases isScalar
      exact toNat_ofNat_of_isValidChar isValid
    · cases isScalar
  · rintro rfl
    exact Json.scalar?_toNat character

/-- The number that goes on with hexadecimal digits. -/
theorem foldlM_hexDigit?_cons {digit : Char} {rest : List Char} {front number : Nat} :
    (digit :: rest).foldlM (fun number character => (16 * number + ·) <$> hexDigit? character) front = some number ↔
      ∃ value, IsHexDigitOf digit value ∧
        rest.foldlM (fun number character => (16 * number + ·) <$> hexDigit? character) (16 * front + value) =
          some number := by
  simp only [← hexDigit?_eq_some_iff, List.foldlM_cons]
  cases hexDigit? digit with
  | none => simp
  | some value => simp

theorem hexNumber?_four {first second third fourth : Char} {number : Nat} :
    hexNumber? [first, second, third, fourth] = some number ↔ ∃ a b c d, IsHexDigitOf first a ∧ IsHexDigitOf second b ∧
      IsHexDigitOf third c ∧ IsHexDigitOf fourth d ∧ number = 16 * (16 * (16 * a + b) + c) + d := by
  simp only [hexNumber?, foldlM_hexDigit?_cons, List.foldlM_nil, Option.pure_def, Option.some.injEq, Nat.mul_zero,
    Nat.zero_add]
  constructor
  · rintro ⟨a, isFirst, b, isSecond, c, isThird, d, isFourth, rfl⟩
    exact ⟨a, b, c, d, isFirst, isSecond, isThird, isFourth, rfl⟩
  · rintro ⟨a, b, c, d, isFirst, isSecond, isThird, isFourth, rfl⟩
    exact ⟨a, isFirst, b, isSecond, c, isThird, d, isFourth, rfl⟩

theorem hexNumber?_three {second third fourth : Char} {number : Nat} :
    hexNumber? [second, third, fourth] = some number ↔ ∃ b c d, IsHexDigitOf second b ∧
      IsHexDigitOf third c ∧ IsHexDigitOf fourth d ∧ number = 16 * (16 * b + c) + d := by
  simp only [hexNumber?, foldlM_hexDigit?_cons, List.foldlM_nil, Option.pure_def, Option.some.injEq, Nat.mul_zero,
    Nat.zero_add]
  constructor
  · rintro ⟨b, isSecond, c, isThird, d, isFourth, rfl⟩
    exact ⟨b, c, d, isSecond, isThird, isFourth, rfl⟩
  · rintro ⟨b, c, d, isSecond, isThird, isFourth, rfl⟩
    exact ⟨b, isSecond, c, isThird, d, isFourth, rfl⟩

theorem not_isHexDigitOf_plus (value : Nat) : ¬ IsHexDigitOf '+' value := by
  rw [← hexDigit?_eq_some_iff]
  exact nofun

/-- The characters that are read as the code point of a character: four digits, or a plus sign and three. -/
theorem escapedPoint?_eq_some_iff {first second third fourth character : Char} :
    (escapedPoint? [first, second, third, fourth]).bind scalar? = some character ↔
      Denotes ['\\', 'u', first, second, third, fourth] character ∨
        DenotesSigned ['\\', 'u', first, second, third, fourth] character := by
  simp only [Option.bind_eq_some_iff, scalar?_eq_some_iff]
  by_cases isSigned : first = '+'
  · subst isSigned
    rw [escapedPoint?]
    simp only [hexNumber?_three]
    constructor
    · rintro ⟨_, ⟨b, c, d, isSecond, isThird, isFourth, rfl⟩, isPoint⟩
      exact .inr (.point isSecond isThird isFourth isPoint)
    · rintro (denotes | denotes)
      · cases denotes with
        | point isFirst => exact absurd isFirst (not_isHexDigitOf_plus _)
      · cases denotes with
        | point isSecond isThird isFourth isPoint => exact ⟨_, ⟨_, _, _, isSecond, isThird, isFourth, rfl⟩, isPoint⟩
  · have isPlain : escapedPoint? [first, second, third, fourth] = hexNumber? [first, second, third, fourth] := by
      rw [escapedPoint?]
      rintro digits same
      exact isSigned (List.cons.inj same).1
    rw [isPlain]
    simp only [hexNumber?_four]
    constructor
    · rintro ⟨_, ⟨a, b, c, d, isFirst, isSecond, isThird, isFourth, rfl⟩, isPoint⟩
      exact .inl (.point isFirst isSecond isThird isFourth isPoint)
    · rintro (denotes | denotes)
      · cases denotes with
        | point isFirst isSecond isThird isFourth isPoint =>
          exact ⟨_, ⟨_, _, _, _, isFirst, isSecond, isThird, isFourth, rfl⟩, isPoint⟩
      · cases denotes with
        | point => exact absurd rfl isSigned

/-! ### Literals in quotes -/

/-- A literal in quotes without problems is made up of pieces, of which its value is put together. -/
theorem exists_pieces_of_readText (start : Nat) (characters : List Char) (offset : Nat)
    (clean : (readText start characters offset).findings = []) : ∃ pieces : List TextPiece,
      characters = pieces.flatMap (·.1) ++ '"' :: (readText start characters offset).cursor.rest ∧
        (readText start characters offset).value = pieces.map (·.2) ∧
          ∀ piece ∈ pieces, Denotes piece.1 piece.2 ∨ DenotesSigned piece.1 piece.2 := by
  have step {text rest : List Char} {character : Char} {literal : Literal}
      (denotes : Denotes text character ∨ DenotesSigned text character)
      (others : ∃ pieces : List TextPiece, rest = pieces.flatMap (·.1) ++ '"' :: literal.cursor.rest ∧
        literal.value = pieces.map (·.2) ∧ ∀ piece ∈ pieces, Denotes piece.1 piece.2 ∨ DenotesSigned piece.1 piece.2) :
      ∃ pieces : List TextPiece, text ++ rest = pieces.flatMap (·.1) ++ '"' :: (literal.push character).cursor.rest ∧
        (literal.push character).value = pieces.map (·.2) ∧
          ∀ piece ∈ pieces, Denotes piece.1 piece.2 ∨ DenotesSigned piece.1 piece.2 := by
    obtain ⟨pieces, isRest, isValue, denote⟩ := others
    refine ⟨(text, character) :: pieces, ?_, ?_, List.forall_mem_cons.2 ⟨denotes, denote⟩⟩
    · rw [isRest, List.flatMap_cons, List.append_assoc]
      rfl
    · rw [Literal.push, isValue]
      rfl
  fun_induction readText start characters offset with
  | case1 | case3 | case4 | case6 | case7 | case9 => cases clean
  | case2 first second third fourth rest offset point isPoint character isScalar ih =>
    have reads : (escapedPoint? [first, second, third, fourth]).bind scalar? = some character := by
      rw [isPoint, Option.bind_some, isScalar]
    exact step (escapedPoint?_eq_some_iff.1 reads) (ih clean)
  | case5 letter rest offset noUnicode behind character isEscape ih =>
    exact step (.inl (.escape (escape?_eq_some_iff.1 isEscape))) (ih clean)
  | case8 rest offset => exact ⟨[], rfl, rfl, fun _ member => absurd member List.not_mem_nil⟩
  | case10 character rest offset noUnicode noEscape noSlash noQuote noBreak ih =>
    have noBackslash : character ≠ '\\' := by
      rintro rfl
      cases rest with
      | nil => exact noSlash rfl rfl
      | cons letter rest => exact noEscape letter rest rfl rfl
    have isPlain : character ∉ ['"', '\\', '\n', '\r'] := by
      simpa [noQuote, noBackslash] using noBreak
    exact step (.inl (.plain isPlain)) (ih clean)

/-- A piece of a literal in quotes is read as the character that it denotes. -/
theorem readText_denotes {text : List Char} {character : Char} (denotes : Denotes text character) (start : Nat)
    (rest : List Char) (offset : Nat) :
    readText start (text ++ rest) offset = (readText start rest (offset + byteSize text)).push character := by
  cases denotes with
  | plain isPlain =>
    have isPlain : character ≠ '"' ∧ character ≠ '\\' ∧ ¬ (character = '\n' ∨ character = '\r') := by simpa using isPlain
    rw [List.singleton_append, readText_cons isPlain.2.1, if_neg isPlain.1, if_neg isPlain.2.2]
    rfl
  | @escape letter _ isEscape =>
    have noUnicode : letter ≠ 'u' := by
      rintro rfl
      exact absurd (escape?_eq_some_iff.2 isEscape) nofun
    rw [List.cons_append, List.singleton_append, readText, escape?_eq_some_iff.2 isEscape]
    · dsimp only
      rw [Cursor.byteSize_cons, Cursor.byteSize_cons, ← Nat.add_assoc, ← Nat.add_assoc]
      rfl
    · exact fun _ _ _ _ _ isUnicode => absurd isUnicode noUnicode
  | @point first second third fourth _ a b c d isFirst isSecond isThird isFourth isPoint =>
    have reads := escapedPoint?_eq_some_iff.2 (.inl (.point isFirst isSecond isThird isFourth isPoint))
    obtain ⟨point, isNumber, isScalar⟩ := Option.bind_eq_some_iff.1 reads
    simp only [List.cons_append, List.nil_append]
    rw [readText, isNumber]
    dsimp only
    rw [isScalar, byteSize_of_point isNumber]

/-- Pieces in front of a quote are a literal of the characters that they denote. -/
theorem readText_pieces {pieces : List TextPiece} (denote : ∀ piece ∈ pieces, Denotes piece.1 piece.2) (start : Nat)
    (rest : List Char) (offset : Nat) : readText start (pieces.flatMap (·.1) ++ '"' :: rest) offset =
      ⟨pieces.map (·.2), [], ⟨rest, offset + byteSize (pieces.flatMap (·.1)) + 1⟩⟩ := by
  induction pieces generalizing offset with
  | nil => exact readText_cons (by decide) start rest offset
  | cons piece pieces ih =>
    obtain ⟨denotes, denote⟩ := List.forall_mem_cons.1 denote
    rw [List.flatMap_cons, List.append_assoc, readText_denotes denotes, ih denote, Cursor.byteSize_append,
      ← Nat.add_assoc]
    rfl

/-! ### Verbatim literals -/

/-- A character as it is written in a verbatim literal. -/
def doubledQuote (character : Char) : List Char := if character = '"' then ['"', '"'] else [character]

/-- Characters with doubled quotes in front of a single quote are a verbatim literal of the characters. -/
theorem readVerbatim_doubledQuote (value : List Char) {rest : List Char} (noQuote : rest.head? ≠ some '"') (start offset : Nat) :
    readVerbatim start (value.flatMap doubledQuote ++ '"' :: rest) offset =
      ⟨value, [], ⟨rest, offset + byteSize (value.flatMap doubledQuote) + 1⟩⟩ := by
  induction value generalizing offset with
  | nil =>
    rw [List.flatMap_nil, List.nil_append, readVerbatim]
    · rfl
    · rintro behind - rfl
      exact noQuote rfl
  | cons character value ih =>
    rw [List.flatMap_cons, List.append_assoc, Cursor.byteSize_append, ← Nat.add_assoc offset]
    by_cases isQuote : character = '"'
    · subst isQuote
      exact congrArg (Literal.push · '"') (ih (offset + 2))
    · have plain : doubledQuote character = [character] := if_neg isQuote
      rw [plain, List.singleton_append, readVerbatim, if_neg isQuote, ih]
      · rfl
      · exact fun _ found => absurd found isQuote

end Lexer

/-! ### Whole texts -/

/-- The piece of a literal in quotes that a character is written as. -/
def quotedPiece (character : Char) : TextPiece :=
  match character with
  | '\\' => (['\\', '\\'], character)
  | '"' => (['\\', '"'], character)
  | '\n' => (['\\', 'n'], character)
  | '\r' => (['\\', 'r'], character)
  | _ => ([character], character)

theorem denotes_quotedPiece (character : Char) : Denotes (quotedPiece character).1 character := by
  unfold quotedPiece
  split
  · exact .escape (by decide)
  · exact .escape (by decide)
  · exact .escape (by decide)
  · exact .escape (by decide)
  · next noSlash noQuote noBreak noReturn => exact .plain (by simpa using ⟨noQuote, noSlash, noBreak, noReturn⟩)

theorem quotedPiece_snd (character : Char) : (quotedPiece character).2 = character := by
  unfold quotedPiece
  split <;> rfl

/-- The literal in quotes of a text. -/
def quoted (value : String) : String :=
  .ofList ('"' :: ((value.toList.map quotedPiece).flatMap (·.1) ++ ['"']))

/-- The verbatim literal of a text. -/
def verbatim (value : String) : String :=
  .ofList ('@' :: '"' :: (value.toList.flatMap Lexer.doubledQuote ++ ['"']))

/-- Whether a source text is one literal of a text. -/
def ReadsAsText (source value : String) : Prop :=
  tokenize source = .ok [⟨.text value, ⟨0, source.utf8ByteSize⟩⟩,
    ⟨.endOfFile, ⟨source.utf8ByteSize, source.utf8ByteSize⟩⟩]

theorem readsAsText_of_readLexeme {first : Char} {rest : List Char} {value : String} (solid : isLayout first = false)
    (noComment : first ≠ '/') (reads : Lexer.readLexeme first rest 0 =
      .token (.text value) 0 ⟨[], byteSize (first :: rest)⟩) : ReadsAsText (String.ofList (first :: rest)) value := by
  have skipped : Lexer.skipLayout .blank (first :: rest) 0 = (none, ⟨first :: rest, 0⟩) :=
    Piece.skipLayout_of_not_isLayout solid noComment
  have areLexemes : Lexer.lexemes ⟨(String.ofList (first :: rest)).toList, 0⟩ =
      Lexer.lexemesOf [⟨.text value, ⟨0, byteSize (first :: rest)⟩⟩] (byteSize (first :: rest)) := by
    rw [String.toList_ofList, Lexer.lexemes_cons skipped reads, Lexer.lexemes_of_end (by rfl)]
    rfl
  unfold ReadsAsText
  rw [Cursor.utf8ByteSize_ofList]
  exact tokenize_of_lexemes areLexemes

/-- Every text is read back from its literal in quotes and from its verbatim literal. -/
theorem tokenize_quoted (value : String) : ReadsAsText (quoted value) value ∧ ReadsAsText (verbatim value) value := by
  constructor
  · refine readsAsText_of_readLexeme (by decide) (by decide) ?_
    have denote : ∀ piece ∈ value.toList.map quotedPiece, Denotes piece.1 piece.2 := by
      refine List.forall_mem_map.2 fun character _ => ?_
      rw [quotedPiece_snd]
      exact denotes_quotedPiece character
    have same : (value.toList.map quotedPiece).map (·.2) = value.toList := by
      rw [List.map_map]
      exact List.map_id'' quotedPiece_snd _
    rw [Lexer.readLexeme_text, Lexer.readText_pieces denote, same, Lexer.Literal.reading, String.ofList_toList,
      Cursor.byteSize_cons, Cursor.byteSize_append, ← Nat.add_assoc]
    rfl
  · refine readsAsText_of_readLexeme (by decide) (by decide) ?_
    rw [Lexer.readLexeme_verbatim, Lexer.readVerbatim_doubledQuote _ (by decide), Lexer.Literal.reading,
      String.ofList_toList, Cursor.byteSize_cons, Cursor.byteSize_cons, Cursor.byteSize_append, ← Nat.add_assoc,
      ← Nat.add_assoc]
    rfl

/-- A text that starts with a quote and is read as a token of a text is a literal without problems, behind which nothing is
left. -/
theorem Lexer.IsTokenText.readText_eq {rest : List Char} {value : String}
    (isTokenText : IsTokenText ('"' :: rest) (.text value)) :
    (readText 0 rest 1).findings = [] ∧ (readText 0 rest 1).cursor.rest = [] ∧
      value = String.ofList (readText 0 rest 1).value := by
  have skipped : skipLayout .blank ('"' :: rest) 0 = (none, ⟨'"' :: rest, 0⟩) :=
    Piece.skipLayout_of_not_isLayout (by decide) (by decide)
  have reads := isTokenText.2 [] 0 rfl
  rw [List.append_nil, lexemes_of_skipped skipped, readLexeme_text, Literal.reading, Nat.zero_add] at reads
  have clean : (readText 0 rest 1).findings = [] := by
    cases isFound : (readText 0 rest 1).findings with
    | nil => rfl
    | cons finding others =>
      rw [isFound] at reads
      cases reads
  rw [clean] at reads
  injection (List.cons.inj reads).1 with isPlaced
  injection isPlaced with isText isSpan
  injection isText with isValue
  injection isSpan with _ isStop
  -- The token covers the whole text, so no characters are left behind it.
  obtain ⟨used, isText, isOffset⟩ :=
    (readText_standsBehind rest 1 (Cursor.isBefore_append ['"'] rest 0)).before
  have isOffset : (readText 0 rest 1).cursor.offset = 0 + byteSize used := isOffset
  have isText : '"' :: rest = used ++ (readText 0 rest 1).cursor.rest := isText
  refine ⟨clean, ?_, isValue.symm⟩
  cases isEnd : (readText 0 rest 1).cursor.rest with
  | nil => rfl
  | cons character others =>
    have positive := character.utf8Size_pos
    rw [isText, isEnd, Cursor.byteSize_append, Cursor.byteSize_cons] at isStop
    omega

/-- A text that starts with a quote and is read as a token of a text is made up of pieces. -/
theorem Lexer.IsTokenText.exists_pieces {text : List Char} {value : String} (isTokenText : IsTokenText text (.text value))
    (isQuoted : text.head? = some '"') : ∃ pieces : List TextPiece, text = '"' :: (pieces.flatMap (·.1) ++ ['"']) ∧
      value = String.ofList (pieces.map (·.2)) ∧
        ∀ piece ∈ pieces, Denotes piece.1 piece.2 ∨ DenotesSigned piece.1 piece.2 := by
  obtain ⟨rest, rfl⟩ := List.head?_eq_some_iff.1 isQuoted
  obtain ⟨clean, isEnd, isValue⟩ := isTokenText.readText_eq
  obtain ⟨pieces, isRest, areValues, denote⟩ := exists_pieces_of_readText 0 rest 1 clean
  rw [isEnd] at isRest
  exact ⟨pieces, congrArg ('"' :: ·) isRest, by rw [isValue, areValues], denote⟩

/-- Every literal in quotes in a text that has tokens is made up of plain characters and escapes between quotes, and its
value is put together of what these denote. -/
theorem tokenize_text_pieces {source : String} {tokens : List PlacedToken} (lexes : tokenize source = .ok tokens)
    {placed : PlacedToken} (member : placed ∈ tokens) {value : String} (isText : placed.token = .text value)
    (isQuoted : (placed.span.textIn source).head? = some '"') : ∃ pieces : List TextPiece,
      placed.span.textIn source = '"' :: (pieces.flatMap (·.1) ++ ['"']) ∧ value = String.ofList (pieces.map (·.2)) ∧
        ∀ piece ∈ pieces, Denotes piece.1 piece.2 ∨ DenotesSigned piece.1 piece.2 := by
  obtain ⟨entries, stop, stands, rfl⟩ := exists_standsIn_of_tokenize lexes
  rcases List.mem_append.1 member with inEntries | isEnd
  · obtain ⟨entry, isEntry, rfl⟩ := List.mem_map.1 inEntries
    have isTokenText := stands.isTokenText entry isEntry
    rw [isText] at isTokenText
    rw [stands.textIn [] rfl rfl entry isEntry] at isQuoted ⊢
    exact isTokenText.exists_pieces isQuoted
  · obtain rfl := List.mem_singleton.1 isEnd
    cases isText

/-- A literal with plain characters, a code point and a quote. -/
theorem tokenize_text_pieces_escaped : ReadsAsText "\"a\\u0041\\\"\"" "aA\"" ∧ ∃ pieces : List TextPiece,
    "\"a\\u0041\\\"\"".toList = '"' :: (pieces.flatMap (·.1) ++ ['"']) ∧ "aA\"" = String.ofList (pieces.map (·.2)) ∧
      ∀ piece ∈ pieces, Denotes piece.1 piece.2 ∨ DenotesSigned piece.1 piece.2 := by
  have lexes : ReadsAsText "\"a\\u0041\\\"\"" "aA\"" :=
    @readsAsText_of_readLexeme '"' "a\\u0041\\\"\"".toList _ (by decide) (by decide) (by rfl)
  exact ⟨lexes, tokenize_text_pieces lexes List.mem_cons_self rfl (by rfl)⟩

/-- Digits with a sign in front are read as a code point, although they are no four digits. -/
theorem not_tokenize_text_pieces : ReadsAsText "\"\\u+041\"" "A" ∧ ¬ ∃ pieces : List TextPiece,
    "\"\\u+041\"".toList = '"' :: (pieces.flatMap (·.1) ++ ['"']) ∧ ∀ piece ∈ pieces, Denotes piece.1 piece.2 := by
  refine ⟨@readsAsText_of_readLexeme '"' "\\u+041\"".toList _ (by decide) (by decide) (by rfl), ?_⟩
  rintro ⟨pieces, isText, denote⟩
  have areCharacters : pieces.flatMap (·.1) = ['\\', 'u', '+', '0', '4', '1'] :=
    (List.append_cancel_right (List.cons.inj isText).2).symm
  cases pieces with
  | nil => cases areCharacters
  | cons piece pieces =>
    obtain ⟨text, character⟩ := piece
    have denotes : Denotes text character := denote _ List.mem_cons_self
    rw [List.flatMap_cons] at areCharacters
    cases denotes with
    | plain isPlain =>
      obtain ⟨rfl, _⟩ := List.cons.inj areCharacters
      exact isPlain (by decide)
    | escape isEscape =>
      obtain ⟨rfl, _⟩ := List.cons.inj (List.cons.inj areCharacters).2
      exact absurd (Lexer.escape?_eq_some_iff.2 isEscape) nofun
    | point isFirst =>
      obtain ⟨rfl, _⟩ := List.cons.inj (List.cons.inj (List.cons.inj areCharacters).2).2
      exact Lexer.not_isHexDigitOf_plus _ isFirst

end Snippet
