import Snippet.Source.Scan

/-!
Texts put together from words, marks and blanks. Main statement: such a text is read as its words and
marks, whatever stands behind it.
-/

namespace Snippet

open Text

/-! ### Lexemes of a text -/

theorem Lexeme.mem_findings {lexemes : List Lexeme} {finding : Finding} :
    finding ∈ lexemes.filterMap finding? ↔ .finding finding ∈ lexemes := by
  refine List.mem_filterMap.trans ⟨fun ⟨lexeme, member, isFinding⟩ => ?_, fun member => ⟨_, member, rfl⟩⟩
  cases lexeme with
  | token placed => cases isFinding
  | finding found =>
    cases isFinding
    exact member

theorem Lexeme.mem_tokens {lexemes : List Lexeme} {placed : PlacedToken} :
    placed ∈ lexemes.filterMap token? ↔ .token placed ∈ lexemes := by
  refine List.mem_filterMap.trans ⟨fun ⟨lexeme, member, isToken⟩ => ?_, fun member => ⟨_, member, rfl⟩⟩
  cases lexeme with
  | token found =>
    cases isToken
    exact member
  | finding found => cases isToken

/-- A text has tokens if no lexeme of it is a problem. -/
theorem tokenize_eq_ok_iff {source : String} {tokens : List PlacedToken} : tokenize source = .ok tokens ↔
    (Lexer.lexemes ⟨source.toList, 0⟩).filterMap Lexeme.finding? = [] ∧
      (Lexer.lexemes ⟨source.toList, 0⟩).filterMap Lexeme.token? = tokens := by
  unfold tokenize
  dsimp only
  split
  · next clean => simp [clean]
  · next isProblem => exact ⟨nofun, fun clean => (isProblem clean.1).elim⟩

/-- A text has no tokens if there are problems among its lexemes. -/
theorem tokenize_eq_error_iff {source : String} {findings : List Finding} : tokenize source = .error findings ↔
    (Lexer.lexemes ⟨source.toList, 0⟩).filterMap Lexeme.finding? = findings ∧ findings ≠ [] := by
  unfold tokenize
  dsimp only
  split
  · next clean => simp +contextual [clean, eq_comm]
  · next isProblem =>
    rw [Except.error.injEq]
    exact ⟨fun same => ⟨same, same ▸ isProblem⟩, And.left⟩

/-! ### Pieces -/

/-- Whether a text is a name or a reserved word. -/
def isWord (text : String) : Bool :=
  match text.toList with
  | [] => false
  | first :: rest => startsName first && rest.all continuesName

/-- Whether a text is a name. -/
def isIdentifier (text : String) : Bool := isWord text && (Keyword.ofSpelling? text).isNone

theorem isWord_of_isIdentifier {text : String} (identifier : isIdentifier text = true) :
    isWord text = true := (Bool.and_eq_true_iff.1 identifier).1

/-- A piece of a text. -/
inductive Piece where
  | word (text : String)
  | mark (sign : Symbol)
  | blank (character : Char)

namespace Piece

/-- The characters of a piece. -/
def text : Piece → List Char
  | word text => text.toList
  | mark sign => sign.spelling.toList
  | blank character => [character]

/-- The token as which a piece is read. -/
def token? : Piece → Option Token
  | word text => some (Lexer.wordToken text)
  | mark sign => some (.symbol sign)
  | blank _ => none

/-- Whether a mark of one character is read by itself in front of a character. -/
def standsAlone (sign : Symbol) (first : Char) (next : Option Char) : Bool :=
  Lexer.symbol? first next == some (sign, 1) && !Lexer.startsNumber first next && first != '/'

/-- Whether a piece is read by itself in front of a character or at the end of a text. -/
def stands (piece : Piece) (next : Option Char) : Bool :=
  match piece with
  | word text => isWord text && !next.any continuesName
  | mark sign =>
    match sign.spelling.toList with
    | [first] => standsAlone sign first next
    | _ => false
  | blank character => isLayout character

/-- The characters of pieces. -/
def texts (pieces : List Piece) : List Char := pieces.flatMap text

/-- The tokens as which pieces are read. -/
def tokens (pieces : List Piece) : List Token := pieces.filterMap token?

/-- Whether all pieces are read by themselves in front of a character or at the end of a text. -/
def allStand : List Piece → Option Char → Bool
  | [], _ => true
  | piece :: rest, next => piece.stands ((texts rest).head?.or next) && allStand rest next

@[simp]
theorem texts_nil : texts [] = [] := rfl

@[simp]
theorem texts_cons (piece : Piece) (rest : List Piece) : texts (piece :: rest) = piece.text ++ texts rest := rfl

@[simp]
theorem texts_append (first second : List Piece) : texts (first ++ second) = texts first ++ texts second :=
  List.flatMap_append

@[simp]
theorem tokens_append (first second : List Piece) : tokens (first ++ second) = tokens first ++ tokens second :=
  List.filterMap_append

theorem allStand_append (first second : List Piece) (next : Option Char) :
    allStand (first ++ second) next =
      (allStand first ((texts second).head?.or next) && allStand second next) := by
  induction first with
  | nil => rfl
  | cons piece rest ih =>
      simp only [List.cons_append, allStand, ih, texts_append, List.head?_append, Option.or_assoc, Bool.and_assoc]

/-! ### Classes of characters -/

theorem not_isDigit_of_startsName {character : Char} (starts : startsName character = true) :
    character.isDigit = false := by
  refine Bool.eq_false_iff.2 fun digit => ?_
  simp only [Char.isDigit, Bool.and_eq_true, decide_eq_true_eq] at digit
  have low : '0'.toNat ≤ character.toNat := digit.1
  have high : character.toNat ≤ '9'.toNat := digit.2
  rw [startsName, isAlphabetic, if_pos (Nat.lt_of_le_of_lt high (by decide))] at starts
  rcases Bool.or_eq_true_iff.1 starts with isUnderscore | isLetter
  · rw [beq_iff_eq.1 isUnderscore] at high
    exact absurd high (by decide)
  · rcases Bool.or_eq_true_iff.1 isLetter with upper | lower
    · have upper : 'A'.toNat ≤ character.toNat := (of_decide_eq_true upper).1
      exact absurd (Nat.le_trans upper high) (by decide)
    · have lower : 'a'.toNat ≤ character.toNat := of_decide_eq_true (Bool.and_eq_true_iff.1 lower).1
      exact absurd (Nat.le_trans lower high) (by decide)

theorem ne_of_startsName {character : Char} (starts : startsName character = true) (other : Char)
    (never : startsName other = false) : character ≠ other := by
  rintro rfl
  rw [starts] at never
  cases never

theorem not_isLayout_of_startsName {character : Char} (starts : startsName character = true) :
    isLayout character = false := by
  have never := ne_of_startsName starts
  simp [isLayout, never ' ' rfl, never '\t' rfl, never '\n' rfl, never '\r' rfl]

/-- A mark of one character is no part of a name, no blank and no quote. -/
theorem of_single? {character : Char} {sign : Symbol} (single : Symbol.single? character = some sign) :
    startsName character = false ∧ isLayout character = false ∧ character ≠ '"' ∧ character ≠ '@' ∧
      character ≠ '\'' := by
  unfold Symbol.single? at single
  split at single <;> first | decide | cases single

/-! ### Reading -/

/-- Whether characters are read as some tokens when a rest stands behind them. -/
def ReadAs (characters : List Char) (tokens : List Token) (rest : List Char) : Prop :=
  ∀ offset : Nat, ∃ (placed : List PlacedToken) (behind : Nat), placed.map (·.token) = tokens ∧
    Lexer.lexemes ⟨characters ++ rest, offset⟩ = placed.map Lexeme.token ++ Lexer.lexemes ⟨rest, behind⟩

theorem skipLayout_of_not_isLayout {first : Char} {rest : List Char} {offset : Nat}
    (solid : isLayout first = false) (noComment : first ≠ '/') :
    Lexer.skipLayout .blank (first :: rest) offset = (none, ⟨first :: rest, offset⟩) := by
  unfold Lexer.skipLayout
  split <;> simp_all

/-- A lexeme in front of which nothing is skipped is a token with what follows its end. -/
theorem lexemes_of_solid {first : Char} {rest : List Char} {offset : Nat} (solid : isLayout first = false)
    (noComment : first ≠ '/') {token : Token} {cursor : Cursor}
    (reads : Lexer.readLexeme first rest offset = .token token offset cursor) :
    Lexer.lexemes ⟨first :: rest, offset⟩ =
      Lexeme.token ⟨token, ⟨offset, cursor.offset⟩⟩ :: Lexer.lexemes cursor := by
  have skipped : Lexer.skipLayout .blank (first :: rest) offset = (none, ⟨first :: rest, offset⟩) :=
    skipLayout_of_not_isLayout solid noComment
  rw [Lexer.lexemes_of_cons skipped rfl, reads]
  rfl

/-- What is skipped in front of the lexemes does not matter. -/
theorem lexemes_congr {first second : Cursor} (same : Lexer.skipLayout .blank first.rest first.offset =
    Lexer.skipLayout .blank second.rest second.offset) : Lexer.lexemes first = Lexer.lexemes second := by
  cases left : (Lexer.skipLayout .blank second.rest second.offset).2.rest with
  | nil => rw [Lexer.lexemes_of_nil same left, Lexer.lexemes_of_nil rfl left]
  | cons next behind => rw [Lexer.lexemes_of_cons same left, Lexer.lexemes_of_cons rfl left]

theorem readAs_blank {character : Char} {rest : List Char} (isBlank : isLayout character = true) :
    ReadAs [character] [] rest := by
  intro offset
  have noComment : character ≠ '/' := by
    rintro rfl
    cases isBlank
  refine ⟨[], offset + 1, rfl, ?_⟩
  refine lexemes_congr ?_
  show Lexer.skipLayout .blank (character :: rest) offset = Lexer.skipLayout .blank rest (offset + 1)
  rw [Lexer.skipLayout] <;> simp_all

theorem readAs_word {word : String} {rest : List Char} (isWord : isWord word = true)
    (stops : rest.head?.any continuesName = false) :
    ReadAs word.toList [Lexer.wordToken word] rest := by
  intro offset
  unfold Snippet.isWord at isWord
  split at isWord
  · cases isWord
  · next first others spelled =>
    obtain ⟨starts, goesOn⟩ := Bool.and_eq_true_iff.1 isWord
    have never := ne_of_startsName starts
    have all : ∀ character ∈ first :: others, continuesName character = true := by
      refine List.forall_mem_cons.2 ⟨?_, List.all_eq_true.1 goesOn⟩
      rw [continuesName, starts, Bool.true_or, Bool.true_or]
    have stays : rest.takeWhile continuesName = [] ∧ rest.dropWhile continuesName = rest := by
      cases rest with
      | nil => exact ⟨rfl, rfl⟩
      | cons next rest =>
        have ends : continuesName next = false := stops
        simp [ends]
    have run : (Cursor.mk (first :: (others ++ rest)) offset).run continuesName = first :: others := by
      rw [Cursor.run, ← List.cons_append, List.takeWhile_append_of_pos all, stays.1, List.append_nil]
    have skip : (Cursor.mk (first :: (others ++ rest)) offset).skip continuesName =
        ⟨rest, offset + byteSize (first :: others)⟩ := by
      rw [Cursor.skip, run, ← List.cons_append, List.dropWhile_append_of_pos all, stays.2]
    have reads : Lexer.readLexeme first (others ++ rest) offset =
        .token (Lexer.wordToken word) offset ⟨rest, offset + byteSize (first :: others)⟩ := by
      have noNumber : Lexer.startsNumber first (others ++ rest).head? = false := by
        rw [Lexer.startsNumber, not_isDigit_of_startsName starts, beq_eq_false_iff_ne.2 (never '.' rfl)]
        rfl
      simp only [Lexer.readLexeme, noNumber, never '"' rfl, never '@' rfl, never '\'' rfl, starts, Lexer.readWord,
        run, skip, ← spelled, String.ofList_toList]
      simp
    have solid := lexemes_of_solid (not_isLayout_of_startsName starts) (never '/' rfl) reads
    let behind := offset + byteSize (first :: others)
    refine ⟨[⟨Lexer.wordToken word, ⟨offset, behind⟩⟩], behind, rfl, ?_⟩
    rw [spelled, List.cons_append, solid]
    rfl

theorem readAs_mark {sign : Symbol} {first : Char} {rest : List Char}
    (alone : standsAlone sign first rest.head? = true) : ReadAs [first] [.symbol sign] rest := by
  intro offset
  simp only [standsAlone, Bool.and_eq_true, beq_iff_eq, Bool.not_eq_true', bne_iff_ne] at alone
  obtain ⟨⟨isSign, noNumber⟩, noComment⟩ := alone
  have single : Symbol.single? first = some sign := by
    unfold Lexer.symbol? at isSign
    split at isSign
    · cases isSign
    · obtain ⟨found, isFound, same⟩ := Option.map_eq_some_iff.1 isSign
      cases same
      exact isFound
  obtain ⟨noName, solid, noQuote, noVerbatim, noCharacter⟩ := of_single? single
  have reads : Lexer.readLexeme first rest offset =
      .token (.symbol sign) offset (Cursor.drop ⟨first :: rest, offset⟩ 1) := by
    simp only [Lexer.readLexeme, noNumber, noQuote, noVerbatim, noCharacter, noName, isSign]
    simp
  exact ⟨[⟨.symbol sign, ⟨offset, _⟩⟩], _, rfl, lexemes_of_solid solid noComment reads⟩

theorem readAs_piece {piece : Piece} {rest : List Char} (stands : piece.stands rest.head? = true) :
    ReadAs piece.text piece.token?.toList rest := by
  cases piece with
  | word text =>
      obtain ⟨isWord, stops⟩ := Bool.and_eq_true_iff.1 stands
      exact readAs_word isWord (by simpa using stops)
  | mark sign =>
      simp only [Piece.stands] at stands
      split at stands
      · next first spelled =>
        rw [text, spelled]
        exact readAs_mark stands
      · cases stands
  | blank character => exact readAs_blank stands

/-- Pieces that stand by themselves are read as their tokens, whatever stands behind them. -/
theorem readAs_texts {pieces : List Piece} {rest : List Char} (stand : allStand pieces rest.head? = true) :
    ReadAs (texts pieces) (tokens pieces) rest := by
  induction pieces with
  | nil => exact fun offset => ⟨[], offset, rfl, rfl⟩
  | cons piece others ih =>
      obtain ⟨stands, stand⟩ := Bool.and_eq_true_iff.1 stand
      intro offset
      rw [← List.head?_append] at stands
      obtain ⟨first, middle, isFirst, reads⟩ := readAs_piece stands offset
      obtain ⟨placed, behind, arePlaced, readOthers⟩ := ih stand middle
      refine ⟨first ++ placed, behind, ?_, ?_⟩
      · rw [List.map_append, isFirst, arePlaced]
        cases isToken : piece.token? with
        | none => simp [tokens, isToken]
        | some token => simp [tokens, isToken]
      · rw [texts_cons, List.append_assoc, reads, readOthers, List.map_append, List.append_assoc]

end Piece

/-! ### Whole texts -/

/-- The last lexeme is the end of the text. -/
theorem Lexer.lexemes_endOfFile (cursor : Cursor) : ∃ (front : List Lexeme) (span : Span),
    lexemes cursor = front ++ [.token ⟨.endOfFile, span⟩] := by
  induction cursor using lexemes.induct with
  | case1 cursor skipped left => exact ⟨_, _, lexemes_of_nil rfl left⟩
  | case2 cursor skipped first rest left reading ih =>
    obtain ⟨front, span, ends⟩ := ih
    rw [lexemes_of_cons rfl left, ends, ← List.append_assoc]
    exact ⟨_, _, rfl⟩

/-- If a text has tokens at all, then those of the pieces at its front come first, and the end of the
text comes last. -/
theorem Piece.tokens_of_tokenize {source : String} {pieces : List Piece} {rest : List Char}
    (begins : source.toList = texts pieces ++ rest) (stand : allStand pieces rest.head? = true)
    {placed : List PlacedToken} (read : tokenize source = .ok placed) :
    ∃ first behind : List PlacedToken, placed = first ++ behind ∧ first.map (·.token) = tokens pieces ∧
      behind.getLast?.map (·.token) = some .endOfFile := by
  obtain ⟨first, middle, isFirst, reads⟩ := readAs_texts stand 0
  obtain ⟨front, span, ends⟩ := Lexer.lexemes_endOfFile ⟨rest, middle⟩
  obtain ⟨_, rfl⟩ := tokenize_eq_ok_iff.1 read
  rw [begins, reads, ends]
  refine ⟨first, front.filterMap Lexeme.token? ++ [⟨.endOfFile, span⟩], ?_, isFirst, ?_⟩
  · have same : Lexeme.token? ∘ Lexeme.token = some := rfl
    simp [List.filterMap_append, List.filterMap_map, same, Lexeme.token?]
  · simp

end Snippet
