import Snippet.Proofs.Source.Break

/-!
Every lexeme without problems is a token that is read from its characters alone: the same token is read of them in front
of a blank and at the end of a text.
-/

namespace Snippet.Lexer

open Text

/-- Whether a lexeme is a token, which is read from its characters alone. -/
def LexemeAlone (first : Char) (rest : List Char) (offset : Nat) : Prop :=
  ∃ (token : Token) (used left : List Char), rest = used ++ left ∧
    readLexeme first rest offset = .token token offset ⟨left, offset + byteSize (first :: used)⟩ ∧
    ∀ (other : List Char) (offset' : Nat), AtBreak other →
      readLexeme first (used ++ other) offset' = .token token offset' ⟨other, offset' + byteSize (first :: used)⟩

/-- A lexeme that its first characters announce is read alone if its reader reads alone. -/
theorem LexemeAlone.of_readsAlone {first : Char} {rest : List Char} {offset : Nat} {read : Cursor → Reading}
    (announced : readLexeme first rest offset = read ⟨first :: rest, offset⟩)
    {token : Token} {used : List Char} (reaches : (Cursor.mk (first :: rest) offset).Reaches used
      (read ⟨first :: rest, offset⟩).cursor)
    (takes : (read ⟨first :: rest, offset⟩).cursor.rest.length ≤ rest.length)
    (isToken : read ⟨first :: rest, offset⟩ = .token token offset (read ⟨first :: rest, offset⟩).cursor)
    (alone : ReadsAlone read used token)
    (again : ∀ (used' other : List Char) (offset' : Nat), used = first :: used' → AtBreak other →
      readLexeme first (used' ++ other) offset' = read ⟨first :: (used' ++ other), offset'⟩) :
    LexemeAlone first rest offset := by
  obtain ⟨isRest, isOffset⟩ := reaches
  cases used with
  | nil =>
      have isRest : first :: rest = (read ⟨first :: rest, offset⟩).cursor.rest := isRest
      rw [← isRest, List.length_cons] at takes
      exact absurd takes (Nat.not_succ_le_self _)
  | cons character used =>
      obtain ⟨same, isUsed⟩ : first = character ∧ rest = used ++ (read ⟨first :: rest, offset⟩).cursor.rest :=
        List.cons.inj isRest
      subst same
      refine ⟨token, used, _, isUsed, ?_, fun other offset' stops => ?_⟩
      · have whole : (read ⟨first :: rest, offset⟩).cursor =
            ⟨(read ⟨first :: rest, offset⟩).cursor.rest, offset + byteSize (first :: used)⟩ := by
          rw [← isOffset]
        exact announced.trans (isToken.trans (congrArg (Reading.token token offset) whole))
      · rw [again used other offset' rfl stops]
        exact alone other offset' stops

theorem readLexeme_word {first : Char} (starts : startsName first = true) (rest : List Char) (offset : Nat) :
    readLexeme first rest offset = readWord ⟨first :: rest, offset⟩ := by
  have never := Piece.ne_of_startsName starts
  have noNumber : startsNumber first rest.head? = false := by
    rw [startsNumber, Piece.not_isDigit_of_startsName starts, beq_eq_false_iff_ne.2 (never '.' rfl)]
    rfl
  simp [readLexeme, noNumber, never '"' rfl, never '@' rfl, never '\'' rfl, starts]

theorem wordAlone {first : Char} (starts : startsName first = true) (rest : List Char) (offset : Nat) :
    LexemeAlone first rest offset := by
  obtain ⟨token, used, reaches, isToken, alone⟩ := ReadsAlone.of_beside ⟨first :: rest, offset⟩
    (fun cursor => ⟨_, cursor.reaches_skip continuesName⟩)
    fun left' second stops beside => readWord_beside stops beside (Nat.le_refl _)
  exact .of_readsAlone (readLexeme_word starts rest offset) reaches
    (length_skip_cons_le first rest offset continuesName (by simp [continuesName, starts])) isToken alone
    fun used' other offset' _ _ => readLexeme_word starts (used' ++ other) offset'

theorem readLexeme_number {first : Char} {rest : List Char} (starts : startsNumber first rest.head? = true)
    (offset : Nat) : readLexeme first rest offset = readNumber ⟨first :: rest, offset⟩ := by
  rw [readLexeme, if_pos starts]

/-- A number that starts with a point takes the digit behind it. -/
theorem length_readNumber_point_le {rest : List Char} (starts : startsNumber '.' rest.head? = true) (offset : Nat) :
    (readNumber ⟨'.' :: rest, offset⟩).cursor.rest.length + 1 ≤ rest.length := by
  have isFraction : startsFraction ('.' :: rest) = true := by
    rw [startsFraction, List.getElem?_cons_succ, List.getElem?_cons_zero, ← List.head?_eq_getElem?]
    exact starts
  have taken := length_digits_le ⟨'.' :: rest, offset⟩ (Bool.and_eq_true_iff.1 isFraction).2
  have stays : (Cursor.mk ('.' :: rest) offset).skip isDigitOrGap = ⟨'.' :: rest, offset⟩ := rfl
  have exponent := length_readExponent_le (readFraction (digitsAt ⟨'.' :: rest, offset⟩) ⟨'.' :: rest, offset⟩)
  rw [readFraction_eq, if_pos isFraction] at exponent
  have numeral := length_readDecimal_le_numeral ⟨'.' :: rest, offset⟩
  rw [readNumeral, stays, readFraction_eq, if_pos isFraction] at numeral
  have isDecimal : readNumber ⟨'.' :: rest, offset⟩ = readDecimal ⟨'.' :: rest, offset⟩ := by
    rw [readNumber_eq]
    rfl
  rw [isDecimal]
  have taken : ((Cursor.drop ⟨'.' :: rest, offset⟩ 1).skip isDigitOrGap).rest.length + 1 + 1 ≤ rest.length + 1 := taken
  exact Nat.le_trans (Nat.succ_le_succ (Nat.le_trans numeral exponent)) (Nat.le_of_succ_le_succ taken)

theorem numberAlone {first : Char} {rest : List Char} {offset : Nat} (starts : startsNumber first rest.head? = true)
    (clean : (readNumber ⟨first :: rest, offset⟩).IsClean) : LexemeAlone first rest offset := by
  have takes := length_readNumber_le first rest offset starts
  obtain ⟨token, used, reaches, isToken, alone⟩ := ReadsAlone.of_beside ⟨first :: rest, offset⟩ readNumber_reaches
    fun left' second stops beside => readNumber_beside stops beside clean (Nat.le_refl _) (Nat.lt_succ_of_le takes)
  refine .of_readsAlone (readLexeme_number starts offset) reaches takes isToken alone
    fun used' other offset' isUsed _ => readLexeme_number ?_ offset'
  by_cases isDigit : first.isDigit = true
  · rw [startsNumber, isDigit, Bool.true_or]
  · obtain ⟨isPoint, isFraction⟩ := Bool.and_eq_true_iff.1 ((Bool.or_eq_true_iff.1 starts).resolve_left isDigit)
    obtain rfl := beq_iff_eq.1 isPoint
    have taken := length_readNumber_point_le starts offset
    have isRest : '.' :: rest = '.' :: used' ++ (readNumber ⟨'.' :: rest, offset⟩).cursor.rest := isUsed ▸ reaches.1
    cases used' with
    | nil =>
        have isRest : rest = (readNumber ⟨'.' :: rest, offset⟩).cursor.rest := (List.cons.inj isRest).2
        rw [← isRest] at taken
        exact absurd taken (Nat.not_succ_le_self _)
    | cons digit used' =>
        rw [(List.cons.inj isRest).2] at starts
        exact starts

theorem findings_reading {literal : Literal} {start : Nat} (clean : (literal.reading start).IsClean) :
    literal.findings = [] := by
  cases isFound : literal.findings with
  | nil => rfl
  | cons finding others =>
      rw [Reading.IsClean, Literal.reading, isFound] at clean
      cases clean

theorem readLexeme_text (rest : List Char) (offset : Nat) :
    readLexeme '"' rest offset = (readText offset rest (offset + 1)).reading offset := by
  simp [readLexeme, startsNumber, Cursor.drop, byteSize]
  rfl

theorem textAlone {rest : List Char} {offset : Nat} (clean : (readLexeme '"' rest offset).IsClean) :
    LexemeAlone '"' rest offset := by
  rw [readLexeme_text] at clean
  obtain ⟨used, isRest, reads⟩ := readText_local offset rest (offset + 1) (findings_reading clean)
  have alone (other : List Char) (offset' : Nat) : readLexeme '"' (used ++ other) offset' =
      .token (.text (String.ofList (readText offset rest (offset + 1)).value)) offset'
        ⟨other, offset' + byteSize ('"' :: used)⟩ := by
    rw [readLexeme_text, reads, Cursor.byteSize_cons, ← Nat.add_assoc]
    rfl
  refine ⟨_, used, _, isRest, ?_, fun other offset' _ => alone other offset'⟩
  have whole := alone (readText offset rest (offset + 1)).cursor.rest offset
  rwa [← isRest] at whole

theorem readLexeme_verbatim (rest : List Char) (offset : Nat) :
    readLexeme '@' ('"' :: rest) offset = (readVerbatim offset rest (offset + 2)).reading offset := by
  simp [readLexeme, startsNumber]

theorem verbatimAlone {rest : List Char} {offset : Nat} (clean : (readLexeme '@' ('"' :: rest) offset).IsClean) :
    LexemeAlone '@' ('"' :: rest) offset := by
  rw [readLexeme_verbatim] at clean
  obtain ⟨used, isRest, ends, reads⟩ := readVerbatim_local offset rest (offset + 2) (findings_reading clean)
  have alone (other : List Char) (offset' : Nat) (noQuote : other.head? ≠ some '"') :
      readLexeme '@' ('"' :: used ++ other) offset' =
        .token (.text (String.ofList (readVerbatim offset rest (offset + 2)).value)) offset'
          ⟨other, offset' + byteSize ('@' :: '"' :: used)⟩ := by
    rw [List.cons_append, readLexeme_verbatim, reads _ _ _ noQuote, Cursor.byteSize_cons, Cursor.byteSize_cons,
      ← Nat.add_assoc, ← Nat.add_assoc]
    rfl
  refine ⟨_, '"' :: used, _, congrArg ('"' :: ·) isRest, ?_, fun other offset' stops => alone other offset' ?_⟩
  · have whole := alone _ offset ends
    rwa [List.cons_append, ← isRest] at whole
  · intro isQuote
    obtain ⟨behind, isOther⟩ := List.head?_eq_some_iff.1 isQuote
    exact stops.head_ne isOther '"' rfl rfl

/-- No symbol of two characters has a blank in it. -/
theorem pair?_blank (first : Char) {next : Char} (isBlank : isLayout next = true) : Symbol.pair? first next = none := by
  obtain rfl | rfl | rfl | rfl := isLayout_cases isBlank <;>
  · unfold Symbol.pair?
    split <;> first | rfl | contradiction

/-- A symbol is a lexeme where nothing else starts. -/
theorem readLexeme_symbol {first : Char} (rest : List Char) {sign : Symbol} {size : Nat}
    (noNumber : startsNumber first rest.head? = false) (noText : first ≠ '"')
    (noVerbatim : ¬ (first = '@' ∧ rest.head? = some '"')) (noCharacter : first ≠ '\'') (noName : startsName first = false)
    (isSymbol : symbol? first rest.head? = some (sign, size)) (offset : Nat) :
    readLexeme first rest offset = .token (.symbol sign) offset (Cursor.drop ⟨first :: rest, offset⟩ size) := by
  simp [readLexeme, noNumber, noText, noVerbatim, noCharacter, noName, isSymbol]

theorem symbolAlone {first : Char} {rest : List Char} {offset : Nat} {sign : Symbol} {size : Nat}
    (noNumber : startsNumber first rest.head? = false) (noText : first ≠ '"')
    (noVerbatim : ¬ (first = '@' ∧ rest.head? = some '"')) (noCharacter : first ≠ '\'') (noName : startsName first = false)
    (isSymbol : symbol? first rest.head? = some (sign, size)) : LexemeAlone first rest offset := by
  have reads := readLexeme_symbol rest noNumber noText noVerbatim noCharacter noName isSymbol offset
  unfold symbol? at isSymbol
  split at isSymbol
  · next found isPair =>
    cases isSymbol
    obtain ⟨second, isSecond, pair⟩ := Option.bind_eq_some_iff.1 isPair
    obtain ⟨left, rfl⟩ := List.head?_eq_some_iff.1 isSecond
    refine ⟨.symbol sign, [second], left, rfl, reads, fun other offset' _ => ?_⟩
    have isSymbol : symbol? first ([second] ++ other).head? = some (sign, 2) := by simp [symbol?, pair]
    exact readLexeme_symbol (second :: other) noNumber noText noVerbatim noCharacter noName isSymbol offset'
  · obtain ⟨found, isSingle, same⟩ := Option.map_eq_some_iff.1 isSymbol
    cases same
    refine ⟨.symbol sign, [], rest, rfl, reads, fun other offset' stops => ?_⟩
    rw [List.nil_append]
    have isSymbol : symbol? first other.head? = some (sign, 1) := by
      cases other with
      | nil => simp [symbol?, isSingle]
      | cons next other => simp [symbol?, isSingle, pair?_blank first (show isLayout next = true from stops)]
    refine readLexeme_symbol other ?_ noText ?_ noCharacter noName isSymbol offset'
    · rw [startsNumber, stops.any_eq_false (by decide), Bool.and_false, Bool.or_false]
      exact (Bool.or_eq_false_iff.1 noNumber).1
    · rintro ⟨-, isQuote⟩
      obtain ⟨behind, isOther⟩ := List.head?_eq_some_iff.1 isQuote
      exact stops.head_ne isOther '"' rfl rfl

/-- A lexeme without problems is a token, which is read from its characters alone. -/
theorem readLexeme_alone {first : Char} {rest : List Char} {offset : Nat}
    (clean : (readLexeme first rest offset).IsClean) : LexemeAlone first rest offset := by
  by_cases isNumber : startsNumber first rest.head? = true
  · rw [readLexeme_number isNumber] at clean
    exact numberAlone isNumber clean
  by_cases isText : first = '"'
  · subst isText
    exact textAlone clean
  by_cases isVerbatim : first = '@' ∧ rest.head? = some '"'
  · obtain ⟨rfl, isQuote⟩ := isVerbatim
    cases rest with
    | nil => cases isQuote
    | cons quote rest =>
        cases isQuote
        exact verbatimAlone clean
  by_cases isCharacter : first = '\''
  · simp only [readLexeme, if_neg isNumber, if_neg isText, if_neg isVerbatim, if_pos isCharacter] at clean
    cases clean
  by_cases isName : startsName first = true
  · exact wordAlone isName rest offset
  cases isSymbol : symbol? first rest.head? with
  | some found =>
      exact symbolAlone (Bool.eq_false_iff.2 isNumber) isText isVerbatim isCharacter (Bool.eq_false_iff.2 isName) isSymbol
  | none =>
      simp only [readLexeme, if_neg isNumber, if_neg isText, if_neg isVerbatim, if_neg isCharacter, if_neg isName,
        isSymbol] at clean
      split at clean <;> cases clean

end Snippet.Lexer
