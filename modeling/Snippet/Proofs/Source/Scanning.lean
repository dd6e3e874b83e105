import Snippet.Proofs.Source.Boundary

/-!
Scanning by byte positions agrees with reading characters. The positions of a scan are those of cursors, but for those
between the bytes of a character that is not ASCII, over which the loops of comments and character literals step one by
one. Main statement: `tokenize_exact`, which says that a scan always ends, that it takes no slice off a boundary of
characters, and where the tokens and the problems of a text stand.
-/

namespace Snippet

open Text Lexer

namespace Bytes

variable {source : String} {cursor : Cursor} {character : Char} {rest : List Char} {offset : Nat}

/-- What is found, and the position behind it. -/
def outcome (reading : Reading) : List Lexeme × Nat := (reading.found, reading.cursor.offset)

/-! ### Layout -/

/-- Skipping from within layout on; a comment started at `low`. -/
def skipFrom (source : String) (low : Nat) : LayoutMode → Nat → Option (List Lexeme × Nat)
  | .blank, pos => skipLayout source pos
  | .line, pos => do
    let stop ← skipWhile source (· != '\n') pos
    goOn source low stop fun _ => skipLayout source stop
  | .block start, pos => do
    let (reports, stop) ← skipBlock source start pos
    let (others, stop) ← goOn source low stop fun _ => skipLayout source stop
    some (reports ++ others, stop)

theorem skipFrom_line {low pos : Nat} {code : Char} (isCode : byteAt? source pos = some code) (noBreak : code ≠ '\n') :
    skipFrom source low .line pos = skipFrom source low .line (pos + 1) := by
  have goesOn : (byteAt? source pos).any (· != '\n') = true := by
    rw [isCode]
    exact bne_iff_ne.2 noBreak
  rw [skipFrom, skipWhile, if_pos goesOn, goOn_eq (Nat.lt_succ_self pos) (inside_of_byteAt? isCode)]
  rfl

theorem skipFrom_block {low start pos : Nat}
    (noEnd : ¬ (byteAt? source pos = some '*' ∧ byteAt? source (pos + 1) = some '/')) :
    skipFrom source low (.block start) pos = skipFrom source low (.block start) (pos + 1) := by
  have step : skipBlock source start pos = skipBlock source start (pos + 1) := by
    rw [skipBlock]
    by_cases atEnd : source.utf8ByteSize ≤ pos + 1
    · rw [if_pos atEnd, skipBlock, if_pos (Nat.le_succ_of_le atEnd)]
    · rw [if_neg atEnd, if_neg noEnd, goOn_eq (Nat.lt_succ_self pos) (by omega)]
  rw [skipFrom, step]
  rfl

theorem skipLayout_end (isIn : Cursor.IsIn ⟨[], offset⟩ source) : skipLayout source offset = some ([], offset) := by
  have isEnd : byteAt? source offset = none := byteAt?_end isIn 0
  rw [skipLayout, isEnd]
  simp

/-- Layout is skipped alike. -/
theorem skipFrom_eq (low : Nat) (mode : LayoutMode) (characters : List Char) (offset : Nat)
    (isIn : Cursor.IsIn ⟨characters, offset⟩ source) (isBehind : mode ≠ .blank → low < offset) :
    skipFrom source low mode offset =
      some (((Lexer.skipLayout mode characters offset).1.map Lexeme.finding).toList,
        (Lexer.skipLayout mode characters offset).2.offset) := by
  have size : offset + byteSize characters = source.utf8ByteSize := isIn.offset_eq
  have onward {low stop : Nat} (isFurther : low < stop) (within : stop ≤ source.utf8ByteSize) :
      (goOn source low stop fun _ => skipLayout source stop) = skipLayout source stop :=
    goOn_eq isFurther (Nat.lt_of_lt_of_le isFurther within) _
  fun_induction Lexer.skipLayout mode characters offset generalizing low with
  | case1 offset => exact skipLayout_end isIn
  | case2 rest offset ih =>
    have behind := isIn.next rfl
    have first : byteAt? source offset = some '/' := byteAt?_ascii isIn rfl
    have second : byteAt? source (offset + 1) = some '/' := byteAt?_ascii behind rfl
    have comment := ih offset (behind.next rfl) (fun _ => by omega) (behind.next rfl).offset_eq
    rw [← comment, ← skipFrom_line second (by decide), ← skipFrom_line first (by decide), skipFrom, skipLayout, first,
      second]
    rfl
  | case3 rest offset ih =>
    have behind := isIn.next rfl
    have first : byteAt? source offset = some '/' := byteAt?_ascii isIn rfl
    have second : byteAt? source (offset + 1) = some '*' := byteAt?_ascii behind rfl
    have comment := ih offset (behind.next rfl) (fun _ => by omega) (behind.next rfl).offset_eq
    rw [← comment, skipFrom, skipLayout, first, second]
    rfl
  | case4 character rest offset _ _ isBlank ih =>
    have behind := isIn.next (utf8Size_of_isLayout isBlank)
    have others := ih low behind (fun noBlank => absurd rfl noBlank) behind.offset_eq
    rw [← others, skipFrom, skipLayout, byteAt?_ascii isIn (utf8Size_of_isLayout isBlank), Option.any_some,
      if_pos isBlank, goOn_behind isIn (Nat.lt_succ_self offset)]
    rfl
  | case5 first rest offset noLine noBlock notBlank =>
    have noBlank : (byteAt? source offset).any isLayout = false := by
      rw [any_byteAt? isIn fun _ => utf8Size_of_isLayout]
      exact Bool.eq_false_iff.2 notBlank
    have noComment {mark : Char} (isAscii : mark.utf8Size = 1) (never : ∀ behind, first = '/' → rest = mark :: behind → False) :
        ¬ (byteAt? source offset = some '/' ∧ byteAt? source (offset + 1) = some mark) := by
      rintro ⟨isSlash, isMark⟩
      have isSlash : first = '/' := Option.some.inj ((byteAt?_eq_some_iff isIn rfl).1 isSlash)
      subst isSlash
      obtain ⟨behind, isRest⟩ := List.head?_eq_some_iff.1
        ((byteAt?_eq_some_iff (isIn.next rfl) isAscii).1 isMark)
      exact never behind rfl isRest
    rw [skipFrom, skipLayout, noBlank, if_neg Bool.false_ne_true, if_neg (noComment rfl noLine),
      if_neg (noComment rfl noBlock)]
    rfl
  | case6 offset =>
    have isEnd : byteAt? source offset = none := byteAt?_end isIn 0
    have stops : skipWhile source (· != '\n') offset = some offset := by
      rw [skipWhile, isEnd]
      rfl
    rw [skipFrom, stops]
    exact (onward (isBehind (by simp)) (Nat.le_of_eq size)).trans (skipLayout_end isIn)
  | case7 rest offset ih =>
    have behind := isIn.next rfl
    have first : byteAt? source offset = some '\n' := byteAt?_ascii isIn rfl
    have stops : skipWhile source (· != '\n') offset = some offset := by
      rw [skipWhile, first]
      rfl
    have blank : skipLayout source offset = skipLayout source (offset + 1) := by
      rw [skipLayout, first]
      exact goOn_behind isIn (Nat.lt_succ_self offset) _
    have others := ih low behind (fun noBlank => absurd rfl noBlank) behind.offset_eq
    rw [← others, skipFrom, skipFrom, stops]
    exact (onward (isBehind (by simp)) (by omega)).trans blank
  | case8 character rest offset noBreak ih =>
    have behind := isIn.take [character]
    have isFurther : low < offset + character.utf8Size := Nat.lt_add_right _ (isBehind (by simp))
    rw [← ih low behind (fun _ => isFurther) behind.offset_eq]
    refine step_behind isIn (fun isAscii => skipFrom_line (byteAt?_ascii isIn isAscii) noBreak) fun pos code isCode isWide => ?_
    refine skipFrom_line isCode ?_
    rintro rfl
    exact isWide rfl
  | case9 start offset =>
    have isEnd : offset = source.utf8ByteSize := size
    have closes : skipBlock source start offset = some (problem .unterminatedComment start offset) := by
      rw [skipBlock, if_pos (by omega), ← isEnd]
    rw [skipFrom, closes]
    show (goOn source low offset fun _ => skipLayout source offset).bind _ = _
    rw [onward (isBehind (by simp)) (Nat.le_of_eq size), skipLayout_end isIn]
    rfl
  | case10 start rest offset ih =>
    have behind := isIn.next rfl
    have first : byteAt? source offset = some '*' := byteAt?_ascii isIn rfl
    have second : byteAt? source (offset + 1) = some '/' := byteAt?_ascii behind rfl
    have size : offset + 1 + (1 + byteSize rest) = source.utf8ByteSize := behind.offset_eq
    have inside : ¬ source.utf8ByteSize ≤ offset + 1 := by omega
    have closes : skipBlock source start offset = some ([], offset + 2) := by
      rw [skipBlock, if_neg inside, if_pos ⟨first, second⟩]
    have others := ih low (behind.next rfl) (fun noBlank => absurd rfl noBlank) (behind.next rfl).offset_eq
    have isFurther : low < offset + 2 := Nat.lt_add_right 2 (isBehind (by simp))
    rw [← others, skipFrom, skipFrom, closes]
    show (goOn source low (offset + 2) fun _ => skipLayout source (offset + 2)).bind _ = skipLayout source (offset + 2)
    rw [onward isFurther (by omega)]
    cases skipLayout source (offset + 2) <;> rfl
  | case11 start character rest offset noEnd ih =>
    have behind := isIn.take [character]
    have isFurther : low < offset + character.utf8Size := Nat.lt_add_right _ (isBehind (by simp))
    rw [← ih low behind (fun _ => isFurther) behind.offset_eq]
    refine step_behind isIn (fun isAscii => skipFrom_block ?_) fun pos code isCode isWide => skipFrom_block ?_
    · rintro ⟨isStar, isSlash⟩
      have isStar : character = '*' := Option.some.inj ((byteAt?_eq_some_iff isIn rfl).1 isStar)
      obtain ⟨behind, isRest⟩ := List.head?_eq_some_iff.1
        ((byteAt?_eq_some_iff (isIn.next isAscii) rfl).1 isSlash)
      exact noEnd behind isStar isRest
    · rintro ⟨isStar, _⟩
      rw [isCode] at isStar
      cases isStar
      exact isWide rfl

/-! ### Text literals -/

/-- What a literal says about the bytes of a text. -/
def Content.ofLiteral (literal : Literal) : Content := ⟨literal.value, literal.findings, literal.cursor.offset⟩

/-- Four digits are read as a slice of four bytes. -/
theorem readEscape_point {first second third fourth : Char} {point : Nat}
    (isIn : Cursor.IsIn ⟨'u' :: first :: second :: third :: fourth :: rest, offset⟩ source)
    (isPoint : escapedPoint? [first, second, third, fourth] = some point) :
    readEscape source offset = some (scalar? point, offset + 5) := by
  have four : byteSize [first, second, third, fourth] = 4 := byteSize_of_escapedPoint? isPoint
  have isSlice := slice?_append [first, second, third, fourth] (isIn.next rfl)
  rw [four] at isSlice
  rw [readEscape, next?_eq isIn, isSlice, Option.bind_some, isPoint]
  rfl

/-- No other slice of four bytes denotes a code point. -/
theorem readEscape_noPoint (isIn : Cursor.IsIn ⟨'u' :: rest, offset⟩ source) (noPoint : ∀ first second third fourth behind,
    rest = first :: second :: third :: fourth :: behind → escapedPoint? [first, second, third, fourth] = none) :
    readEscape source offset = some (none, offset + 1) := by
  have noSlice : (slice? source (offset + 1) (offset + 1 + 4)).bind escapedPoint? = none := by
    rw [Option.bind_eq_none_iff]
    intro text isSlice
    obtain ⟨behind, isRest, isStop⟩ := exists_of_slice? (isIn.next rfl) isSlice
    cases isPoint : escapedPoint? text with
    | none => rfl
    | some point =>
      have isFour : text.length = 4 := by
        rw [← byteSize_of_escapedPoint? isPoint]
        exact Nat.add_left_cancel isStop
      obtain ⟨first, second, third, fourth, rfl⟩ : ∃ first second third fourth, text = [first, second, third, fourth] := by
        rcases text with _ | ⟨first, _ | ⟨second, _ | ⟨third, _ | ⟨fourth, _ | ⟨fifth, others⟩⟩⟩⟩⟩ <;> simp at isFour ⊢
      rw [noPoint _ _ _ _ behind isRest] at isPoint
      cases isPoint
  rw [readEscape, next?_eq isIn]
  simp only [Option.bind_eq_bind, Option.bind_some, List.head?_cons, if_true, noSlice]

theorem readEscape_letter {letter : Char} (isIn : Cursor.IsIn ⟨letter :: rest, offset⟩ source) (noPoint : letter ≠ 'u') :
    readEscape source offset = some (escape? letter, offset + letter.utf8Size) := by
  rw [readEscape, next?_eq isIn]
  exact if_neg noPoint

theorem readEscape_end (isIn : Cursor.IsIn ⟨[], offset⟩ source) : readEscape source offset = some (none, offset) := by
  rw [readEscape, next?_eq isIn]
  rfl

/-- A backslash, what stands behind it, and the other characters of a literal. -/
theorem readText_escape {start behind : Nat} {escaped : Option Char} {content : Content}
    (isIn : Cursor.IsIn ⟨'\\' :: rest, offset⟩ source) (isEscape : readEscape source (offset + 1) = some (escaped, behind))
    (isFurther : offset < behind) (others : readText source start behind = some content) :
    readText source start offset = some (escaped.elim (content.report .badEscape offset behind) content.push) := by
  rw [readText, next?_eq isIn]
  show (readEscape source (offset + 1)).bind _ = _
  rw [isEscape]
  show (goOn source offset behind fun _ => readText source start behind).bind _ = _
  rw [goOn_behind isIn isFurther, others]
  cases escaped <;> rfl

/-- A literal in quotes is read alike. -/
theorem readText_eq (start : Nat) (characters : List Char) (offset : Nat)
    (isIn : Cursor.IsIn ⟨characters, offset⟩ source) :
    readText source start offset = some (.ofLiteral (Lexer.readText start characters offset)) := by
  fun_induction Lexer.readText start characters offset with
  | case1 offset =>
    rw [readText, next?_eq isIn]
    rfl
  | case2 first second third fourth rest offset point isPoint character isScalar ih =>
    have behind := isIn.take ['\\', 'u', first, second, third, fourth]
    rw [byteSize_of_point isPoint] at behind
    rw [readText_escape isIn (readEscape_point (isIn.next rfl) isPoint) (by omega) (ih behind), isScalar]
    rfl
  | case3 first second third fourth rest offset point isPoint noScalar ih =>
    have behind := isIn.take ['\\', 'u', first, second, third, fourth]
    rw [byteSize_of_point isPoint] at behind
    rw [readText_escape isIn (readEscape_point (isIn.next rfl) isPoint) (by omega) (ih behind), noScalar]
    rfl
  | case4 first second third fourth rest offset noPoint ih =>
    have isNone := readEscape_noPoint (isIn.next rfl) fun first' second' third' fourth' behind same => by
      cases same
      exact noPoint
    exact readText_escape isIn isNone (by omega) (ih ((isIn.next rfl).next rfl))
  | case5 letter rest offset noUnicode behind character isEscape ih =>
    have noPoint : letter ≠ 'u' := by
      rintro rfl
      cases isEscape
    have isLetter := readEscape_letter (isIn.next rfl) noPoint
    rw [readText_escape isIn isLetter (by omega) (ih ((isIn.next rfl).take [letter])), isEscape]
    rfl
  | case6 letter rest offset noUnicode behind noEscape ih =>
    have isLetter : readEscape source (offset + 1) = some (none, behind) := by
      by_cases isUnicode : letter = 'u'
      · subst isUnicode
        exact readEscape_noPoint (isIn.next rfl) fun first second third fourth others same =>
          (noUnicode first second third fourth others rfl same).elim
      · rw [readEscape_letter (isIn.next rfl) isUnicode, noEscape]
    exact readText_escape isIn isLetter (by omega) (ih ((isIn.next rfl).take [letter]))
  | case7 offset ih =>
    exact readText_escape isIn (readEscape_end (isIn.next rfl)) (Nat.lt_succ_self offset) (ih (isIn.next rfl))
  | case8 rest offset =>
    rw [readText, next?_eq isIn]
    rfl
  | case9 character rest offset noUnicode noEscape noSlash noQuote isBreak =>
    rw [readText, next?_eq isIn]
    show (if character = '"' then _ else if character = '\n' ∨ character = '\r' then _ else _) = _
    rw [if_neg noQuote, if_pos isBreak]
    rfl
  | case10 character rest offset noUnicode noEscape noSlash noQuote noBreak ih =>
    have noBackslash : character ≠ '\\' := by
      rintro rfl
      cases rest with
      | nil => exact noSlash rfl rfl
      | cons letter rest => exact noEscape letter rest rfl rfl
    have isFurther : offset < offset + character.utf8Size := Nat.lt_add_of_pos_right character.utf8Size_pos
    rw [readText, next?_eq isIn]
    show (if character = '"' then _ else if character = '\n' ∨ character = '\r' then _ else
      if character = '\\' then _ else (goOn source offset (offset + character.utf8Size) fun _ =>
        readText source start (offset + character.utf8Size)).bind _) = _
    rw [if_neg noQuote, if_neg noBreak, if_neg noBackslash, goOn_behind isIn isFurther, ih (isIn.take [character])]
    rfl

/-- A verbatim literal is read alike. -/
theorem readVerbatim_eq (start : Nat) (characters : List Char) (offset : Nat)
    (isIn : Cursor.IsIn ⟨characters, offset⟩ source) :
    readVerbatim source start offset = some (.ofLiteral (Lexer.readVerbatim start characters offset)) := by
  fun_induction Lexer.readVerbatim start characters offset with
  | case1 offset =>
    rw [readVerbatim, next?_eq isIn]
    rfl
  | case2 rest offset ih =>
    have behind := isIn.next rfl
    have isQuote : byteAt? source (offset + 1) = some '"' := byteAt?_ascii behind rfl
    rw [readVerbatim, next?_eq isIn]
    show (if byteAt? source (offset + 1) = some '"' then
      (goOn source offset (offset + 2) fun _ => readVerbatim source start (offset + 2)).bind _ else _) = _
    rw [if_pos isQuote, goOn_behind isIn (by omega), ih (behind.next rfl)]
    rfl
  | case3 rest offset single =>
    have noQuote : byteAt? source (offset + 1) ≠ some '"' := fun isQuote => by
      obtain ⟨behind, isRest⟩ := List.head?_eq_some_iff.1 ((byteAt?_eq_some_iff (isIn.next rfl) rfl).1 isQuote)
      exact single behind rfl isRest
    rw [readVerbatim, next?_eq isIn]
    exact if_neg noQuote
  | case4 character rest offset _ noQuote ih =>
    have isFurther : offset < offset + character.utf8Size := Nat.lt_add_of_pos_right character.utf8Size_pos
    rw [readVerbatim, next?_eq isIn]
    show (if character = '"' then _ else (goOn source offset (offset + character.utf8Size) fun _ =>
      readVerbatim source start (offset + character.utf8Size)).bind _) = _
    rw [if_neg noQuote, goOn_behind isIn isFurther, ih (isIn.take [character])]
    rfl

theorem skipCharacter_step {pos : Nat} {code : Char} (isCode : byteAt? source pos = some code)
    (noEnd : ¬ (code = '\'' ∨ code = '\n')) (noEscape : code ≠ '\\') :
    skipCharacter source pos = skipCharacter source (pos + 1) := by
  rw [skipCharacter, isCode]
  dsimp only
  rw [if_neg noEnd, if_neg noEscape, goOn_eq (Nat.lt_succ_self pos) (inside_of_byteAt? isCode)]

theorem skipCharacter_escape {pos : Nat} (isCode : byteAt? source pos = some '\\') :
    skipCharacter source pos = skipCharacter source (pos + 2) := by
  rw [skipCharacter, isCode]
  exact goOn_eq (by omega) (inside_of_byteAt? isCode) _

/-- A character literal ends alike. -/
theorem skipCharacter_eq (characters : List Char) (offset : Nat) (isIn : Cursor.IsIn ⟨characters, offset⟩ source) :
    ∃ stop, skipCharacter source offset = some stop ∧
      min (if byteAt? source stop = some '\'' then stop + 1 else stop) source.utf8ByteSize =
        (skipCharacterLiteral characters offset).offset := by
  have size (characters : List Char) (offset : Nat) (isIn : Cursor.IsIn ⟨characters, offset⟩ source) :
      offset + byteSize characters = source.utf8ByteSize := isIn.offset_eq
  fun_induction skipCharacterLiteral characters offset with
  | case1 offset =>
    have isEnd : byteAt? source offset = none := byteAt?_end isIn 0
    refine ⟨offset, by rw [skipCharacter, isEnd], ?_⟩
    rw [isEnd, if_neg (Option.some_ne_none _).symm]
    exact Nat.min_eq_left (Nat.le_of_eq (size [] offset isIn))
  | case2 escaped rest offset ih =>
    have behind := isIn.next rfl
    have steps : skipCharacter source (offset + 1 + 1) = skipCharacter source (offset + 1 + escaped.utf8Size) := by
      by_cases isAscii : escaped.utf8Size = 1
      · rw [isAscii]
      · refine step_over behind isAscii (fun pos code isCode isWide => ?_) escaped.utf8Size_pos
        refine skipCharacter_step isCode ?_ ?_
        · rintro (rfl | rfl) <;> exact isWide rfl
        · rintro rfl
          exact isWide rfl
    rw [skipCharacter_escape (byteAt?_ascii isIn rfl), steps]
    exact ih (behind.take [escaped])
  | case3 rest offset =>
    have isQuote : byteAt? source offset = some '\'' := byteAt?_ascii isIn rfl
    refine ⟨offset, by rw [skipCharacter, isQuote]; rfl, ?_⟩
    rw [if_pos isQuote]
    have inside := size rest (offset + 1) (isIn.next rfl)
    exact Nat.min_eq_left (by omega)
  | case4 rest offset =>
    have isBreak : byteAt? source offset = some '\n' := byteAt?_ascii isIn rfl
    refine ⟨offset, by rw [skipCharacter, isBreak]; rfl, ?_⟩
    rw [isBreak, if_neg (by decide)]
    have inside := size _ offset isIn
    exact Nat.min_eq_left (by omega)
  | case5 character rest offset noEscape noQuote noBreak ih =>
    have noEnd : ¬ (character = '\'' ∨ character = '\n') := not_or.2 ⟨noQuote, noBreak⟩
    by_cases isSlash : character = '\\'
    · subst isSlash
      cases rest with
      | cons escaped rest => exact (noEscape escaped rest rfl rfl).elim
      | nil =>
        have isEnd : byteAt? source (offset + 2) = none := byteAt?_end (isIn.next rfl) 1
        refine ⟨offset + 2, by rw [skipCharacter_escape (byteAt?_ascii isIn rfl), skipCharacter, isEnd], ?_⟩
        rw [isEnd, if_neg (Option.some_ne_none _).symm]
        have inside : offset + 1 = source.utf8ByteSize := size [] (offset + 1) (isIn.next rfl)
        exact (Nat.min_eq_right (by omega)).trans inside.symm
    · have steps := step_behind isIn (fun isAscii => skipCharacter_step (byteAt?_ascii isIn isAscii) noEnd isSlash)
        fun pos code isCode isWide => skipCharacter_step isCode
          (by rintro (rfl | rfl) <;> exact isWide rfl) (by rintro rfl; exact isWide rfl)
      rw [steps]
      exact ih (isIn.take [character])

/-! ### Numbers -/

/-- A run of ASCII characters is skipped alike. -/
theorem skipWhile_eq {inClass : Char → Bool} (ascii : ∀ character, inClass character = true → character.utf8Size = 1)
    (isIn : Cursor.IsIn ⟨rest, offset⟩ source) :
    skipWhile source inClass offset = some (Cursor.skip ⟨rest, offset⟩ inClass).offset := by
  induction rest generalizing offset with
  | nil =>
    rw [skipWhile, any_byteAt? isIn ascii]
    rfl
  | cons character rest ih =>
    rw [skipWhile, any_byteAt? isIn ascii, List.head?_cons, Option.any_some, Cursor.skip, Cursor.run,
      List.takeWhile_cons]
    cases isThere : inClass character with
    | false => rfl
    | true =>
      rw [if_pos rfl, if_pos rfl, goOn_behind isIn (Nat.lt_succ_self offset),
        ih (isIn.next (ascii character isThere)), Cursor.byteSize_cons, ascii character isThere, ← Nat.add_assoc]
      rfl

theorem isAscii_of_isDigit (character : Char) (isDigit : character.isDigit = true) : character.utf8Size = 1 := by
  simp only [Char.isDigit, Bool.and_eq_true, decide_eq_true_eq] at isDigit
  have high : character.toNat ≤ '9'.toNat := isDigit.2
  exact utf8Size_eq_one_iff.2 (Nat.le_trans high (by decide))

theorem isAscii_of_isDigitOrGap (character : Char) (isThere : isDigitOrGap character = true) :
    character.utf8Size = 1 := by
  rcases Bool.or_eq_true_iff.1 isThere with isDigit | isGap
  · exact isAscii_of_isDigit character isDigit
  · rw [beq_iff_eq.1 isGap]
    rfl

theorem isAscii_of_isHexDigit (character : Char) (isThere : isHexDigit character = true) : character.utf8Size = 1 :=
  utf8Size_of_hexDigit? isThere

theorem isAscii_of_isLongSuffix (suffix : Char) (isLong : isLongSuffix suffix = true) : suffix.utf8Size = 1 := by
  simp only [isLongSuffix, Bool.or_eq_true, beq_iff_eq] at isLong
  rcases isLong with rfl | rfl <;> rfl

theorem isAscii_of_isDoubleSuffix (suffix : Char) (isDouble : isDoubleSuffix suffix = true) : suffix.utf8Size = 1 := by
  simp only [isDoubleSuffix, Bool.or_eq_true, beq_iff_eq] at isDouble
  rcases isDouble with rfl | rfl <;> rfl

theorem isAscii_of_isRefusedSuffix (suffix : Char) (isRefused : isRefusedSuffix suffix = true) :
    suffix.utf8Size = 1 := by
  simp only [isRefusedSuffix, Bool.or_eq_true, beq_iff_eq] at isRefused
  rcases isRefused with ((rfl | rfl) | rfl) | rfl <;> rfl

/-- The position behind an ASCII character of a class. -/
theorem drop_one {inClass : Char → Bool} (ascii : ∀ character, inClass character = true → character.utf8Size = 1)
    (isThere : rest.head?.any inClass = true) : Cursor.drop ⟨rest, offset⟩ 1 = ⟨rest.tail, offset + 1⟩ := by
  cases rest with
  | nil => cases isThere
  | cons character rest =>
    have one : byteSize [character] = 1 := ascii character isThere
    rw [Cursor.drop, List.take_succ_cons, List.take_zero, one]
    rfl

theorem endInteger_eq (start : Nat) (value : Option Nat) (isLong : Bool) (isIn : Cursor.IsIn ⟨rest, offset⟩ source) :
    endInteger source start value isLong offset = outcome (finishInteger start value isLong ⟨rest, offset⟩) := by
  have ascii (suffix : Char) (isUnsigned : (suffix == 'u' || suffix == 'U') = true) : suffix.utf8Size = 1 := by
    simp only [Bool.or_eq_true, beq_iff_eq] at isUnsigned
    rcases isUnsigned with rfl | rfl <;> rfl
  unfold endInteger finishInteger
  rw [any_byteAt? isIn ascii]
  split
  · next isUnsigned =>
    rw [drop_one ascii isUnsigned]
    rfl
  · cases value with
    | none => rfl
    | some number =>
      dsimp only
      split
      · rfl
      · split <;> rfl

/-- The suffix of an integer literal is read alike. -/
theorem readSuffix_eq (start : Nat) (value : Option Nat) (isIn : cursor.IsIn source) :
    readSuffix source start value cursor.offset = outcome (readInteger start value cursor) := by
  obtain ⟨rest, offset⟩ := cursor
  rw [readSuffix, any_byteAt? isIn isAscii_of_isLongSuffix, readInteger_eq]
  dsimp only
  split
  · next isLong =>
    have behind := isIn.trans (Cursor.isBefore_drop _ 1)
    rw [drop_one isAscii_of_isLongSuffix isLong] at behind ⊢
    exact endInteger_eq start value _ behind
  · exact endInteger_eq start value _ isIn

theorem startsFraction_eq (isIn : Cursor.IsIn ⟨rest, offset⟩ source) :
    startsFraction source offset = Lexer.startsFraction rest := by
  have isPoint : byteAt? source offset = some '.' ↔ rest.head? = some '.' := byteAt?_eq_some_iff isIn rfl
  rw [startsFraction, Lexer.startsFraction, ← List.head?_eq_getElem?]
  by_cases starts : rest.head? = some '.'
  · obtain ⟨behind, rfl⟩ := List.head?_eq_some_iff.1 starts
    rw [isPoint.2 starts, any_byteAt? (isIn.next rfl) isAscii_of_isDigit, List.head?_eq_getElem?]
    rfl
  · rw [beq_false_of_ne (mt isPoint.1 starts), beq_false_of_ne starts]
    rfl

/-- The digits of an exponent stand behind its sign. -/
theorem exponentDigits?_signed {mark sign : Char} (isMark : mark = 'e' ∨ mark = 'E') (isSign : sign = '+' ∨ sign = '-')
    (isIn : Cursor.IsIn ⟨mark :: sign :: rest, offset⟩ source) : exponentDigits? source offset =
      (exponentMark? (mark :: sign :: rest)).map fun found => (Cursor.drop ⟨mark :: sign :: rest, offset⟩ found.2).offset := by
  have isAscii : mark.utf8Size = 1 := by rcases isMark with rfl | rfl <;> rfl
  have isAsciiSign : sign.utf8Size = 1 := by rcases isSign with rfl | rfl <;> rfl
  have next := isIn.next isAscii
  have digits : (byteAt? source (offset + 2)).any Char.isDigit = rest.head?.any Char.isDigit :=
    any_byteAt? (next.next isAsciiSign) isAscii_of_isDigit
  have two : (Cursor.drop ⟨mark :: sign :: rest, offset⟩ 2).offset = offset + 2 := by
    simp [Cursor.drop, byteSize, isAscii, isAsciiSign]
  have third : (mark :: sign :: rest)[2]? = rest.head? := List.head?_eq_getElem?.symm
  have second : (mark :: sign :: rest)[1]? = some sign := rfl
  rw [exponentDigits?, exponentMark?, byteAt?_ascii isIn isAscii, byteAt?_ascii next isAsciiSign, second, third]
  cases isDigit : rest.head?.any Char.isDigit with
  | false => rcases isMark with rfl | rfl <;> rcases isSign with rfl | rfl <;> simp [digits, isDigit]
  | true => rcases isMark with rfl | rfl <;> rcases isSign with rfl | rfl <;> simp [digits, isDigit, two]

/-- The digits of an exponent without sign stand behind its mark. -/
theorem exponentDigits?_unsigned {mark : Char} (isMark : mark = 'e' ∨ mark = 'E')
    (noSign : ¬ (rest.head? = some '+' ∨ rest.head? = some '-')) (isIn : Cursor.IsIn ⟨mark :: rest, offset⟩ source) :
    exponentDigits? source offset =
      (exponentMark? (mark :: rest)).map fun found => (Cursor.drop ⟨mark :: rest, offset⟩ found.2).offset := by
  have isAscii : mark.utf8Size = 1 := by rcases isMark with rfl | rfl <;> rfl
  have next := isIn.next isAscii
  have isPlus : byteAt? source (offset + 1) = some '+' ↔ rest.head? = some '+' := byteAt?_eq_some_iff next rfl
  have isMinus : byteAt? source (offset + 1) = some '-' ↔ rest.head? = some '-' := byteAt?_eq_some_iff next rfl
  have digits : (byteAt? source (offset + 1)).any Char.isDigit = rest.head?.any Char.isDigit :=
    any_byteAt? next isAscii_of_isDigit
  have one : (Cursor.drop ⟨mark :: rest, offset⟩ 1).offset = offset + 1 := by
    simp [Cursor.drop, byteSize, isAscii]
  have second : (mark :: rest)[1]? = rest.head? := List.head?_eq_getElem?.symm
  obtain ⟨noPlus, noMinus⟩ := not_or.1 noSign
  rw [exponentDigits?, exponentMark?, byteAt?_ascii isIn isAscii, second, if_neg noMinus, if_neg noPlus]
  simp only [isPlus, isMinus, if_neg noSign, digits]
  cases isDigit : rest.head?.any Char.isDigit with
  | false => rcases isMark with rfl | rfl <;> rfl
  | true => rcases isMark with rfl | rfl <;> simp [one]

theorem exponentDigits?_eq (isIn : Cursor.IsIn ⟨rest, offset⟩ source) : exponentDigits? source offset =
    (exponentMark? rest).map fun found => (Cursor.drop ⟨rest, offset⟩ found.2).offset := by
  by_cases starts : rest.head? = some 'e' ∨ rest.head? = some 'E'
  · obtain ⟨mark, behind, rfl, isMark⟩ : ∃ mark behind, rest = mark :: behind ∧ (mark = 'e' ∨ mark = 'E') := by
      cases rest with
      | nil => rcases starts with isMark | isMark <;> cases isMark
      | cons mark behind => exact ⟨mark, behind, rfl, by simpa using starts⟩
    by_cases isSign : behind.head? = some '+' ∨ behind.head? = some '-'
    · cases behind with
      | nil => rcases isSign with isSign | isSign <;> cases isSign
      | cons sign behind => exact exponentDigits?_signed isMark (by simpa using isSign) isIn
    · exact exponentDigits?_unsigned isMark isSign isIn
  · have noMark : ¬ (byteAt? source offset = some 'e' ∨ byteAt? source offset = some 'E') := by
      rwa [byteAt?_eq_some_iff isIn rfl, byteAt?_eq_some_iff isIn rfl]
    rw [exponentDigits?, exponentMark?, ← List.head?_eq_getElem?, if_neg noMark, if_neg starts]
    rfl

theorem skipDigits_eq (isIn : cursor.IsIn source) :
    skipWhile source isDigitOrGap cursor.offset = some (cursor.skip isDigitOrGap).offset :=
  skipWhile_eq isAscii_of_isDigitOrGap isIn

theorem skipFraction_eq (whole : List Char) (isIn : cursor.IsIn source) :
    (readFraction whole cursor).isReal = startsFraction source cursor.offset ∧
      (readFraction whole cursor).cursor.IsIn source ∧
      skipFraction source cursor.offset = some (readFraction whole cursor).cursor.offset := by
  have starts : startsFraction source cursor.offset = Lexer.startsFraction cursor.rest := startsFraction_eq isIn
  rw [skipFraction, starts, readFraction_eq]
  cases isPoint : Lexer.startsFraction cursor.rest with
  | false => exact ⟨rfl, isIn, rfl⟩
  | true =>
    have behind : (cursor.drop 1).IsIn source := isIn.trans (cursor.isBefore_drop 1)
    have isHead : cursor.rest.head?.any (· == '.') = true := by
      rw [Lexer.startsFraction, ← List.head?_eq_getElem?] at isPoint
      rw [beq_iff_eq.1 (Bool.and_eq_true_iff.1 isPoint).1]
      rfl
    have one : cursor.drop 1 = ⟨cursor.rest.tail, cursor.offset + 1⟩ :=
      drop_one (by rintro character isSame; rw [beq_iff_eq.1 isSame]; rfl) isHead
    have skips := skipDigits_eq behind
    refine ⟨rfl, behind.trans ((cursor.drop 1).isBefore_skip isDigitOrGap), ?_⟩
    rw [if_pos rfl, if_pos rfl]
    rwa [one] at skips ⊢

/-- A decimal number is skipped alike. -/
theorem skipNumeral_eq (isIn : cursor.IsIn source) :
    skipNumeral source cursor.offset = some ((readNumeral cursor).isReal, (readNumeral cursor).cursor.offset) := by
  have wholes : (cursor.skip isDigitOrGap).IsIn source := isIn.trans (cursor.isBefore_skip isDigitOrGap)
  obtain ⟨isReal, fractions, skips⟩ := skipFraction_eq (digitsAt cursor) wholes
  have exponents := exponentDigits?_eq fractions
  rw [skipNumeral, skipDigits_eq isIn, readNumeral, readExponent_eq]
  simp only [Option.bind_eq_bind, Option.bind_some, skips, ← isReal]
  generalize readFraction (digitsAt cursor) (cursor.skip isDigitOrGap) = numeral at fractions exponents ⊢
  rw [exponents]
  cases exponentMark? numeral.cursor.rest with
  | none => rfl
  | some mark =>
    have behind := skipDigits_eq (fractions.trans (numeral.cursor.isBefore_drop mark.2))
    simp only [Option.map_some, behind, Option.bind_some]

theorem startsHexadecimal_iff (isIn : Cursor.IsIn ⟨rest, offset⟩ source) :
    (byteAt? source offset = some '0' ∧ (byteAt? source (offset + 1) = some 'x' ∨ byteAt? source (offset + 1) = some 'X')) ↔
      startsHexadecimal rest = true := by
  have isZero : byteAt? source offset = some '0' ↔ rest.head? = some '0' := byteAt?_eq_some_iff isIn rfl
  rw [isZero, startsHexadecimal, ← List.head?_eq_getElem?]
  by_cases starts : rest.head? = some '0'
  · obtain ⟨behind, rfl⟩ := List.head?_eq_some_iff.1 starts
    have next := isIn.next rfl
    have second : ('0' :: behind)[1]? = behind.head? := List.head?_eq_getElem?.symm
    rw [byteAt?_eq_some_iff next rfl, byteAt?_eq_some_iff next rfl, second]
    simp
  · simp [starts]

/-- A hexadecimal number starts with two bytes. -/
theorem offset_drop_two {characters : List Char} (starts : startsHexadecimal characters = true) (offset : Nat) :
    (Cursor.drop ⟨characters, offset⟩ 2).offset = offset + 2 := by
  rcases characters with _ | ⟨zero, _ | ⟨mark, tail⟩⟩
  · cases starts
  · simp [startsHexadecimal] at starts
  · simp only [startsHexadecimal, List.getElem?_cons_zero, List.getElem?_cons_succ, Bool.and_eq_true,
      Bool.or_eq_true, beq_iff_eq, Option.some.injEq] at starts
    obtain ⟨rfl, rfl | rfl⟩ := starts <;> rfl

/-- A hexadecimal number is read alike. -/
theorem readHexadecimal_eq (start : Nat) (isIn : cursor.IsIn source) :
    readHexadecimal source start cursor.offset = some (outcome (Lexer.readHexadecimal start cursor)) := by
  have skips : skipWhile source isHexDigit cursor.offset = some (cursor.skip isHexDigit).offset :=
    skipWhile_eq isAscii_of_isHexDigit isIn
  have digits := slice?_of_reaches isIn (cursor.reaches_skip isHexDigit)
  have ends := isIn.trans (cursor.isBefore_skip isHexDigit)
  rw [readHexadecimal, Lexer.readHexadecimal, ← readSuffix_eq _ _ ends]
  simp only [skips, digits, Option.bind_eq_bind, Option.bind_some]

/-- The same number is read from its own characters as in front of the rest of the text. -/
theorem readNumeral_alone {used : List Char} (reaches : cursor.Reaches used (readNumeral cursor).cursor) :
    readNumeral ⟨used, cursor.offset⟩ = { readNumeral cursor with cursor := (readNumeral ⟨used, cursor.offset⟩).cursor } := by
  have beside : cursor.Beside (readNumeral cursor).cursor.rest [] ⟨used, cursor.offset⟩ :=
    ⟨used, reaches.1, (List.append_nil used).symm⟩
  exact (readNumeral_beside (show AtBreak [] from rfl) beside (Nat.le_refl _)).same

/-- A decimal number is read alike. -/
theorem readDecimal_eq (isIn : cursor.IsIn source) :
    readDecimal source cursor.offset = some (outcome (Lexer.readDecimal cursor)) := by
  obtain ⟨used, reaches⟩ := readNumeral_reaches cursor
  have text := slice?_of_reaches isIn reaches
  have ends : (readNumeral cursor).cursor.IsIn source := isIn.trans ⟨used, reaches⟩
  have isDouble := any_byteAt? ends isAscii_of_isDoubleSuffix
  have isRefused := any_byteAt? ends isAscii_of_isRefusedSuffix
  have value : (readNumeral ⟨used, cursor.offset⟩).toFloat = (readNumeral cursor).toFloat := by
    rw [readNumeral_alone reaches]
    rfl
  have whole : (readNumeral ⟨used, cursor.offset⟩).whole = (readNumeral cursor).whole := by
    rw [readNumeral_alone reaches]
  rw [readDecimal, Lexer.readDecimal_eq]
  simp only [skipNumeral_eq isIn, text, isDouble, isRefused, value, whole, Option.bind_eq_bind, Option.bind_some]
  split
  · next isThere =>
    rw [drop_one isAscii_of_isDoubleSuffix isThere]
    rfl
  split
  · next isThere =>
    rw [drop_one isAscii_of_isRefusedSuffix isThere]
    rfl
  split
  · rfl
  · rw [readSuffix_eq _ _ ends]

/-- A number is read alike. -/
theorem readNumber_eq (isIn : cursor.IsIn source) :
    readNumber source cursor.offset = some (outcome (Lexer.readNumber cursor)) := by
  have isHexadecimal := startsHexadecimal_iff isIn
  rw [readNumber, Lexer.readNumber_eq]
  by_cases starts : startsHexadecimal cursor.rest = true
  · rw [if_pos (isHexadecimal.2 starts), if_pos starts, ← offset_drop_two starts cursor.offset]
    exact readHexadecimal_eq cursor.offset (isIn.trans (cursor.isBefore_drop 2))
  · rw [if_neg (mt isHexadecimal.1 starts), if_neg starts]
    exact readDecimal_eq isIn

/-! ### Lexemes -/

theorem skipName_eq (isIn : Cursor.IsIn ⟨rest, offset⟩ source) :
    skipName source offset = some (Cursor.skip ⟨rest, offset⟩ continuesName).offset := by
  induction rest generalizing offset with
  | nil =>
    rw [skipName, next?_eq isIn]
    rfl
  | cons character rest ih =>
    rw [skipName, next?_eq isIn, Cursor.skip, Cursor.run, List.takeWhile_cons]
    show (if continuesName character then goOn source offset (offset + character.utf8Size) fun _ =>
      skipName source (offset + character.utf8Size) else some offset) = _
    have isFurther : offset < offset + character.utf8Size := Nat.lt_add_of_pos_right character.utf8Size_pos
    cases goesOn : continuesName character with
    | false => rfl
    | true =>
      rw [if_pos rfl, if_pos rfl, goOn_behind isIn isFurther, Cursor.byteSize_cons, ← Nat.add_assoc]
      exact ih (isIn.take [character])

/-- A word is read alike. -/
theorem readWord_eq (isIn : cursor.IsIn source) :
    readWord source cursor.offset = some (outcome (Lexer.readWord cursor)) := by
  have skips : skipName source cursor.offset = some (cursor.skip continuesName).offset := skipName_eq isIn
  have word := slice?_of_reaches isIn (cursor.reaches_skip continuesName)
  rw [readWord]
  simp only [skips, word, Option.bind_eq_bind, Option.bind_some]
  rfl

/-- A character literal is read alike. -/
theorem readCharacter_eq (isIn : Cursor.IsIn ⟨'\'' :: rest, offset⟩ source) : readCharacter source offset =
    some (outcome (.problem (.unsupported "character literal") offset (skipCharacterLiteral rest (offset + 1)))) := by
  obtain ⟨stop, skips, isStop⟩ := skipCharacter_eq rest (offset + 1) (isIn.next rfl)
  rw [readCharacter]
  simp only [skips, isStop, Option.bind_eq_bind, Option.bind_some]
  rfl

theorem of_pair? {first second : Char} {sign : Symbol} (isPair : Symbol.pair? first second = some sign) :
    first.utf8Size = 1 ∧ second.utf8Size = 1 ∧ startsName first = false := by
  unfold Symbol.pair? at isPair
  split at isPair <;> first | decide | cases isPair

theorem utf8Size_of_single? {first : Char} {sign : Symbol} (isSingle : Symbol.single? first = some sign) :
    first.utf8Size = 1 := by
  unfold Symbol.single? at isSingle
  split at isSingle <;> first | rfl | cases isSingle

/-- The characters of a symbol are ASCII, and no name starts with them. -/
theorem of_symbol? {first : Char} {second : Option Char} {sign : Symbol} {size : Nat}
    (isSymbol : symbol? first second = some (sign, size)) : first.utf8Size = 1 ∧ startsName first = false ∧
      (size = 1 ∨ size = 2 ∧ ∃ next, second = some next ∧ next.utf8Size = 1) := by
  unfold symbol? at isSymbol
  split at isSymbol
  · next isPair =>
    cases isSymbol
    obtain ⟨next, isNext, isPair⟩ := Option.bind_eq_some_iff.1 isPair
    obtain ⟨isAscii, isAsciiNext, noName⟩ := of_pair? isPair
    exact ⟨isAscii, noName, .inr ⟨rfl, next, isNext, isAsciiNext⟩⟩
  · obtain ⟨found, isSingle, same⟩ := Option.map_eq_some_iff.1 isSymbol
    cases same
    exact ⟨utf8Size_of_single? isSingle, (Piece.of_single? isSingle).1, .inl rfl⟩

/-- A symbol takes as many bytes as characters. -/
theorem offset_drop_symbol {first : Char} {sign : Symbol} {size : Nat}
    (isSymbol : symbol? first rest.head? = some (sign, size)) (offset : Nat) :
    (Cursor.drop ⟨first :: rest, offset⟩ size).offset = offset + size := by
  obtain ⟨isAscii, _, rfl | ⟨rfl, second, isSecond, isAsciiSecond⟩⟩ := of_symbol? isSymbol
  · show offset + (first.utf8Size + 0) = offset + 1
    rw [isAscii]
  · obtain ⟨others, rfl⟩ := List.head?_eq_some_iff.1 isSecond
    show offset + (first.utf8Size + (second.utf8Size + 0)) = offset + 2
    rw [isAscii, isAsciiSecond]

/-- Whether a lexeme is no number, literal, symbol or operator, given its first character and the one behind it. -/
structure IsOther (first : Char) (second : Option Char) : Prop where
  noNumber : startsNumber first second = false
  noQuote : first ≠ '"'
  noVerbatim : first ≠ '@'
  noCharacter : first ≠ '\''
  noSymbol : symbol? first second = none
  noOperator : isBitOperator first = false

namespace IsOther

variable {first : Char} {second : Option Char}

/-- The characters with which literals and operators start, but for digits. -/
def marks : List Char := ['.', '"', '@', '\'', '&', '|', '^', '~']

theorem of_never (noDigit : first.isDigit = false) (never : ∀ mark ∈ marks, first ≠ mark)
    (noSymbol : ∀ found, symbol? first second ≠ some found) : IsOther first second := by
  have never {mark : Char} (member : mark ∈ marks) : first ≠ mark := never mark member
  refine ⟨?_, never (by decide), never (by decide), never (by decide), Option.eq_none_iff_forall_ne_some.2 noSymbol, ?_⟩
  · rw [startsNumber, noDigit, beq_false_of_ne (never (by decide))]
    rfl
  · rw [isBitOperator, beq_false_of_ne (never (by decide)), beq_false_of_ne (never (by decide)),
      beq_false_of_ne (never (by decide)), beq_false_of_ne (never (by decide))]
    rfl

theorem of_wide (isWide : first.utf8Size ≠ 1) (second : Option Char) : IsOther first second := by
  have areAscii : marks.all (·.utf8Size == 1) = true := by decide
  refine of_never (Bool.eq_false_iff.2 (mt (isAscii_of_isDigit first) isWide)) (fun mark member => ?_)
    fun found isSymbol => isWide (of_symbol? isSymbol).1
  rintro rfl
  exact isWide (beq_iff_eq.1 (List.all_eq_true.1 areAscii _ member))

theorem of_startsName (starts : startsName first = true) (second : Option Char) : IsOther first second := by
  have startNone : marks.all (startsName · == false) = true := by decide
  refine of_never (Piece.not_isDigit_of_startsName starts) (fun mark member => ?_) fun found isSymbol => ?_
  · exact Piece.ne_of_startsName starts mark (beq_iff_eq.1 (List.all_eq_true.1 startNone mark member))
  · rw [(of_symbol? isSymbol).2.1] at starts
    cases starts

end IsOther

/-- A word or a character that starts nothing is read alike. -/
theorem readLexeme_other {first code : Char} (isIn : Cursor.IsIn ⟨first :: rest, offset⟩ source)
    (isCode : byteAt? source offset = some code) (codeOther : IsOther code (byteAt? source (offset + 1)))
    (isOther : IsOther first rest.head?) :
    readLexeme source offset = some (outcome (Lexer.readLexeme first rest offset)) := by
  have word : readWord source offset = some (outcome (Lexer.readWord ⟨first :: rest, offset⟩)) := readWord_eq isIn
  have noCode : ¬ (code = '@' ∧ byteAt? source (offset + 1) = some '"') := fun found => codeOther.noVerbatim found.1
  have noFirst : ¬ (first = '@' ∧ rest.head? = some '"') := fun found => isOther.noVerbatim found.1
  rw [readLexeme, isCode]
  simp only [Option.bind_eq_bind, Option.bind_some, codeOther.noNumber, codeOther.noQuote, noCode,
    codeOther.noCharacter, codeOther.noSymbol, codeOther.noOperator, next?_eq isIn, Lexer.readLexeme, isOther.noNumber,
    isOther.noQuote, noFirst, isOther.noCharacter, isOther.noSymbol, isOther.noOperator]
  show (if startsName first = true then readWord source offset else _) = _
  cases startsName first with
  | true => exact word
  | false => rfl

/-- A lexeme is read alike. -/
theorem readLexeme_eq (first : Char) (rest : List Char) (offset : Nat)
    (isIn : Cursor.IsIn ⟨first :: rest, offset⟩ source) :
    readLexeme source offset = some (outcome (Lexer.readLexeme first rest offset)) := by
  by_cases isAscii : first.utf8Size = 1
  · have isCode := byteAt?_ascii isIn isAscii
    have next := isIn.next isAscii
    by_cases starts : startsName first = true
    · exact readLexeme_other isIn isCode (.of_startsName starts _) (.of_startsName starts _)
    have number : readNumber source offset = some (outcome (Lexer.readNumber ⟨first :: rest, offset⟩)) :=
      readNumber_eq isIn
    have isNumber : startsNumber first (byteAt? source (offset + 1)) = startsNumber first rest.head? := by
      rw [startsNumber, startsNumber, any_byteAt? next isAscii_of_isDigit]
    have isSymbol : symbol? first (byteAt? source (offset + 1)) = symbol? first rest.head? := by
      rw [symbol?, symbol?, bind_byteAt? next]
      exact fun second isWide => Option.eq_none_iff_forall_ne_some.2 fun sign isPair => isWide (of_pair? isPair).2.1
    have isQuote : byteAt? source (offset + 1) = some '"' ↔ rest.head? = some '"' := byteAt?_eq_some_iff next rfl
    have behind : Cursor.drop ⟨first :: rest, offset⟩ 1 = ⟨rest, offset + 1⟩ := by
      show Cursor.mk rest (offset + (first.utf8Size + 0)) = _
      rw [isAscii]
    rw [readLexeme, isCode, Lexer.readLexeme]
    simp only [Option.bind_eq_bind, Option.bind_some, isNumber, isSymbol, isQuote, behind, next?_eq isIn,
      List.head?_cons, Option.getD_some, if_neg starts]
    by_cases startsHere : startsNumber first rest.head? = true
    · rw [if_pos startsHere, if_pos startsHere]
      exact number
    rw [if_neg startsHere, if_neg startsHere]
    by_cases isText : first = '"'
    · rw [if_pos isText, if_pos isText, readText_eq offset rest (offset + 1) next]
      rfl
    rw [if_neg isText, if_neg isText]
    by_cases isVerbatim : first = '@' ∧ rest.head? = some '"'
    · obtain ⟨others, rfl⟩ := List.head?_eq_some_iff.1 isVerbatim.2
      rw [if_pos isVerbatim, if_pos isVerbatim, readVerbatim_eq offset others (offset + 2) (next.next rfl)]
      rfl
    rw [if_neg isVerbatim, if_neg isVerbatim]
    by_cases isCharacter : first = '\''
    · subst isCharacter
      exact readCharacter_eq isIn
    rw [if_neg isCharacter, if_neg isCharacter]
    cases found : symbol? first rest.head? with
    | none =>
      dsimp only
      split
      · rfl
      · rw [isAscii]
        rfl
    | some symbol =>
      obtain ⟨sign, size⟩ := symbol
      show some (token (.symbol sign) offset (offset + size)) =
        some (token (.symbol sign) offset (Cursor.drop ⟨first :: rest, offset⟩ size).offset)
      rw [offset_drop_symbol found]
  · obtain ⟨code, isCode, isWide⟩ := byteAt?_wide isIn isAscii first.utf8Size_pos
    exact readLexeme_other isIn isCode (.of_wide isWide _) (.of_wide isAscii _)

/-- Behind the end of a text no characters are left. -/
theorem rest_eq_nil_iff (isIn : cursor.IsIn source) : cursor.rest = [] ↔ source.utf8ByteSize ≤ cursor.offset := by
  have size := isIn.offset_eq
  cases isRest : cursor.rest with
  | nil =>
    rw [isRest] at size
    exact ⟨fun _ => Nat.le_of_eq size.symm, fun _ => rfl⟩
  | cons character rest =>
    have positive := character.utf8Size_pos
    rw [isRest, Cursor.byteSize_cons] at size
    exact ⟨nofun, fun _ => by omega⟩

/-- A lexeme takes at least one byte. -/
theorem readLexeme_moves (first : Char) (rest : List Char) (offset : Nat) :
    offset < (Lexer.readLexeme first rest offset).cursor.offset := by
  obtain ⟨used, isText, isOffset⟩ := (readLexeme_standsBehind first rest offset).before
  have isText : first :: rest = used ++ (Lexer.readLexeme first rest offset).cursor.rest := isText
  have isOffset : (Lexer.readLexeme first rest offset).cursor.offset = offset + byteSize used := isOffset
  rw [isOffset]
  cases used with
  | nil =>
    have shorter := length_readLexeme_le first rest offset
    rw [List.nil_append] at isText
    rw [← isText] at shorter
    exact absurd shorter (Nat.not_succ_le_self _)
  | cons character used =>
    rw [Cursor.byteSize_cons]
    exact Nat.lt_add_of_pos_right (Nat.add_pos_left character.utf8Size_pos _)

/-- All lexemes are read alike. -/
theorem lexemes_eq (cursor : Cursor) (isIn : cursor.IsIn source) :
    lexemes source cursor.offset = some (Lexer.lexemes cursor) := by
  have layout (cursor : Cursor) (isIn : cursor.IsIn source) : skipLayout source cursor.offset =
      some (((Lexer.skipLayout .blank cursor.rest cursor.offset).1.map Lexeme.finding).toList,
        (Lexer.skipLayout .blank cursor.rest cursor.offset).2.offset) :=
    skipFrom_eq 0 .blank cursor.rest cursor.offset isIn fun noBlank => absurd rfl noBlank
  fun_induction Lexer.lexemes cursor with
  | case1 cursor skip reports left =>
    rw [lexemes]
    by_cases atEnd : source.utf8ByteSize ≤ cursor.offset
    · obtain ⟨rest, offset⟩ := cursor
      obtain rfl := (rest_eq_nil_iff isIn).2 atEnd
      exact if_pos atEnd
    · have ends := (rest_eq_nil_iff (isIn.trans (skipBlank_standsBehind cursor).1)).1 left
      rw [if_neg atEnd, layout cursor isIn]
      exact if_pos ends
  | case2 cursor skip reports first rest left reading ih =>
    have before : cursor.IsBefore skip.2 := (skipBlank_standsBehind cursor).1
    have ordered : cursor.offset ≤ skip.2.offset := (isIn.liesIn before).ordered
    have inside : ¬ source.utf8ByteSize ≤ skip.2.offset :=
      mt (rest_eq_nil_iff (isIn.trans before)).2 (by rw [left]; exact List.cons_ne_nil _ _)
    have notEnd : ¬ source.utf8ByteSize ≤ cursor.offset := fun atEnd => inside (Nat.le_trans atEnd ordered)
    have starts : Cursor.IsIn ⟨first :: rest, skip.2.offset⟩ source := by
      rw [← left]
      exact isIn.trans before
    have others := ih (starts.trans (readLexeme_standsBehind first rest skip.2.offset).before)
    have isFurther : cursor.offset < reading.cursor.offset :=
      Nat.lt_of_le_of_lt ordered (readLexeme_moves first rest skip.2.offset)
    rw [lexemes, if_neg notEnd, layout cursor isIn]
    show (if source.utf8ByteSize ≤ skip.2.offset then _ else (readLexeme source skip.2.offset).bind _) = _
    rw [if_neg inside, readLexeme_eq first rest skip.2.offset starts]
    show (goOn source cursor.offset reading.cursor.offset fun _ => lexemes source reading.cursor.offset).bind _ = _
    rw [goOn_eq isFurther (Nat.lt_of_not_le notEnd), others]
    rfl

/-- A scan by byte positions has the tokens of a text, or its problems. -/
theorem tokenize_eq (source : String) : tokenize source = some (Snippet.tokenize source) := by
  have scans := lexemes_eq ⟨source.toList, 0⟩ (.start source)
  rw [tokenize]
  simp only [scans, Option.bind_eq_bind, Option.bind_some, Snippet.tokenize]
  cases (Lexer.lexemes ⟨source.toList, 0⟩).filterMap Lexeme.finding? <;> rfl

end Bytes

/-- A scan of a text ends, with slices of the text only. Its tokens tile the text up to their only end, or its problems
lie in the text. -/
theorem tokenize_exact (source : String) : Bytes.tokenize source = some (tokenize source) ∧
    match tokenize source with
    | .ok tokens => (∃ front : List PlacedToken,
        tokens = front ++ [⟨.endOfFile, ⟨source.utf8ByteSize, source.utf8ByteSize⟩⟩] ∧
          ∀ placed ∈ front, placed.token ≠ .endOfFile) ∧ Tiles source 0 tokens
    | .error findings => ∀ finding ∈ findings, finding.span.LiesIn source := by
  refine ⟨Bytes.tokenize_eq source, ?_⟩
  cases lexes : tokenize source with
  | ok tokens => exact tokenize_tiles lexes
  | error findings => exact findings_lieIn lexes

end Snippet
