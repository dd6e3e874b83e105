import Snippet.Source.Lexer

/-!
A whole source text as tokens. Main statement: every lexeme shortens the text that is left, so
scanning ends.
-/

namespace Snippet.Lexer

open Text

theorem length_skip_cons_le (first : Char) (rest : List Char) (offset : Nat)
    (inClass : Char → Bool) (accepted : inClass first = true) :
    ((Cursor.mk (first :: rest) offset).skip inClass).rest.length ≤ rest.length := by
  simp only [Cursor.skip, List.dropWhile_cons, accepted, if_true]
  exact (List.dropWhile_sublist inClass).length_le

theorem length_readFraction_le (whole : List Char) (cursor : Cursor) :
    (readFraction whole cursor).cursor.rest.length ≤ cursor.rest.length := by
  unfold readFraction
  split
  · split
    · exact Nat.le_trans (Cursor.length_skip_le _ _) (Cursor.length_drop_le _ _)
    · exact Nat.le_refl _
  · exact Nat.le_refl _

theorem length_readExponent_le (numeral : Numeral) :
    (readExponent numeral).cursor.rest.length ≤ numeral.cursor.rest.length := by
  have accepted (count : Nat) :
      ((numeral.cursor.drop count).skip isDigitOrGap).rest.length ≤
        numeral.cursor.rest.length :=
    Nat.le_trans (Cursor.length_skip_le _ _) (Cursor.length_drop_le _ _)
  unfold readExponent
  dsimp only
  split
  · split
    · split <;> split <;> first | exact accepted _ | exact Nat.le_refl _
    · exact Nat.le_refl _
  · exact Nat.le_refl _

theorem length_readNumeral_cons_le (first : Char) (rest : List Char) (offset : Nat)
    (starts : startsNumber first rest.head? = true) :
    (readNumeral ⟨first :: rest, offset⟩).cursor.rest.length ≤ rest.length := by
  refine Nat.le_trans (length_readExponent_le _) ?_
  by_cases digit : first.isDigit = true
  · exact Nat.le_trans (length_readFraction_le _ _)
      (length_skip_cons_le _ _ _ _ (by simp [isDigitOrGap, digit]))
  · simp only [startsNumber, digit, Bool.false_or, Bool.and_eq_true, beq_iff_eq] at starts
    obtain ⟨rfl, second⟩ := starts
    cases rest with
    | nil => simp at second
    | cons next rest =>
      simp only [List.head?_cons, Option.any_some] at second
      have stays : (Cursor.mk ('.' :: next :: rest) offset).skip isDigitOrGap =
          ⟨'.' :: next :: rest, offset⟩ := by
        simp [Cursor.skip, Cursor.run, isDigitOrGap, byteSize, digit]
      rw [stays]
      simp only [readFraction, second, if_true]
      exact Cursor.length_skip_le _ _

theorem length_readDecimal_le (first : Char) (rest : List Char) (offset : Nat)
    (starts : startsNumber first rest.head? = true) :
    (readDecimal ⟨first :: rest, offset⟩).cursor.rest.length ≤ rest.length := by
  have shorter := length_readNumeral_cons_le first rest offset starts
  unfold readDecimal
  dsimp only
  have dropped := Cursor.length_drop_le (readNumeral ⟨first :: rest, offset⟩).cursor 1
  have integer := length_readInteger_le offset
    (some (Decimal.ofDigits (readNumeral ⟨first :: rest, offset⟩).whole))
    (readNumeral ⟨first :: rest, offset⟩).cursor
  split
  · split
    · exact Nat.le_trans dropped shorter
    · split
      · exact Nat.le_trans dropped shorter
      · split
        · exact shorter
        · exact Nat.le_trans integer shorter
  · split
    · exact shorter
    · exact Nat.le_trans integer shorter

theorem length_readHexadecimal_le (start : Nat) (cursor : Cursor) :
    (readHexadecimal start cursor).cursor.rest.length ≤ cursor.rest.length :=
  Nat.le_trans (length_readInteger_le _ _ _) (Cursor.length_skip_le _ _)

theorem length_readNumber_le (first : Char) (rest : List Char) (offset : Nat)
    (starts : startsNumber first rest.head? = true) :
    (readNumber ⟨first :: rest, offset⟩).cursor.rest.length ≤ rest.length := by
  unfold readNumber
  split
  case h_3 => exact length_readDecimal_le _ _ _ starts
  all_goals
    exact Nat.le_trans (length_readHexadecimal_le _ _) (by simp [Cursor.drop])

theorem length_symbol_le (first : Char) (rest : List Char) (offset : Nat) (sign : Symbol)
    (size : Nat) (found : symbol? first rest.head? = some (sign, size)) :
    ((Cursor.mk (first :: rest) offset).drop size).rest.length ≤ rest.length := by
  have positive : 1 ≤ size := by
    unfold symbol? at found
    split at found
    · injection found with found; injection found with _ found; omega
    · obtain ⟨_, _, found⟩ := Option.map_eq_some_iff.1 found
      injection found with _ found; omega
  simp only [Cursor.drop, List.length_drop, List.length_cons]
  omega

/-- Reading a lexeme takes at least its first character. -/
theorem length_readLexeme_le (first : Char) (rest : List Char) (offset : Nat) :
    (readLexeme first rest offset).cursor.rest.length ≤ rest.length := by
  unfold readLexeme
  dsimp only
  split
  next starts => exact length_readNumber_le _ _ _ starts
  split
  · exact length_readText_le _ _ _
  split
  · exact Nat.le_trans (length_readVerbatim_le _ _ _) (by simp)
  split
  · exact length_skipCharacterLiteral_le _ _
  split
  next starts =>
    exact length_skip_cons_le _ _ _ _ (by simp [continuesName, starts])
  split
  next sign size found => exact length_symbol_le _ _ _ _ _ found
  split <;> simp [Reading.problem, Cursor.drop]

/-- All lexemes from a cursor on, up to the end of the text. -/
def lexemes (cursor : Cursor) : List Lexeme :=
  let skipped := skipLayout .blank cursor.rest cursor.offset
  let reports := (skipped.1.map Lexeme.finding).toList
  match _left : skipped.2.rest with
  | [] => reports ++ [.token ⟨.endOfFile, ⟨skipped.2.offset, skipped.2.offset⟩⟩]
  | first :: rest =>
    let reading := readLexeme first rest skipped.2.offset
    reports ++ reading.found ++ lexemes reading.cursor
termination_by cursor.rest.length
decreasing_by
  have shorter := length_readLexeme_le first rest skipped.2.offset
  have layout := length_skipLayout_le .blank cursor.rest cursor.offset
  have left : (skipLayout .blank cursor.rest cursor.offset).2.rest = first :: rest := _left
  rw [left] at layout
  exact Nat.lt_of_le_of_lt shorter (Nat.lt_of_succ_le layout)

/-- Where nothing is left behind the layout, the text ends. -/
theorem lexemes_of_nil {cursor : Cursor} {skipped : Option Finding × Cursor}
    (isSkipped : skipLayout .blank cursor.rest cursor.offset = skipped) (left : skipped.2.rest = []) :
    lexemes cursor = (skipped.1.map Lexeme.finding).toList ++
      [.token ⟨.endOfFile, ⟨skipped.2.offset, skipped.2.offset⟩⟩] := by
  subst isSkipped
  rw [lexemes]
  dsimp only
  split
  · rfl
  · next isMore =>
    rw [left] at isMore
    cases isMore

/-- Where a character is left behind the layout, a lexeme begins with it. -/
theorem lexemes_of_cons {cursor : Cursor} {skipped : Option Finding × Cursor} {first : Char} {rest : List Char}
    (isSkipped : skipLayout .blank cursor.rest cursor.offset = skipped) (left : skipped.2.rest = first :: rest) :
    lexemes cursor = (skipped.1.map Lexeme.finding).toList ++ (readLexeme first rest skipped.2.offset).found ++
      lexemes (readLexeme first rest skipped.2.offset).cursor := by
  subst isSkipped
  rw [lexemes]
  dsimp only
  split
  · next isEnd =>
    rw [left] at isEnd
    cases isEnd
  · next isMore =>
    rw [left] at isMore
    cases isMore
    rfl

end Snippet.Lexer

namespace Snippet

/-- The tokens among lexemes. -/
def Lexeme.token? : Lexeme → Option PlacedToken
  | token placed => some placed
  | finding _ => none

/-- The findings among lexemes. -/
def Lexeme.finding? : Lexeme → Option Finding
  | token _ => none
  | finding found => some found

/-- The tokens of a source text, the last of them the end of the text, or all that is wrong. -/
def tokenize (source : String) : Except (List Finding) (List PlacedToken) :=
  let lexemes := Lexer.lexemes ⟨source.toList, 0⟩
  match lexemes.filterMap Lexeme.finding? with
  | [] => .ok (lexemes.filterMap Lexeme.token?)
  | findings => .error findings

end Snippet
