import Snippet.Proofs.Source.Piece

/-!
What is read of a text does not depend on what stands behind it. Main statements: a number or a word is read as the
same token when its characters stand in front of a blank or at the end of a text, and so is a text literal.
-/

namespace Snippet

open Text

/-- Whether a text ends here or goes on with a blank. -/
def AtBreak (rest : List Char) : Prop := rest.head?.all isLayout = true

theorem isLayout_cases {character : Char} (isBlank : isLayout character = true) :
    character = ' ' ∨ character = '\t' ∨ character = '\n' ∨ character = '\r' := by
  simpa [isLayout, or_assoc] using isBlank

theorem toNat_ofNat_of_isValidChar {point : Nat} (isValid : point.isValidChar) : (Char.ofNat point).toNat = point := by
  rw [Char.ofNat, dif_pos isValid]
  rfl

theorem utf8Size_of_isLayout {character : Char} (isBlank : isLayout character = true) : character.utf8Size = 1 := by
  obtain rfl | rfl | rfl | rfl := isLayout_cases isBlank <;> rfl

namespace AtBreak

variable {rest : List Char}

/-- At a break stands no character of a class without blanks. -/
theorem any_eq_false (stops : AtBreak rest) {inClass : Char → Bool}
    (never : inClass ' ' = false ∧ inClass '\t' = false ∧ inClass '\n' = false ∧ inClass '\r' = false) :
    rest.head?.any inClass = false := by
  cases rest with
  | nil => rfl
  | cons first rest =>
      obtain rfl | rfl | rfl | rfl := isLayout_cases stops
      · exact never.1
      · exact never.2.1
      · exact never.2.2.1
      · exact never.2.2.2

theorem head_ne (stops : AtBreak rest) {first : Char} {behind : List Char} (starts : rest = first :: behind)
    (other : Char) (never : isLayout other = false) : first ≠ other := by
  subst starts
  rintro rfl
  exact Bool.false_ne_true (never.symm.trans stops)

end AtBreak

/-! ### Cursors -/

namespace Cursor

/-- Whether a cursor is reached from another one by taking characters. -/
def Reaches (cursor : Cursor) (used : List Char) (behind : Cursor) : Prop :=
  cursor.rest = used ++ behind.rest ∧ behind.offset = cursor.offset + byteSize used

theorem byteSize_append (first second : List Char) : byteSize (first ++ second) = byteSize first + byteSize second := by
  induction first with
  | nil => exact (Nat.zero_add _).symm
  | cons character rest ih =>
      show character.utf8Size + byteSize (rest ++ second) = character.utf8Size + byteSize rest + byteSize second
      rw [ih, Nat.add_assoc]

theorem byteSize_cons (character : Char) (rest : List Char) :
    byteSize (character :: rest) = character.utf8Size + byteSize rest := rfl

/-- The number of bytes of characters is that of the text that they make up. -/
theorem utf8ByteSize_ofList (characters : List Char) :
    (String.ofList characters).utf8ByteSize = byteSize characters := by
  induction characters with
  | nil => rfl
  | cons character rest ih =>
      rw [String.ofList_cons, String.utf8ByteSize_append, ih]
      simp [byteSize_cons]

theorem reaches_refl (cursor : Cursor) : cursor.Reaches [] cursor := ⟨rfl, rfl⟩

theorem Reaches.trans {first second third : Cursor} {used others : List Char} (head : first.Reaches used second)
    (tail : second.Reaches others third) : first.Reaches (used ++ others) third :=
  ⟨by rw [head.1, tail.1, List.append_assoc], by rw [tail.2, head.2, byteSize_append, Nat.add_assoc]⟩

theorem reaches_drop (cursor : Cursor) (count : Nat) : cursor.Reaches (cursor.rest.take count) (cursor.drop count) :=
  ⟨(List.take_append_drop count cursor.rest).symm, rfl⟩

theorem reaches_skip (cursor : Cursor) (inClass : Char → Bool) :
    cursor.Reaches (cursor.run inClass) (cursor.skip inClass) :=
  ⟨List.takeWhile_append_dropWhile.symm, rfl⟩

/-- A character that is there is taken. -/
theorem length_drop_one {cursor : Cursor} {inClass : Char → Bool} (isThere : cursor.rest.head?.any inClass = true) :
    (cursor.drop 1).rest.length + 1 = cursor.rest.length := by
  rw [Cursor.drop]
  cases isRest : cursor.rest with
  | nil =>
      rw [isRest] at isThere
      cases isThere
  | cons first rest => rfl

/-- Whether the same characters stand at two cursors in front of two rests. -/
def Beside (left left' : List Char) (first second : Cursor) : Prop :=
  ∃ used : List Char, first.rest = used ++ left ∧ second.rest = used ++ left'

namespace Beside

variable {left left' : List Char} {first second : Cursor}

/-- Two cursors at the rests, or at one character in front of them. -/
theorem cases (beside : Beside left left' first second) : first.rest = left ∧ second.rest = left' ∨
    second.rest.head? = first.rest.head? ∧ left.length + 1 ≤ first.rest.length := by
  obtain ⟨_ | ⟨character, used⟩, isFirst, isSecond⟩ := beside
  · exact .inl ⟨isFirst, isSecond⟩
  · refine .inr ⟨by rw [isFirst, isSecond]; rfl, ?_⟩
    rw [isFirst, List.cons_append, List.length_cons, List.length_append]
    omega

/-- Characters that lie in front of the rests are taken at both cursors. -/
theorem drop (beside : Beside left left' first second) (count : Nat) (short : left.length + count ≤ first.rest.length) :
    Beside left left' (first.drop count) (second.drop count) := by
  obtain ⟨used, isFirst, isSecond⟩ := beside
  have inside : count ≤ used.length := by
    rw [isFirst, List.length_append] at short
    omega
  refine ⟨used.drop count, ?_, ?_⟩
  · rw [Cursor.drop, isFirst, List.drop_append_of_le_length inside]
  · rw [Cursor.drop, isSecond, List.drop_append_of_le_length inside]

/-- A run of characters that does not reach into the rest is the same in front of another rest. -/
theorem dropWhile_beside {inClass : Char → Bool} (stops : left'.head?.any inClass = false) (used : List Char)
    (short : left.length ≤ ((used ++ left).dropWhile inClass).length) :
    (used ++ left').takeWhile inClass = (used ++ left).takeWhile inClass ∧ ∃ behind : List Char,
      (used ++ left).dropWhile inClass = behind ++ left ∧ (used ++ left').dropWhile inClass = behind ++ left' := by
  induction used with
  | nil =>
      have stays (rest : List Char) (never : rest.head?.any inClass = false) :
          rest.takeWhile inClass = [] ∧ rest.dropWhile inClass = rest := by
        cases rest with
        | nil => exact ⟨rfl, rfl⟩
        | cons next rest =>
            have never : inClass next = false := never
            simp [never]
      have never : left.head?.any inClass = false := by
        cases left with
        | nil => rfl
        | cons next rest =>
            refine Bool.eq_false_iff.2 fun accepted => ?_
            have accepted : inClass next = true := accepted
            rw [List.nil_append, List.dropWhile_cons, if_pos accepted] at short
            exact absurd (Nat.le_trans short (List.dropWhile_sublist inClass).length_le) (by simp)
      exact ⟨(stays left' stops).1.trans (stays left never).1.symm, [], (stays left never).2, (stays left' stops).2⟩
  | cons character used ih =>
      cases accepted : inClass character with
      | false => exact ⟨by simp [accepted], character :: used, by simp [accepted], by simp [accepted]⟩
      | true =>
          rw [List.cons_append, List.dropWhile_cons, accepted, if_pos rfl] at short
          obtain ⟨sameRun, behind⟩ := ih short
          simp only [List.cons_append, List.takeWhile_cons, List.dropWhile_cons, accepted, if_true]
          exact ⟨congrArg (character :: ·) sameRun, behind⟩

theorem skip (beside : Beside left left' first second) {inClass : Char → Bool}
    (stops : left'.head?.any inClass = false) (short : left.length ≤ (first.skip inClass).rest.length) :
    second.run inClass = first.run inClass ∧ Beside left left' (first.skip inClass) (second.skip inClass) := by
  obtain ⟨used, isFirst, isSecond⟩ := beside
  simp only [Cursor.skip, isFirst] at short
  simp only [Cursor.run, isFirst, isSecond, Beside, Cursor.skip]
  exact dropWhile_beside stops used short

end Beside

end Cursor

/-! ### Numbers -/

/-- Whether two numbers are the same, read at cursors with the same characters in front of two rests. -/
structure Lexer.Numeral.Beside (left left' : List Char) (first second : Lexer.Numeral) : Prop where
  same : second = { first with cursor := second.cursor }
  cursors : first.cursor.Beside left left' second.cursor

namespace Lexer

/-- Whether a fraction starts here. -/
def startsFraction (rest : List Char) : Bool := rest[0]? == some '.' && rest[1]?.any Char.isDigit

/-- The sign of the exponent that starts here, and the number of characters in front of its digits. -/
def exponentMark? (rest : List Char) : Option (Bool × Nat) :=
  if rest[0]? = some 'e' ∨ rest[0]? = some 'E' then
    if rest[1]? = some '-' then if rest[2]?.any Char.isDigit then some (true, 2) else none
    else if rest[1]? = some '+' then if rest[2]?.any Char.isDigit then some (false, 2) else none
    else if rest[1]?.any Char.isDigit then some (false, 1) else none
  else none

theorem readFraction_eq (whole : List Char) (cursor : Cursor) : readFraction whole cursor =
    if startsFraction cursor.rest then
      ⟨whole, digitsAt (cursor.drop 1), 0, true, (cursor.drop 1).skip isDigitOrGap⟩
    else ⟨whole, [], 0, false, cursor⟩ := by
  unfold readFraction
  split
  · next digit tail isRest => simp [startsFraction, isRest]
  · next noPoint =>
    refine (if_neg ?_).symm
    simp only [startsFraction, Bool.and_eq_true, beq_iff_eq, not_and, Bool.not_eq_true]
    intro isPoint
    rcases isRest : cursor.rest with _ | ⟨first, _ | ⟨digit, tail⟩⟩
    · rfl
    · rfl
    · rw [isRest] at isPoint
      cases isPoint
      exact absurd isRest (noPoint digit tail)

theorem readExponent_eq (numeral : Numeral) : readExponent numeral =
    match exponentMark? numeral.cursor.rest with
    | none => numeral
    | some (isNegative, count) =>
      let behind := numeral.cursor.drop count
      let power : Int := Decimal.ofDigits (digitsAt behind)
      { numeral with
        exponent := if isNegative then -power else power
        isReal := true
        cursor := behind.skip isDigitOrGap } := by
  obtain ⟨whole, fraction, exponent, isReal, rest, offset⟩ := numeral
  rcases rest with _ | ⟨mark, rest⟩
  · rfl
  · by_cases isMark : mark = 'e' ∨ mark = 'E'
    · simp only [readExponent, if_pos isMark]
      split
      · next tail =>
        rcases tail with _ | ⟨digit, tail⟩
        · simp [exponentMark?, isMark, Cursor.drop]
        · cases isDigit : digit.isDigit <;> simp [exponentMark?, isMark, Cursor.drop, isDigit]
      · next tail =>
        rcases tail with _ | ⟨digit, tail⟩
        · simp [exponentMark?, isMark, Cursor.drop]
        · cases isDigit : digit.isDigit <;> simp [exponentMark?, isMark, Cursor.drop, isDigit]
      · next noMinus noPlus =>
        rcases rest with _ | ⟨digit, tail⟩
        · simp [exponentMark?, isMark, Cursor.drop]
        · have noMinus : digit ≠ '-' := fun same => noMinus tail (by rw [same])
          have noPlus : digit ≠ '+' := fun same => noPlus tail (by rw [same])
          cases isDigit : digit.isDigit <;> simp [exponentMark?, isMark, Cursor.drop, isDigit, noMinus, noPlus]
    · simp [readExponent, exponentMark?, isMark]

/-! What a number goes on with is seen in its own characters, which a break follows. -/

theorem exponentMark?_pos {rest : List Char} {found : Bool × Nat} (isFound : exponentMark? rest = some found) :
    1 ≤ found.2 := by
  unfold exponentMark? at isFound
  split at isFound
  · split at isFound
    · split at isFound <;> cases isFound
      decide
    · split at isFound <;> split at isFound <;> cases isFound <;> decide
  · cases isFound

section

variable {left left' : List Char} (stops : AtBreak left') (used : List Char)

include stops

theorem startsFraction_beside (short : startsFraction (used ++ left) = true → 1 < used.length) :
    startsFraction (used ++ left') = startsFraction (used ++ left) := by
  have noDigit : left'.head?.any Char.isDigit = false := stops.any_eq_false (by decide)
  have noPoint : left'.head?.any (· == '.') = false := stops.any_eq_false (by decide)
  rcases used with _ | ⟨first, _ | ⟨second, used⟩⟩
  · rw [Bool.eq_false_iff.2 fun starts => absurd (short starts) (by decide)]
    cases left' with
    | nil => rfl
    | cons next rest =>
        have noPoint : (next == '.') = false := noPoint
        simp_all [startsFraction]
  · rw [Bool.eq_false_iff.2 fun starts => absurd (short starts) (Nat.lt_irrefl 1)]
    cases left' with
    | nil => simp [startsFraction]
    | cons next rest =>
        have noDigit : next.isDigit = false := noDigit
        simp [startsFraction, noDigit]
  · rfl

theorem exponentMark?_beside
    (short : ∀ found : Bool × Nat, exponentMark? (used ++ left) = some found → found.2 < used.length) :
    exponentMark? (used ++ left') = exponentMark? (used ++ left) := by
  have noDigit : left'[0]?.any Char.isDigit = false := by
    rw [← List.head?_eq_getElem?]
    exact stops.any_eq_false (by decide)
  have noSign (sign : Char) (never : isLayout sign = false) : left'[0]? ≠ some sign := by
    intro isSign
    cases left' with
    | nil => cases isSign
    | cons next rest => exact stops.head_ne rfl sign never (Option.some.inj isSign)
  rcases used with _ | ⟨mark, _ | ⟨sign, _ | ⟨digit, used⟩⟩⟩
  · have never : exponentMark? left = none :=
      Option.eq_none_iff_forall_ne_some.2 fun found isFound => absurd (short found isFound) (Nat.not_lt_zero _)
    rw [List.nil_append, List.nil_append, never]
    simp [exponentMark?, noSign 'e' rfl, noSign 'E' rfl]
  · have never : exponentMark? ([mark] ++ left) = none :=
      Option.eq_none_iff_forall_ne_some.2 fun found isFound =>
        absurd (short found isFound) (Nat.not_lt_of_le (exponentMark?_pos isFound))
    rw [never]
    simp [exponentMark?, noSign '-' rfl, noSign '+' rfl, noDigit]
  · by_cases isSign : sign = '-' ∨ sign = '+'
    · -- Behind a sign the digits would lie in the rest.
      have never : exponentMark? ([mark, sign] ++ left) = none := by
        refine Option.eq_none_iff_forall_ne_some.2 fun found isFound => ?_
        have inside := short found isFound
        rcases isSign with rfl | rfl <;> simp [exponentMark?] at isFound <;> obtain ⟨_, _, rfl⟩ := isFound <;>
          exact absurd inside (Nat.lt_irrefl 2)
      rw [never]
      rcases isSign with rfl | rfl <;> simp [exponentMark?, noDigit]
    · obtain ⟨noMinus, noPlus⟩ := not_or.1 isSign
      simp [exponentMark?, noMinus, noPlus]
  · rfl

end

/-- Digits behind some characters are taken with these. -/
theorem length_digits_le (cursor : Cursor) {count : Nat} (isDigit : cursor.rest[count]?.any Char.isDigit = true) :
    ((cursor.drop count).skip isDigitOrGap).rest.length + count + 1 ≤ cursor.rest.length := by
  cases isRest : cursor.rest[count]? with
  | none =>
      rw [isRest] at isDigit
      cases isDigit
  | some digit =>
      rw [isRest] at isDigit
      have accepted : isDigitOrGap digit = true := by
        rw [isDigitOrGap, show digit.isDigit = true from isDigit, Bool.true_or]
      obtain ⟨inside, isRest⟩ := List.getElem?_eq_some_iff.1 isRest
      have taken := (List.dropWhile_sublist (l := cursor.rest.drop (count + 1)) isDigitOrGap).length_le
      rw [List.length_drop] at taken
      rw [Cursor.skip, Cursor.drop, List.drop_eq_getElem_cons inside, isRest, List.dropWhile_cons, if_pos accepted]
      dsimp only
      omega

section

variable {left left' : List Char} (stops : AtBreak left') {first second : Cursor} (beside : first.Beside left left' second)

include stops beside

theorem digits_beside (short : left.length ≤ (first.skip isDigitOrGap).rest.length) :
    digitsAt second = digitsAt first ∧ (first.skip isDigitOrGap).Beside left left' (second.skip isDigitOrGap) := by
  obtain ⟨sameRun, behind⟩ := beside.skip (stops.any_eq_false (by decide)) short
  exact ⟨by rw [digitsAt, sameRun, digitsAt], behind⟩

theorem readFraction_beside (whole : List Char) (short : left.length ≤ (readFraction whole first).cursor.rest.length) :
    (readFraction whole first).Beside left left' (readFraction whole second) := by
  obtain ⟨used, isFirst, isSecond⟩ := id beside
  rw [readFraction_eq] at short
  have same : startsFraction second.rest = startsFraction first.rest := by
    rw [isFirst, isSecond]
    refine startsFraction_beside stops used fun starts => ?_
    rw [← isFirst] at starts
    rw [if_pos starts] at short
    dsimp only at short
    have taken := length_digits_le first (Bool.and_eq_true_iff.1 starts).2
    rw [isFirst, List.length_append] at taken
    omega
  rw [readFraction_eq, readFraction_eq, same]
  split
  · next starts =>
    rw [if_pos starts] at short
    dsimp only at short
    have taken := length_digits_le first (Bool.and_eq_true_iff.1 starts).2
    obtain ⟨sameDigits, behind⟩ := digits_beside stops (beside.drop 1 (by omega)) short
    exact ⟨by rw [sameDigits], behind⟩
  · exact ⟨rfl, beside⟩

end

theorem exponentMark?_digit {rest : List Char} {found : Bool × Nat} (isFound : exponentMark? rest = some found) :
    rest[found.2]?.any Char.isDigit = true := by
  unfold exponentMark? at isFound
  split at isFound
  · split at isFound
    · split at isFound <;> cases isFound
      assumption
    · split at isFound <;> split at isFound <;> cases isFound <;> assumption
  · cases isFound

theorem readExponent_beside {left left' : List Char} (stops : AtBreak left') {first second : Numeral}
    (beside : first.Beside left left' second) (short : left.length ≤ (readExponent first).cursor.rest.length) :
    (readExponent first).Beside left left' (readExponent second) := by
  obtain ⟨same, cursors⟩ := beside
  obtain ⟨used, isFirst, isSecond⟩ := id cursors
  have sameMark : exponentMark? second.cursor.rest = exponentMark? first.cursor.rest := by
    rw [isFirst, isSecond]
    refine exponentMark?_beside stops used fun found isFound => ?_
    rw [← isFirst] at isFound
    have taken := length_digits_le first.cursor (exponentMark?_digit isFound)
    rw [readExponent_eq, isFound] at short
    have short : left.length ≤ ((first.cursor.drop found.2).skip isDigitOrGap).rest.length := short
    rw [isFirst, List.length_append] at taken
    omega
  rw [readExponent_eq] at short
  rw [readExponent_eq, readExponent_eq, sameMark]
  cases isFound : exponentMark? first.cursor.rest with
  | none => exact ⟨same, cursors⟩
  | some found =>
      rw [isFound] at short
      have taken := length_digits_le first.cursor (exponentMark?_digit isFound)
      have short : left.length ≤ ((first.cursor.drop found.2).skip isDigitOrGap).rest.length := short
      obtain ⟨sameDigits, behind⟩ := digits_beside stops (cursors.drop found.2 (by omega)) short
      refine ⟨?_, behind⟩
      dsimp only
      rw [same, sameDigits]

theorem readNumeral_beside {left left' : List Char} (stops : AtBreak left') {first second : Cursor}
    (beside : first.Beside left left' second) (short : left.length ≤ (readNumeral first).cursor.rest.length) :
    (readNumeral first).Beside left left' (readNumeral second) := by
  have exponent := length_readExponent_le (readFraction (digitsAt first) (first.skip isDigitOrGap))
  have fraction := length_readFraction_le (digitsAt first) (first.skip isDigitOrGap)
  have short' : left.length ≤ (readExponent (readFraction (digitsAt first) (first.skip isDigitOrGap))).cursor.rest.length :=
    short
  obtain ⟨sameDigits, behind⟩ := digits_beside stops beside (by omega)
  rw [readNumeral, readNumeral, sameDigits]
  exact readExponent_beside stops (readFraction_beside stops behind _ (by omega)) short

end Lexer

/-! ### Lexemes -/

/-- Whether nothing is wrong with what was read. -/
def Reading.IsClean (reading : Reading) : Prop := reading.found.filterMap Lexeme.finding? = []

/-- Whether two results are the same token, with the same characters in front of two rests behind it. -/
def Reading.Beside (left left' : List Char) (start start' : Nat) (first second : Reading) : Prop :=
  ∃ (token : Token) (cursor cursor' : Cursor), first = .token token start cursor ∧
    second = .token token start' cursor' ∧ cursor.Beside left left' cursor'

namespace Lexer

/-- Whether a character is the suffix of a `long`. -/
def isLongSuffix (suffix : Char) : Bool := suffix == 'l' || suffix == 'L'

/-- An integer literal behind its digits and the suffix of a `long`. -/
def finishInteger (start : Nat) (value : Option Nat) (isLong : Bool) (cursor : Cursor) : Reading :=
  if cursor.rest.head?.any fun suffix => suffix == 'u' || suffix == 'U' then
    .problem (.unsupported "unsigned literals") start (cursor.drop 1)
  else
    match value with
    | some number =>
      if !isLong && number < 0x80000000 then .token (.int (.ofNat number)) start cursor
      else if number < 0x8000000000000000 then .token (.long (.ofNat number)) start cursor
      else .problem .integerTooLarge start cursor
    | none => .problem .integerTooLarge start cursor

theorem readInteger_eq (start : Nat) (value : Option Nat) (cursor : Cursor) : readInteger start value cursor =
    finishInteger start value (cursor.rest.head?.any isLongSuffix)
      (if cursor.rest.head?.any isLongSuffix then cursor.drop 1 else cursor) := rfl

/-- Whether a character is the suffix of a `double`. -/
def isDoubleSuffix (suffix : Char) : Bool := suffix == 'd' || suffix == 'D'

/-- Whether a character is a suffix of a number that is refused. -/
def isRefusedSuffix (suffix : Char) : Bool := suffix == 'f' || suffix == 'F' || suffix == 'm' || suffix == 'M'

theorem readDecimal_eq (cursor : Cursor) : readDecimal cursor =
    let numeral := readNumeral cursor
    let behind := numeral.cursor
    if behind.rest.head?.any isDoubleSuffix then .token (.double numeral.toFloat) cursor.offset (behind.drop 1)
    else if behind.rest.head?.any isRefusedSuffix then
      .problem (.unsupported "float and decimal literals") cursor.offset (behind.drop 1)
    else if numeral.isReal then .token (.double numeral.toFloat) cursor.offset behind
    else readInteger cursor.offset (some (Decimal.ofDigits numeral.whole)) behind := by
  rw [readDecimal]
  dsimp only
  cases (readNumeral cursor).cursor.rest.head? <;> rfl

/-- Whether a hexadecimal number starts here. -/
def startsHexadecimal (rest : List Char) : Bool :=
  rest[0]? == some '0' && (rest[1]? == some 'x' || rest[1]? == some 'X')

theorem readNumber_eq (cursor : Cursor) : readNumber cursor =
    if startsHexadecimal cursor.rest then readHexadecimal cursor.offset (cursor.drop 2) else readDecimal cursor := by
  unfold readNumber
  split
  · next isRest => simp [startsHexadecimal, isRest]
  · next isRest => simp [startsHexadecimal, isRest]
  · next noSmall noGreat =>
    refine (if_neg fun isHexadecimal => ?_).symm
    simp only [startsHexadecimal, Bool.and_eq_true, Bool.or_eq_true, beq_iff_eq] at isHexadecimal
    rcases isRest : cursor.rest with _ | ⟨zero, _ | ⟨mark, tail⟩⟩
    · simp [isRest] at isHexadecimal
    · simp [isRest] at isHexadecimal
    · simp only [isRest, List.getElem?_cons_zero, List.getElem?_cons_succ, Option.some.injEq] at isHexadecimal
      obtain ⟨rfl, rfl | rfl⟩ := isHexadecimal
      · exact noSmall tail isRest
      · exact noGreat tail isRest

theorem length_drop_two {cursor : Cursor} (isHexadecimal : startsHexadecimal cursor.rest = true) :
    (cursor.drop 2).rest.length + 2 = cursor.rest.length := by
  rw [Cursor.drop]
  rcases isRest : cursor.rest with _ | ⟨zero, _ | ⟨mark, tail⟩⟩
  · simp [startsHexadecimal, isRest] at isHexadecimal
  · simp [startsHexadecimal, isRest] at isHexadecimal
  · rfl

theorem length_finishInteger_le (start : Nat) (value : Option Nat) (isLong : Bool) (cursor : Cursor) :
    (finishInteger start value isLong cursor).cursor.rest.length ≤ cursor.rest.length := by
  unfold finishInteger
  split
  · exact Cursor.length_drop_le cursor 1
  · split
    · split
      · exact Nat.le_refl _
      · split <;> exact Nat.le_refl _
    · exact Nat.le_refl _

theorem length_readDecimal_le_numeral (cursor : Cursor) :
    (readDecimal cursor).cursor.rest.length ≤ (readNumeral cursor).cursor.rest.length := by
  rw [readDecimal_eq]
  dsimp only
  split
  · exact Cursor.length_drop_le _ 1
  · split
    · exact Cursor.length_drop_le _ 1
    · split
      · exact Nat.le_refl _
      · exact length_readInteger_le ..

section

variable {left left' : List Char} (stops : AtBreak left') {first second : Cursor} (beside : first.Beside left left' second)

include stops beside

/-- A suffix that is no part of the rest is seen at both cursors. -/
theorem suffix_beside (inClass : Char → Bool)
    (never : inClass ' ' = false ∧ inClass '\t' = false ∧ inClass '\n' = false ∧ inClass '\r' = false)
    (short : first.rest.head?.any inClass = true → left.length + 1 ≤ first.rest.length) :
    second.rest.head?.any inClass = first.rest.head?.any inClass := by
  obtain ⟨isLeft, isLeft'⟩ | ⟨sameHead, _⟩ := beside.cases
  · rw [isLeft', stops.any_eq_false never]
    refine (Bool.eq_false_iff.2 fun isSuffix => ?_).symm
    have inside := short isSuffix
    rw [isLeft] at inside
    exact Nat.not_succ_le_self _ inside
  · rw [sameHead]

theorem finishInteger_beside {start start' : Nat} {value : Option Nat} {isLong : Bool}
    (clean : (finishInteger start value isLong first).IsClean) :
    Reading.Beside left left' start start' (finishInteger start value isLong first)
      (finishInteger start' value isLong second) := by
  unfold finishInteger at clean ⊢
  split at clean
  · cases clean
  · next signed =>
    have sameSuffix := suffix_beside stops beside (fun suffix => suffix == 'u' || suffix == 'U') (by decide)
      fun isSuffix => absurd isSuffix signed
    rw [sameSuffix, if_neg signed, if_neg signed]
    split at clean
    · next number =>
      by_cases fitsInt : (!isLong && number < 0x80000000) = true
      · simp only [fitsInt, if_true]
        exact ⟨_, _, _, rfl, rfl, beside⟩
      · simp only [fitsInt] at clean ⊢
        by_cases fitsLong : number < 0x8000000000000000
        · simp only [fitsLong, if_true]
          exact ⟨_, _, _, rfl, rfl, beside⟩
        · simp only [fitsLong, if_false] at clean
          cases clean
    · cases clean

theorem readInteger_beside {start start' : Nat} {value : Option Nat}
    (clean : (readInteger start value first).IsClean)
    (short : left.length ≤ (readInteger start value first).cursor.rest.length) :
    Reading.Beside left left' start start' (readInteger start value first) (readInteger start' value second) := by
  rw [readInteger_eq] at clean short ⊢
  rw [readInteger_eq]
  have inside := Nat.le_trans short (length_finishInteger_le ..)
  have sameSuffix := suffix_beside stops beside isLongSuffix (by decide) fun isSuffix => by
    rw [if_pos isSuffix] at inside
    have taken := Cursor.length_drop_one isSuffix
    omega
  rw [sameSuffix]
  refine finishInteger_beside stops ?_ clean
  split
  · next isSuffix =>
    rw [if_pos isSuffix] at inside
    have taken := Cursor.length_drop_one isSuffix
    exact beside.drop 1 (by omega)
  · exact beside

theorem readDecimal_beside (clean : (readDecimal first).IsClean)
    (short : left.length ≤ (readDecimal first).cursor.rest.length) :
    Reading.Beside left left' first.offset second.offset (readDecimal first) (readDecimal second) := by
  have inside := Nat.le_trans short (length_readDecimal_le_numeral first)
  obtain ⟨same, cursors⟩ := readNumeral_beside stops beside inside
  rw [readDecimal_eq] at clean short ⊢
  rw [readDecimal_eq, same]
  dsimp only at clean short ⊢
  have sameDouble := suffix_beside stops cursors isDoubleSuffix (by decide) fun isSuffix => by
    rw [if_pos isSuffix] at short
    have taken := Cursor.length_drop_one isSuffix
    have short : left.length ≤ ((readNumeral first).cursor.drop 1).rest.length := short
    omega
  rw [sameDouble]
  split at clean
  · next isSuffix =>
    rw [if_pos isSuffix] at short
    have taken := Cursor.length_drop_one isSuffix
    have short : left.length ≤ ((readNumeral first).cursor.drop 1).rest.length := short
    rw [if_pos isSuffix, if_pos isSuffix]
    exact ⟨_, _, _, rfl, rfl, cursors.drop 1 (by omega)⟩
  · next noDouble =>
    rw [if_neg noDouble] at short ⊢
    rw [if_neg noDouble]
    split at clean
    · cases clean
    · next notRefused =>
      have sameRefused := suffix_beside stops cursors isRefusedSuffix (by decide) fun isSuffix =>
        absurd isSuffix notRefused
      rw [if_neg notRefused] at short ⊢
      rw [sameRefused, if_neg notRefused]
      split at clean
      · next isReal =>
        rw [if_pos isReal, if_pos isReal]
        exact ⟨_, _, _, rfl, rfl, cursors⟩
      · next isWhole =>
        rw [if_neg isWhole] at short ⊢
        rw [if_neg isWhole]
        exact readInteger_beside stops cursors clean short

theorem readHexadecimal_beside {start start' : Nat} (clean : (readHexadecimal start first).IsClean)
    (short : left.length ≤ (readHexadecimal start first).cursor.rest.length) :
    Reading.Beside left left' start start' (readHexadecimal start first) (readHexadecimal start' second) := by
  have skipped := length_readInteger_le start
    (if (first.run isHexDigit).isEmpty then none else hexNumber? (first.run isHexDigit)) (first.skip isHexDigit)
  obtain ⟨sameRun, behind⟩ := beside.skip (stops.any_eq_false (by decide)) (Nat.le_trans short skipped)
  rw [readHexadecimal] at clean short
  rw [readHexadecimal, readHexadecimal, sameRun]
  exact readInteger_beside stops behind clean short

/-- A number that takes a character is the same in front of a break. -/
theorem readNumber_beside (clean : (readNumber first).IsClean)
    (short : left.length ≤ (readNumber first).cursor.rest.length) (takes : left.length < first.rest.length) :
    Reading.Beside left left' first.offset second.offset (readNumber first) (readNumber second) := by
  obtain ⟨used, isFirst, isSecond⟩ := id beside
  rw [readNumber_eq] at clean short ⊢
  rw [readNumber_eq]
  have inside (isHexadecimal : startsHexadecimal first.rest = true) : left.length + 2 ≤ first.rest.length := by
    rw [if_pos isHexadecimal] at short
    have taken := length_drop_two isHexadecimal
    have skipped := length_readHexadecimal_le first.offset (first.drop 2)
    have dropped := Cursor.length_skip_le (first.drop 2) isHexDigit
    omega
  have sameKind : startsHexadecimal second.rest = startsHexadecimal first.rest := by
    rcases used with _ | ⟨zero, _ | ⟨mark, used⟩⟩
    · rw [isFirst] at takes
      exact absurd takes (Nat.lt_irrefl _)
    · have isDecimal : startsHexadecimal first.rest = false := by
        refine Bool.eq_false_iff.2 fun isHexadecimal => ?_
        have inside := inside isHexadecimal
        rw [isFirst, List.length_append, List.length_singleton] at inside
        omega
      rw [isDecimal]
      have noMark : left'.head?.any (fun mark => mark == 'x' || mark == 'X') = false := stops.any_eq_false (by decide)
      rw [isSecond]
      cases left' with
      | nil => simp [startsHexadecimal]
      | cons mark tail =>
          have noMark : (mark == 'x' || mark == 'X') = false := noMark
          simp_all [startsHexadecimal]
    · rw [isFirst, isSecond]
      rfl
  rw [sameKind]
  split at clean
  · next isHexadecimal =>
    have taken := length_drop_two isHexadecimal
    have within := inside isHexadecimal
    rw [if_pos isHexadecimal] at short ⊢
    rw [if_pos isHexadecimal]
    exact readHexadecimal_beside stops (beside.drop 2 within) clean short
  · next isDecimal =>
    rw [if_neg isDecimal] at short ⊢
    rw [if_neg isDecimal]
    exact readDecimal_beside stops beside clean short

theorem readWord_beside (short : left.length ≤ (readWord first).cursor.rest.length) :
    Reading.Beside left left' first.offset second.offset (readWord first) (readWord second) := by
  obtain ⟨sameRun, behind⟩ := beside.skip (stops.any_eq_false (by decide)) short
  rw [readWord, readWord, sameRun]
  exact ⟨_, _, _, rfl, rfl, behind⟩

end

/-! ### Text literals -/

theorem utf8Size_of_hexDigit? {character : Char} (isDigit : (hexDigit? character).isSome = true) :
    character.utf8Size = 1 := by
  refine Char.utf8Size_eq_one_iff.2 ?_
  unfold hexDigit? at isDigit
  split at isDigit
  · next decimal =>
    exact UInt32.le_trans (of_decide_eq_true (Bool.and_eq_true_iff.1 decimal).2) (by decide)
  · split at isDigit
    · next small => exact UInt32.le_trans small.2 (by decide)
    · split at isDigit
      · next great => exact UInt32.le_trans great.2 (by decide)
      · cases isDigit

theorem hexDigits_of_hexNumber? {digits : List Char} {number : Nat} (isNumber : hexNumber? digits = some number) :
    ∀ digit ∈ digits, (hexDigit? digit).isSome = true := by
  unfold hexNumber? at isNumber
  generalize 0 = front at isNumber
  induction digits generalizing front with
  | nil => exact fun _ member => absurd member List.not_mem_nil
  | cons first rest ih =>
      rw [List.foldlM_cons] at isNumber
      cases isDigit : hexDigit? first with
      | none =>
          rw [isDigit] at isNumber
          cases isNumber
      | some digit =>
          rw [isDigit] at isNumber
          exact List.forall_mem_cons.2 ⟨by rw [isDigit]; rfl, ih _ isNumber⟩

theorem byteSize_of_hexNumber? {digits : List Char} {number : Nat} (isNumber : hexNumber? digits = some number) :
    byteSize digits = digits.length := by
  have sizes := hexDigits_of_hexNumber? isNumber
  clear isNumber
  induction digits with
  | nil => rfl
  | cons first rest ih =>
      obtain ⟨isDigit, others⟩ := List.forall_mem_cons.1 sizes
      rw [Cursor.byteSize_cons, utf8Size_of_hexDigit? isDigit, ih others, List.length_cons, Nat.add_comm]

theorem byteSize_of_escapedPoint? {characters : List Char} {point : Nat}
    (isPoint : escapedPoint? characters = some point) : byteSize characters = characters.length := by
  unfold escapedPoint? at isPoint
  split at isPoint
  · next digits =>
    rw [Cursor.byteSize_cons, byteSize_of_hexNumber? isPoint, List.length_cons, Nat.add_comm]
    rfl
  · exact byteSize_of_hexNumber? isPoint

/-- The characters of an escape with a code point are ASCII. -/
theorem byteSize_of_point {first second third fourth : Char} {point : Nat}
    (isPoint : escapedPoint? [first, second, third, fourth] = some point) :
    byteSize ['\\', 'u', first, second, third, fourth] = 6 := by
  rw [Cursor.byteSize_cons, Cursor.byteSize_cons, byteSize_of_escapedPoint? isPoint]
  rfl

theorem readText_cons {character : Char} (noEscape : character ≠ '\\') (start : Nat) (rest : List Char) (offset : Nat) :
    readText start (character :: rest) offset =
      if character = '"' then ⟨[], [], ⟨rest, offset + 1⟩⟩
      else if character = '\n' ∨ character = '\r' then
        ⟨[], [⟨.newlineInLiteral, ⟨start, offset⟩⟩], ⟨character :: rest, offset⟩⟩
      else (readText start rest (offset + character.utf8Size)).push character := by
  rw [readText]
  · exact fun _ _ _ _ _ isEscape => absurd isEscape noEscape
  · exact fun _ _ isEscape => absurd isEscape noEscape
  · exact fun isEscape => absurd isEscape noEscape

/-- A text literal without problems is the same in front of any rest. -/
theorem readText_local (start : Nat) (characters : List Char) (offset : Nat)
    (clean : (readText start characters offset).findings = []) : ∃ used : List Char,
    characters = used ++ (readText start characters offset).cursor.rest ∧
      ∀ (start' : Nat) (other : List Char) (offset' : Nat), readText start' (used ++ other) offset' =
        ⟨(readText start characters offset).value, [], ⟨other, offset' + byteSize used⟩⟩ := by
  fun_induction readText start characters offset with
  | case1 | case3 | case4 | case6 | case7 | case9 => cases clean
  | case2 first second third fourth rest offset point isPoint character isScalar ih =>
      obtain ⟨used, isRest, reads⟩ := ih clean
      refine ⟨'\\' :: 'u' :: first :: second :: third :: fourth :: used, ?_, fun start' other offset' => ?_⟩
      · simp only [List.cons_append, List.cons.injEq, true_and]
        exact isRest
      · have sizes : byteSize [first, second, third, fourth] = 4 := byteSize_of_escapedPoint? isPoint
        rw [List.cons_append, List.cons_append, List.cons_append, List.cons_append, List.cons_append, List.cons_append,
          readText, isPoint]
        dsimp only
        rw [isScalar]
        dsimp only
        rw [reads]
        have behind : offset' + 6 + byteSize used =
            offset' + byteSize ('\\' :: 'u' :: ([first, second, third, fourth] ++ used)) := by
          rw [Cursor.byteSize_cons, Cursor.byteSize_cons, Cursor.byteSize_append, sizes]
          have slash : '\\'.utf8Size = 1 := rfl
          have letter : 'u'.utf8Size = 1 := rfl
          omega
        rw [behind]
        rfl
  | case5 letter rest offset noUnicode behind character isEscape ih =>
      obtain ⟨used, isRest, reads⟩ := ih clean
      have noUnicode : letter ≠ 'u' := by
        rintro rfl
        cases isEscape
      refine ⟨'\\' :: letter :: used, ?_, fun start' other offset' => ?_⟩
      · simp only [List.cons_append, List.cons.injEq, true_and]
        exact isRest
      · rw [List.cons_append, List.cons_append, readText, isEscape]
        · dsimp only
          rw [reads, Cursor.byteSize_cons, Cursor.byteSize_cons, Nat.add_assoc, Nat.add_assoc]
          rfl
        · exact fun _ _ _ _ _ isUnicode => absurd isUnicode noUnicode
  | case8 rest offset =>
      refine ⟨['"'], rfl, fun start' other offset' => ?_⟩
      rw [List.singleton_append, readText_cons (by decide)]
      rfl
  | case10 character rest offset noUnicode noEscape noSlash noQuote noBreak ih =>
      obtain ⟨used, isRest, reads⟩ := ih clean
      refine ⟨character :: used, ?_, fun start' other offset' => ?_⟩
      · rw [List.cons_append]
        exact congrArg (character :: ·) isRest
      · have noBackslash : character ≠ '\\' := by
          rintro rfl
          cases rest with
          | nil => exact noSlash rfl rfl
          | cons letter rest => exact noEscape letter rest rfl rfl
        rw [List.cons_append, readText_cons noBackslash, if_neg noQuote, if_neg noBreak, reads, Cursor.byteSize_cons,
          Nat.add_assoc]
        rfl

/-- A verbatim literal without problems is the same in front of any rest that starts with no quote. -/
theorem readVerbatim_local (start : Nat) (characters : List Char) (offset : Nat)
    (clean : (readVerbatim start characters offset).findings = []) : ∃ used : List Char,
    characters = used ++ (readVerbatim start characters offset).cursor.rest ∧
      (readVerbatim start characters offset).cursor.rest.head? ≠ some '"' ∧
      ∀ (start' : Nat) (other : List Char) (offset' : Nat), other.head? ≠ some '"' →
        readVerbatim start' (used ++ other) offset' =
          ⟨(readVerbatim start characters offset).value, [], ⟨other, offset' + byteSize used⟩⟩ := by
  fun_induction readVerbatim start characters offset with
  | case1 => cases clean
  | case2 rest offset ih =>
      obtain ⟨used, isRest, ends, reads⟩ := ih clean
      refine ⟨'"' :: '"' :: used, ?_, ends, fun start' other offset' noQuote => ?_⟩
      · simp only [List.cons_append, List.cons.injEq, true_and]
        exact isRest
      · rw [List.cons_append, List.cons_append, readVerbatim, reads _ _ _ noQuote, Cursor.byteSize_cons,
          Cursor.byteSize_cons, ← Nat.add_assoc, ← Nat.add_assoc]
        rfl
  | case3 rest offset single =>
      refine ⟨['"'], rfl, fun isQuote => ?_, fun start' other offset' noQuote => ?_⟩
      · obtain ⟨behind, isRest⟩ := List.head?_eq_some_iff.1 isQuote
        exact single behind rfl isRest
      · rw [List.singleton_append, readVerbatim]
        · rfl
        · exact fun behind _ isOther => noQuote (by rw [isOther]; rfl)
  | case4 character rest offset _ noQuote ih =>
      obtain ⟨used, isRest, ends, reads⟩ := ih clean
      refine ⟨character :: used, ?_, ends, fun start' other offset' noQuote' => ?_⟩
      · rw [List.cons_append]
        exact congrArg (character :: ·) isRest
      · rw [List.cons_append, readVerbatim, if_neg noQuote, reads _ _ _ noQuote', Cursor.byteSize_cons, Nat.add_assoc]
        · rfl
        · exact fun _ isQuote => absurd isQuote noQuote

/-! ### What a lexeme takes -/

theorem readInteger_reaches (start : Nat) (value : Option Nat) (cursor : Cursor) :
    ∃ used : List Char, cursor.Reaches used (readInteger start value cursor).cursor := by
  have finished (isLong : Bool) (behind : Cursor) :
      ∃ used : List Char, behind.Reaches used (finishInteger start value isLong behind).cursor := by
    unfold finishInteger
    split
    · exact ⟨_, behind.reaches_drop 1⟩
    · split
      · split
        · exact ⟨_, behind.reaches_refl⟩
        · split <;> exact ⟨_, behind.reaches_refl⟩
      · exact ⟨_, behind.reaches_refl⟩
  rw [readInteger_eq]
  obtain ⟨used, reaches⟩ := finished (cursor.rest.head?.any isLongSuffix)
    (if cursor.rest.head?.any isLongSuffix then cursor.drop 1 else cursor)
  split
  · next isLong =>
    rw [if_pos isLong] at reaches
    exact ⟨_, (cursor.reaches_drop 1).trans reaches⟩
  · next isShort =>
    rw [if_neg isShort] at reaches
    exact ⟨_, reaches⟩

theorem readNumeral_reaches (cursor : Cursor) : ∃ used : List Char, cursor.Reaches used (readNumeral cursor).cursor := by
  have fraction (whole : List Char) (behind : Cursor) :
      ∃ used : List Char, behind.Reaches used (readFraction whole behind).cursor := by
    rw [readFraction_eq]
    split
    · exact ⟨_, (behind.reaches_drop 1).trans (Cursor.reaches_skip _ _)⟩
    · exact ⟨_, behind.reaches_refl⟩
  have exponent (numeral : Numeral) : ∃ used : List Char, numeral.cursor.Reaches used (readExponent numeral).cursor := by
    rw [readExponent_eq]
    split
    · exact ⟨_, numeral.cursor.reaches_refl⟩
    · exact ⟨_, (numeral.cursor.reaches_drop _).trans (Cursor.reaches_skip _ _)⟩
  obtain ⟨front, isFront⟩ := fraction (digitsAt cursor) (cursor.skip isDigitOrGap)
  obtain ⟨back, isBack⟩ := exponent (readFraction (digitsAt cursor) (cursor.skip isDigitOrGap))
  exact ⟨_, ((cursor.reaches_skip isDigitOrGap).trans isFront).trans isBack⟩

theorem readNumber_reaches (cursor : Cursor) : ∃ used : List Char, cursor.Reaches used (readNumber cursor).cursor := by
  rw [readNumber_eq]
  split
  · obtain ⟨used, reaches⟩ := readInteger_reaches cursor.offset
      (if ((cursor.drop 2).run isHexDigit).isEmpty then none else hexNumber? ((cursor.drop 2).run isHexDigit))
      ((cursor.drop 2).skip isHexDigit)
    exact ⟨_, ((cursor.reaches_drop 2).trans (Cursor.reaches_skip _ _)).trans reaches⟩
  · obtain ⟨front, isFront⟩ := readNumeral_reaches cursor
    obtain ⟨back, isBack⟩ := readInteger_reaches cursor.offset (some (Decimal.ofDigits (readNumeral cursor).whole))
      (readNumeral cursor).cursor
    rw [readDecimal_eq]
    dsimp only
    split
    · exact ⟨_, isFront.trans (Cursor.reaches_drop _ 1)⟩
    · split
      · exact ⟨_, isFront.trans (Cursor.reaches_drop _ 1)⟩
      · split
        · exact ⟨_, isFront⟩
        · exact ⟨_, isFront.trans isBack⟩

/-- Whether characters are read as a token, whatever rest stands behind a break. -/
def ReadsAlone (read : Cursor → Reading) (characters : List Char) (token : Token) : Prop :=
  ∀ (other : List Char) (offset : Nat), AtBreak other →
    read ⟨characters ++ other, offset⟩ = .token token offset ⟨other, offset + byteSize characters⟩

/-- What is the same in front of two rests is read alone. -/
theorem ReadsAlone.of_beside {read : Cursor → Reading} (cursor : Cursor)
    (reaches : ∀ cursor : Cursor, ∃ used : List Char, cursor.Reaches used (read cursor).cursor)
    (same : ∀ (left' : List Char) (second : Cursor), AtBreak left' →
      cursor.Beside (read cursor).cursor.rest left' second →
        Reading.Beside (read cursor).cursor.rest left' cursor.offset second.offset (read cursor) (read second)) :
    ∃ (token : Token) (used : List Char), cursor.Reaches used (read cursor).cursor ∧
      read cursor = .token token cursor.offset (read cursor).cursor ∧ ReadsAlone read used token := by
  obtain ⟨used, isUsed⟩ := reaches cursor
  have beside (other : List Char) (offset : Nat) :
      cursor.Beside (read cursor).cursor.rest other ⟨used ++ other, offset⟩ := ⟨used, isUsed.1, rfl⟩
  obtain ⟨token, behind, _, isToken, _⟩ := same [] ⟨used ++ [], 0⟩ rfl (beside [] 0)
  refine ⟨token, used, isUsed, by rw [isToken]; rfl, fun other offset stops => ?_⟩
  obtain ⟨token', cursor', ⟨rest', offset'⟩, isToken', isRead, others, isRest, isRest'⟩ :=
    same other ⟨used ++ other, offset⟩ stops (beside other offset)
  obtain ⟨taken, isTaken⟩ := reaches ⟨used ++ other, offset⟩
  rw [isToken'] at isRest
  have none : others = [] := List.append_left_eq_self.1 isRest.symm
  subst none
  have isOther : rest' = other := isRest'
  subst isOther
  rw [isRead] at isTaken
  have sameUsed : used = taken := List.append_cancel_right isTaken.1
  have isOffset : offset' = offset + byteSize used := by
    rw [sameUsed]
    exact isTaken.2
  have sameToken : token = token' := by
    have found : ((read cursor).found.filterMap Lexeme.token?).map (·.token) = [token] := by
      rw [isToken]
      rfl
    rw [isToken'] at found
    exact (List.cons.inj found).1.symm
  rw [isRead, isOffset, sameToken]

end Lexer

end Snippet
