import Snippet.Proofs.Grammar.RoundTrip
import Snippet.Proofs.Source.Integer
import Snippet.Typing.Expression

/-!
Literals of 64-bit integers: a minus sign for a negative one, the digits of the magnitude and the suffix. They are read
and checked to the constants that they write, but for two: the magnitude of the least 64-bit integer is too large, and a
minus sign in front of that of the least 32-bit integer gives a 32-bit integer. Main statement:
`longText_readsAsConstant_iff`.
-/

namespace Snippet

/-! ### Texts -/

/-- A magnitude in decimal digits with the suffix of a 64-bit integer. -/
def magnitudeText (magnitude : Nat) : List Char := Nat.toDigits 10 magnitude ++ ['L']

/-- A minus sign for a negative number. -/
def signText (number : Int64) : List Char := if number < 0 then ['-'] else []

/-- The literal of a 64-bit integer. -/
def longText (number : Int64) : String := String.ofList (signText number ++ magnitudeText number.toInt.natAbs)

namespace Lexer

/-- A magnitude that fits is the token of a 64-bit integer. -/
theorem lexemes_magnitudeText {magnitude : Nat} (fits : magnitude < 0x8000000000000000) (offset : Nat) :
    ∃ span stop, lexemes ⟨magnitudeText magnitude, offset⟩ = lexemesOf [⟨.long (.ofNat magnitude), span⟩] stop := by
  have reads := (Spells.toDigits magnitude).lexemes_eq (.inr (.inr rfl)) offset
  have isToken : finishInteger offset (some magnitude) true ⟨[], offset + byteSize (magnitudeText magnitude)⟩ =
      .token (.long (.ofNat magnitude)) offset ⟨[], offset + byteSize (magnitudeText magnitude)⟩ := if_pos fits
  exact ⟨_, _, reads.trans (congrArg (·.found ++ _) isToken)⟩

/-- A minus sign in front of a magnitude is a token by itself. -/
theorem readAs_minus (magnitude : Nat) : Piece.ReadAs ['-'] [.symbol .minus] (magnitudeText magnitude) := by
  obtain ⟨first, others, areDigits, isDigit⟩ := (Spells.toDigits magnitude).starts
  have noPair : Symbol.pair? '-' first = none := by
    unfold Symbol.pair?
    split <;> first | rfl | exact absurd isDigit (by decide)
  refine Piece.readAs_mark ?_
  rw [magnitudeText, areDigits, List.cons_append, Piece.standsAlone, symbol?, List.head?_cons, Option.bind_some, noPair]
  rfl

end Lexer

/-- The expression of a literal of a 64-bit integer. -/
def longExpr (number : Int64) : Expr :=
  if number < 0 then .unary ⟨0, 0⟩ .negate (.long ⟨0, 0⟩ (.ofNat number.toInt.natAbs))
  else .long ⟨0, 0⟩ (.ofNat number.toInt.natAbs)

/-- The literal of a number whose magnitude fits has the tokens of its expression. -/
theorem tokenize_longText {number : Int64} (fits : number.toInt.natAbs < 0x8000000000000000) :
    ∃ placed stop, tokenize (longText number) = .ok (placed ++ [⟨.endOfFile, stop⟩]) ∧
      placed.map (·.token) = (longExpr number).tokens := by
  suffices reads : ∃ placed stop, Lexer.lexemes ⟨(longText number).toList, 0⟩ = Lexer.lexemesOf placed stop ∧
      placed.map (·.token) = (longExpr number).tokens by
    obtain ⟨placed, stop, reads, areTokens⟩ := reads
    exact ⟨placed, _, tokenize_of_lexemes reads, areTokens⟩
  rw [longText, String.toList_ofList, signText, longExpr]
  split
  · obtain ⟨signs, behind, areSigns, readsSign⟩ := Lexer.readAs_minus number.toInt.natAbs 0
    obtain ⟨span, stop, reads⟩ := Lexer.lexemes_magnitudeText fits behind
    refine ⟨signs ++ [⟨.long (.ofNat number.toInt.natAbs), span⟩], stop, ?_, ?_⟩
    · rw [readsSign, reads, Lexer.lexemesOf, Lexer.lexemesOf, List.map_append, List.append_assoc]
    · rw [List.map_append, areSigns]
      rfl
  · obtain ⟨span, stop, reads⟩ := Lexer.lexemes_magnitudeText fits 0
    exact ⟨[⟨_, span⟩], stop, reads, rfl⟩

/-! ### Expressions -/

/-- Whether a text is the literal of a constant: its tokens are those of an expression up to the end of the text, and
whatever is declared around it, the checker gives the constant for it and notes nothing. -/
def ReadsAsConstant (text : String) (value : Constant) (type : Ty) : Prop :=
  ∃ tokens source next, tokenize text = .ok tokens ∧
    Reader.expression (readingFuel tokens) ⟨tokens, ⟨0, 0⟩⟩ = .ok (source, next) ∧
    next.rest.map (·.token) = [.endOfFile] ∧
    Check.expression source = pure (.mk (.const value) type source.span)

/-- The literal of a number whose magnitude fits is read as its expression. -/
theorem expression_longText {number : Int64} (fits : number.toInt.natAbs < 0x8000000000000000) :
    ∃ tokens source next, tokenize (longText number) = .ok tokens ∧
      Reader.expression (readingFuel tokens) ⟨tokens, ⟨0, 0⟩⟩ = .ok (source, next) ∧
      next.rest.map (·.token) = [.endOfFile] ∧ source.unplaced = (longExpr number).unplaced := by
  obtain ⟨placed, stop, lexes, areTokens⟩ := tokenize_longText fits
  have grouped : (longExpr number).IsGrouped := by
    unfold longExpr
    split
    · exact ⟨Nat.le_succ 8, trivial⟩
    · trivial
  have shows : Input.Shows ⟨placed ++ [⟨.endOfFile, stop⟩], ⟨0, 0⟩⟩ (longExpr number).tokens [⟨.endOfFile, stop⟩] :=
    ⟨List.cons_ne_nil _ _, placed, rfl, areTokens⟩
  have enough : 20 * (longExpr number).tokens.length + 18 ≤ readingFuel (placed ++ [⟨.endOfFile, stop⟩]) := by
    rw [readingFuel, ← areTokens, List.length_map, List.length_append]
    omega
  have ends (next : Input) (isRest : next.rest = [⟨.endOfFile, stop⟩]) : next.EndsLevel 0 := by
    have isEnd : next.token = .endOfFile := by rw [Input.token, isRest]
    exact ⟨by rw [isEnd]; exact Nat.le_refl 0, Input.seesTypeArguments_of_ne_less isEnd rfl⟩
  obtain ⟨source, next, read, same, isRest⟩ := (Reader.readsAll _ grouped).expression _ _ _ enough shows ends
  exact ⟨_, source, next, lexes, read, by rw [isRest]; rfl, same⟩

namespace Expr

variable {source operand : Expr} {place : Span}

theorem eq_long_of_unplaced {value : Int64} (same : source.unplaced = (long place value).unplaced) :
    ∃ span, source = long span value := by
  cases source <;> cases same
  exact ⟨_, rfl⟩

theorem eq_unary_of_unplaced {operator : UnaryOperator}
    (same : source.unplaced = (unary place operator operand).unplaced) :
    ∃ span inner, source = unary span operator inner ∧ inner.unplaced = operand.unplaced := by
  cases source with
  | unary span operator' inner =>
    injection same with _ sameOperator sameOperand
    exact ⟨span, inner, by rw [sameOperator], sameOperand⟩
  | _ => cases same

end Expr

namespace Check

/-- A minus sign in front of a 64-bit literal negates it, unless it is the magnitude of the least 32-bit integer. -/
theorem expression_negate_long {value : Int64} (notLeast : value ≠ 2147483648) (fits : value ≠ Int64.minValue)
    (span place : Span) :
    expression (.unary span .negate (.long place value)) = pure (.constant (.long (-value)) span) := by
  have notSpecial : isLeastMagnitude (.long place value) = false := beq_eq_false_iff_ne.2 notLeast
  have folds : Folding.negate? (.long value) = .ok (some (.long (-value))) := if_neg fits
  have negates : negate (.constant (.long value) place) span = pure (.constant (.long (-value)) span) := by
    simp only [negate, TypedExpr.constant, TypedExpr.constant?, folds]
  have isNumber : unary .negate (.constant (.long value) place) span =
      negate (.constant (.long value) place) span := rfl
  simp [expression, denote, Expr.core, notSpecial, asValue, isNumber, negates]

/-- With a minus sign, the magnitude of the least 32-bit integer is this integer, whether a suffix stands behind it
or not. -/
theorem expression_negate_leastMagnitude (span place : Span) :
    expression (.unary span .negate (.long place 2147483648)) = pure (.constant (.int Int32.minValue) span) := rfl

end Check

/-! ### Numbers -/

section Numbers

variable {number : Int64}

theorem ofNat_natAbs_of_neg (negative : number < 0) : Int64.ofNat number.toInt.natAbs = -number := by
  have below : number.toInt ≤ 0 := Int.le_of_lt (Int64.lt_iff_toInt_lt.1 negative)
  rw [← Int64.ofInt_eq_ofNat, Int.ofNat_natAbs_of_nonpos below, Int64.ofInt_neg, Int64.ofInt_toInt]

theorem ofNat_natAbs_of_not_neg (notNegative : ¬number < 0) : Int64.ofNat number.toInt.natAbs = number := by
  have above : 0 ≤ number.toInt := Int.not_lt.1 fun below => notNegative (Int64.lt_iff_toInt_lt.2 below)
  rw [← Int64.ofInt_eq_ofNat, Int.natAbs_of_nonneg above, Int64.ofInt_toInt]

/-- Every magnitude but that of the least number is a number itself. -/
theorem natAbs_lt_of_ne_minValue (notLeast : number ≠ Int64.minValue) :
    number.toInt.natAbs < 0x8000000000000000 := by
  have low := number.minValue_le_toInt
  have high := number.toInt_le
  have notLow : number.toInt ≠ Int64.minValue.toInt := fun same => notLeast (Int64.toInt_inj.1 same)
  simp only [Int64.toInt_minValue, Int64.toInt_maxValue] at *
  omega

/-- The literal of every number but two is read and checked to the number. -/
theorem longText_readsAsConstant (notInt : number ≠ -2147483648) (notLeast : number ≠ Int64.minValue) :
    ReadsAsConstant (longText number) (.long number) .long := by
  obtain ⟨tokens, source, next, lexes, reads, ends, same⟩ := expression_longText (natAbs_lt_of_ne_minValue notLeast)
  refine ⟨tokens, source, next, lexes, reads, ends, ?_⟩
  rw [longExpr] at same
  split at same
  case isTrue negative =>
    obtain ⟨span, inner, rfl, sameInner⟩ := Expr.eq_unary_of_unplaced same
    obtain ⟨place, rfl⟩ := Expr.eq_long_of_unplaced sameInner
    have negates : -Int64.ofNat number.toInt.natAbs = number := by rw [ofNat_natAbs_of_neg negative, Int64.neg_neg]
    have isLong : Int64.ofNat number.toInt.natAbs ≠ 2147483648 := fun same => notInt (by rw [← negates, same])
    have fits : Int64.ofNat number.toInt.natAbs ≠ Int64.minValue := fun same => notLeast (by rw [← negates, same]; rfl)
    have checks := Check.expression_negate_long isLong fits span place
    rw [negates] at checks
    exact checks
  case isFalse notNegative =>
    obtain ⟨span, rfl⟩ := Expr.eq_long_of_unplaced same
    rw [ofNat_natAbs_of_not_neg notNegative]
    rfl

end Numbers

/-- The literal of the number below all 32-bit integers but the least is read as a 32-bit integer. -/
theorem longText_readsAsConstant_int :
    ReadsAsConstant (longText (-2147483648)) (.int Int32.minValue) .int := by
  have fits : (-2147483648 : Int64).toInt.natAbs < 0x8000000000000000 := by decide
  obtain ⟨tokens, source, next, lexes, reads, ends, same⟩ := expression_longText fits
  refine ⟨tokens, source, next, lexes, reads, ends, ?_⟩
  obtain ⟨span, inner, rfl, sameInner⟩ := Expr.eq_unary_of_unplaced same
  obtain ⟨place, rfl⟩ := Expr.eq_long_of_unplaced sameInner
  exact Check.expression_negate_leastMagnitude span place

/-- A text is the literal of one constant at most. -/
theorem ReadsAsConstant.unique {text : String} {value value' : Constant} {type type' : Ty}
    (reads : ReadsAsConstant text value type) (reads' : ReadsAsConstant text value' type') :
    value = value' ∧ type = type' := by
  obtain ⟨tokens, source, next, lexes, read, _, checks⟩ := reads
  obtain ⟨tokens', source', next', lexes', read', _, checks'⟩ := reads'
  obtain rfl : tokens = tokens' := Except.ok.inj (lexes.symm.trans lexes')
  obtain ⟨rfl, -⟩ := Prod.mk.inj (Except.ok.inj (read.symm.trans read'))
  -- Both results are that of a run in a body without anything around it.
  have same := congrFun (congrFun (checks.symm.trans checks') ⟨⟨.empty, #[], [], []⟩, #[], 0, "", .void⟩)
    ⟨#[], #[], [], 0, #[]⟩
  obtain ⟨isNode, isType, -⟩ := TypedExpr.mk.inj (Except.ok.inj (Prod.mk.inj same).1)
  exact ⟨TypedNode.const.inj isNode, isType⟩

/-- The magnitude of the least number is too large for a literal. -/
theorem not_readsAsConstant_minValue (value : Constant) (type : Ty) :
    ¬ReadsAsConstant (longText Int64.minValue) value type := by
  rintro ⟨tokens, source, next, lexes, -⟩
  have refuses : (tokenize (longText Int64.minValue)).toOption = none := by decide +kernel
  rw [lexes] at refuses
  cases refuses

/-- The literals that are read and checked to their number of 64 bits are those of all numbers but the least and the
least of 32 bits. -/
theorem longText_readsAsConstant_iff (number : Int64) :
    ReadsAsConstant (longText number) (.long number) .long ↔ number ≠ -2147483648 ∧ number ≠ Int64.minValue := by
  refine ⟨fun reads => ⟨?_, ?_⟩, fun ⟨notInt, notLeast⟩ => longText_readsAsConstant notInt notLeast⟩
  · rintro rfl
    exact nomatch (reads.unique longText_readsAsConstant_int).1
  · rintro rfl
    exact not_readsAsConstant_minValue _ _ reads

/-- The two exceptions: the one is a 32-bit integer, the other no constant at all. -/
theorem not_longText_readsAsConstant :
    longText (-2147483648) = "-2147483648L" ∧ longText Int64.minValue = "-9223372036854775808L" ∧
      ReadsAsConstant "-2147483648L" (.int (-2147483648)) .int ∧
      ¬ReadsAsConstant "-2147483648L" (.long (-2147483648)) .long ∧
      ¬ReadsAsConstant "-9223372036854775808L" (.long Int64.minValue) .long := by
  have isText : longText (-2147483648) = "-2147483648L" := rfl
  have isLeast : longText Int64.minValue = "-9223372036854775808L" := rfl
  have reads : ReadsAsConstant "-2147483648L" (.int Int32.minValue) .int := isText ▸ longText_readsAsConstant_int
  refine ⟨isText, isLeast, reads, fun asLong => ?_, isLeast ▸ not_readsAsConstant_minValue _ _⟩
  exact nomatch (ReadsAsConstant.unique asLong reads).1

end Snippet
