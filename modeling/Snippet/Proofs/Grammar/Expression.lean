import Snippet.Proofs.Grammar.Reader

/-!
What the readers of type names and expressions take: exactly the tokens of the tree that they give.
-/

namespace Snippet.Reader

variable {input : Input}

/-! ### Type names -/

theorem refuseNullable_takes (ends : input.Ends) :
    Ensures input refuseNullable fun _ next => input.Takes [] next := by
  rw [refuseNullable]
  refine .sees (.choose (fun _ => ?_) fun _ => .pure (.refl ends))
  exact .peekAt (.guard .unsupportedHere fun _ => .pure (.refl ends))

mutual

theorem typeName_takes (fuel : Nat) {input : Input} (ends : input.Ends) :
    Ensures input (typeName fuel) fun type next => input.Takes type.tokens next := by
  match fuel with
  | 0 => exact .exhausted
  | fuel + 1 =>
    rw [typeName]
    refine .here (.peek ?_)
    have finish {type : TypeName} {next : Input} (takes : input.Takes type.tokens next) :
        Ensures next (do refuseNullable; return type) fun type next => input.Takes type.tokens next := by
      refine (refuseNullable_takes takes.ends).bind fun _ last nothing => .pure ?_
      simpa using takes.trans nothing
    split
    · next basic isBasic =>
      exact .discardAdvance ends (token_of_basicType? isBasic) nofun fun takes => finish takes
    · refine (typeSegments_takes fuel ends).bind fun segments next ⟨_, takes⟩ => .previous ?_
      exact finish takes

theorem typeSegments_takes (fuel : Nat) {input : Input} (ends : input.Ends) :
    Ensures input (typeSegments fuel) fun segments next => segments ≠ [] ∧
      input.Takes (Token.separated .dot (TypeSegment.tokensOfAll segments)) next := by
  match fuel with
  | 0 => exact .exhausted
  | fuel + 1 =>
    rw [typeSegments]
    refine (expectName_takes ends).bind fun found middle name => .sees ?_
    have finish {arguments : List TypeName} {middle : Input}
        (takes : input.Takes (TypeSegment.mk found.1 arguments).tokens middle) :
        Ensures middle (do
          if (← sees .dot) && (← peekAt 1).isName then
            discard advance
            return TypeSegment.mk found.1 arguments :: (← typeSegments fuel)
          else return [TypeSegment.mk found.1 arguments]) fun segments next => segments ≠ [] ∧
            input.Takes (Token.separated .dot (TypeSegment.tokensOfAll segments)) next := by
      refine .sees (.peekAt (.choose (fun more => ?_) fun _ => .pure ⟨nofun, ?_⟩))
      · have isDot := Input.token_of_isSymbol (Bool.and_eq_true_iff.1 more).1
        refine .discardAdvance takes.ends isDot nofun fun dot => ?_
        refine (typeSegments_takes fuel dot.ends).bind fun rest last ⟨isSome, tail⟩ => .pure ⟨nofun, ?_⟩
        rw [TypeSegment.tokensOfAll, Token.separated_cons _ _ (by simpa using isSome)]
        simpa using (takes.trans dot).trans tail
      · simpa using takes
    refine .choose (fun _ => ?_) fun _ => finish (by simpa [TypeSegment.tokens, TypeName.argumentTokens] using name)
    refine (typeArguments_takes fuel name.ends).bind fun arguments last takes => finish ?_
    exact name.trans takes

theorem typeArguments_takes (fuel : Nat) {input : Input} (ends : input.Ends) :
    Ensures input (typeArguments fuel) fun types next =>
      input.Takes (TypeName.argumentTokens types) next := by
  match fuel with
  | 0 => exact .exhausted
  | fuel + 1 =>
    rw [typeArguments]
    refine (discard_expect_takes ends .less).bind fun _ opened left => ?_
    refine (typeName_takes fuel left.ends).bind fun first middle head => ?_
    refine (typeArgumentsTail_takes fuel head.ends).bind fun others behind tail => ?_
    refine (discard_expect_takes tail.ends .greater).bind fun _ closed right => .pure ?_
    simpa [TypeName.argumentTokens, Token.separated] using ((left.trans head).trans tail).trans right

theorem typeArgumentsTail_takes (fuel : Nat) {input : Input} (ends : input.Ends) :
    Ensures input (typeArgumentsTail fuel) fun types next =>
      input.Takes ((TypeName.tokensOfAll types).flatMap (.symbol .comma :: ·)) next := by
  match fuel with
  | 0 => exact .exhausted
  | fuel + 1 =>
    rw [typeArgumentsTail]
    refine .eat ends (fun middle comma => ?_) (.pure (.refl ends))
    refine (typeName_takes fuel comma.ends).bind fun next behind head => ?_
    refine (typeArgumentsTail_takes fuel head.ends).bind fun others last tail => .pure ?_
    simpa using (comma.trans head).trans tail

end

/-! ### Expressions -/

theorem token_of_assignment? {token : Token} {operator : Option BinaryOperator}
    (is : assignment? token = some operator) :
    ∃ sign, assignmentSign? operator = some sign ∧ token = .symbol sign := by
  cases token with
  | symbol sign => cases sign <;> cases is <;> exact ⟨_, rfl, rfl⟩
  | _ => cases is

theorem token_of_operator? {level : List BinaryOperator} {token : Token} {operator : BinaryOperator}
    (is : operator? level token = some operator) : token = .symbol operator.sign := by
  rw [operator?] at is
  have found := List.find?_some is
  exact Input.token_of_isSymbol found

theorem token_of_unary? {token : Token} {operator : UnaryOperator} (is : unary? token = some operator) :
    token = .symbol operator.sign := by
  cases token with
  | symbol sign => cases sign <;> cases is <;> rfl
  | _ => cases is

theorem token_of_step? {token : Token} {isIncrement : Bool} (is : step? token = some isIncrement) :
    token = .symbol (stepSign isIncrement) := by
  cases token with
  | symbol sign => cases sign <;> cases is <;> rfl
  | _ => cases is

theorem tokens_of_atom? {span : Span} {token : Token} {atom : Expr} (is : atom? span token = some atom) :
    atom.tokens = [token] ∧ token ≠ .endOfFile := by
  cases token with
  | keyword word => cases word <;> cases is <;> exact ⟨rfl, nofun⟩
  | endOfFile | symbol _ => cases is
  | _ => cases is; exact ⟨rfl, nofun⟩

theorem token_of_seesCast {input : Input} (sees : seesCast input = true) : input.token = .symbol .leftParen :=
  Input.token_of_isSymbol (Bool.and_eq_true_iff.1 (Bool.and_eq_true_iff.1 sees).1).1

mutual

theorem expression_takes (fuel : Nat) {input : Input} (ends : input.Ends) :
    Ensures input (expression fuel) fun value next => input.Takes value.tokens next := by
  match fuel with
  | 0 => exact .exhausted
  | fuel + 1 =>
    rw [expression]
    refine (conditional_takes fuel ends).bind fun target middle head => .peek ?_
    split
    · exact .pure head
    · next operator isAssignment =>
      obtain ⟨sign, isSign, isToken⟩ := token_of_assignment? isAssignment
      refine .discardAdvance head.ends isToken nofun fun assigned => ?_
      refine (expression_takes fuel assigned.ends).bind fun value last tail => .pure ?_
      simpa [Expr.tokens, isSign] using (head.trans assigned).trans tail

theorem conditional_takes (fuel : Nat) {input : Input} (ends : input.Ends) :
    Ensures input (conditional fuel) fun value next => input.Takes value.tokens next := by
  match fuel with
  | 0 => exact .exhausted
  | fuel + 1 =>
    rw [conditional]
    refine (binary_takes fuel levels ends).bind fun condition middle head => ?_
    refine .eat head.ends (fun asked question => ?_) (.pure head)
    refine (expression_takes fuel question.ends).bind fun thenValue behind first => ?_
    refine (discard_expect_takes first.ends .colon).bind fun _ divided colon => ?_
    refine (expression_takes fuel colon.ends).bind fun elseValue last second => .pure ?_
    simpa [Expr.tokens] using (((head.trans question).trans first).trans colon).trans second

theorem binary_takes (fuel : Nat) (levels : List (List BinaryOperator)) {input : Input} (ends : input.Ends) :
    Ensures input (binary fuel levels) fun value next => input.Takes value.tokens next := by
  match fuel, levels with
  | 0, _ => exact .exhausted
  | fuel + 1, [] =>
    rw [binary]
    exact unary_takes fuel ends
  | fuel + 1, level :: tighter =>
    rw [binary]
    refine (binary_takes fuel tighter ends).bind fun left middle head => ?_
    exact (binaryTail_takes fuel level tighter left head.ends).weaken fun value last tail => tail head

/-- The operators behind an operand are taken behind what the operand has taken. -/
theorem binaryTail_takes (fuel : Nat) (level : List BinaryOperator) (tighter : List (List BinaryOperator))
    (left : Expr) {middle : Input} (ends : middle.Ends) :
    Ensures middle (binaryTail fuel level tighter left) fun value next =>
      ∀ {input : Input}, input.Takes left.tokens middle → input.Takes value.tokens next := by
  match fuel with
  | 0 => exact .exhausted
  | fuel + 1 =>
    rw [binaryTail]
    refine .peek ?_
    split
    · exact .pure fun head => head
    · next operator isOperator =>
      refine .discardAdvance ends (token_of_operator? isOperator) nofun fun sign => ?_
      refine (binary_takes fuel tighter sign.ends).bind fun right behind operand => ?_
      refine (binaryTail_takes fuel level tighter _ operand.ends).weaken fun value last tail _ head => tail ?_
      simpa [Expr.tokens] using (head.trans sign).trans operand

theorem unary_takes (fuel : Nat) {input : Input} (ends : input.Ends) :
    Ensures input (unary fuel) fun value next => input.Takes value.tokens next := by
  match fuel with
  | 0 => exact .exhausted
  | fuel + 1 =>
    rw [unary]
    refine .here (.peek ?_)
    split
    · next operator isOperator =>
      refine .discardAdvance ends (token_of_unary? isOperator) nofun fun sign => ?_
      refine (unary_takes fuel sign.ends).bind fun operand last tail => .pure ?_
      simpa [Expr.tokens] using sign.trans tail
    · next isIncrement _ isStep =>
      refine .discardAdvance ends (token_of_step? isStep) nofun fun sign => ?_
      refine (unary_takes fuel sign.ends).bind fun target last tail => .pure ?_
      simpa [Expr.tokens] using sign.trans tail
    · refine .get (.choose (fun isCast => ?_) fun _ => ?_)
      · refine .discardAdvance ends (token_of_seesCast isCast) nofun fun left => ?_
        refine (typeName_takes fuel left.ends).bind fun type middle name => ?_
        refine (discard_expect_takes name.ends .rightParen).bind fun _ closed right => ?_
        refine (unary_takes fuel right.ends).bind fun operand last tail => .pure ?_
        simpa [Expr.tokens] using ((left.trans name).trans right).trans tail
      · refine (primary_takes fuel ends).bind fun value middle head => ?_
        exact (trailing_takes fuel value head.ends).weaken fun value last tail => tail head

/-- What stands behind an operand is taken behind what the operand has taken. -/
theorem trailing_takes (fuel : Nat) (value : Expr) {middle : Input} (ends : middle.Ends) :
    Ensures middle (trailing fuel value) fun whole next =>
      ∀ {input : Input}, input.Takes value.tokens middle → input.Takes whole.tokens next := by
  match fuel with
  | 0 => exact .exhausted
  | fuel + 1 =>
    rw [trailing]
    refine .peek ?_
    split
    · next isDot =>
      refine .discardAdvance ends isDot nofun fun dot => ?_
      refine (expectName_takes dot.ends).bind fun found behind name => .get (.guard .unsupportedHere fun _ => ?_)
      refine (trailing_takes fuel _ name.ends).weaken fun whole last tail _ head => tail ?_
      simpa [Expr.tokens] using (head.trans dot).trans name
    · refine (callArguments_takes fuel ends).bind fun arguments behind passed => .previous ?_
      refine (trailing_takes fuel _ passed.ends).weaken fun whole last tail _ head => tail ?_
      simpa [Expr.tokens] using head.trans passed
    · next isIncrement isStep _ _ =>
      refine .advance ends (token_of_step? isStep) nofun fun sign => ?_
      refine (trailing_takes fuel _ sign.ends).weaken fun whole last tail _ head => tail ?_
      simpa [Expr.tokens] using head.trans sign
    · exact .choose (fun _ => .get .fail) fun _ => .pure fun head => head

theorem callArguments_takes (fuel : Nat) {input : Input} (ends : input.Ends) :
    Ensures input (callArguments fuel) fun arguments next =>
      input.Takes (Token.inParentheses (Argument.tokensOfAll arguments)) next := by
  match fuel with
  | 0 => exact .exhausted
  | fuel + 1 =>
    rw [callArguments]
    refine (discard_expect_takes ends .leftParen).bind fun _ opened left => ?_
    refine .eat left.ends (fun closed right => .pure (left.trans right)) ?_
    refine (argumentList_takes fuel left.ends).bind fun arguments behind ⟨_, inner⟩ => ?_
    refine (discard_expect_takes inner.ends .rightParen).bind fun _ closed right => .pure ?_
    simpa [Token.inParentheses] using (left.trans inner).trans right

theorem argumentList_takes (fuel : Nat) {input : Input} (ends : input.Ends) :
    Ensures input (argumentList fuel) fun arguments next => arguments ≠ [] ∧
      input.Takes (Token.separated .comma (Argument.tokensOfAll arguments)) next := by
  match fuel with
  | 0 => exact .exhausted
  | fuel + 1 =>
    rw [argumentList]
    refine .here ((passMode_takes ends).bind fun mode middle keyword => .peek (.peekAt ?_))
    refine .guard .fail fun _ => ?_
    refine (expression_takes fuel keyword.ends).bind fun value behind operand => ?_
    have first : input.Takes (Argument.mk (input.span.join value.span) mode value).tokens behind :=
      keyword.trans operand
    refine .eat first.ends (fun divided comma => ?_) (.pure ⟨nofun, by simpa using first⟩)
    refine (argumentList_takes fuel comma.ends).bind fun others last ⟨isSome, tail⟩ => .pure ⟨nofun, ?_⟩
    rw [Argument.tokensOfAll, Token.separated_cons _ _ (by simpa using isSome)]
    simpa using (first.trans comma).trans tail

theorem primary_takes (fuel : Nat) {input : Input} (ends : input.Ends) :
    Ensures input (primary fuel) fun value next => input.Takes value.tokens next := by
  match fuel with
  | 0 => exact .exhausted
  | fuel + 1 =>
    rw [primary]
    refine .here (.peek ?_)
    split
    · next atom isAtom =>
      obtain ⟨tokens, more⟩ := tokens_of_atom? isAtom
      refine .discardAdvance ends rfl more fun taken => .pure ?_
      rwa [tokens]
    · next basic _ isBasic =>
      refine .discardAdvance ends (token_of_basicType? isBasic) nofun fun taken => ?_
      refine (refuseNullable_takes taken.ends).bind fun _ last nothing => .pure ?_
      simpa [Expr.tokens] using taken.trans nothing
    · split
      · next isParen =>
        refine .discardAdvance ends isParen nofun fun left => ?_
        refine (expression_takes fuel left.ends).bind fun inner middle value => ?_
        refine (discard_expect_takes value.ends .rightParen).bind fun _ closed right => .previous (.pure ?_)
        simpa [Expr.tokens] using (left.trans value).trans right
      · next isNew =>
        refine .discardAdvance ends isNew nofun fun word => .peek (.guard .unsupportedHere fun _ => ?_)
        refine (typeName_takes fuel word.ends).bind fun type middle name => ?_
        refine .sees (.guard .unsupportedHere fun _ => .sees (.guard .failHere fun _ => ?_))
        refine (callArguments_takes fuel name.ends).bind fun arguments last passed => .previous (.pure ?_)
        simpa [Expr.tokens] using (word.trans name).trans passed
      · exact .failHere

end

end Snippet.Reader
