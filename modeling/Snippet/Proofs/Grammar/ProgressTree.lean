import Snippet.Proofs.Grammar.Progress
import Snippet.Proofs.Grammar.Statement

/-!
The readers of expressions, statements and declarations move forward and come to an end. Main statement:
`Reader.makesProgress`, for every form of the grammar and every list of tokens that ends with the end of the text.
-/

namespace Snippet.Reader

variable {tokens : List PlacedToken}

/-! ### Expressions -/

mutual

theorem expression_proceeds (fuel further : Nat) (more : fuel ≤ further) {position : Nat} :
    Proceeds tokens position (Suffices tokens position 11 fuel) (position + 1) (expression fuel)
      (expression further) := by
  match fuel, further, more with
  | 0, _, _ => exact .exhausted (Nat.succ_pos _)
  | fuel + 1, further + 1, more =>
    have more := Nat.le_of_succ_le_succ more
    rw [expression, expression]
    refine (conditional_proceeds fuel further more).bind (by omega) fun target middle head => .peek ?_
    split
    · exact .pure head
    · next operator isAssignment =>
      obtain ⟨sign, -, isToken⟩ := token_of_assignment? isAssignment
      refine .discardAdvance isToken nofun ?_
      refine (expression_proceeds fuel further more).bind (by omega) fun value last tail => .pure ?_
      omega

theorem conditional_proceeds (fuel further : Nat) (more : fuel ≤ further) {position : Nat} :
    Proceeds tokens position (Suffices tokens position 10 fuel) (position + 1) (conditional fuel)
      (conditional further) := by
  match fuel, further, more with
  | 0, _, _ => exact .exhausted (Nat.succ_pos _)
  | fuel + 1, further + 1, more =>
    have more := Nat.le_of_succ_le_succ more
    have six : levels.length = 6 := rfl
    rw [conditional, conditional]
    refine (binary_proceeds fuel further more levels (Nat.le_of_eq six)).bind (by omega) fun condition middle head => ?_
    refine .eat ?_ (.pure head)
    refine (expression_proceeds fuel further more).bind (by omega) fun thenValue behind first => ?_
    refine (discard_expect_proceeds .colon).bind id fun _ divided colon => ?_
    refine (expression_proceeds fuel further more).bind (by omega) fun elseValue last second => .pure ?_
    omega

theorem binary_proceeds (fuel further : Nat) (more : fuel ≤ further) (levels : List (List BinaryOperator))
    (few : levels.length ≤ 6) {position : Nat} :
    Proceeds tokens position (Suffices tokens position (levels.length + 3) fuel) (position + 1) (binary fuel levels)
      (binary further levels) := by
  match fuel, further, more, levels with
  | 0, _, _, _ => exact .exhausted (Nat.succ_pos _)
  | fuel + 1, further + 1, more, [] =>
    rw [binary, binary]
    refine (unary_proceeds fuel further (Nat.le_of_succ_le_succ more)).weaken ?_ (Nat.le_refl _)
    rw [List.length_nil]
    omega
  | fuel + 1, further + 1, more, level :: tighter =>
    have more := Nat.le_of_succ_le_succ more
    rw [List.length_cons] at few ⊢
    rw [binary, binary]
    refine (binary_proceeds fuel further more tighter (by omega)).bind (by omega) fun left middle head => ?_
    exact (binaryTail_proceeds fuel further more level tighter (by omega) left).weaken (by omega) head

theorem binaryTail_proceeds (fuel further : Nat) (more : fuel ≤ further) (level : List BinaryOperator)
    (tighter : List (List BinaryOperator)) (few : tighter.length ≤ 6) (left : Expr) {position : Nat} :
    Proceeds tokens position (Suffices tokens position 1 fuel) position (binaryTail fuel level tighter left)
      (binaryTail further level tighter left) := by
  match fuel, further, more with
  | 0, _, _ => exact .exhausted Nat.one_pos
  | fuel + 1, further + 1, more =>
    have more := Nat.le_of_succ_le_succ more
    rw [binaryTail, binaryTail]
    refine .peek ?_
    split
    · exact .pure (Nat.le_refl _)
    · next operator isOperator =>
      refine .discardAdvance (token_of_operator? isOperator) nofun ?_
      refine (binary_proceeds fuel further more tighter few).bind (by omega) fun right behind operand => ?_
      exact (binaryTail_proceeds fuel further more level tighter few _).weaken (by omega) (by omega)

theorem unary_proceeds (fuel further : Nat) (more : fuel ≤ further) {position : Nat} :
    Proceeds tokens position (Suffices tokens position 2 fuel) (position + 1) (unary fuel) (unary further) := by
  match fuel, further, more with
  | 0, _, _ => exact .exhausted Nat.two_pos
  | fuel + 1, further + 1, more =>
    have more := Nat.le_of_succ_le_succ more
    rw [unary, unary]
    refine .here fun start => .peek ?_
    split
    · next operator isOperator =>
      refine .discardAdvance (token_of_unary? isOperator) nofun ?_
      exact (unary_proceeds fuel further more).bind (by omega) fun operand last tail => .pure (by omega)
    · next isIncrement _ isStep =>
      refine .discardAdvance (token_of_step? isStep) nofun ?_
      exact (unary_proceeds fuel further more).bind (by omega) fun target last tail => .pure (by omega)
    · refine .get (.choose (fun isCast => ?_) fun _ => ?_)
      · refine .discardAdvance (token_of_seesCast isCast) nofun ?_
        refine (typeName_proceeds fuel further more).bind (by omega) fun type middle name => ?_
        refine (discard_expect_proceeds .rightParen).bind id fun _ closed right => ?_
        exact (unary_proceeds fuel further more).bind (by omega) fun operand last tail => .pure (by omega)
      · refine (primary_proceeds fuel further more).bind (by omega) fun value middle head => ?_
        exact (trailing_proceeds fuel further more value).weaken (by omega) head

theorem trailing_proceeds (fuel further : Nat) (more : fuel ≤ further) (value : Expr) {position : Nat} :
    Proceeds tokens position (Suffices tokens position 2 fuel) position (trailing fuel value)
      (trailing further value) := by
  match fuel, further, more with
  | 0, _, _ => exact .exhausted Nat.two_pos
  | fuel + 1, further + 1, more =>
    have more := Nat.le_of_succ_le_succ more
    rw [trailing, trailing]
    refine .peek ?_
    split
    · next isDot =>
      refine .discardAdvance isDot nofun ?_
      refine expectName_proceeds.bind id fun found behind name => .get (.choose (fun _ => .unsupportedHere) fun _ => ?_)
      exact (trailing_proceeds fuel further more _).weaken (by omega) (by omega)
    · refine (callArguments_proceeds fuel further more).bind (by omega) fun arguments behind passed => ?_
      refine .previous fun stop => ?_
      exact (trailing_proceeds fuel further more _).weaken (by omega) (by omega)
    · next isIncrement isStep _ _ =>
      refine .advance (token_of_step? isStep) nofun fun stop => ?_
      exact (trailing_proceeds fuel further more _).weaken (by omega) (by omega)
    · exact .choose (fun _ => .get .fail) fun _ => .pure (Nat.le_refl _)

theorem callArguments_proceeds (fuel further : Nat) (more : fuel ≤ further) {position : Nat} :
    Proceeds tokens position (Suffices tokens position 1 fuel) (position + 1) (callArguments fuel)
      (callArguments further) := by
  match fuel, further, more with
  | 0, _, _ => exact .exhausted Nat.one_pos
  | fuel + 1, further + 1, more =>
    have more := Nat.le_of_succ_le_succ more
    rw [callArguments, callArguments]
    refine (discard_expect_proceeds .leftParen).bind id fun _ opened left => .eat (.pure (by omega)) ?_
    refine (argumentList_proceeds fuel further more).bind (by omega) fun arguments behind inner => ?_
    exact (discard_expect_proceeds .rightParen).bind id fun _ closed right => .pure (by omega)

theorem argumentList_proceeds (fuel further : Nat) (more : fuel ≤ further) {position : Nat} :
    Proceeds tokens position (Suffices tokens position 12 fuel) (position + 1) (argumentList fuel)
      (argumentList further) := by
  match fuel, further, more with
  | 0, _, _ => exact .exhausted (Nat.succ_pos _)
  | fuel + 1, further + 1, more =>
    have more := Nat.le_of_succ_le_succ more
    rw [argumentList, argumentList]
    refine .here fun start => passMode_proceeds.bind id fun mode middle keyword => .peek (.peekAt fun next => ?_)
    refine .choose (fun _ => .fail) fun _ => ?_
    refine (expression_proceeds fuel further more).bind (by omega) fun value behind operand => ?_
    exact .commaOrEnd (by omega) ((argumentList_proceeds fuel further more).weaken (by omega) (by omega))

theorem primary_proceeds (fuel further : Nat) (more : fuel ≤ further) {position : Nat} :
    Proceeds tokens position (Suffices tokens position 1 fuel) (position + 1) (primary fuel) (primary further) := by
  match fuel, further, more with
  | 0, _, _ => exact .exhausted Nat.one_pos
  | fuel + 1, further + 1, more =>
    have more := Nat.le_of_succ_le_succ more
    rw [primary, primary]
    refine .here fun span => .peek ?_
    split
    · next atom isAtom => exact .discardAdvance rfl (tokens_of_atom? isAtom).2 (.pure (Nat.le_refl _))
    · next basic _ isBasic =>
      refine .discardAdvance (token_of_basicType? isBasic) nofun ?_
      exact refuseNullable_proceeds.bind id fun _ last reached => .pure reached
    · split
      · next isParen =>
        refine .discardAdvance isParen nofun ?_
        refine (expression_proceeds fuel further more).bind (by omega) fun inner middle value => ?_
        refine (discard_expect_proceeds .rightParen).bind id fun _ closed right => .previous fun _ => .pure ?_
        omega
      · next isNew =>
        refine .discardAdvance isNew nofun (.peek (.choose (fun _ => .unsupportedHere) fun _ => ?_))
        refine (typeName_proceeds fuel further more).bind (by omega) fun type middle name => ?_
        refine .sees fun _ => .choose (fun _ => .unsupportedHere) fun _ => ?_
        refine .sees fun _ => .choose (fun _ => .failHere) fun _ => ?_
        refine (callArguments_proceeds fuel further more).bind (by omega) fun arguments last passed => ?_
        exact .previous fun _ => .pure (by omega)
      · exact .failHere

end

/-! ### Statements -/

theorem condition_proceeds (fuel further : Nat) (more : fuel ≤ further) {position : Nat} :
    Proceeds tokens position (Suffices tokens position 1 fuel) (position + 1) (condition fuel) (condition further) := by
  rw [condition, condition]
  refine (discard_expect_proceeds .leftParen).bind id fun _ opened left => ?_
  refine (expression_proceeds fuel further more).bind (by omega) fun value middle inner => ?_
  exact (discard_expect_proceeds .rightParen).bind id fun _ closed right => .pure (by omega)

theorem declarators_proceeds (fuel further : Nat) (more : fuel ≤ further) {position : Nat} :
    Proceeds tokens position (Suffices tokens position 1 fuel) (position + 1) (declarators fuel)
      (declarators further) := by
  match fuel, further, more with
  | 0, _, _ => exact .exhausted Nat.one_pos
  | fuel + 1, further + 1, more =>
    have more := Nat.le_of_succ_le_succ more
    rw [declarators, declarators]
    refine expectName_proceeds.bind id fun found named name => ?_
    have finish {later : Nat} (read : named ≤ later) (value : Option Expr) :
        let rest (fuel : Nat) : Reader (List Declarator) := do
          let declarator : Declarator := ⟨found.1, value, found.2.join (← previous)⟩
          if ← eat .comma then return declarator :: (← declarators fuel)
          else return [declarator]
        Proceeds tokens later (Suffices tokens position 1 (fuel + 1)) (position + 1) (rest fuel) (rest further) := by
      refine .previous fun stop => .commaOrEnd (by omega) ?_
      exact (declarators_proceeds fuel further more).weaken (by omega) (by omega)
    refine .eat ?_ (.pureBind (finish (Nat.le_refl _) none))
    exact (expression_proceeds fuel further more).map.bind (by omega) fun value later operand => finish (by omega) value

theorem simpleStatement_proceeds (fuel further : Nat) (more : fuel ≤ further) (start : Span) {position : Nat} :
    Proceeds tokens position (Suffices tokens position 11 fuel) (position + 1) (simpleStatement fuel start)
      (simpleStatement further start) := by
  rw [simpleStatement, simpleStatement]
  refine (localType?_proceeds fuel further more).bind (by omega) fun found middle looked => ?_
  cases found with
  | some type =>
    refine (declarators_proceeds fuel further more).bind (by omega) fun declared last tail => ?_
    exact .previous fun _ => .pure (by omega)
  | none =>
    refine (expression_proceeds fuel further more).bind (by omega) fun value last tail => ?_
    exact .previous fun _ => .pure (by omega)

theorem loopStart_proceeds (fuel further : Nat) (more : fuel ≤ further) {position : Nat} :
    Proceeds tokens position (Suffices tokens position 12 fuel) (position + 1) (loopStart fuel)
      (loopStart further) := by
  match fuel, further, more with
  | 0, _, _ => exact .exhausted (Nat.succ_pos _)
  | fuel + 1, further + 1, more =>
    have more := Nat.le_of_succ_le_succ more
    rw [loopStart, loopStart]
    refine .here fun start => ?_
    refine (simpleStatement_proceeds fuel further more start).bind (by omega) fun clause middle read => ?_
    refine .choose (fun _ => .pure read) fun _ => .commaOrEnd read ?_
    exact (loopStart_proceeds fuel further more).weaken (by omega) (by omega)

theorem expressions_proceeds (fuel further : Nat) (more : fuel ≤ further) {position : Nat} :
    Proceeds tokens position (Suffices tokens position 12 fuel) (position + 1) (expressions fuel)
      (expressions further) := by
  match fuel, further, more with
  | 0, _, _ => exact .exhausted (Nat.succ_pos _)
  | fuel + 1, further + 1, more =>
    have more := Nat.le_of_succ_le_succ more
    rw [expressions, expressions]
    refine (expression_proceeds fuel further more).bind (by omega) fun value middle read => ?_
    exact .commaOrEnd read ((expressions_proceeds fuel further more).weaken (by omega) (by omega))

theorem upTo_proceeds {position goal : Nat} {enough : Prop} (start : Span) (statement : Span → Stmt)
    (reached : goal ≤ position) :
    Proceeds tokens position enough goal (upTo start statement) (upTo start statement) :=
  .previous fun _ => .pure reached

/-- A loop behind its first word. -/
theorem forLoop_proceeds (fuel further : Nat) (more : fuel ≤ further) (start : Span) {position : Nat}
    (embeds : ∀ {later : Nat}, Proceeds tokens later (Suffices tokens later 13 fuel) (later + 1) (embedded fuel)
      (embedded further)) :
    let rest (fuel : Nat) : Reader Stmt := do
      discard (expect .leftParen)
      let first ← if ← sees .semicolon then pure [] else loopStart fuel
      discard (expect .semicolon)
      let test ← if ← sees .semicolon then pure none else some <$> expression fuel
      discard (expect .semicolon)
      let steps ← if ← sees .rightParen then pure [] else expressions fuel
      discard (expect .rightParen)
      let body ← embedded fuel
      upTo start (.forLoop · first test steps body)
    Proceeds tokens position (Suffices tokens position 1 fuel) (position + 1) (rest fuel) (rest further) := by
  intro rest
  refine (discard_expect_proceeds .leftParen).bind id fun _ opened left => .sees fun _ => ?_
  have finish {later : Nat} (behind : position + 1 ≤ later) (first : List Stmt) (test : Option Expr)
      (steps : List Expr) :
      let rest (fuel : Nat) : Reader Stmt := do
        discard (expect .rightParen)
        let body ← embedded fuel
        upTo start (.forLoop · first test steps body)
      Proceeds tokens later (Suffices tokens position 1 fuel) (position + 1) (rest fuel) (rest further) := by
    refine (discard_expect_proceeds .rightParen).bind id fun _ closed right => ?_
    exact embeds.bind (by omega) fun body last inner => upTo_proceeds _ _ (by omega)
  have withTest {later : Nat} (behind : position + 1 ≤ later) (first : List Stmt) (test : Option Expr) :
      let rest (fuel : Nat) : Reader Stmt := do
        discard (expect .semicolon)
        let steps ← if ← sees .rightParen then pure [] else expressions fuel
        discard (expect .rightParen)
        let body ← embedded fuel
        upTo start (.forLoop · first test steps body)
      Proceeds tokens later (Suffices tokens position 1 fuel) (position + 1) (rest fuel) (rest further) := by
    refine (discard_expect_proceeds .semicolon).bind id fun _ divided semicolon => .sees fun _ => ?_
    refine .choose (fun _ => .pureBind (finish (by omega) _ _ _)) fun _ => ?_
    exact (expressions_proceeds fuel further more).bind (by omega) fun steps last list => finish (by omega) _ _ _
  have withStart {later : Nat} (behind : position + 1 ≤ later) (first : List Stmt) :
      let rest (fuel : Nat) : Reader Stmt := do
        discard (expect .semicolon)
        let test ← if ← sees .semicolon then pure none else some <$> expression fuel
        discard (expect .semicolon)
        let steps ← if ← sees .rightParen then pure [] else expressions fuel
        discard (expect .rightParen)
        let body ← embedded fuel
        upTo start (.forLoop · first test steps body)
      Proceeds tokens later (Suffices tokens position 1 fuel) (position + 1) (rest fuel) (rest further) := by
    refine (discard_expect_proceeds .semicolon).bind id fun _ divided semicolon => .sees fun _ => ?_
    refine .choose (fun _ => .pureBind (withTest (by omega) _ _)) fun _ => ?_
    exact (expression_proceeds fuel further more).map.bind (by omega) fun test last read => withTest (by omega) _ _
  refine .choose (fun _ => .pureBind (withStart (by omega) _)) fun _ => ?_
  exact (loopStart_proceeds fuel further more).bind (by omega) fun first last list => withStart (by omega) _

mutual

theorem statement_proceeds (fuel further : Nat) (more : fuel ≤ further) {position : Nat} :
    Proceeds tokens position (Suffices tokens position 12 fuel) (position + 1) (statement fuel)
      (statement further) := by
  match fuel, further, more with
  | 0, _, _ => exact .exhausted (Nat.succ_pos _)
  | fuel + 1, further + 1, more =>
    have more := Nat.le_of_succ_le_succ more
    rw [statement, statement]
    refine .here fun start => .peek ?_
    split
    · next isBrace =>
      refine .discardAdvance isBrace nofun ?_
      refine (statements_proceeds fuel further more).bind (by omega) fun body middle inner => ?_
      exact (discard_expect_proceeds .rightBrace).bind id fun _ closed right => upTo_proceeds _ _ (by omega)
    · next isSemicolon => exact .discardAdvance isSemicolon nofun (upTo_proceeds _ _ (Nat.le_refl _))
    · next isReturn =>
      refine .discardAdvance isReturn nofun (.sees fun _ => ?_)
      have finish {later : Nat} (behind : position + 1 ≤ later) (value : Option Expr) :
          let rest : Reader Stmt := do
            discard (expect .semicolon)
            upTo start (.giveBack · value)
          Proceeds tokens later (Suffices tokens position 12 (fuel + 1)) (position + 1) rest rest :=
        (discard_expect_proceeds .semicolon).bind id fun _ last semicolon => upTo_proceeds _ _ (by omega)
      refine .choose (fun _ => .pureBind (finish (Nat.le_refl _) none)) fun _ => ?_
      exact (expression_proceeds fuel further more).map.bind (by omega) fun value later operand => finish (by omega) _
    · next isIf =>
      refine .discardAdvance isIf nofun ?_
      refine (condition_proceeds fuel further more).bind (by omega) fun test tested condition => ?_
      refine (embedded_proceeds fuel further more).bind (by omega) fun thenBranch middle first => .peek ?_
      refine .choose (fun isElse => ?_) fun _ => upTo_proceeds _ _ (by omega)
      refine .discardAdvance (Input.token_of_isKeyword isElse) nofun ?_
      refine (embedded_proceeds fuel further more).bind (by omega) fun elseBranch last second => ?_
      exact upTo_proceeds _ _ (by omega)
    · next isWhile =>
      refine .discardAdvance isWhile nofun ?_
      refine (condition_proceeds fuel further more).bind (by omega) fun test tested condition => ?_
      exact (embedded_proceeds fuel further more).bind (by omega) fun body last inner => upTo_proceeds _ _ (by omega)
    · next isFor =>
      refine .discardAdvance isFor nofun ?_
      refine (forLoop_proceeds fuel further more start ?_).weaken (by omega) (by omega)
      exact embedded_proceeds fuel further more
    · next isBreak =>
      refine .discardAdvance isBreak nofun ?_
      exact (discard_expect_proceeds .semicolon).bind id fun _ last semicolon => upTo_proceeds _ _ (by omega)
    · next isContinue =>
      refine .discardAdvance isContinue nofun ?_
      exact (discard_expect_proceeds .semicolon).bind id fun _ last semicolon => upTo_proceeds _ _ (by omega)
    · have simple :
          let rest (fuel : Nat) : Reader Stmt := do
            let read ← simpleStatement fuel start
            discard (expect .semicolon)
            match read with
            | .declare _ type declared => upTo start (.declare · type declared)
            | .evaluate _ value => upTo start (.evaluate · value)
            | other => return other
          Proceeds tokens position (Suffices tokens position 12 (fuel + 1)) (position + 1) (rest fuel)
            (rest further) := by
        refine (simpleStatement_proceeds fuel further more start).bind (by omega) fun read middle head => ?_
        refine (discard_expect_proceeds .semicolon).bind id fun _ last semicolon => ?_
        split
        · exact upTo_proceeds _ _ (by omega)
        · exact upTo_proceeds _ _ (by omega)
        · exact .pure (by omega)
      split
      · exact .choose (fun _ => .fail) fun _ => simple
      · exact simple

theorem embedded_proceeds (fuel further : Nat) (more : fuel ≤ further) {position : Nat} :
    Proceeds tokens position (Suffices tokens position 13 fuel) (position + 1) (embedded fuel) (embedded further) := by
  match fuel, further, more with
  | 0, _, _ => exact .exhausted (Nat.succ_pos _)
  | fuel + 1, further + 1, more =>
    rw [embedded, embedded]
    refine (statement_proceeds fuel further (Nat.le_of_succ_le_succ more)).bind (by omega) fun statement next read => ?_
    exact .choose (fun _ => .fail) fun _ => .pure read

theorem statements_proceeds (fuel further : Nat) (more : fuel ≤ further) {position : Nat} :
    Proceeds tokens position (Suffices tokens position 13 fuel) position (statements fuel) (statements further) := by
  match fuel, further, more with
  | 0, _, _ => exact .exhausted (Nat.succ_pos _)
  | fuel + 1, further + 1, more =>
    have more := Nat.le_of_succ_le_succ more
    rw [statements, statements]
    refine .peek ?_
    split
    · exact .pure (Nat.le_refl _)
    · exact .pure (Nat.le_refl _)
    · refine (statement_proceeds fuel further more).bind (by omega) fun first middle head => ?_
      exact (statements_proceeds fuel further more).bind (by omega) fun rest last tail => .pure (by omega)

end

/-! ### Declarations -/

theorem ne_endOfFile_of_setModifier? {modifiers : Modifiers} {token : Token} {set : Bool × Modifiers}
    (is : setModifier? modifiers token = some set) : token ≠ .endOfFile := by
  rintro rfl
  cases is

theorem modifierList_proceeds (fuel further : Nat) (more : fuel ≤ further) (modifiers : Modifiers) {position : Nat} :
    Proceeds tokens position (Suffices tokens position 1 fuel) position (modifierList fuel modifiers)
      (modifierList further modifiers) := by
  match fuel, further, more with
  | 0, _, _ => exact .exhausted Nat.one_pos
  | fuel + 1, further + 1, more =>
    rw [modifierList, modifierList]
    refine .peek ?_
    split
    · exact .pure (Nat.le_refl _)
    · exact .failHere
    · next extended isNew =>
      refine .discardAdvance rfl (ne_endOfFile_of_setModifier? isNew) ?_
      exact (modifierList_proceeds fuel further (Nat.le_of_succ_le_succ more) extended).weaken (by omega) (by omega)

theorem parameterList_proceeds (fuel further : Nat) (more : fuel ≤ further) {position : Nat} :
    Proceeds tokens position (Suffices tokens position 3 fuel) (position + 1) (parameterList fuel)
      (parameterList further) := by
  match fuel, further, more with
  | 0, _, _ => exact .exhausted (Nat.succ_pos _)
  | fuel + 1, further + 1, more =>
    have more := Nat.le_of_succ_le_succ more
    rw [parameterList, parameterList]
    refine .here fun start => passMode_proceeds.bind id fun mode middle keyword => .peek ?_
    have parameter :
        let rest (fuel : Nat) : Reader (List Parameter) := do
          let type ← typeName fuel
          let found ← expectName
          if ← sees .assign then unsupportedHere "optional parameter"
          let parameter : Parameter := ⟨mode, type, found.1, start.join found.2⟩
          if ← eat .comma then return parameter :: (← parameterList fuel)
          else return [parameter]
        Proceeds tokens middle (Suffices tokens position 3 (fuel + 1)) (position + 1) (rest fuel) (rest further) := by
      refine (typeName_proceeds fuel further more).bind (by omega) fun type typed declared => ?_
      refine expectName_proceeds.bind id fun found named name => ?_
      refine .sees fun _ => .choose (fun _ => .unsupportedHere) fun _ => .commaOrEnd (by omega) ?_
      exact (parameterList_proceeds fuel further more).weaken (by omega) (by omega)
    split
    · exact .choose (fun _ => .unsupportedHere) fun _ => parameter
    · exact parameter

theorem parameters_proceeds (fuel further : Nat) (more : fuel ≤ further) {position : Nat} :
    Proceeds tokens position (Suffices tokens position 1 fuel) (position + 1) (parameters fuel)
      (parameters further) := by
  rw [parameters, parameters]
  refine (discard_expect_proceeds .leftParen).bind id fun _ opened left => .eat (.pure (by omega)) ?_
  refine (parameterList_proceeds fuel further more).bind (by omega) fun list behind inner => ?_
  exact (discard_expect_proceeds .rightParen).bind id fun _ closed right => .pure (by omega)

/-- A method has a type, or it is marked as giving back nothing. -/
theorem result_proceeds (fuel further : Nat) (more : fuel ≤ further) {α : Type} {goal position : Nat}
    {rest rest' : Option TypeName → Reader α}
    (go : ∀ (result : Option TypeName) (later : Nat), position + 1 ≤ later →
      Proceeds tokens later (Suffices tokens position 2 fuel) goal (rest result) (rest' result)) :
    let token := (Input.startingAt tokens position).token
    Proceeds tokens position (Suffices tokens position 2 fuel) goal (do
      if token.isKeyword .voidWord then
        discard advance
        rest none
      else if startsType token then rest (← some <$> typeName fuel)
      else rest (← failHere (.badMemberStart token.shown))) (do
      if token.isKeyword .voidWord then
        discard advance
        rest' none
      else if startsType token then rest' (← some <$> typeName further)
      else rest' (← failHere (.badMemberStart token.shown))) := by
  refine .choose (fun isVoid => ?_) fun _ => .choose (fun _ => ?_) fun _ => .failHere
  · exact .discardAdvance (Input.token_of_isKeyword isVoid) (by simp) (go none _ (Nat.le_refl _))
  · exact (typeName_proceeds fuel further more).map.bind id go

theorem method_proceeds (fuel further : Nat) (more : fuel ≤ further) (modifiers : Modifiers) (start : Span)
    (className : String) {position : Nat} :
    Proceeds tokens position (Suffices tokens position 2 fuel) (position + 1)
      (method fuel modifiers start className) (method further modifiers start className) := by
  rw [method, method]
  have behindName {later : Nat} (named : position + 1 ≤ later) (result : Option TypeName) (name : String) :
      let rest (fuel : Nat) : Reader MethodDecl := do
        let list ← parameters fuel
        discard (expect .leftBrace)
        let body ← statements fuel
        let stop ← expect .rightBrace
        return ⟨name, modifiers, result, list, body, start.join stop⟩
      Proceeds tokens later (Suffices tokens position 2 fuel) (position + 1) (rest fuel) (rest further) := by
    refine (parameters_proceeds fuel further more).bind (by omega) fun list listed inParentheses => ?_
    refine (discard_expect_proceeds .leftBrace).bind id fun _ opened left => ?_
    refine (statements_proceeds fuel further more).bind (by omega) fun body behind inner => ?_
    exact (expect_proceeds .rightBrace).bind id fun stop last right => .pure (by omega)
  refine .peek ?_
  split
  case' h_1 => refine .peekAt fun next => .choose (fun _ => .unsupportedHere) fun _ => ?_
  all_goals
    refine .peek (result_proceeds fuel further more fun result later typed => ?_)
    refine expectName_proceeds.bind id fun found last name => .peek ?_
    split
    · exact .unsupportedHere
    · exact .unsupportedHere
    · exact .unsupportedHere
    · exact .unsupportedHere
    · exact behindName (by omega) result found.1

mutual

theorem classDecl_proceeds (fuel further : Nat) (more : fuel ≤ further) (modifiers : Modifiers) (start : Span)
    {position : Nat} :
    Proceeds tokens position (Suffices tokens position 1 fuel) (position + 1) (classDecl fuel modifiers start)
      (classDecl further modifiers start) := by
  match fuel, further, more with
  | 0, _, _ => exact .exhausted Nat.one_pos
  | fuel + 1, further + 1, more =>
    rw [classDecl, classDecl]
    refine (expectWord_proceeds .classWord).map.bind id fun _ opened word => ?_
    refine expectName_proceeds.bind id fun found named name => .sees fun _ => .sees fun _ => ?_
    refine .choose (fun _ => .unsupportedHere) fun _ => ?_
    refine (discard_expect_proceeds .leftBrace).bind id fun _ entered left => ?_
    refine (classMembers_proceeds fuel further (Nat.le_of_succ_le_succ more) found.1).bind (by omega)
      fun list behind inner => ?_
    exact (expect_proceeds .rightBrace).bind id fun stop last right => .pure (by omega)

theorem classMembers_proceeds (fuel further : Nat) (more : fuel ≤ further) (className : String) {position : Nat} :
    Proceeds tokens position (Suffices tokens position 3 fuel) position (classMembers fuel className)
      (classMembers further className) := by
  match fuel, further, more with
  | 0, _, _ => exact .exhausted (Nat.succ_pos _)
  | fuel + 1, further + 1, more =>
    have more := Nat.le_of_succ_le_succ more
    rw [classMembers, classMembers]
    refine .peek ?_
    split
    · exact .pure (Nat.le_refl _)
    · exact .pure (Nat.le_refl _)
    · refine .here fun start => ?_
      refine (modifierList_proceeds fuel further more .none).bind (by omega) fun modifiers middle read => .peek ?_
      refine .choose (fun _ => ?_) fun _ => ?_
      · refine (classDecl_proceeds fuel further more modifiers start).bind (by omega) fun first last head => ?_
        exact (classMembers_proceeds fuel further more className).bind (by omega) fun _ _ tail => .pure (by omega)
      · refine (method_proceeds fuel further more modifiers start className).bind (by omega) fun first last head => ?_
        exact (classMembers_proceeds fuel further more className).bind (by omega) fun _ _ tail => .pure (by omega)

end

theorem usings_proceeds (fuel further : Nat) (more : fuel ≤ further) {position : Nat} :
    Proceeds tokens position (Suffices tokens position 1 fuel) position (usings fuel) (usings further) := by
  match fuel, further, more with
  | 0, _, _ => exact .exhausted Nat.one_pos
  | fuel + 1, further + 1, more =>
    have more := Nat.le_of_succ_le_succ more
    rw [usings, usings]
    refine .peek (.choose (fun _ => .pure (Nat.le_refl _)) fun isUsing => ?_)
    have isWord : (Input.startingAt tokens position).token.isKeyword .usingWord = true := by simpa using isUsing
    refine .advance (Input.token_of_isKeyword isWord) (by simp) fun start => .peek (.peekAt fun next => ?_)
    refine .choose (fun _ => .fail) fun _ => ?_
    refine (qualifiedName_proceeds fuel further more).bind (by omega) fun name middle named => ?_
    refine (expect_proceeds .semicolon).bind id fun stop last semicolon => ?_
    exact (usings_proceeds fuel further more).bind (by omega) fun others _ tail => .pure (by omega)

mutual

theorem members_proceeds (fuel further : Nat) (more : fuel ≤ further) {position : Nat} :
    Proceeds tokens position (Suffices tokens position 3 fuel) position (members fuel) (members further) := by
  match fuel, further, more with
  | 0, _, _ => exact .exhausted (Nat.succ_pos _)
  | fuel + 1, further + 1, more =>
    have more := Nat.le_of_succ_le_succ more
    rw [members, members]
    refine .peek (.choose (fun _ => ?_) fun _ => .choose (fun _ => .failHere) fun _ => .choose (fun _ => ?_) fun _ =>
      .pure (Nat.le_refl _))
    · refine (space_proceeds fuel further more).bind (by omega) fun first middle head => ?_
      exact (members_proceeds fuel further more).bind (by omega) fun others _ tail => .pure (by omega)
    · refine .here fun start => ?_
      refine (modifierList_proceeds fuel further more .none).bind (by omega) fun modifiers middle read => .peek ?_
      refine .choose (fun _ => .failHere) fun _ => ?_
      refine (classDecl_proceeds fuel further more modifiers start).bind (by omega) fun first last head => ?_
      exact (members_proceeds fuel further more).bind (by omega) fun others _ tail => .pure (by omega)

theorem space_proceeds (fuel further : Nat) (more : fuel ≤ further) {position : Nat} :
    Proceeds tokens position (Suffices tokens position 2 fuel) (position + 1) (space fuel) (space further) := by
  match fuel, further, more with
  | 0, _, _ => exact .exhausted Nat.two_pos
  | fuel + 1, further + 1, more =>
    have more := Nat.le_of_succ_le_succ more
    rw [space, space]
    refine advance_proceeds.bind id fun start opened word => ?_
    refine (qualifiedName_proceeds fuel further more).bind (by omega) fun name named read => ?_
    refine .sees fun _ => .choose (fun _ => .unsupportedHere) fun _ => ?_
    refine (discard_expect_proceeds .leftBrace).bind id fun _ entered left => ?_
    refine (usings_proceeds fuel further more).bind (by omega) fun directives directed front => ?_
    refine (members_proceeds fuel further more).bind (by omega) fun list behind inner => ?_
    have finish :
        let rest : Reader Member := do
          let stop ← expect .rightBrace
          return .space (start.join stop) name directives list
        Proceeds tokens behind (Suffices tokens position 2 (fuel + 1)) (position + 1) rest rest :=
      (expect_proceeds .rightBrace).bind id fun stop last right => .pure (by omega)
    refine .peek ?_
    split
    · exact finish
    · exact finish
    · exact .failHere

end

theorem compilationUnit_proceeds (fuel further : Nat) (more : fuel ≤ further) {position : Nat} :
    Proceeds tokens position (Suffices tokens position 3 fuel) position (compilationUnit fuel)
      (compilationUnit further) := by
  rw [compilationUnit, compilationUnit]
  refine (usings_proceeds fuel further more).bind (by omega) fun directives middle front => ?_
  refine (members_proceeds fuel further more).bind (by omega) fun list behind inner => .peek ?_
  split
  · exact .pure (by omega)
  · exact .failHere

/-! ### Every form of the grammar -/

/-- Whether the readers of a form of the grammar, one for each fuel, get through some tokens from every position. -/
structure Settles {α : Type} (tokens : List PlacedToken) (least : Nat) (reader : Nat → Reader α) : Prop where
  /-- What is read ends at least so many tokens further, and not behind the last token. -/
  forward : ∀ (fuel position : Nat) (value : α) (next : Input), position < tokens.length →
    reader fuel (.startingAt tokens position) = .ok (value, next) →
      ∃ later, position + least ≤ later ∧ later < tokens.length ∧ next = .startingAt tokens later
  /-- Fuel in proportion to the tokens left is never used up, and more of it changes nothing. -/
  settled : ∀ fuel position : Nat, position < tokens.length → 20 * (tokens.length - position) ≤ fuel →
    reader fuel (.startingAt tokens position) ≠ .error .exhausted ∧
      ∀ further, fuel ≤ further →
        reader further (.startingAt tokens position) = reader fuel (.startingAt tokens position)

theorem Settles.of_proceeds {α : Type} {least extra : Nat} {reader : Nat → Reader α}
    (ends : Input.Ends ⟨tokens, ⟨0, 0⟩⟩) (small : extra ≤ 20)
    (proceeds : ∀ fuel further : Nat, fuel ≤ further → ∀ position : Nat,
      Proceeds tokens position (Suffices tokens position extra fuel) (position + least) (reader fuel)
        (reader further)) :
    Settles tokens least reader where
  forward fuel position value next inside read := by
    have outcome := proceeds fuel fuel (Nat.le_refl _) position ((Input.ends_startingAt_iff inside).2 ends)
    rw [read] at outcome
    obtain ⟨-, later, reached, rfl, endsLater⟩ := outcome
    exact ⟨later, reached, endsLater.position_lt, rfl⟩
  settled fuel position inside enough := by
    have spare : Suffices tokens position extra fuel := by omega
    have outcome (further : Nat) (more : fuel ≤ further) :=
      proceeds fuel further more position ((Input.ends_startingAt_iff inside).2 ends)
    cases read : reader fuel (.startingAt tokens position) with
    | ok found =>
      simp only [read] at outcome
      exact ⟨nofun, fun further more => (outcome further more).1⟩
    | error stop =>
      simp only [read] at outcome
      cases stop with
      | exhausted => exact absurd spare (outcome fuel (Nat.le_refl _))
      | finding found => exact ⟨nofun, outcome⟩

/-- How the grammar is read from a list of tokens, from whatever position. -/
structure MakesProgress (tokens : List PlacedToken) : Prop where
  expression : Settles tokens 1 Reader.expression
  type : Settles tokens 1 typeName
  statement : Settles tokens 1 Reader.statement
  /-- In front of a member its modifiers are read, if it has any. -/
  modifiers : ∀ modifiers : Modifiers, Settles tokens 0 (modifierList · modifiers)
  /-- A member of a class is a method or a class. -/
  method : ∀ (modifiers : Modifiers) (start : Span) (className : String),
    Settles tokens 1 (Reader.method · modifiers start className)
  classDecl : ∀ (modifiers : Modifiers) (start : Span), Settles tokens 1 (Reader.classDecl · modifiers start)
  /-- A member of a namespace is a namespace or a class. -/
  space : Settles tokens 1 Reader.space
  statements : Settles tokens 0 Reader.statements
  classMembers : ∀ className : String, Settles tokens 0 (Reader.classMembers · className)
  members : Settles tokens 0 Reader.members
  usings : Settles tokens 0 Reader.usings
  compilationUnit : Settles tokens 0 Reader.compilationUnit
  /-- The look-ahead for a declaration comes to an end as well. -/
  localType : Settles tokens 0 localType?
  /-- Where the look-ahead finds no declaration, the position is as before. -/
  noLocalType : ∀ (fuel position : Nat) (next : Input),
    localType? fuel (.startingAt tokens position) = .ok (none, next) → next = .startingAt tokens position
  /-- A step leads to the next token, and from the last one nowhere. -/
  advance : ∀ position : Nat, position < tokens.length →
    (Input.startingAt tokens position).advance = .startingAt tokens (min (position + 1) (tokens.length - 1))
  /-- The tree or the problem of the tokens is what every reader with enough fuel finds. -/
  outcome : ∀ fuel : Nat, readingFuel tokens ≤ fuel →
    (∃ (unit : CompilationUnit) (next : Input),
      Reader.compilationUnit fuel ⟨tokens, ⟨0, 0⟩⟩ = .ok (unit, next) ∧ CompilationUnit.ofTokens tokens = .ok unit) ∨
    ∃ found : Finding, Reader.compilationUnit fuel ⟨tokens, ⟨0, 0⟩⟩ = .error (.finding found) ∧
      CompilationUnit.ofTokens tokens = .error found

/-- Reading with enough fuel has the outcome that the tokens have. -/
theorem ofTokens_of_settles (ends : Input.Ends ⟨tokens, ⟨0, 0⟩⟩) (settles : Settles tokens 0 compilationUnit)
    {fuel : Nat} (enough : readingFuel tokens ≤ fuel) :
    (∃ (unit : CompilationUnit) (next : Input),
      compilationUnit fuel ⟨tokens, ⟨0, 0⟩⟩ = .ok (unit, next) ∧ CompilationUnit.ofTokens tokens = .ok unit) ∨
    ∃ found : Finding, compilationUnit fuel ⟨tokens, ⟨0, 0⟩⟩ = .error (.finding found) ∧
      CompilationUnit.ofTokens tokens = .error found := by
  have isSome : 0 < tokens.length := (show (Input.startingAt tokens 0).Ends from ends).position_lt
  have bound : 20 * (tokens.length - 0) ≤ readingFuel tokens := by
    rw [readingFuel]
    omega
  obtain ⟨inBounds, same⟩ := settles.settled _ 0 isSome bound
  have read : compilationUnit fuel ⟨tokens, ⟨0, 0⟩⟩ = compilationUnit (readingFuel tokens) ⟨tokens, ⟨0, 0⟩⟩ :=
    same fuel enough
  rw [read, CompilationUnit.ofTokens]
  cases found : compilationUnit (readingFuel tokens) ⟨tokens, ⟨0, 0⟩⟩ with
  | ok result => exact .inl ⟨result.1, result.2, rfl, rfl⟩
  | error stop =>
    cases stop with
    | exhausted => exact absurd found inBounds
    | finding problem => exact .inr ⟨problem, rfl, rfl⟩

/-- From every position of tokens that end with the end of the text, every form of the grammar is read to an end: what
is found moves the position forward and not past the last token, and no fuel is used up. -/
theorem makesProgress (ends : Input.Ends ⟨tokens, ⟨0, 0⟩⟩) : MakesProgress tokens := by
  have unit : Settles tokens 0 compilationUnit :=
    .of_proceeds ends (by decide) fun fuel further more _ => compilationUnit_proceeds fuel further more
  exact {
    expression := .of_proceeds ends (by decide) fun fuel further more _ => expression_proceeds fuel further more
    type := .of_proceeds ends (by decide) fun fuel further more _ => typeName_proceeds fuel further more
    statement := .of_proceeds ends (by decide) fun fuel further more _ => statement_proceeds fuel further more
    modifiers := fun modifiers =>
      .of_proceeds ends (by decide) fun fuel further more _ => modifierList_proceeds fuel further more modifiers
    method := fun modifiers start className =>
      .of_proceeds ends (by decide) fun fuel further more _ =>
        method_proceeds fuel further more modifiers start className
    classDecl := fun modifiers start =>
      .of_proceeds ends (by decide) fun fuel further more _ => classDecl_proceeds fuel further more modifiers start
    space := .of_proceeds ends (by decide) fun fuel further more _ => space_proceeds fuel further more
    statements := .of_proceeds ends (by decide) fun fuel further more _ => statements_proceeds fuel further more
    classMembers := fun className =>
      .of_proceeds ends (by decide) fun fuel further more _ => classMembers_proceeds fuel further more className
    members := .of_proceeds ends (by decide) fun fuel further more _ => members_proceeds fuel further more
    usings := .of_proceeds ends (by decide) fun fuel further more _ => usings_proceeds fuel further more
    compilationUnit := unit
    localType := .of_proceeds ends (by decide) fun fuel further more _ => localType?_proceeds fuel further more
    noLocalType := fun _ _ _ read => localType?_stays read
    advance := fun position inside => Input.advance_startingAt_min inside
    outcome := fun _ enough => ofTokens_of_settles ends unit enough }

/-- In `{(int)a < b; Box c, d = new Box();}}` the cast and the comparison are read as one statement, and so is the
declaration behind them, from where the first one ends. -/
theorem makesProgress_castThenDeclaration :
    Input.Ends ⟨castThenDeclaration.rest, ⟨0, 0⟩⟩ ∧
    (∃ (first : Stmt) (next : Input), statement 480 (.startingAt castThenDeclaration.rest 1) = .ok (first, next) ∧
      ∃ later, 2 ≤ later ∧ later < 21 ∧ next = .startingAt castThenDeclaration.rest later) ∧
    ∃ (second : Stmt) (next : Input), statement 480 (.startingAt castThenDeclaration.rest 8) = .ok (second, next) ∧
      ∃ later, 9 ≤ later ∧ later < 21 ∧ next = .startingAt castThenDeclaration.rest later := by
  have progress := @makesProgress castThenDeclaration.rest rfl
  exact ⟨rfl, ⟨_, _, rfl, progress.statement.forward 480 1 _ _ (by decide) rfl⟩,
    _, _, rfl, progress.statement.forward 480 8 _ _ (by decide) rfl⟩

end Snippet.Reader
