import Snippet.Grammar.Declaration
import Snippet.Proofs.Grammar.Moving

/-!
The readers of expressions, statements and declarations read the same from tokens with changed places.
-/

namespace Snippet.Reader

variable {change : Span → Span}

/-! ### Expressions -/

theorem atom?_map (span : Span) (token : Token) :
    atom? (change span) token = (atom? span token).map (Expr.mapSpans change) := by
  cases token with
  | keyword word => cases word <;> rfl
  | _ => rfl

theorem seesTypeArguments_mapSpans (input : Input) :
    seesTypeArguments (input.mapSpans change) = seesTypeArguments input := by
  simp [seesTypeArguments]

theorem seesCast_mapSpans (input : Input) : seesCast (input.mapSpans change) = seesCast input := by
  simp [seesCast]

mutual

theorem expression_moves (respects : Span.Respects change) (fuel : Nat) :
    Moves change (Expr.mapSpans change) (expression fuel) (expression fuel) := by
  match fuel with
  | 0 => exact .exhausted
  | fuel + 1 =>
    rw [expression]
    refine (conditional_moves respects fuel).bind fun target => .peek fun token => ?_
    split
    · exact .pure rfl
    · refine .discardAdvance ((expression_moves respects fuel).bind fun value => .pure ?_)
      rw [Expr.mapSpans, respects.join, Expr.span_mapSpans, Expr.span_mapSpans]

theorem conditional_moves (respects : Span.Respects change) (fuel : Nat) :
    Moves change (Expr.mapSpans change) (conditional fuel) (conditional fuel) := by
  match fuel with
  | 0 => exact .exhausted
  | fuel + 1 =>
    rw [conditional]
    refine (binary_moves respects fuel levels).bind fun condition => .eat fun isAsked => .choose ?_ (.pure rfl)
    refine (expression_moves respects fuel).bind fun thenValue => .discard (expect_moves .colon) ?_
    refine (expression_moves respects fuel).bind fun elseValue => .pure ?_
    rw [Expr.mapSpans, respects.join, Expr.span_mapSpans, Expr.span_mapSpans]

theorem binary_moves (respects : Span.Respects change) (fuel : Nat) (levels : List (List BinaryOperator)) :
    Moves change (Expr.mapSpans change) (binary fuel levels) (binary fuel levels) := by
  match fuel, levels with
  | 0, _ => exact .exhausted
  | fuel + 1, [] =>
    rw [binary]
    exact unary_moves respects fuel
  | fuel + 1, level :: tighter =>
    rw [binary]
    exact (binary_moves respects fuel tighter).bind fun left => binaryTail_moves respects fuel level tighter left

theorem binaryTail_moves (respects : Span.Respects change) (fuel : Nat) (level : List BinaryOperator)
    (tighter : List (List BinaryOperator)) (left : Expr) :
    Moves change (Expr.mapSpans change) (binaryTail fuel level tighter left)
      (binaryTail fuel level tighter (left.mapSpans change)) := by
  match fuel with
  | 0 => exact .exhausted
  | fuel + 1 =>
    rw [binaryTail, binaryTail]
    refine .peek fun token => ?_
    split
    · exact .pure rfl
    · next operator _ =>
      refine .discardAdvance ((binary_moves respects fuel tighter).bind fun right => ?_)
      have moved : Expr.binary ((left.mapSpans change).span.join (right.mapSpans change).span) operator
            (left.mapSpans change) (right.mapSpans change) =
          (Expr.binary (left.span.join right.span) operator left right).mapSpans change := by
        rw [Expr.mapSpans, respects.join, Expr.span_mapSpans, Expr.span_mapSpans]
      rw [moved]
      exact binaryTail_moves respects fuel level tighter _

theorem unary_moves (respects : Span.Respects change) (fuel : Nat) :
    Moves change (Expr.mapSpans change) (unary fuel) (unary fuel) := by
  match fuel with
  | 0 => exact .exhausted
  | fuel + 1 =>
    rw [unary]
    refine .here fun start => .peek fun token => ?_
    split
    · refine .discardAdvance ((unary_moves respects fuel).bind fun operand => .pure ?_)
      rw [Expr.mapSpans, respects.join, Expr.span_mapSpans]
    · refine .discardAdvance ((unary_moves respects fuel).bind fun target => .pure ?_)
      rw [Expr.mapSpans, respects.join, Expr.span_mapSpans]
    · refine .get fun input => ?_
      rw [seesCast_mapSpans]
      refine .choose ?_ ?_
      · refine .discardAdvance ((typeName_moves respects fuel).bind fun type => .discard (expect_moves .rightParen) ?_)
        refine (unary_moves respects fuel).bind fun operand => .pure ?_
        rw [Expr.mapSpans, respects.join, Expr.span_mapSpans]
      · exact (primary_moves respects fuel).bind fun value => trailing_moves respects fuel value

theorem trailing_moves (respects : Span.Respects change) (fuel : Nat) (value : Expr) :
    Moves change (Expr.mapSpans change) (trailing fuel value) (trailing fuel (value.mapSpans change)) := by
  match fuel with
  | 0 => exact .exhausted
  | fuel + 1 =>
    rw [trailing, trailing]
    refine .peek fun token => ?_
    split
    · refine .discardAdvance (expectName_moves.bind fun found => .get fun input => ?_)
      rw [seesTypeArguments_mapSpans]
      refine .choose .unsupportedHere ?_
      have moved : Expr.member ((value.mapSpans change).span.join (change found.2)) (value.mapSpans change) found.1 =
          (Expr.member (value.span.join found.2) value found.1).mapSpans change := by
        rw [Expr.mapSpans, respects.join, Expr.span_mapSpans]
      exact moved ▸ trailing_moves respects fuel _
    · refine (callArguments_moves respects fuel).bind fun arguments => .previous fun stop => ?_
      have moved : Expr.call ((value.mapSpans change).span.join (change stop)) (value.mapSpans change)
            (arguments.map (Argument.mapSpans change)) =
          (Expr.call (value.span.join stop) value arguments).mapSpans change := by
        rw [Expr.mapSpans, respects.join, Expr.span_mapSpans, Argument.mapSpansOfAll_eq_map]
      exact moved ▸ trailing_moves respects fuel _
    · next isIncrement _ _ _ =>
      refine advance_moves.bind fun stop => ?_
      have moved : Expr.step ((value.mapSpans change).span.join (change stop)) isIncrement false
            (value.mapSpans change) =
          (Expr.step (value.span.join stop) isIncrement false value).mapSpans change := by
        rw [Expr.mapSpans, respects.join, Expr.span_mapSpans]
      exact moved ▸ trailing_moves respects fuel _
    · exact .choose (.get fun input => .fail) (.pure rfl)

theorem callArguments_moves (respects : Span.Respects change) (fuel : Nat) :
    Moves change (List.map (Argument.mapSpans change)) (callArguments fuel) (callArguments fuel) := by
  match fuel with
  | 0 => exact .exhausted
  | fuel + 1 =>
    rw [callArguments]
    refine .discard (expect_moves .leftParen) (.eat fun isClosed => .choose (.pure rfl) ?_)
    refine (argumentList_moves respects fuel).bind fun arguments => ?_
    exact .discard (expect_moves .rightParen) (.pure rfl)

theorem argumentList_moves (respects : Span.Respects change) (fuel : Nat) :
    Moves change (List.map (Argument.mapSpans change)) (argumentList fuel) (argumentList fuel) := by
  match fuel with
  | 0 => exact .exhausted
  | fuel + 1 =>
    rw [argumentList]
    refine .here fun start => passMode_moves.bind fun mode => .peek fun token => .peekAt fun next => ?_
    refine .choose .fail ((expression_moves respects fuel).bind fun value => ?_)
    have moved : Argument.mk ((change start).join (value.mapSpans change).span) mode (value.mapSpans change) =
        (Argument.mk (start.join value.span) mode value).mapSpans change := by
      rw [Argument.mapSpans, respects.join, Expr.span_mapSpans]
    refine .eat fun isComma => .choose ?_ (.pure (congrArg ([·]) moved))
    exact (argumentList_moves respects fuel).bind fun others => .pure (congrArg (· :: _) moved)

theorem primary_moves (respects : Span.Respects change) (fuel : Nat) :
    Moves change (Expr.mapSpans change) (primary fuel) (primary fuel) := by
  match fuel with
  | 0 => exact .exhausted
  | fuel + 1 =>
    rw [primary]
    refine .here fun span => .peek fun token => ?_
    rw [atom?_map]
    cases atom? span token with
    | some atom => exact .discardAdvance (.pure rfl)
    | none =>
      cases basicType? token with
      | some basic => exact .discardAdvance (refuseNullable_moves.bind fun _ => .pure rfl)
      | none =>
        dsimp only [Option.map_none]
        split
        · refine .discardAdvance ((expression_moves respects fuel).bind fun inner => ?_)
          refine .discard (expect_moves .rightParen) (.previous fun stop => .pure ?_)
          rw [Expr.mapSpans, respects.join]
        · refine .discardAdvance (.peek fun first => .choose .unsupportedHere ?_)
          refine (typeName_moves respects fuel).bind fun type => ?_
          refine .sees fun isBrace => .choose .unsupportedHere (.sees fun isParen => .choose .failHere ?_)
          refine (callArguments_moves respects fuel).bind fun arguments => .previous fun stop => .pure ?_
          rw [Expr.mapSpans, respects.join, Argument.mapSpansOfAll_eq_map]
        · exact .failHere

end

/-! ### Statements -/

theorem condition_moves (respects : Span.Respects change) (fuel : Nat) :
    Moves change (Expr.mapSpans change) (condition fuel) (condition fuel) := by
  rw [condition]
  refine .discard (expect_moves .leftParen) ((expression_moves respects fuel).bind fun value => ?_)
  exact .discard (expect_moves .rightParen) (.pure rfl)

theorem declarators_moves (respects : Span.Respects change) (fuel : Nat) :
    Moves change (List.map (Declarator.mapSpans change)) (declarators fuel) (declarators fuel) := by
  induction fuel with
  | zero => exact .exhausted
  | succ fuel ih =>
      rw [declarators]
      refine expectName_moves.bind fun found => .eat fun isAssigned => ?_
      have finish (value : Option Expr) :
          Moves change (List.map (Declarator.mapSpans change)) (do
              let declarator : Declarator := ⟨found.1, value, found.2.join (← previous)⟩
              if ← eat .comma then return declarator :: (← declarators fuel)
              else return [declarator]) (do
              let declarator : Declarator :=
                ⟨found.1, value.map (Expr.mapSpans change), (change found.2).join (← previous)⟩
              if ← eat .comma then return declarator :: (← declarators fuel)
              else return [declarator]) := by
        refine .previous fun stop => ?_
        have moved : Declarator.mk found.1 (value.map (Expr.mapSpans change)) ((change found.2).join (change stop)) =
            (Declarator.mk found.1 value (found.2.join stop)).mapSpans change := by
          rw [Declarator.mapSpans, respects.join]
        refine .eat fun isComma => .choose ?_ (.pure (congrArg ([·]) moved))
        exact ih.bind fun others => .pure (congrArg (· :: _) moved)
      refine .choose ?_ (.pureBind (finish none))
      have read : Moves change (Option.map (Expr.mapSpans change)) (some <$> expression fuel) (some <$> expression fuel) :=
        .map (expression_moves respects fuel) fun value => rfl
      exact read.bind finish

theorem declaresHere_mapSpans (input : Input) : declaresHere (input.mapSpans change) = declaresHere input := by
  simp [declaresHere]

/-- The look-ahead for a declaration gives up at the same tokens. -/
theorem localType?_moves (respects : Span.Respects change) (fuel : Nat) :
    Moves change (Option.map (TypeName.mapSpans change)) (localType? fuel) (localType? fuel) := by
  intro input isSome
  have read := typeName_moves respects fuel input isSome
  unfold localType?
  simp only [Input.token_mapSpans, Input.tokenAt_mapSpans]
  by_cases noType : (!startsType input.token) = true
  · rw [if_pos noType, if_pos noType]
    exact ⟨rfl, isSome⟩
  rw [if_neg noType, if_neg noType]
  by_cases isMember : (!input.token.isName && (input.tokenAt 1).isSymbol .dot) = true
  · rw [if_pos isMember, if_pos isMember]
    exact ⟨rfl, isSome⟩
  rw [if_neg isMember, if_neg isMember]
  cases isRead : typeName fuel input with
  | ok found =>
      obtain ⟨type, next⟩ := found
      rw [isRead] at read
      rw [read.1]
      simp only [declaresHere_mapSpans]
      by_cases declares : declaresHere next = true
      · rw [if_pos declares, if_pos declares]
        exact ⟨rfl, read.2⟩
      · rw [if_neg declares, if_neg declares]
        exact ⟨rfl, isSome⟩
  | error stop =>
      rw [isRead] at read
      cases stop with
      | exhausted => rw [read]
      | finding found =>
          obtain ⟨span, isMoved⟩ := read
          rw [isMoved]
          exact ⟨rfl, isSome⟩

theorem simpleStatement_moves (respects : Span.Respects change) (fuel : Nat) (start : Span) :
    Moves change (Stmt.mapSpans change) (simpleStatement fuel start) (simpleStatement fuel (change start)) := by
  rw [simpleStatement, simpleStatement]
  refine (localType?_moves respects fuel).bind fun found => ?_
  cases found with
  | some type =>
    refine (declarators_moves respects fuel).bind fun declared => .previous fun stop => .pure ?_
    rw [Stmt.mapSpans, respects.join]
  | none =>
    refine (expression_moves respects fuel).bind fun value => .previous fun stop => .pure ?_
    rw [Stmt.mapSpans, respects.join]

theorem loopStart_moves (respects : Span.Respects change) (fuel : Nat) :
    Moves change (List.map (Stmt.mapSpans change)) (loopStart fuel) (loopStart fuel) := by
  induction fuel with
  | zero => exact .exhausted
  | succ fuel ih =>
      rw [loopStart]
      refine .here fun start => (simpleStatement_moves respects fuel start).bind fun statement => ?_
      rw [Stmt.isDeclaration_mapSpans]
      refine .choose (.pure rfl) (.eat fun isComma => .choose ?_ (.pure rfl))
      exact ih.bind fun others => .pure rfl

theorem expressions_moves (respects : Span.Respects change) (fuel : Nat) :
    Moves change (List.map (Expr.mapSpans change)) (expressions fuel) (expressions fuel) := by
  induction fuel with
  | zero => exact .exhausted
  | succ fuel ih =>
      rw [expressions]
      refine (expression_moves respects fuel).bind fun value => .eat fun isComma => .choose ?_ (.pure rfl)
      exact ih.bind fun others => .pure rfl

theorem Moves.upTo (respects : Span.Respects change) {start : Span} {statement statement' : Span → Stmt}
    (same : ∀ span, statement' (change span) = (statement span).mapSpans change) :
    Moves change (Stmt.mapSpans change) (upTo start statement) (upTo (change start) statement') := by
  rw [Reader.upTo, Reader.upTo]
  refine .previous fun stop => .pure ?_
  rw [← same, respects.join]

theorem refuseDeclaration_moves (statement : Stmt) :
    Moves change (Stmt.mapSpans change) (refuseDeclaration statement)
      (refuseDeclaration (statement.mapSpans change)) := by
  rw [refuseDeclaration, refuseDeclaration, Stmt.isDeclaration_mapSpans]
  exact .choose .fail (.pure rfl)

/-- A loop behind its first word, if its body is read the same. -/
theorem forLoop_moves (respects : Span.Respects change) (fuel : Nat) (start : Span)
    (embeds : Moves change (Stmt.mapSpans change) (embedded fuel) (embedded fuel)) :
    Moves change (Stmt.mapSpans change) (do
      discard (expect .leftParen)
      let first ← if ← sees .semicolon then pure [] else loopStart fuel
      discard (expect .semicolon)
      let test ← if ← sees .semicolon then pure none else some <$> expression fuel
      discard (expect .semicolon)
      let steps ← if ← sees .rightParen then pure [] else expressions fuel
      discard (expect .rightParen)
      let body ← embedded fuel
      upTo start (.forLoop · first test steps body)) (do
      discard (expect .leftParen)
      let first ← if ← sees .semicolon then pure [] else loopStart fuel
      discard (expect .semicolon)
      let test ← if ← sees .semicolon then pure none else some <$> expression fuel
      discard (expect .semicolon)
      let steps ← if ← sees .rightParen then pure [] else expressions fuel
      discard (expect .rightParen)
      let body ← embedded fuel
      upTo (change start) (.forLoop · first test steps body)) := by
  have finish (first : List Stmt) (test : Option Expr) (steps : List Expr) :
      Moves change (Stmt.mapSpans change) (do
        discard (expect .rightParen)
        let body ← embedded fuel
        upTo start (.forLoop · first test steps body)) (do
        discard (expect .rightParen)
        let body ← embedded fuel
        upTo (change start) (.forLoop · (first.map (Stmt.mapSpans change)) (test.map (Expr.mapSpans change))
          (steps.map (Expr.mapSpans change)) body)) := by
    refine .discard (expect_moves .rightParen) (embeds.bind fun body => .upTo respects fun span => ?_)
    rw [Stmt.mapSpans, Stmt.mapSpansOfAll_eq_map]
  have withTest (first : List Stmt) (test : Option Expr) :
      Moves change (Stmt.mapSpans change) (do
        discard (expect .semicolon)
        let steps ← if ← sees .rightParen then pure [] else expressions fuel
        discard (expect .rightParen)
        let body ← embedded fuel
        upTo start (.forLoop · first test steps body)) (do
        discard (expect .semicolon)
        let steps ← if ← sees .rightParen then pure [] else expressions fuel
        discard (expect .rightParen)
        let body ← embedded fuel
        upTo (change start) (.forLoop · (first.map (Stmt.mapSpans change)) (test.map (Expr.mapSpans change))
          steps body)) :=
    .discard (expect_moves .semicolon) (.sees fun isEnd => .choose (.pureBind (finish first test []))
      ((expressions_moves respects fuel).bind fun steps => finish first test steps))
  have withStart (first : List Stmt) :
      Moves change (Stmt.mapSpans change) (do
        discard (expect .semicolon)
        let test ← if ← sees .semicolon then pure none else some <$> expression fuel
        discard (expect .semicolon)
        let steps ← if ← sees .rightParen then pure [] else expressions fuel
        discard (expect .rightParen)
        let body ← embedded fuel
        upTo start (.forLoop · first test steps body)) (do
        discard (expect .semicolon)
        let test ← if ← sees .semicolon then pure none else some <$> expression fuel
        discard (expect .semicolon)
        let steps ← if ← sees .rightParen then pure [] else expressions fuel
        discard (expect .rightParen)
        let body ← embedded fuel
        upTo (change start) (.forLoop · (first.map (Stmt.mapSpans change)) test steps body)) := by
    have read : Moves change (Option.map (Expr.mapSpans change)) (some <$> expression fuel)
        (some <$> expression fuel) := .map (expression_moves respects fuel) fun value => rfl
    exact .discard (expect_moves .semicolon) (.sees fun isEnd => .choose (.pureBind (withTest first none))
      (read.bind fun test => withTest first test))
  exact .discard (expect_moves .leftParen) (.sees fun isEnd => .choose (.pureBind (withStart []))
    ((loopStart_moves respects fuel).bind fun first => withStart first))

mutual

theorem statement_moves (respects : Span.Respects change) (fuel : Nat) :
    Moves change (Stmt.mapSpans change) (statement fuel) (statement fuel) := by
  match fuel with
  | 0 => exact .exhausted
  | fuel + 1 =>
    rw [statement]
    refine .here fun start => .peek fun token => ?_
    split
    · refine .discardAdvance ((statements_moves respects fuel).bind fun body => ?_)
      refine .discard (expect_moves .rightBrace) (.upTo respects fun span => ?_)
      rw [Stmt.mapSpans, Stmt.mapSpansOfAll_eq_map]
    · exact .discardAdvance (.upTo respects fun span => rfl)
    · refine .discardAdvance (.sees fun isEnd => ?_)
      have finish (value : Option Expr) :
          Moves change (Stmt.mapSpans change) (do
              discard (expect .semicolon)
              upTo start (.giveBack · value)) (do
              discard (expect .semicolon)
              upTo (change start) (.giveBack · (value.map (Expr.mapSpans change)))) :=
        .discard (expect_moves .semicolon) (.upTo respects fun span => rfl)
      have read : Moves change (Option.map (Expr.mapSpans change)) (some <$> expression fuel) (some <$> expression fuel) :=
        .map (expression_moves respects fuel) fun value => rfl
      exact .choose (.pureBind (finish none)) (read.bind finish)
    · refine .discardAdvance ((condition_moves respects fuel).bind fun test => ?_)
      refine (embedded_moves respects fuel).bind fun thenBranch => .peek fun token => ?_
      refine .choose (.discardAdvance ?_) (.upTo respects fun span => rfl)
      exact (embedded_moves respects fuel).bind fun elseBranch => .upTo respects fun span => rfl
    · refine .discardAdvance ((condition_moves respects fuel).bind fun test => ?_)
      exact (embedded_moves respects fuel).bind fun body => .upTo respects fun span => rfl
    · exact .discardAdvance (forLoop_moves respects fuel start (embedded_moves respects fuel))
    · exact .discardAdvance (.discard (expect_moves .semicolon) (.upTo respects fun span => rfl))
    · exact .discardAdvance (.discard (expect_moves .semicolon) (.upTo respects fun span => rfl))
    · have simple : Moves change (Stmt.mapSpans change) (do
          let read ← simpleStatement fuel start
          discard (expect .semicolon)
          match read with
          | .declare _ type declared => upTo start (.declare · type declared)
          | .evaluate _ value => upTo start (.evaluate · value)
          | other => return other) (do
          let read ← simpleStatement fuel (change start)
          discard (expect .semicolon)
          match read with
          | .declare _ type declared => upTo (change start) (.declare · type declared)
          | .evaluate _ value => upTo (change start) (.evaluate · value)
          | other => return other) := by
        refine (simpleStatement_moves respects fuel start).bind fun read => .discard (expect_moves .semicolon) ?_
        cases read with
        | declare _ _ _ => exact .upTo respects fun span => rfl
        | evaluate _ _ => exact .upTo respects fun span => rfl
        | _ => exact .pure rfl
      split
      · exact .choose .fail simple
      · exact simple

theorem embedded_moves (respects : Span.Respects change) (fuel : Nat) :
    Moves change (Stmt.mapSpans change) (embedded fuel) (embedded fuel) := by
  match fuel with
  | 0 => exact .exhausted
  | fuel + 1 =>
    rw [embedded]
    exact (statement_moves respects fuel).bind fun statement => refuseDeclaration_moves statement

theorem statements_moves (respects : Span.Respects change) (fuel : Nat) :
    Moves change (List.map (Stmt.mapSpans change)) (statements fuel) (statements fuel) := by
  match fuel with
  | 0 => exact .exhausted
  | fuel + 1 =>
    rw [statements]
    refine .peek fun token => ?_
    split
    · exact .pure rfl
    · exact .pure rfl
    · refine (statement_moves respects fuel).bind fun first => ?_
      exact (statements_moves respects fuel).bind fun rest => .pure rfl

end

/-! ### Declarations -/

theorem modifierList_moves (fuel : Nat) (modifiers : Modifiers) :
    Moves change id (modifierList fuel modifiers) (modifierList fuel modifiers) := by
  induction fuel generalizing modifiers with
  | zero => exact .exhausted
  | succ fuel ih =>
      rw [modifierList]
      refine .peek fun token => ?_
      split
      · exact .pure rfl
      · exact .failHere
      · exact .discardAdvance (ih _)

theorem parameterList_moves (respects : Span.Respects change) (fuel : Nat) :
    Moves change (List.map (Parameter.mapSpans change)) (parameterList fuel) (parameterList fuel) := by
  induction fuel with
  | zero => exact .exhausted
  | succ fuel ih =>
      rw [parameterList]
      refine .here fun start => passMode_moves.bind fun mode => .peek fun token => ?_
      have parameter : Moves change (List.map (Parameter.mapSpans change)) (do
          let type ← typeName fuel
          let found ← expectName
          if ← sees .assign then unsupportedHere "optional parameter"
          let parameter : Parameter := ⟨mode, type, found.1, start.join found.2⟩
          if ← eat .comma then return parameter :: (← parameterList fuel)
          else return [parameter]) (do
          let type ← typeName fuel
          let found ← expectName
          if ← sees .assign then unsupportedHere "optional parameter"
          let parameter : Parameter := ⟨mode, type, found.1, (change start).join found.2⟩
          if ← eat .comma then return parameter :: (← parameterList fuel)
          else return [parameter]) := by
        refine (typeName_moves respects fuel).bind fun type => expectName_moves.bind fun found => ?_
        refine .sees fun isOptional => .choose .unsupportedHere ?_
        have moved : Parameter.mk mode (type.mapSpans change) found.1 ((change start).join (change found.2)) =
            (Parameter.mk mode type found.1 (start.join found.2)).mapSpans change := by
          rw [Parameter.mapSpans, respects.join]
        refine .eat fun isComma => .choose ?_ (.pure (congrArg ([·]) moved))
        exact ih.bind fun others => .pure (congrArg (· :: _) moved)
      split
      · exact .choose .unsupportedHere parameter
      · exact parameter

theorem parameters_moves (respects : Span.Respects change) (fuel : Nat) :
    Moves change (List.map (Parameter.mapSpans change)) (parameters fuel) (parameters fuel) := by
  rw [parameters]
  refine .discard (expect_moves .leftParen) (.eat fun isClosed => .choose (.pure rfl) ?_)
  refine (parameterList_moves respects fuel).bind fun list => ?_
  exact .discard (expect_moves .rightParen) (.pure rfl)

/-- The result type of a method, with what is read behind it. -/
theorem result_moves (respects : Span.Respects change) (fuel : Nat) (token : Token) {α β : Type} {move : α → β}
    {rest : Option TypeName → Reader α} {rest' : Option TypeName → Reader β}
    (go : ∀ result, Moves change move (rest result) (rest' (result.map (TypeName.mapSpans change)))) :
    Moves change move (do
      if token.isKeyword .voidWord then
        discard advance
        rest none
      else if startsType token then rest (← some <$> typeName fuel)
      else rest (← failHere (.badMemberStart token.shown))) (do
      if token.isKeyword .voidWord then
        discard advance
        rest' none
      else if startsType token then rest' (← some <$> typeName fuel)
      else rest' (← failHere (.badMemberStart token.shown))) := by
  have read : Moves change (Option.map (TypeName.mapSpans change)) (some <$> typeName fuel) (some <$> typeName fuel) :=
    .map (typeName_moves respects fuel) fun type => rfl
  exact .choose (.discardAdvance (go none)) (.choose (read.bind go) .failHere)

theorem method_moves (respects : Span.Respects change) (fuel : Nat) (modifiers : Modifiers) (start : Span)
    (className : String) : Moves change (MethodDecl.mapSpans change) (method fuel modifiers start className)
      (method fuel modifiers (change start) className) := by
  rw [method, method]
  have behindName (name : String) (result : Option TypeName) :
      Moves change (MethodDecl.mapSpans change) (do
        let list ← parameters fuel
        discard (expect .leftBrace)
        let body ← statements fuel
        let stop ← expect .rightBrace
        return ⟨name, modifiers, result, list, body, start.join stop⟩) (do
        let list ← parameters fuel
        discard (expect .leftBrace)
        let body ← statements fuel
        let stop ← expect .rightBrace
        return ⟨name, modifiers, result.map (TypeName.mapSpans change), list, body, (change start).join stop⟩) := by
    refine (parameters_moves respects fuel).bind fun list => .discard (expect_moves .leftBrace) ?_
    refine (statements_moves respects fuel).bind fun body => (expect_moves .rightBrace).bind fun stop => .pure ?_
    rw [MethodDecl.mapSpans, respects.join]
  refine .peek fun token => ?_
  split
  case' h_1 => refine .peekAt fun next => .choose .unsupportedHere ?_
  all_goals
    refine .peek fun token => result_moves respects fuel token fun result => ?_
    refine expectName_moves.bind fun found => .peek fun next => ?_
    split
    · exact .unsupportedHere
    · exact .unsupportedHere
    · exact .unsupportedHere
    · exact .unsupportedHere
    · exact behindName found.1 result

mutual

theorem classDecl_moves (respects : Span.Respects change) (fuel : Nat) (modifiers : Modifiers) (start : Span) :
    Moves change (ClassDecl.mapSpans change) (classDecl fuel modifiers start)
      (classDecl fuel modifiers (change start)) := by
  match fuel with
  | 0 => exact .exhausted
  | fuel + 1 =>
    rw [classDecl, classDecl]
    refine .discard (expectWord_moves .classWord) (expectName_moves.bind fun found => ?_)
    refine .sees fun isGeneric => .sees fun isDerived => .choose .unsupportedHere ?_
    refine .discard (expect_moves .leftBrace) ((classMembers_moves respects fuel found.1).bind fun members => ?_)
    refine (expect_moves .rightBrace).bind fun stop => .pure ?_
    rw [ClassDecl.mapSpans, respects.join, ClassDecl.mapSpansOfAll_eq_map]

theorem classMembers_moves (respects : Span.Respects change) (fuel : Nat) (className : String) :
    Moves change (Prod.map (List.map (MethodDecl.mapSpans change)) (List.map (ClassDecl.mapSpans change)))
      (classMembers fuel className) (classMembers fuel className) := by
  match fuel with
  | 0 => exact .exhausted
  | fuel + 1 =>
    rw [classMembers]
    refine .peek fun token => ?_
    split
    · exact .pure rfl
    · exact .pure rfl
    · refine .here fun start => (modifierList_moves fuel .none).bind fun modifiers => .peek fun token => ?_
      refine .choose ?_ ?_
      · refine (classDecl_moves respects fuel modifiers start).bind fun first => ?_
        exact (classMembers_moves respects fuel className).bind fun others => .pure rfl
      · refine (method_moves respects fuel modifiers start className).bind fun first => ?_
        exact (classMembers_moves respects fuel className).bind fun others => .pure rfl

end

theorem usings_moves (respects : Span.Respects change) (fuel : Nat) :
    Moves change (List.map (UsingDirective.mapSpans change)) (usings fuel) (usings fuel) := by
  induction fuel with
  | zero => exact .exhausted
  | succ fuel ih =>
      rw [usings]
      refine .peek fun token => .choose (.pure rfl) (advance_moves.bind fun start => ?_)
      refine .peek fun first => .peekAt fun second => .choose .fail ?_
      refine (qualifiedName_moves fuel).bind fun name => (expect_moves .semicolon).bind fun stop => ?_
      refine ih.bind fun others => .pure ?_
      rw [List.map_cons, UsingDirective.mapSpans, respects.join]
      rfl

mutual

theorem members_moves (respects : Span.Respects change) (fuel : Nat) :
    Moves change (List.map (Member.mapSpans change)) (members fuel) (members fuel) := by
  match fuel with
  | 0 => exact .exhausted
  | fuel + 1 =>
    rw [members]
    refine .peek fun token => .choose ?_ (.choose .failHere (.choose ?_ (.pure rfl)))
    · refine (space_moves respects fuel).bind fun first => ?_
      exact (members_moves respects fuel).bind fun others => .pure rfl
    · refine .here fun start => (modifierList_moves fuel .none).bind fun modifiers => .peek fun token => ?_
      refine .choose .failHere ((classDecl_moves respects fuel modifiers start).bind fun first => ?_)
      exact (members_moves respects fuel).bind fun others => .pure rfl

theorem space_moves (respects : Span.Respects change) (fuel : Nat) :
    Moves change (Member.mapSpans change) (space fuel) (space fuel) := by
  match fuel with
  | 0 => exact .exhausted
  | fuel + 1 =>
    rw [space]
    refine advance_moves.bind fun start => (qualifiedName_moves fuel).bind fun name => ?_
    refine .sees fun isOpen => .choose .unsupportedHere (.discard (expect_moves .leftBrace) ?_)
    refine (usings_moves respects fuel).bind fun directives => (members_moves respects fuel).bind fun list => ?_
    have closed : Moves change (Member.mapSpans change) (do
        let stop ← expect .rightBrace
        return .space (start.join stop) name directives list) (do
        let stop ← expect .rightBrace
        return .space ((change start).join stop) name (directives.map (UsingDirective.mapSpans change))
          (list.map (Member.mapSpans change))) := by
      refine (expect_moves .rightBrace).bind fun stop => .pure ?_
      rw [Member.mapSpans, respects.join, Member.mapSpansOfAll_eq_map]
    refine .peek fun token => ?_
    split
    · exact closed
    · exact closed
    · exact .failHere

end

theorem compilationUnit_moves (respects : Span.Respects change) (fuel : Nat) :
    Moves change (CompilationUnit.mapSpans change) (compilationUnit fuel) (compilationUnit fuel) := by
  rw [compilationUnit]
  refine (usings_moves respects fuel).bind fun directives => (members_moves respects fuel).bind fun list => ?_
  refine .peek fun token => ?_
  split
  · exact .pure rfl
  · exact .failHere

end Snippet.Reader
