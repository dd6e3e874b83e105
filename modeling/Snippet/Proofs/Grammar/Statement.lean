import Snippet.Proofs.Grammar.Expression

/-!
What the readers of statements and parameters take. Main statement: whatever is read as an expression,
as parameters or as statements, its tokens are exactly the tokens that were taken.
-/

namespace Snippet.Reader

variable {input : Input}

/-! ### Statements -/

theorem condition_takes (fuel : Nat) (ends : input.Ends) :
    Ensures input (condition fuel) fun value next => input.Takes (Token.inParentheses [value.tokens]) next := by
  rw [condition]
  refine (discard_expect_takes ends .leftParen).bind fun _ opened left => ?_
  refine (expression_takes fuel left.ends).bind fun value middle inner => ?_
  refine (discard_expect_takes inner.ends .rightParen).bind fun _ closed right => .pure ?_
  simpa [Token.inParentheses] using (left.trans inner).trans right

theorem declarators_takes (fuel : Nat) {input : Input} (ends : input.Ends) :
    Ensures input (declarators fuel) fun declared next => declared ≠ [] ∧
      input.Takes (Token.separated .comma (declared.map (·.tokens))) next := by
  induction fuel generalizing input with
  | zero => exact .exhausted
  | succ fuel ih =>
      rw [declarators]
      refine (expectName_takes ends).bind fun found named name => ?_
      refine .eat name.ends (fun assigned sign => ?_) (.pureBind (.previous (commaOrEnd_takes name ih)))
      refine (expression_takes fuel sign.ends).mapBind fun value middle operand => .previous (commaOrEnd_takes ?_ ih)
      exact name.trans (sign.trans operand)

/-- What the look-ahead for a declaration gives up is not taken. -/
theorem localType?_takes (fuel : Nat) (ends : input.Ends) :
    Ensures input (localType? fuel) fun found next =>
      input.Takes (found.elim [] TypeName.tokens) next := by
  intro found next read
  unfold localType? at read
  simp only at read
  split at read
  · cases read
    exact .refl ends
  · split at read
    · cases read
      exact .refl ends
    · split at read
      · next type behind isType =>
        split at read
        · cases read
          exact typeName_takes fuel ends _ _ isType
        · cases read
          exact .refl ends
      · cases read
      · cases read
        exact .refl ends

theorem simpleStatement_takes (fuel : Nat) (start : Span) {input : Input} (ends : input.Ends) :
    Ensures input (simpleStatement fuel start) fun statement next =>
      input.Takes statement.clauseTokens next ∧ statement.tokens = statement.clauseTokens ++ [.symbol .semicolon] := by
  rw [simpleStatement]
  refine (localType?_takes fuel ends).bind fun found middle taken => ?_
  cases found with
  | some type =>
    refine (declarators_takes fuel taken.ends).bind fun declared last ⟨_, tail⟩ => .previous (.pure ⟨?_, rfl⟩)
    exact taken.trans tail
  | none =>
    refine (expression_takes fuel taken.ends).bind fun value last tail => .previous (.pure ⟨?_, rfl⟩)
    exact taken.trans tail

theorem loopStart_takes (fuel : Nat) {input : Input} (ends : input.Ends) :
    Ensures input (loopStart fuel) fun clauses next => clauses ≠ [] ∧
      input.Takes (Token.separated .comma (clauses.map (·.clauseTokens))) next := by
  induction fuel generalizing input with
  | zero => exact .exhausted
  | succ fuel ih =>
      rw [loopStart]
      refine .here ((simpleStatement_takes fuel _ ends).bind fun clause middle read => ?_)
      have first := read.1
      exact .choose (fun _ => .pure ⟨nofun, by simpa using first⟩) fun _ => commaOrEnd_takes first ih

theorem expressions_takes (fuel : Nat) {input : Input} (ends : input.Ends) :
    Ensures input (expressions fuel) fun values next => values ≠ [] ∧
      input.Takes (Token.separated .comma (values.map (·.tokens))) next := by
  induction fuel generalizing input with
  | zero => exact .exhausted
  | succ fuel ih =>
      rw [expressions]
      exact (expression_takes fuel ends).bind fun value middle first => commaOrEnd_takes first ih

theorem Ensures.upTo {start : Span} {statement : Span → Stmt} {post : Stmt → Input → Prop}
    (holds : ∀ span, post (statement span) input) : Ensures input (upTo start statement) post :=
  .previous (.pure (holds _))

/-- A loop behind its first word, if its body is read as it is printed. -/
theorem forLoop_takes (fuel : Nat) (start : Span)
    (embeds : ∀ {input : Input}, input.Ends →
      Ensures input (embedded fuel) fun statement next => input.Takes statement.tokens next)
    {next : Input} (word : input.Takes [.keyword .forWord] next) :
    Ensures next (do
      discard (expect .leftParen)
      let first ← if ← sees .semicolon then pure [] else loopStart fuel
      discard (expect .semicolon)
      let test ← if ← sees .semicolon then pure none else some <$> expression fuel
      discard (expect .semicolon)
      let steps ← if ← sees .rightParen then pure [] else expressions fuel
      discard (expect .rightParen)
      let body ← embedded fuel
      upTo start (.forLoop · first test steps body)) fun statement next => input.Takes statement.tokens next := by
  refine (discard_expect_takes word.ends .leftParen).bind fun _ opened left => .sees ?_
  have head := word.trans left
  have finish {first : List Stmt} {test : Option Expr} {steps : List Expr} {middle : Input}
      (head : input.Takes ([.keyword .forWord, .symbol .leftParen] ++
        Token.separated .comma (first.map (·.clauseTokens)) ++ .symbol .semicolon :: test.elim [] Expr.tokens ++
        .symbol .semicolon :: Token.separated .comma (steps.map (·.tokens))) middle) :
      Ensures middle (do
        discard (expect .rightParen)
        let body ← embedded fuel
        upTo start (.forLoop · first test steps body)) fun statement next =>
          input.Takes statement.tokens next := by
    refine (discard_expect_takes head.ends .rightParen).bind fun _ closed right => ?_
    refine (embeds right.ends).bind fun body last inner => .upTo fun _ => ?_
    simpa [Stmt.tokens] using (head.trans right).trans inner
  have withTest {first : List Stmt} {test : Option Expr} {middle : Input}
      (head : input.Takes ([.keyword .forWord, .symbol .leftParen] ++
        Token.separated .comma (first.map (·.clauseTokens)) ++
        .symbol .semicolon :: test.elim [] Expr.tokens) middle) :
      Ensures middle (do
        discard (expect .semicolon)
        let steps ← if ← sees .rightParen then pure [] else expressions fuel
        discard (expect .rightParen)
        let body ← embedded fuel
        upTo start (.forLoop · first test steps body)) fun statement next =>
          input.Takes statement.tokens next := by
    refine (discard_expect_takes head.ends .semicolon).bind fun _ divided second => .sees ?_
    refine .choose (fun _ => .pureBind (finish (by simpa using head.trans second))) fun _ => ?_
    refine (expressions_takes fuel second.ends).bind fun steps stepped ⟨_, list⟩ => finish ?_
    simpa using (head.trans second).trans list
  have withStart {first : List Stmt} {middle : Input}
      (head : input.Takes ([.keyword .forWord, .symbol .leftParen] ++
        Token.separated .comma (first.map (·.clauseTokens))) middle) :
      Ensures middle (do
        discard (expect .semicolon)
        let test ← if ← sees .semicolon then pure none else some <$> expression fuel
        discard (expect .semicolon)
        let steps ← if ← sees .rightParen then pure [] else expressions fuel
        discard (expect .rightParen)
        let body ← embedded fuel
        upTo start (.forLoop · first test steps body)) fun statement next =>
          input.Takes statement.tokens next := by
    refine (discard_expect_takes head.ends .semicolon).bind fun _ divided semicolon => .sees ?_
    refine .choose (fun _ => .pureBind (withTest (head.trans semicolon))) fun _ => ?_
    refine (expression_takes fuel semicolon.ends).mapBind fun test tested condition => withTest ?_
    simpa using (head.trans semicolon).trans condition
  refine .choose (fun _ => .pureBind (withStart head)) fun _ => ?_
  exact (loopStart_takes fuel left.ends).bind fun first started ⟨_, list⟩ => withStart (head.trans list)

mutual

theorem statement_takes (fuel : Nat) {input : Input} (ends : input.Ends) :
    Ensures input (statement fuel) fun statement next => input.Takes statement.tokens next := by
  match fuel with
  | 0 => exact .exhausted
  | fuel + 1 =>
    rw [statement]
    refine .here (.peek ?_)
    split
    · next isBrace =>
      refine .discardAdvance ends isBrace nofun fun left => ?_
      refine (statements_takes fuel left.ends).bind fun body middle inner => ?_
      refine (discard_expect_takes inner.ends .rightBrace).bind fun _ closed right => .upTo fun _ => ?_
      simpa [Stmt.tokens] using (left.trans inner).trans right
    · next isSemicolon => exact .discardAdvance ends isSemicolon nofun fun taken => .upTo fun _ => taken
    · next isReturn =>
      refine .discardAdvance ends isReturn nofun fun word => .sees ?_
      have finish {value : Option Expr} {middle : Input}
          (head : input.Takes (.keyword .returnWord :: value.elim [] Expr.tokens) middle) :
          Ensures middle (do
            discard (expect .semicolon)
            upTo input.span (.giveBack · value)) fun statement next => input.Takes statement.tokens next := by
        refine (discard_expect_takes head.ends .semicolon).bind fun _ last semicolon => .upTo fun _ => ?_
        simpa [Stmt.tokens] using head.trans semicolon
      refine .choose (fun _ => .pureBind (finish word)) fun _ => ?_
      exact (expression_takes fuel word.ends).mapBind fun value middle operand => finish (word.trans operand)
    · next isIf =>
      refine .discardAdvance ends isIf nofun fun word => ?_
      refine (condition_takes fuel word.ends).bind fun test tested condition => ?_
      refine (embedded_takes fuel condition.ends).bind fun thenBranch middle first => .peek ?_
      have head := (word.trans condition).trans first
      refine .choose (fun isElse => ?_) fun _ => .upTo fun _ => by simpa [Stmt.tokens] using head
      refine .discardAdvance first.ends (Input.token_of_isKeyword isElse) nofun fun otherwise => ?_
      refine (embedded_takes fuel otherwise.ends).bind fun elseBranch last second => .upTo fun _ => ?_
      simpa [Stmt.tokens] using (head.trans otherwise).trans second
    · next isWhile =>
      refine .discardAdvance ends isWhile nofun fun word => ?_
      refine (condition_takes fuel word.ends).bind fun test tested condition => ?_
      refine (embedded_takes fuel condition.ends).bind fun body last inner => .upTo fun _ => ?_
      simpa [Stmt.tokens] using (word.trans condition).trans inner
    · next isFor =>
      refine .discardAdvance ends isFor nofun fun word => ?_
      exact forLoop_takes fuel input.span (embedded_takes fuel) word
    · next isBreak =>
      refine .discardAdvance ends isBreak nofun fun word => ?_
      refine (discard_expect_takes word.ends .semicolon).bind fun _ last semicolon => .upTo fun _ => ?_
      exact word.trans semicolon
    · next isContinue =>
      refine .discardAdvance ends isContinue nofun fun word => ?_
      refine (discard_expect_takes word.ends .semicolon).bind fun _ last semicolon => .upTo fun _ => ?_
      exact word.trans semicolon
    · have simple : Ensures input (do
          let read ← simpleStatement fuel input.span
          discard (expect .semicolon)
          match read with
          | .declare _ type declared => upTo input.span (.declare · type declared)
          | .evaluate _ value => upTo input.span (.evaluate · value)
          | other => return other) fun statement next => input.Takes statement.tokens next := by
        refine (simpleStatement_takes fuel input.span ends).bind fun read middle ⟨head, isClause⟩ => ?_
        refine (discard_expect_takes head.ends .semicolon).bind fun _ last semicolon => ?_
        split
        · exact .upTo fun _ => head.trans semicolon
        · exact .upTo fun _ => head.trans semicolon
        · exact .pure (isClause ▸ head.trans semicolon)
      split
      · exact .guard .fail fun _ => simple
      · exact simple

theorem embedded_takes (fuel : Nat) {input : Input} (ends : input.Ends) :
    Ensures input (embedded fuel) fun statement next => input.Takes statement.tokens next := by
  match fuel with
  | 0 => exact .exhausted
  | fuel + 1 =>
    rw [embedded]
    refine (statement_takes fuel ends).bind fun statement next takes => ?_
    exact .guard .fail fun _ => .pure takes

theorem statements_takes (fuel : Nat) {input : Input} (ends : input.Ends) :
    Ensures input (statements fuel) fun statements next => input.Takes (Stmt.tokensOfAll statements) next := by
  match fuel with
  | 0 => exact .exhausted
  | fuel + 1 =>
    rw [statements]
    refine .peek ?_
    split
    · exact .pure (.refl ends)
    · exact .pure (.refl ends)
    · refine (statement_takes fuel ends).bind fun first middle head => ?_
      refine (statements_takes fuel head.ends).bind fun rest last tail => .pure ?_
      exact head.trans tail

end

/-! ### Parameters -/

theorem parameterList_takes (fuel : Nat) {input : Input} (ends : input.Ends) :
    Ensures input (parameterList fuel) fun parameters next => parameters ≠ [] ∧
      input.Takes (Token.separated .comma (parameters.map (·.tokens))) next := by
  induction fuel generalizing input with
  | zero => exact .exhausted
  | succ fuel ih =>
      rw [parameterList]
      refine .here ((passMode_takes ends).bind fun mode middle keyword => .peek ?_)
      have parameter : Ensures middle (do
          let type ← typeName fuel
          let found ← expectName
          if ← sees .assign then unsupportedHere "optional parameter"
          let parameter : Parameter := ⟨mode, type, found.1, input.span.join found.2⟩
          if ← eat .comma then return parameter :: (← parameterList fuel)
          else return [parameter]) fun parameters next => parameters ≠ [] ∧
            input.Takes (Token.separated .comma (parameters.map (·.tokens))) next := by
        refine (typeName_takes fuel keyword.ends).bind fun type typed declared => ?_
        refine (expectName_takes declared.ends).bind fun found named name => .sees (.guard .unsupportedHere fun _ => ?_)
        exact commaOrEnd_takes ((keyword.trans declared).trans name) ih
      split
      · exact .guard .unsupportedHere fun _ => parameter
      · exact parameter

theorem parameters_takes (fuel : Nat) (ends : input.Ends) :
    Ensures input (parameters fuel) fun parameters next =>
      input.Takes (Token.inParentheses (parameters.map (·.tokens))) next := by
  rw [parameters]
  refine (discard_expect_takes ends .leftParen).bind fun _ opened left => ?_
  refine .eat left.ends (fun closed right => .pure (left.trans right)) ?_
  refine (parameterList_takes fuel left.ends).bind fun parameters behind ⟨_, inner⟩ => ?_
  refine (discard_expect_takes inner.ends .rightParen).bind fun _ closed right => .pure ?_
  simpa [Token.inParentheses] using (left.trans inner).trans right

/-! ### Reading and printing -/

/-- Whatever is read as an expression, as parameters or as statements from tokens that end with the end
of the text, its tokens are the ones that were taken, in order. -/
theorem tokens_eq_taken (fuel : Nat) {input : Input} (ends : input.Ends) :
    (∀ (value : Expr) (next : Input), expression fuel input = .ok (value, next) →
      ∃ taken : List PlacedToken, input.rest = taken ++ next.rest ∧ value.tokens = taken.map (·.token)) ∧
    (∀ (list : List Parameter) (next : Input), parameters fuel input = .ok (list, next) →
      ∃ taken : List PlacedToken, input.rest = taken ++ next.rest ∧
        Token.inParentheses (list.map (·.tokens)) = taken.map (·.token)) ∧
    (∀ (body : List Stmt) (next : Input), statements fuel input = .ok (body, next) →
      ∃ taken : List PlacedToken, input.rest = taken ++ next.rest ∧
        Stmt.tokensOfAll body = taken.map (·.token)) := by
  refine ⟨fun value next read => ?_, fun list next read => ?_, fun body next read => ?_⟩
  · obtain ⟨-, taken, rest, tokens⟩ := expression_takes fuel ends _ _ read
    exact ⟨taken, rest, tokens.symm⟩
  · obtain ⟨-, taken, rest, tokens⟩ := parameters_takes fuel ends _ _ read
    exact ⟨taken, rest, tokens.symm⟩
  · obtain ⟨-, taken, rest, tokens⟩ := statements_takes fuel ends _ _ read
    exact ⟨taken, rest, tokens.symm⟩

/-- The tokens of `(int)a < b; Box c, d = new Box();` with a brace behind them: a cast that looks like
parentheses, a comparison that looks like a type, and a declaration. -/
def castThenDeclaration : Input where
  rest := [.symbol .leftBrace, .symbol .leftParen, .keyword .intWord, .symbol .rightParen, .name "a", .symbol .less,
    .name "b", .symbol .semicolon, .name "Box", .name "c", .symbol .comma, .name "d", .symbol .assign,
    .keyword .newWord, .name "Box", .symbol .leftParen, .symbol .rightParen, .symbol .semicolon,
    .symbol .rightBrace, .symbol .rightBrace, .endOfFile].map (⟨·, ⟨0, 0⟩⟩)
  previous := ⟨0, 0⟩

theorem tokens_eq_taken_castThenDeclaration :
    castThenDeclaration.Ends ∧ ∃ (body : List Stmt) (next : Input),
      statements 60 castThenDeclaration = .ok (body, next) ∧ next.rest.length = 2 ∧
        ∃ taken : List PlacedToken, castThenDeclaration.rest = taken ++ next.rest ∧
          Stmt.tokensOfAll body = taken.map (·.token) :=
  ⟨rfl, _, _, rfl, rfl, (@tokens_eq_taken 60 castThenDeclaration rfl).2.2 _ _ rfl⟩

end Snippet.Reader
