import Snippet.Grammar.Expression

/-!
The reading of statements.
-/

namespace Snippet.Reader

/-- The words that start a statement of the language that is not supported. They are ordinary
names elsewhere. -/
def unsupportedStatements : List String :=
  ["switch", "do", "foreach", "try", "throw", "goto", "lock", "checked", "unchecked", "yield"]

/-- A condition in parentheses. -/
def condition (fuel : Nat) : Reader Expr := do
  discard (expect .leftParen)
  let value ← expression fuel
  discard (expect .rightParen)
  return value

/-- The variables of a declaration. -/
def declarators : Nat → Reader (List Declarator)
  | 0 => throw .exhausted
  | fuel + 1 => do
    let (name, span) ← expectName
    let value ← if ← eat .assign then some <$> expression fuel else pure none
    let declarator : Declarator := ⟨name, value, span.join (← previous)⟩
    if ← eat .comma then return declarator :: (← declarators fuel)
    else return [declarator]

/-- A declaration or an expression that starts at `start`, without the semicolon. -/
def simpleStatement (fuel : Nat) (start : Span) : Reader Stmt := do
  match ← localType? fuel with
  | some type =>
    let declared ← declarators fuel
    return .declare (start.join (← previous)) type declared
  | none =>
    let value ← expression fuel
    return .evaluate (start.join (← previous)) value

/-- The statements in front of the first semicolon of a `for` loop: one declaration, or
expressions. -/
def loopStart : Nat → Reader (List Stmt)
  | 0 => throw .exhausted
  | fuel + 1 => do
    let statement ← simpleStatement fuel (← here)
    if statement.isDeclaration then return [statement]
    else if ← eat .comma then return statement :: (← loopStart fuel)
    else return [statement]

/-- Expressions divided by commas. -/
def expressions : Nat → Reader (List Expr)
  | 0 => throw .exhausted
  | fuel + 1 => do
    let value ← expression fuel
    if ← eat .comma then return value :: (← expressions fuel)
    else return [value]

/-- Extends the place of a statement to the end of the last token taken. -/
def upTo (start : Span) (statement : Span → Stmt) : Reader Stmt :=
  return statement (start.join (← previous))

/-- Refuses a declaration where only another statement may stand. -/
def refuseDeclaration (statement : Stmt) : Reader Stmt :=
  if statement.isDeclaration then fail .embeddedDeclaration statement.span else pure statement

mutual

/-- A statement. -/
def statement : Nat → Reader Stmt
  | 0 => throw .exhausted
  | fuel + 1 => do
    let start ← here
    match ← peek with
    | .symbol .leftBrace =>
      discard advance
      let body ← statements fuel
      discard (expect .rightBrace)
      upTo start (.block · body)
    | .symbol .semicolon =>
      discard advance
      upTo start .empty
    | .keyword .returnWord =>
      discard advance
      let value ← if ← sees .semicolon then pure none else some <$> expression fuel
      discard (expect .semicolon)
      upTo start (.giveBack · value)
    | .keyword .ifWord =>
      discard advance
      let test ← condition fuel
      let thenBranch ← embedded fuel
      if (← peek).isKeyword .elseWord then
        discard advance
        let elseBranch ← embedded fuel
        upTo start (.branch · test thenBranch (some elseBranch))
      else upTo start (.branch · test thenBranch none)
    | .keyword .whileWord =>
      discard advance
      let test ← condition fuel
      let body ← embedded fuel
      upTo start (.whileLoop · test body)
    | .keyword .forWord =>
      discard advance
      discard (expect .leftParen)
      let first ← if ← sees .semicolon then pure [] else loopStart fuel
      discard (expect .semicolon)
      let test ← if ← sees .semicolon then pure none else some <$> expression fuel
      discard (expect .semicolon)
      let steps ← if ← sees .rightParen then pure [] else expressions fuel
      discard (expect .rightParen)
      let body ← embedded fuel
      upTo start (.forLoop · first test steps body)
    | .keyword .breakWord =>
      discard advance
      discard (expect .semicolon)
      upTo start .leaveLoop
    | .keyword .continueWord =>
      discard advance
      discard (expect .semicolon)
      upTo start .nextRound
    | token =>
      match token with
      | .name word =>
        if unsupportedStatements.contains word then
          fail (.unsupported (word ++ " statement")) start
      | _ => pure ()
      let read ← simpleStatement fuel start
      discard (expect .semicolon)
      match read with
      | .declare _ type declared => upTo start (.declare · type declared)
      | .evaluate _ value => upTo start (.evaluate · value)
      | other => return other

/-- The body of a branch or a loop. -/
def embedded : Nat → Reader Stmt
  | 0 => throw .exhausted
  | fuel + 1 => do refuseDeclaration (← statement fuel)

/-- Statements up to a closing brace or the end of the text. -/
def statements : Nat → Reader (List Stmt)
  | 0 => throw .exhausted
  | fuel + 1 => do
    match ← peek with
    | .symbol .rightBrace | .endOfFile => return []
    | _ =>
      let first ← statement fuel
      return first :: (← statements fuel)

end

end Snippet.Reader
