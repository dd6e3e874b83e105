import Snippet.Typing.Expression

/-!
The checking of statements. A statement that stops with a finding is left out, and the statements
behind it are still checked.
-/

namespace Snippet.Check

/-- Whether an expression may stand as a statement. -/
def isStatement : Expr → Bool
  | .assign _ _ _ _ | .step _ _ _ _ | .call _ _ _ | .create _ _ _ => true
  | _ => false

/-- An expression that stands as a statement. -/
def effect (source : Expr) : Check TypedExpr := do
  if !isStatement source then fail .notAStatement source.span
  expression source

/-- Expressions that stand as statements, up to the first finding. -/
def effects : List Expr → Check (List TypedExpr)
  | [] => return []
  | first :: rest => do
    let first ← effect first
    return first :: (← effects rest)

/-- The condition of a loop, if it has one. -/
def optionalCondition : Option Expr → Check (Option TypedExpr)
  | none => return none
  | some source => do return some (← condition source)

/-- A return statement. -/
def giveBack (span : Span) (value : Option Expr) : Check TypedStmt := do
  let context ← read
  match value, context.result with
  | none, .void => return .giveBack span none
  | some _, .void => fail (.valueFromVoid context.label) span
  | none, type => fail (.valueRequired type.shown) span
  | some source, type =>
    let value ← expression source
    return .giveBack span (some (← ofExcept (value.coerce type)))

/-- The type of a variable: the declared one, or the type of its first value. -/
def variableType (declared : Option Ty) (value : Option (Except Finding TypedExpr)) (span : Span) :
    Check Ty := do
  match declared, value with
  | some type, _ => return type
  | none, none =>
    report ⟨.inferredWithoutValue, span⟩
    return .error
  | none, some (.error _) => return .error
  | none, some (.ok value) =>
    if value.type == .null || value.type == .void then
      report ⟨.inferredFrom value.type.shown, span⟩
      return .error
    else return value.type

/-- One variable of a declaration, with the assignment of its first value. -/
def declarator (declared : Option Ty) (source : Declarator) : Check (Option TypedStmt) := do
  let value ← match source.value with
    | none => pure none
    | some value => some <$> attempt (expression value)
  let type ← variableType declared value source.span
  match ← attempt (declare source.name type source.span) with
  | .error finding =>
    report finding
    return none
  | .ok index =>
    match value with
    | none => return none
    | some (.error finding) =>
      report finding
      return none
    | some (.ok value) =>
      match value.coerce type with
      | .error finding =>
        report finding
        return none
      | .ok value =>
        noteWrite index value
        return some (.evaluate (.mk (.assign (.slot index) value) type source.span))

/-- The variables of a declaration from left to right. -/
def declaratorList (declared : Option Ty) : List Declarator → Check (List TypedStmt)
  | [] => return []
  | first :: rest => do
    let first ← declarator declared first
    return first.toList ++ (← declaratorList declared rest)

/-- A declaration. Everything wrong with it is reported, and nothing stops the statement. -/
def declaration (span : Span) (type : TypeName) (declarators : List Declarator) : Check TypedStmt := do
  let context ← read
  let declared ←
    if type.isInferred then do
      if 1 < declarators.length then report ⟨.severalInferred, span⟩
      pure none
    else
      match context.environment.resolveType context.owner .variable type with
      | .ok type => pure (some type)
      | .error finding =>
        report finding
        pure (some .error)
  return .block (← declaratorList declared declarators)

/-- A statement in a place that needs one: a finding is reported and an empty block stands for it. -/
def orEmpty (step : Check TypedStmt) : Check TypedStmt := do
  match ← attempt step with
  | .ok statement => return statement
  | .error finding =>
    report finding
    return .block []

mutual

/-- A statement. -/
def statement : Stmt → Check TypedStmt
  | .block _ body => inScope do return .block (← statements body)
  | .empty _ => return .block []
  | .declare span type declarators => declaration span type declarators
  | .evaluate _ value => do return .evaluate (← effect value)
  | .giveBack span value => giveBack span value
  | .branch _ test thenBranch elseBranch => do
    let test ← attempt (condition test)
    let thenBranch ← orEmpty (statement thenBranch)
    let elseBranch ← optionalStatement elseBranch
    return .branch (← ofExcept test) thenBranch elseBranch
  | .whileLoop _ test body => do
    let test ← attempt (condition test)
    let body ← inLoop (orEmpty (statement body))
    return .whileLoop (← ofExcept test) body
  | .forLoop _ start test steps body => inScope do
    let start ← statements start
    let test ← attempt (optionalCondition test)
    let steps ← attempt (effects steps)
    let body ← inLoop (orEmpty (statement body))
    return .forLoop start (← ofExcept test) (← ofExcept steps) body
  | .leaveLoop span => do
    if (← get).loopDepth == 0 then fail .noLoop span
    return .leaveLoop
  | .nextRound span => do
    if (← get).loopDepth == 0 then fail .noLoop span
    return .nextRound

/-- The statement of an else branch, if there is one. -/
def optionalStatement : Option Stmt → Check (Option TypedStmt)
  | none => return none
  | some branch => do return some (← orEmpty (statement branch))

/-- Statements; those with a finding are reported and left out. -/
def statements : List Stmt → Check (List TypedStmt)
  | [] => return []
  | first :: rest => do
    match ← attempt (statement first) with
    | .ok typed => return typed :: (← statements rest)
    | .error finding =>
      report finding
      statements rest

end

end Snippet.Check
