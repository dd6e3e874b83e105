import Snippet.Grammar.TypeName

/-!
The reading of expressions. The operators between two operands form levels, the loosest first; all
of them group to the left, and assignments to the right.
-/

namespace Snippet.Reader

/-- The operator of an assignment, if a token is one; a plain assignment has none. -/
def assignment? : Token → Option (Option BinaryOperator)
  | .symbol .assign => some none
  | .symbol .plusAssign => some (some .add)
  | .symbol .minusAssign => some (some .subtract)
  | .symbol .starAssign => some (some .multiply)
  | .symbol .slashAssign => some (some .divide)
  | .symbol .percentAssign => some (some .remainder)
  | _ => none

/-- The operators between two operands by level, the loosest level first. -/
def levels : List (List BinaryOperator) :=
  [[.or], [.and], [.equal, .notEqual], [.less, .greater, .lessEqual, .greaterEqual],
    [.add, .subtract], [.multiply, .divide, .remainder]]

/-- The operator of a level that a token is. -/
def operator? (level : List BinaryOperator) (token : Token) : Option BinaryOperator :=
  level.find? fun operator => token.isSymbol operator.sign

/-- The operator in front of an operand that a token is. -/
def unary? : Token → Option UnaryOperator
  | .symbol .minus => some .negate
  | .symbol .plus => some .plus
  | .symbol .bang => some .not
  | _ => none

/-- Whether a token is an increment, or else a decrement. -/
def step? : Token → Option Bool
  | .symbol .plusPlus => some true
  | .symbol .minusMinus => some false
  | _ => none

/-- The expression of one token. -/
def atom? (span : Span) : Token → Option Expr
  | .int value => some (.int span value)
  | .long value => some (.long span value)
  | .double value => some (.double span value)
  | .text value => some (.text span value)
  | .keyword .trueWord => some (.bool span true)
  | .keyword .falseWord => some (.bool span false)
  | .keyword .nullWord => some (.null span)
  | .name name => some (.name span name)
  | _ => none

/-- Whether a token may not follow an operand: a name or a literal other than a word. -/
def startsOperand : Token → Bool
  | .name _ | .text _ | .int _ | .long _ | .double _ => true
  | _ => false

/-- Whether a basic type in angle brackets stands at the front. -/
def seesTypeArguments (input : Input) : Bool :=
  input.token.isSymbol .less && (basicType? (input.tokenAt 1)).isSome &&
    (input.tokenAt 2).isSymbol .greater

/-- Whether a cast stands at the front: a basic type in parentheses. -/
def seesCast (input : Input) : Bool :=
  input.token.isSymbol .leftParen && (basicType? (input.tokenAt 1)).isSome &&
    (input.tokenAt 2).isSymbol .rightParen

mutual

/-- An expression. -/
def expression : Nat → Reader Expr
  | 0 => throw .exhausted
  | fuel + 1 => do
    let target ← conditional fuel
    match assignment? (← peek) with
    | none => return target
    | some operator =>
      discard advance
      let value ← expression fuel
      return .assign (target.span.join value.span) operator target value

/-- A choice between two values, or anything tighter. -/
def conditional : Nat → Reader Expr
  | 0 => throw .exhausted
  | fuel + 1 => do
    let condition ← binary fuel levels
    if ← eat .question then
      let thenValue ← expression fuel
      discard (expect .colon)
      let elseValue ← expression fuel
      return .conditional (condition.span.join elseValue.span) condition thenValue elseValue
    else return condition

/-- Operands joined by the operators of the given levels. -/
def binary : Nat → List (List BinaryOperator) → Reader Expr
  | 0, _ => throw .exhausted
  | fuel + 1, [] => unary fuel
  | fuel + 1, level :: tighter => do
    let left ← binary fuel tighter
    binaryTail fuel level tighter left

/-- The operators of one level behind a first operand. -/
def binaryTail : Nat → List BinaryOperator → List (List BinaryOperator) → Expr → Reader Expr
  | 0, _, _, _ => throw .exhausted
  | fuel + 1, level, tighter, left => do
    match operator? level (← peek) with
    | none => return left
    | some operator =>
      discard advance
      let right ← binary fuel tighter
      binaryTail fuel level tighter (.binary (left.span.join right.span) operator left right)

/-- An operand with the operators and casts in front of it. -/
def unary : Nat → Reader Expr
  | 0 => throw .exhausted
  | fuel + 1 => do
    let start ← here
    let token ← peek
    match unary? token, step? token with
    | some operator, _ =>
      discard advance
      let operand ← unary fuel
      return .unary (start.join operand.span) operator operand
    | none, some isIncrement =>
      discard advance
      let target ← unary fuel
      return .step (start.join target.span) isIncrement true target
    | none, none =>
      if seesCast (← get) then
        discard advance
        let type ← typeName fuel
        discard (expect .rightParen)
        let operand ← unary fuel
        return .cast (start.join operand.span) type operand
      else
        let value ← primary fuel
        trailing fuel value

/-- The accesses, calls and steps behind an operand. -/
def trailing : Nat → Expr → Reader Expr
  | 0, _ => throw .exhausted
  | fuel + 1, value => do
    let token ← peek
    match token, step? token with
    | .symbol .dot, _ =>
      discard advance
      let (name, nameSpan) ← expectName
      if seesTypeArguments (← get) then unsupportedHere "generic method call"
      trailing fuel (.member (value.span.join nameSpan) value name)
    | .symbol .leftParen, _ =>
      let arguments ← callArguments fuel
      trailing fuel (.call (value.span.join (← previous)) value arguments)
    | _, some isIncrement =>
      let stop ← advance
      trailing fuel (.step (value.span.join stop) isIncrement false value)
    | _, none =>
      if startsOperand token then fail .semicolonExpected (← get).behindPrevious
      else return value

/-- The arguments of a call in parentheses. -/
def callArguments : Nat → Reader (List Argument)
  | 0 => throw .exhausted
  | fuel + 1 => do
    discard (expect .leftParen)
    if ← eat .rightParen then return []
    let arguments ← argumentList fuel
    discard (expect .rightParen)
    return arguments

/-- One argument or several. -/
def argumentList : Nat → Reader (List Argument)
  | 0 => throw .exhausted
  | fuel + 1 => do
    let start ← here
    let mode ← passMode
    if mode == .out && startsType (← peek) && (← peekAt 1).isName then
      fail (.unsupported "out variable declaration") start
    let value ← expression fuel
    let argument := Argument.mk (start.join value.span) mode value
    if ← eat .comma then return argument :: (← argumentList fuel)
    else return [argument]

/-- An operand without operators. -/
def primary : Nat → Reader Expr
  | 0 => throw .exhausted
  | fuel + 1 => do
    let span ← here
    let token ← peek
    match atom? span token, basicType? token with
    | some atom, _ =>
      discard advance
      return atom
    | none, some basic =>
      discard advance
      refuseNullable
      return .basicType span basic
    | none, none =>
      match token with
      | .symbol .leftParen =>
        discard advance
        let inner ← expression fuel
        discard (expect .rightParen)
        return .paren (span.join (← previous)) inner
      | .keyword .newWord =>
        discard advance
        if !startsType (← peek) then
          unsupportedHere "anonymous object or implicitly typed new"
        let type ← typeName fuel
        if ← sees .leftBrace then unsupportedHere "object or collection initializer"
        if !(← sees .leftParen) then failHere .newWithoutArguments
        let arguments ← callArguments fuel
        return .create (span.join (← previous)) type arguments
      | _ => failHere (.badTerm token.shown)

end

end Snippet.Reader
