import Snippet.Grammar.Input

/-!
The reading of type names, and the look-ahead that tells a declaration from an expression.
-/

namespace Snippet.Reader

/-- Refuses the mark of a nullable type: a question mark that no name or parenthesis follows. -/
def refuseNullable : Reader PUnit := do
  if ← sees .question then
    let next ← peekAt 1
    if !next.isName && !next.isSymbol .leftParen then unsupportedHere "nullable type"

mutual

/-- A type name. -/
def typeName : Nat → Reader TypeName
  | 0 => throw .exhausted
  | fuel + 1 => do
    let start ← here
    let type ← match basicType? (← peek) with
      | some basic => do
        discard advance
        pure (TypeName.basic start basic)
      | none => do
        let segments ← typeSegments fuel
        pure (TypeName.named (start.join (← previous)) segments)
    refuseNullable
    return type

/-- The parts of a dotted type name. -/
def typeSegments : Nat → Reader (List TypeSegment)
  | 0 => throw .exhausted
  | fuel + 1 => do
    let (name, _) ← expectName
    let arguments ← if ← sees .less then typeArguments fuel else pure []
    let segment := TypeSegment.mk name arguments
    if (← sees .dot) && (← peekAt 1).isName then
      discard advance
      return segment :: (← typeSegments fuel)
    else return [segment]

/-- Type arguments between angle brackets. -/
def typeArguments : Nat → Reader (List TypeName)
  | 0 => throw .exhausted
  | fuel + 1 => do
    discard (expect .less)
    let first ← typeName fuel
    let others ← typeArgumentsTail fuel
    discard (expect .greater)
    return first :: others

/-- The type arguments behind the first. -/
def typeArgumentsTail : Nat → Reader (List TypeName)
  | 0 => throw .exhausted
  | fuel + 1 => do
    if ← eat .comma then
      let next ← typeName fuel
      return next :: (← typeArgumentsTail fuel)
    else return []

end

/-- Whether a variable's name stands at the front, with what may follow it in a declaration. -/
def declaresHere (input : Input) : Bool :=
  let next := input.tokenAt 1
  input.token.isName &&
    (next.isSymbol .assign || next.isSymbol .semicolon || next.isSymbol .comma)

/-- The type of a declaration. Takes nothing where no declaration stands. -/
def localType? (fuel : Nat) : Reader (Option TypeName) := fun input =>
  let token := input.token
  if !startsType token then .ok (none, input)
  else if !token.isName && (input.tokenAt 1).isSymbol .dot then .ok (none, input)
  else
    match typeName fuel input with
    | .ok (type, next) => .ok (if declaresHere next then (some type, next) else (none, input))
    | .error .exhausted => .error .exhausted
    | .error (.finding _) => .ok (none, input)

end Snippet.Reader
