import Snippet.Diagnostic.Problem
import Snippet.Grammar.Tree

/-!
The reading of tokens. A reader takes the tokens that are left, the last of which is the end of the
text and is never taken, and gives a result with the tokens behind it, or the first problem.
-/

namespace Snippet

/-- The tokens that are left, and the place of the last token taken. -/
structure Input where
  rest : List PlacedToken
  previous : Span

namespace Input

/-- The token at the front. -/
def token (input : Input) : Token :=
  match input.rest with
  | placed :: _ => placed.token
  | [] => .endOfFile

/-- The token some places behind the front. -/
def tokenAt (input : Input) (distance : Nat) : Token :=
  match input.rest[distance]? with
  | some placed => placed.token
  | none => .endOfFile

/-- The place of the token at the front. -/
def span (input : Input) : Span :=
  match input.rest with
  | placed :: _ => placed.span
  | [] => ⟨0, 0⟩

/-- The empty place right behind the last token taken. -/
def behindPrevious (input : Input) : Span := ⟨input.previous.stop, input.previous.stop⟩

/-- The input behind the token at the front; the last token stays. -/
def advance (input : Input) : Input :=
  match input.rest with
  | placed :: next :: rest => ⟨next :: rest, placed.span⟩
  | _ => input

end Input

/-- Why reading stopped without a result. -/
inductive Stop where
  | finding (finding : Finding)
  /-- The bound on nesting was reached; a bound that grows with the tokens is never reached. -/
  | exhausted

/-- A reader of tokens. -/
abbrev Reader (α : Type) := StateT Input (Except Stop) α

namespace Reader

/-- Stops with a problem at a place. -/
def fail {α : Type} (problem : Problem) (span : Span) : Reader α :=
  throw (.finding ⟨problem, span⟩)

/-- Stops with a problem at the token at the front. -/
def failHere {α : Type} (problem : Problem) : Reader α := do fail problem (← get).span

/-- Stops with an unsupported construct at the token at the front. -/
def unsupportedHere {α : Type} (construct : String) : Reader α := failHere (.unsupported construct)

/-- The token at the front. -/
def peek : Reader Token := return (← get).token

/-- The token some places behind the front. -/
def peekAt (distance : Nat) : Reader Token := return (← get).tokenAt distance

/-- The place of the token at the front. -/
def here : Reader Span := return (← get).span

/-- The place of the last token taken. -/
def previous : Reader Span := return (← get).previous

/-- Takes the token at the front and gives its place. -/
def advance : Reader Span := do
  let input ← get
  set input.advance
  return input.span

/-- Takes a symbol if it stands at the front. -/
def eat (sign : Symbol) : Reader Bool := do
  if (← peek).isSymbol sign then
    discard advance
    return true
  else return false

/-- Whether a symbol stands at the front. -/
def sees (sign : Symbol) : Reader Bool := return (← peek).isSymbol sign

/-- The problem of a missing symbol, and whether it is reported behind the previous token. -/
def missing : Symbol → Problem × Bool
  | .semicolon => (.semicolonExpected, true)
  | .rightParen => (.rightParenExpected, true)
  | .rightBrace => (.rightBraceExpected, true)
  | .leftBrace => (.leftBraceExpected, false)
  | sign => (.tokenExpected sign.spelling, false)

/-- Takes a symbol that has to stand at the front. -/
def expect (sign : Symbol) : Reader Span := do
  let input ← get
  if input.token.isSymbol sign then advance
  else
    let (problem, behind) := missing sign
    fail problem (if behind then input.behindPrevious else input.span)

/-- Takes a reserved word that has to stand at the front. -/
def expectWord (word : Keyword) : Reader Span := do
  let input ← get
  if input.token.isKeyword word then advance
  else fail (.tokenExpected word.spelling) input.span

/-- Takes a name that has to stand at the front. -/
def expectName : Reader (String × Span) := do
  match ← peek with
  | .name name => return (name, ← advance)
  | .keyword word => failHere (.identifierIsKeyword word.spelling)
  | _ => failHere .identifierExpected

/-- The basic type whose reserved word a token is. -/
def basicType? : Token → Option BasicType
  | .keyword word => BasicType.ofWord? word
  | _ => none

/-- Whether a type may start with a token. -/
def startsType (token : Token) : Bool := token.isName || (basicType? token).isSome

/-- The passing keyword at the front, if there is one. -/
def passMode : Reader PassMode := do
  match ← peek with
  | .keyword .refWord => discard advance; return .ref
  | .keyword .outWord => discard advance; return .out
  | .keyword .inWord => discard advance; return .input
  | _ => return .value

/-- The further parts of a dotted name. -/
def nameTail : Nat → String → Reader String
  | 0, _ => throw .exhausted
  | fuel + 1, name => do
    if ← eat .dot then
      let (part, _) ← expectName
      nameTail fuel (name ++ "." ++ part)
    else return name

/-- A dotted name. -/
def qualifiedName (fuel : Nat) : Reader String := do
  let (name, _) ← expectName
  nameTail fuel name

end Reader

end Snippet
