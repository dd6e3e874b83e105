import Snippet.Grammar.Statement
import Snippet.Source.Scan

/-!
The reading of declarations, up to a whole source text.
-/

namespace Snippet.Reader

/-- The modifier that a reserved word sets, and whether it is set already. -/
def setModifier? (modifiers : Modifiers) : Token → Option (Bool × Modifiers)
  | .keyword .publicWord => some (modifiers.isPublic, { modifiers with isPublic := true })
  | .keyword .privateWord => some (modifiers.isPrivate, { modifiers with isPrivate := true })
  | .keyword .internalWord => some (modifiers.isInternal, { modifiers with isInternal := true })
  | .keyword .protectedWord =>
    some (modifiers.isProtected, { modifiers with isProtected := true })
  | .keyword .staticWord => some (modifiers.isStatic, { modifiers with isStatic := true })
  | _ => none

/-- Modifiers in any order, each at most once. -/
def modifierList : Nat → Modifiers → Reader Modifiers
  | 0, _ => throw .exhausted
  | fuel + 1, modifiers => do
    let token ← peek
    match setModifier? modifiers token with
    | none => return modifiers
    | some (true, _) => failHere (.duplicateModifier token.shown)
    | some (false, extended) =>
      discard advance
      modifierList fuel extended

/-- One parameter or several. -/
def parameterList : Nat → Reader (List Parameter)
  | 0 => throw .exhausted
  | fuel + 1 => do
    let start ← here
    let mode ← passMode
    match ← peek with
    | .name word =>
      if word == "params" || word == "this" then
        unsupportedHere "params array or extension method"
    | _ => pure ()
    let type ← typeName fuel
    let (name, stop) ← expectName
    if ← sees .assign then unsupportedHere "optional parameter"
    let parameter : Parameter := ⟨mode, type, name, start.join stop⟩
    if ← eat .comma then return parameter :: (← parameterList fuel)
    else return [parameter]

/-- Parameters in parentheses. -/
def parameters (fuel : Nat) : Reader (List Parameter) := do
  discard (expect .leftParen)
  if ← eat .rightParen then return []
  let list ← parameterList fuel
  discard (expect .rightParen)
  return list

/-- A method behind its modifiers, in the class of the given name. -/
def method (fuel : Nat) (modifiers : Modifiers) (start : Span) (className : String) :
    Reader MethodDecl := do
  match ← peek with
  | .name word =>
    if word == className && (← peekAt 1).isSymbol .leftParen then unsupportedHere "constructor"
  | _ => pure ()
  let token ← peek
  let result ←
    if token.isKeyword .voidWord then do
      discard advance
      pure none
    else if startsType token then some <$> typeName fuel
    else failHere (.badMemberStart token.shown)
  let (name, _) ← expectName
  match ← peek with
  | .symbol .semicolon | .symbol .assign | .symbol .leftBrace =>
    unsupportedHere "fields and properties"
  | .symbol .less => unsupportedHere "generic method"
  | _ => pure ()
  let list ← parameters fuel
  discard (expect .leftBrace)
  let body ← statements fuel
  let stop ← expect .rightBrace
  return ⟨name, modifiers, result, list, body, start.join stop⟩

mutual

/-- A class behind its modifiers. -/
def classDecl : Nat → Modifiers → Span → Reader ClassDecl
  | 0, _, _ => throw .exhausted
  | fuel + 1, modifiers, start => do
    discard (expectWord .classWord)
    let (name, _) ← expectName
    if (← sees .less) || (← sees .colon) then unsupportedHere "generic or derived class"
    discard (expect .leftBrace)
    let (methods, nested) ← classMembers fuel name
    let stop ← expect .rightBrace
    return .mk (start.join stop) name modifiers methods nested

/-- The methods and the nested classes up to a closing brace or the end of the text. -/
def classMembers : Nat → String → Reader (List MethodDecl × List ClassDecl)
  | 0, _ => throw .exhausted
  | fuel + 1, className => do
    match ← peek with
    | .symbol .rightBrace | .endOfFile => return ([], [])
    | _ =>
      let start ← here
      let modifiers ← modifierList fuel .none
      if (← peek).isKeyword .classWord then
        let first ← classDecl fuel modifiers start
        let (methods, nested) ← classMembers fuel className
        return (methods, first :: nested)
      else
        let first ← method fuel modifiers start className
        let (methods, nested) ← classMembers fuel className
        return (first :: methods, nested)

end

/-- The using directives at the front. -/
def usings : Nat → Reader (List UsingDirective)
  | 0 => throw .exhausted
  | fuel + 1 => do
    if !(← peek).isKeyword .usingWord then return []
    let start ← advance
    if (← peek).isKeyword .staticWord || (← peekAt 1).isSymbol .assign then
      fail (.unsupported "using alias or using static") start
    let name ← qualifiedName fuel
    let stop ← expect .semicolon
    return ⟨name, start.join stop⟩ :: (← usings fuel)

mutual

/-- The members of a namespace, up to a token that starts none. -/
def members : Nat → Reader (List Member)
  | 0 => throw .exhausted
  | fuel + 1 => do
    let token ← peek
    if token.isKeyword .namespaceWord then
      let first ← space fuel
      return first :: (← members fuel)
    else if token.isKeyword .usingWord then failHere .lateUsing
    else if token.isKeyword .classWord || (setModifier? .none token).isSome then
      let start ← here
      let modifiers ← modifierList fuel .none
      if !(← peek).isKeyword .classWord then failHere .memberInNamespace
      let first ← classDecl fuel modifiers start
      return .type first :: (← members fuel)
    else return []

/-- A namespace. -/
def space : Nat → Reader Member
  | 0 => throw .exhausted
  | fuel + 1 => do
    let start ← advance
    let name ← qualifiedName fuel
    if ← sees .semicolon then unsupportedHere "file-scoped namespace"
    discard (expect .leftBrace)
    let directives ← usings fuel
    let list ← members fuel
    match ← peek with
    | .symbol .rightBrace | .endOfFile => pure ()
    | _ => failHere .unitEndExpected
    let stop ← expect .rightBrace
    return .space (start.join stop) name directives list

end

/-- A whole source text. -/
def compilationUnit (fuel : Nat) : Reader CompilationUnit := do
  let directives ← usings fuel
  let list ← members fuel
  match ← peek with
  | .endOfFile => return ⟨directives, list⟩
  | _ => failHere .unitEndExpected

end Snippet.Reader

namespace Snippet

/-- A bound on the nesting of readers for a number of tokens: no chain of readers that take no
token is longer than twenty. -/
def readingFuel (tokens : List PlacedToken) : Nat := 20 * (tokens.length + 2)

/-- The syntax tree of tokens, or the first problem. -/
def CompilationUnit.ofTokens (tokens : List PlacedToken) : Except Finding CompilationUnit :=
  match Reader.compilationUnit (readingFuel tokens) ⟨tokens, ⟨0, 0⟩⟩ with
  | .ok (unit, _) => .ok unit
  | .error (.finding finding) => .error finding
  | .error .exhausted => .error ⟨.unsupported "nesting", ⟨0, 0⟩⟩

/-- The syntax tree of a source text, or all problems of its tokens or the first of its grammar. -/
def CompilationUnit.ofSource (source : String) : Except (List Finding) CompilationUnit := do
  let tokens ← tokenize source
  (CompilationUnit.ofTokens tokens).mapError (fun finding => [finding])

end Snippet
