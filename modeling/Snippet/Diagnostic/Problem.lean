import Snippet.Text.Span

/-!
Everything that can be wrong with a source text. A problem states its cause; its code and its
wording are functions of the cause.
-/

namespace Snippet

/-- Where a static type stands although only types with instances may. -/
inductive StaticTypeUse where
  | variable
  | parameter
  | result
  | typeArgument
  | cast
  | creation
deriving DecidableEq, Repr

/-- The cause of one report about a source text. Types and operators appear as they are shown. -/
inductive Problem where
  -- Text
  | unsupported (construct : String)
  | unterminatedComment
  | unexpectedCharacter (character : Char)
  | badEscape
  | newlineInLiteral
  | unterminatedLiteral
  | integerTooLarge
  -- Grammar
  | semicolonExpected
  | rightParenExpected
  | rightBraceExpected
  | leftBraceExpected
  | tokenExpected (text : String)
  | identifierExpected
  | identifierIsKeyword (keyword : String)
  | unitEndExpected
  | lateUsing
  | memberInNamespace
  | duplicateModifier (modifier : String)
  | badMemberStart (text : String)
  | embeddedDeclaration
  | badTerm (text : String)
  | newWithoutArguments
  -- Declarations
  | duplicateNestedClass (outer name : String)
  | duplicateClass (space name : String)
  | duplicateUsing (name : String)
  | usingOfType (name : String)
  | memberNamedAsClass (name : String)
  | duplicateParameter (name : String)
  | duplicateMethod (owner name : String)
  | overloadByOutAndRef (owner : String)
  -- Names of types
  | missingType (name : String)
  | missingInNamespace (name space : String)
  | missingInType (name owner : String)
  | listArity
  | notGeneric (name : String)
  | namespaceAsType (space : String)
  | ambiguousName (name first second : String)
  | staticType (name : String) (use : StaticTypeUse)
  -- Statements
  | unusedVariable (name : String)
  | unreadVariable (name : String)
  | noLoop
  | severalInferred
  | inferredWithoutValue
  | inferredFrom (type : String)
  | notAStatement
  | valueFromVoid (method : String)
  | valueRequired (type : String)
  | duplicateVariable (name : String)
  | shadowedVariable (name : String)
  -- Expressions
  | noConversion (source target : String)
  | needsCast (source target : String)
  | noCast (source target : String)
  | badOperand (operator type : String)
  | badOperands (operator left right : String)
  | divisionByZero
  | constantOverflow
  | noBranchType (first second : String)
  | typeAsValue (name : String)
  | namespaceAsValue (space : String)
  | methodAsOwner (method : String)
  | unknownName (name : String)
  | noStaticMember (owner name : String)
  | noInstanceMember (type name : String)
  | fieldWithoutObject (field : String)
  | notInvocable (member : String)
  | methodNameExpected
  | readonlyByReference (name : String)
  | notReferable
  | fieldByReference
  | notAVariable
  | noOverload (name : String) (count : Nat)
  | keywordRequired (position : Nat) (keyword : String)
  | keywordForbidden (position : Nat) (keyword : String)
  | badArgument (position : Nat) (source target : String)
  | ambiguousCall (first second : String)
  | inaccessible (method : String)
  | noConstructor (type : String) (count : Nat)
  | readonlyTarget (name : String)
  | readonlyProperty (owner property : String)
  | badIncrementTarget
  | badAssignmentTarget
  -- Flow of control
  | missingReturn (method : String)
  | outNotAssigned (name : String)
  | unassignedOut (name : String)
  | unassignedVariable (name : String)
deriving DecidableEq, Repr

/-- The code of a static type in a place that needs instances. -/
def StaticTypeUse.code : StaticTypeUse → String
  | .variable => "CS0723"
  | .parameter => "CS0721"
  | .result => "CS0722"
  | .typeArgument => "CS0718"
  | .cast => "CS0716"
  | .creation => "CS0712"

/-- The wording for a static type in a place that needs instances. -/
def StaticTypeUse.message (use : StaticTypeUse) (name : String) : String :=
  match use with
  | .variable => s!"Cannot declare a variable of static type '{name}'"
  | .parameter => s!"'{name}': static types cannot be used as parameters"
  | .result => s!"'{name}': static types cannot be used as return types"
  | .typeArgument => s!"'{name}': static types cannot be used as type arguments"
  | .cast => s!"Cannot convert to static type '{name}'"
  | .creation => s!"Cannot create an instance of the static class '{name}'"

namespace Problem

/-- The code under which a problem is reported and, if it is a warning, suppressed. -/
def code : Problem → String
  | unsupported _ => "DC0001"
  | unterminatedComment => "CS1035"
  | unexpectedCharacter _ => "CS1056"
  | badEscape => "CS1009"
  | newlineInLiteral => "CS1010"
  | unterminatedLiteral => "CS1039"
  | integerTooLarge => "CS1021"
  | semicolonExpected => "CS1002"
  | rightParenExpected => "CS1026"
  | rightBraceExpected => "CS1513"
  | leftBraceExpected => "CS1514"
  | tokenExpected _ => "CS1003"
  | identifierExpected => "CS1001"
  | identifierIsKeyword _ => "CS1041"
  | unitEndExpected => "CS1022"
  | lateUsing => "CS1529"
  | memberInNamespace => "CS0116"
  | duplicateModifier _ => "CS1004"
  | badMemberStart _ => "CS1519"
  | embeddedDeclaration => "CS1023"
  | badTerm _ => "CS1525"
  | newWithoutArguments => "CS1526"
  | duplicateNestedClass _ _ => "CS0102"
  | duplicateClass _ _ => "CS0101"
  | duplicateUsing _ => "CS0105"
  | usingOfType _ => "CS0138"
  | memberNamedAsClass _ => "CS0542"
  | duplicateParameter _ => "CS0100"
  | duplicateMethod _ _ => "CS0111"
  | overloadByOutAndRef _ => "CS0663"
  | missingType _ => "CS0246"
  | missingInNamespace _ _ => "CS0234"
  | missingInType _ _ => "CS0426"
  | listArity => "CS0305"
  | notGeneric _ => "CS0308"
  | namespaceAsType _ => "CS0118"
  | ambiguousName _ _ _ => "CS0104"
  | staticType _ use => use.code
  | unusedVariable _ => "CS0168"
  | unreadVariable _ => "CS0219"
  | noLoop => "CS0139"
  | severalInferred => "CS0819"
  | inferredWithoutValue => "CS0818"
  | inferredFrom _ => "CS0815"
  | notAStatement => "CS0201"
  | valueFromVoid _ => "CS0127"
  | valueRequired _ => "CS0126"
  | duplicateVariable _ => "CS0128"
  | shadowedVariable _ => "CS0136"
  | noConversion _ _ => "CS0029"
  | needsCast _ _ => "CS0266"
  | noCast _ _ => "CS0030"
  | badOperand _ _ => "CS0023"
  | badOperands _ _ _ => "CS0019"
  | divisionByZero => "CS0020"
  | constantOverflow => "CS0220"
  | noBranchType _ _ => "CS0173"
  | typeAsValue _ => "CS0119"
  | namespaceAsValue _ => "CS0118"
  | methodAsOwner _ => "CS0119"
  | unknownName _ => "CS0103"
  | noStaticMember _ _ => "CS0117"
  | noInstanceMember _ _ => "CS1061"
  | fieldWithoutObject _ => "CS0120"
  | notInvocable _ => "CS1955"
  | methodNameExpected => "CS0149"
  | readonlyByReference _ => "CS8329"
  | notReferable => "CS8156"
  | fieldByReference => "CS0206"
  | notAVariable => "CS1510"
  | noOverload _ _ => "CS1501"
  | keywordRequired _ _ => "CS1620"
  | keywordForbidden _ _ => "CS1615"
  | badArgument _ _ _ => "CS1503"
  | ambiguousCall _ _ => "CS0121"
  | inaccessible _ => "CS0122"
  | noConstructor _ _ => "CS1729"
  | readonlyTarget _ => "CS8331"
  | readonlyProperty _ _ => "CS0200"
  | badIncrementTarget => "CS1059"
  | badAssignmentTarget => "CS0131"
  | missingReturn _ => "CS0161"
  | outNotAssigned _ => "CS0177"
  | unassignedOut _ => "CS0269"
  | unassignedVariable _ => "CS0165"

/-- The wording of a problem. -/
def message : Problem → String
  | unsupported construct => s!"The construct '{construct}' is not supported by this compiler."
  | unterminatedComment => "End-of-file found, '*/' expected"
  | unexpectedCharacter character => s!"Unexpected character '{character}'"
  | badEscape => "Unrecognized escape sequence"
  | newlineInLiteral => "Newline in constant"
  | unterminatedLiteral => "Unterminated string literal"
  | integerTooLarge => "Integral constant is too large"
  | semicolonExpected => "; expected"
  | rightParenExpected => ") expected"
  | rightBraceExpected => "\x7d expected"
  | leftBraceExpected => "\x7b expected"
  | tokenExpected text => s!"Syntax error, '{text}' expected"
  | identifierExpected => "Identifier expected"
  | identifierIsKeyword keyword => s!"Identifier expected; '{keyword}' is a keyword"
  | unitEndExpected => "Type or namespace definition, or end-of-file expected"
  | lateUsing =>
    "A using clause must precede all other elements defined in the namespace except extern alias declarations"
  | memberInNamespace =>
    "A namespace cannot directly contain members such as fields, methods or statements"
  | duplicateModifier modifier => s!"Duplicate '{modifier}' modifier"
  | badMemberStart text =>
    s!"Invalid token '{text}' in class, record, struct, or interface member declaration"
  | embeddedDeclaration => "Embedded statement cannot be a declaration or labeled statement"
  | badTerm text => s!"Invalid expression term '{text}'"
  | newWithoutArguments =>
    "A new expression requires an argument list or (), [], or \x7b\x7d after type"
  | duplicateNestedClass outer name =>
    s!"The type '{outer}' already contains a definition for '{name}'"
  | duplicateClass space name =>
    s!"The namespace '{space}' already contains a definition for '{name}'"
  | duplicateUsing name =>
    s!"The using directive for '{name}' appeared previously in this namespace"
  | usingOfType name =>
    s!"A 'using namespace' directive can only be applied to namespaces; '{name}' is a type not a namespace. Consider a 'using static' directive instead"
  | memberNamedAsClass name =>
    s!"'{name}': member names cannot be the same as their enclosing type"
  | duplicateParameter name => s!"The parameter name '{name}' is a duplicate"
  | duplicateMethod owner name =>
    s!"Type '{owner}' already defines a member called '{name}' with the same parameter types"
  | overloadByOutAndRef owner =>
    s!"'{owner}' cannot define an overloaded method that differs only on parameter modifiers 'out' and 'ref'"
  | missingType name =>
    s!"The type or namespace name '{name}' could not be found (are you missing a using directive or an assembly reference?)"
  | missingInNamespace name space =>
    s!"The type or namespace name '{name}' does not exist in the namespace '{space}' (are you missing an assembly reference?)"
  | missingInType name owner =>
    s!"The type name '{name}' does not exist in the type '{owner}'"
  | listArity => "Using the generic type 'List<T>' requires 1 type arguments"
  | notGeneric name => s!"The non-generic type '{name}' cannot be used with type arguments"
  | namespaceAsType space => s!"'{space}' is a namespace but is used like a type"
  | ambiguousName name first second =>
    s!"'{name}' is an ambiguous reference between '{first}' and '{second}'"
  | staticType name use => use.message name
  | unusedVariable name => s!"The variable '{name}' is declared but never used"
  | unreadVariable name => s!"The variable '{name}' is assigned but its value is never used"
  | noLoop => "No enclosing loop out of which to break or continue"
  | severalInferred => "Implicitly-typed variables cannot have multiple declarators"
  | inferredWithoutValue => "Implicitly-typed variables must be initialized"
  | inferredFrom type => s!"Cannot assign {type} to an implicitly-typed variable"
  | notAStatement =>
    "Only assignment, call, increment, decrement, await, and new object expressions can be used as a statement"
  | valueFromVoid method =>
    s!"Since '{method}' returns void, a return keyword must not be followed by an object expression"
  | valueRequired type => s!"An object of a type convertible to '{type}' is required"
  | duplicateVariable name =>
    s!"A local variable or function named '{name}' is already defined in this scope"
  | shadowedVariable name =>
    s!"A local or parameter named '{name}' cannot be declared in this scope because that name is used in an enclosing local scope to define a local or parameter"
  | noConversion source target => s!"Cannot implicitly convert type '{source}' to '{target}'"
  | needsCast source target =>
    s!"Cannot implicitly convert type '{source}' to '{target}'. An explicit conversion exists (are you missing a cast?)"
  | noCast source target => s!"Cannot convert type '{source}' to '{target}'"
  | badOperand operator type =>
    s!"Operator '{operator}' cannot be applied to operand of type '{type}'"
  | badOperands operator left right =>
    s!"Operator '{operator}' cannot be applied to operands of type '{left}' and '{right}'"
  | divisionByZero => "Division by constant zero"
  | constantOverflow => "The operation overflows at compile time in checked mode"
  | noBranchType first second =>
    s!"Type of conditional expression cannot be determined because there is no implicit conversion between '{first}' and '{second}'"
  | typeAsValue name => s!"'{name}' is a type, which is not valid in the given context"
  | namespaceAsValue space => s!"'{space}' is a namespace but is used like a variable"
  | methodAsOwner method => s!"'{method}' is a method, which is not valid in the given context"
  | unknownName name => s!"The name '{name}' does not exist in the current context"
  | noStaticMember owner name => s!"'{owner}' does not contain a definition for '{name}'"
  | noInstanceMember type name =>
    s!"'{type}' does not contain a definition for '{name}' and no accessible extension method '{name}' accepting a first argument of type '{type}' could be found (are you missing a using directive or an assembly reference?)"
  | fieldWithoutObject field =>
    s!"An object reference is required for the non-static field, method, or property '{field}'"
  | notInvocable member => s!"Non-invocable member '{member}' cannot be used like a method."
  | methodNameExpected => "Method name expected"
  | readonlyByReference name =>
    s!"Cannot use variable '{name}' as a ref or out value because it is a readonly variable"
  | notReferable =>
    "An expression cannot be used in this context because it may not be passed or returned by reference"
  | fieldByReference =>
    "A non ref-returning property or indexer may not be used as an out or ref value"
  | notAVariable => "A ref or out value must be an assignable variable"
  | noOverload name count => s!"No overload for method '{name}' takes {count} arguments"
  | keywordRequired position keyword =>
    s!"Argument {position} must be passed with the '{keyword}' keyword"
  | keywordForbidden position keyword =>
    s!"Argument {position} may not be passed with the '{keyword}' keyword"
  | badArgument position source target =>
    s!"Argument {position}: cannot convert from '{source}' to '{target}'"
  | ambiguousCall first second =>
    s!"The call is ambiguous between the following methods or properties: '{first}' and '{second}'"
  | inaccessible method => s!"'{method}' is inaccessible due to its protection level"
  | noConstructor type count =>
    s!"'{type}' does not contain a constructor that takes {count} arguments"
  | readonlyTarget name =>
    s!"Cannot assign to variable '{name}' or use it as the right hand side of a ref assignment because it is a readonly variable"
  | readonlyProperty owner property =>
    s!"Property or indexer '{owner}.{property}' cannot be assigned to -- it is read only"
  | badIncrementTarget =>
    "The operand of an increment or decrement operator must be a variable, property or indexer"
  | badAssignmentTarget =>
    "The left-hand side of an assignment must be a variable, property or indexer"
  | missingReturn method => s!"'{method}': not all code paths return a value"
  | outNotAssigned name =>
    s!"The out parameter '{name}' must be assigned to before control leaves the current method"
  | unassignedOut name => s!"Use of unassigned out parameter '{name}'"
  | unassignedVariable name => s!"Use of unassigned local variable '{name}'"

/-- The problems that do not stop a compilation. -/
def isWarning : Problem → Bool
  | duplicateUsing _ | unusedVariable _ | unreadVariable _ => true
  | _ => false

end Problem

/-- A problem at a place of the source text. -/
structure Finding where
  problem : Problem
  span : Span
deriving DecidableEq, Repr

namespace Finding

/-- Whether the finding stops the compilation. -/
def isError (finding : Finding) : Bool := !finding.problem.isWarning

/-- The report of an unsupported construct. -/
def unsupported (construct : String) (span : Span) : Finding := ⟨.unsupported construct, span⟩

/-- The findings in the order of their places; findings at one place keep their order. -/
def sorted (findings : List Finding) : List Finding :=
  findings.mergeSort fun first second => first.span.start ≤ second.span.start

end Finding

end Snippet
