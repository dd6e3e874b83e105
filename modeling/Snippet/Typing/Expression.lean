import Snippet.Typing.Checking
import Snippet.Typing.Operators

/-!
The checking of expressions. A name may mean a value, a type, a namespace or a group of methods, so
an expression is first read as any of these and then used as what its place asks for.
-/

namespace Snippet

/-- What an expression means. -/
inductive Referent where
  | value (value : TypedExpr)
  | type (symbol : TypeSymbol) (shown : String)
  | space (name : String)
  | methods (label : String)

/-- The candidates of a call, the value that it is made on, and the name that it uses. -/
structure Callee where
  candidates : List Candidate
  receiver : Option TypedExpr
  name : String

namespace Check

/-! ### Names -/

/-- A referent where a value is asked for. -/
def asValue (referent : Referent) (span : Span) : Check TypedExpr :=
  match referent with
  | .value value => pure value
  | .type _ shown => fail (.typeAsValue shown) span
  | .space name => fail (.namespaceAsValue name) span
  | .methods label =>
    fail (.unsupported ("method group '" ++ label ++ "' used as a value")) span

/-- The methods of a name in a class. -/
def methodsOf (context : BodyContext) (owner : Nat) (name : String) : List (Nat × MethodHeader) :=
  (context.methods.toList.zipIdx.filter fun (header, _) =>
    header.owner == owner && header.name == name).map fun (header, index) => (index, header)

/-- The innermost class around the body that has methods of a name, with these methods. -/
def methodScope? (context : BodyContext) (name : String) : Option (Nat × List (Nat × MethodHeader)) :=
  (context.environment.classChain context.owner).findSome? fun owner =>
    match methodsOf context owner name with
    | [] => none
    | methods => some (owner, methods)

/-- The referent of a named type or namespace. -/
def ofMeaning (environment : Environment) : Meaning → Referent
  | .type symbol => .type symbol (environment.symbolShown symbol)
  | .space name => .space name

/-- What a simple name denotes: a variable, a group of methods, a type or a namespace. -/
def denoteName (name : String) (span : Span) : Check Referent := do
  let context ← read
  match ← lookup? name with
  | some index =>
    noteRead index
    return .value (.mk (.slot index) (← slot index).type span)
  | none =>
    match methodScope? context name with
    | some (owner, _) => return .methods (context.environment.classShown owner ++ "." ++ name)
    | none =>
      match context.environment.findSimple context.owner name with
      | .found meaning => return ofMeaning context.environment meaning
      | .ambiguous first second => fail (.ambiguousName name first second) span
      | .missing => fail (.unknownName name) span

/-- What a name denotes behind the name of a type. -/
def denoteStatic (symbol : TypeSymbol) (shown name : String) (span : Span) : Check Referent := do
  let context ← read
  let environment := context.environment
  match symbol with
  | .compiled owner =>
    match environment.nestedClass? owner name with
    | some nested => return .type (.compiled nested) (environment.classShown nested)
    | none =>
      if (methodsOf context owner name).isEmpty then fail (.noStaticMember shown name) span
      else return .methods (shown ++ "." ++ name)
  | .host definition _ =>
    let host := environment.libraries.findType? definition
    let member := shown ++ "." ++ name
    match host.bind (·.constant? name) with
    | some constant =>
      match Constant.ofValue? constant.value with
      | some value => return .value (.mk (.const value) (Ty.ofDesc constant.type) span)
      | none => fail (.unsupported ("constant '" ++ member ++ "'")) span
    | none =>
      let nested := definition ++ "." ++ name
      if (environment.libraries.findType? nested).isSome then
        return .type (.host nested []) nested
      else if (host.bind (·.field? name)).isSome then fail (.fieldWithoutObject member) span
      else if host.any fun type => !(type.overloads name).isEmpty then return .methods member
      else fail (.noStaticMember shown name) span

/-- The field of an object of a host type. -/
def fieldOf? (environment : Environment) (type : Ty) (name : String) : Option HostField :=
  match type with
  | .data definition => (environment.libraries.findType? definition).bind (·.field? name)
  | _ => none

/-- What a name denotes behind a value. -/
def denoteInstance (object : TypedExpr) (name : String) (span : Span) : Check Referent := do
  let type := object.type
  match type with
  | .null | .void => fail (.badOperand "." type.shown) span
  | .error => return .value (.wrong span)
  | _ =>
    match fieldOf? (← environment) type name with
    | some field => return .value (.mk (.field object name) (Ty.ofDesc field.type) span)
    | none =>
      match BuiltinMember.named type.owner? name true with
      | member :: _ =>
        return .value (.mk (.builtin member object []) (type.slot member.signature.result) span)
      | [] =>
        if (BuiltinMember.named type.owner? name false).isEmpty then
          fail (.noInstanceMember type.shown name) span
        else return .methods (type.shown ++ "." ++ name)

/-- What a name denotes behind a dot. -/
def denoteMember (base : Referent) (name : String) (span : Span) : Check Referent := do
  match base with
  | .space space =>
    let environment ← environment
    match environment.findMember? (.space space) name with
    | some meaning => return ofMeaning environment meaning
    | none => fail (.missingInNamespace name space) span
  | .methods label => fail (.methodAsOwner label) span
  | .type symbol shown => denoteStatic symbol shown name span
  | .value object => denoteInstance object name span

/-! ### Calls -/

/-- The candidates of methods of the program. -/
def compiledCandidates (methods : List (Nat × MethodHeader)) : List Candidate :=
  methods.map fun (index, header) =>
    ⟨header.parameters.map fun parameter => (parameter.mode, parameter.type), header.result,
      .compiled index, header.label⟩

/-- What a call of a simple name may mean. -/
def calleeOfName (name : String) (span : Span) : Check Callee := do
  let context ← read
  if (← lookup? name).isSome then fail .methodNameExpected span
  match methodScope? context name with
  | some (_, methods) => return ⟨compiledCandidates methods, none, name⟩
  | none =>
    match context.environment.findSimple context.owner name with
    | .missing => fail (.unknownName name) span
    | _ => fail (.notInvocable name) span

/-- What a call of a name behind a dot may mean. -/
def calleeOfMember (base : Referent) (name : String) (span : Span) : Check Callee := do
  let context ← read
  let environment := context.environment
  match base with
  | .space space => fail (.missingInNamespace name space) span
  | .methods label => fail (.methodAsOwner label) span
  | .type (.compiled owner) shown =>
    match methodsOf context owner name with
    | [] =>
      if (environment.nestedClass? owner name).isSome then
        fail (.notInvocable (shown ++ "." ++ name)) span
      else fail (.noStaticMember shown name) span
    | methods => return ⟨compiledCandidates methods, none, name⟩
  | .type (.host definition _) shown =>
    let host := environment.libraries.findType? definition
    let candidates := (host.map fun type =>
      (type.overloads name).filterMap (Candidate.ofHost? type shown)).getD []
    if candidates.isEmpty then
      if host.any (·.hasMember name) then fail (.notInvocable (shown ++ "." ++ name)) span
      else fail (.noStaticMember shown name) span
    return ⟨candidates, none, name⟩
  | .value object =>
    let type := object.type
    if type == .null || type == .void then fail (.badOperand "." type.shown) span
    match (BuiltinMember.named type.owner? name false).map (Candidate.ofMember type) with
    | [] =>
      let isData := (fieldOf? environment type name).isSome ||
        !(BuiltinMember.named type.owner? name true).isEmpty
      if isData then fail (.notInvocable (type.shown ++ "." ++ name)) span
      else fail (.noInstanceMember type.shown name) span
    | candidates => return ⟨candidates, some object, name⟩

/-- Whether a method may be called from the class around the body: a private one only from its own
class and from the classes in it. -/
def accessible (context : BodyContext) (method : Nat) : Bool :=
  match context.methods[method]? with
  | none => true
  | some header =>
    let modifiers := header.modifiers
    modifiers.isPublic || modifiers.isInternal || modifiers.isProtected ||
      (context.environment.classChain context.owner).contains header.owner

/-- The arguments of a call, converted to the parameters that they fit. -/
def coerceArguments (arguments : List CheckedArgument) (parameters : List (PassMode × Ty)) :
    Except Finding (List TypedArgument) :=
  (arguments.zip parameters).mapM fun (argument, mode, type) => do
    let value ← if mode.writesBack then pure argument.value else argument.value.coerce type
    return .mk mode value

/-- The values of arguments. -/
def argumentValues (arguments : List TypedArgument) : List TypedExpr :=
  arguments.map fun | .mk _ value => value

/-- The call of the best candidate. -/
def resolveCall (callee : Callee) (arguments : List CheckedArgument) (span : Span) :
    Check TypedExpr := do
  let fitting := callee.candidates.filter (·.applies arguments)
  match fitting, Candidate.best? fitting arguments with
  | [], _ => throw (Candidate.mismatch callee.candidates arguments callee.name span)
  | first :: others, none =>
    fail (.ambiguousCall first.label ((others.head?.map (·.label)).getD "")) span
  | _, some candidate =>
    let context ← read
    let typed (node : List TypedArgument → TypedNode) : Check TypedExpr := do
      let converted ← ofExcept (coerceArguments arguments candidate.parameters)
      return .mk (node converted) candidate.result span
    match candidate.target with
    | .compiled method =>
      if !accessible context method then fail (.inaccessible candidate.label) span
      typed (.call method ·)
    | .host function => typed fun converted => .hostCall function (argumentValues converted)
    | .builtin member =>
      typed fun converted =>
        .builtin member (callee.receiver.getD (.wrong span)) (argumentValues converted)

/-- An argument that is passed by reference: only a variable can be, and a readonly one only to be
read. Any other target is checked to find out what it is. -/
def referenceArgument (span : Span) (mode : PassMode) (target : Expr) (check : Check TypedExpr) :
    Check CheckedArgument := do
  let slot? ← match target with
    | .name _ name => lookup? name
    | _ => pure none
  match target, slot? with
  | .name _ name, some index =>
    let slot ← slot index
    if slot.mode == some .input && mode.writesBack then
      fail (.readonlyByReference name) target.span
    modifyUsage index fun usage =>
      match mode with
      | .out => { usage with isWritten := true, isComputed := true }
      | .ref => ⟨true, true, true⟩
      | .input | .value => { usage with isRead := true }
    return ⟨mode, .mk (.slot index) slot.type target.span, span⟩
  | _, _ =>
    let value ← check
    match mode, value.node with
    | .input, _ => fail .notReferable target.span
    | _, .field _ _ => fail .fieldByReference target.span
    | _, _ => fail .notAVariable target.span

/-! ### Creation -/

/-- A created value of a type that is not static, with a number of arguments. -/
def created (target : Ty) (count : Nat) (span : Span) : Check TypedExpr := do
  if count != 0 then fail (.noConstructor target.shown count) span
  match target with
  | .list element => return .mk (.newList element.fullName) target span
  | .data name => return .mk (.newObject name) target span
  | .bool | .int | .long | .double => return .mk (.const target.defaultConstant) target span
  | .string => fail (.noConstructor target.shown count) span
  | _ => fail (.unsupported ("new " ++ target.shown ++ "()")) span

/-- The creation of a value of a type, with a number of arguments. -/
def create (type : TypeName) (count : Nat) (span : Span) : Check TypedExpr := do
  let context ← read
  let environment := context.environment
  let symbol ← ofExcept (environment.resolveSymbol context.owner type)
  match symbol with
  | .host definition _ =>
    if (environment.libraries.findType? definition).any (·.kind == .static) then
      fail (.staticType definition .creation) type.span
  | .compiled index =>
    if (environment.class? index).any (·.modifiers.isStatic) then
      fail (.staticType (environment.classShown index) .creation) type.span
  created (← ofExcept (environment.symbolType .creation type.span symbol)) count span

/-! ### Assignment -/

/-- The place that an expression denotes, with its type. An operator on the old value reads the
place. Any target but a variable is checked to find out what it is. -/
def placeOf (target : Expr) (check : Check TypedExpr) (reads isStep : Bool) : Check (Place × Ty) := do
  let slot? ← match target with
    | .name _ name => lookup? name
    | _ => pure none
  match target, slot? with
  | .name _ name, some index =>
    let slot ← slot index
    if slot.mode == some .input then fail (.readonlyTarget name) target.span
    if reads then modifyUsage index fun _ => ⟨true, true, true⟩
    return (.slot index, slot.type)
  | _, _ =>
    let value ← check
    match value.node with
    | .field object name => return (.field object name, value.type)
    | .builtin member receiver _ =>
      fail (.readonlyProperty receiver.type.shown member.name) target.span
    | _ => fail (if isStep then .badIncrementTarget else .badAssignmentTarget) target.span

/-- A plain assignment of a checked value. -/
def assignPlain (place : Place) (type : Ty) (value : TypedExpr) (span : Span) : Check TypedExpr := do
  let converted ← ofExcept (value.coerce type)
  match place with
  | .slot index => noteWrite index converted
  | .field _ _ => pure ()
  return .mk (.assign place converted) type span

/-- The symbol of an operator. -/
def signOf (operator : BinaryOperator) : String := operator.sign.spelling

/-- An operand of an operator, converted if the operator asks for a type. -/
def convertOperand (type? : Option Ty) (operand : TypedExpr) : Check TypedExpr :=
  match type? with
  | some type => ofExcept (operand.coerce type)
  | none => pure operand

/-- An assignment of an operator's result. The result must go back without a conversion. -/
def assignUpdate (operator : BinaryOperator) (place : Place) (type : Ty) (value : TypedExpr)
    (span : Span) : Check TypedExpr := do
  if type == .error || value.type == .error then return .wrong span
  match OperatorTyping.of? operator type value.type with
  | none => fail (.badOperands (signOf operator ++ "=") type.shown value.type.shown) span
  | some typing =>
    match Coercion.implicit? typing.result type with
    | some .identity | some .reference =>
      return .mk (.update place typing.operation (← convertOperand typing.operands value)) type span
    | _ => fail (conversionProblem typing.result type) span

/-! ### Operators -/

/-- A logical operator on two checked operands. -/
def logical (isAnd : Bool) (left right : TypedExpr) (span : Span) : TypedExpr :=
  match left.constantBool?, right.constantBool? with
  | some first, some second =>
    .constant (.bool (if isAnd then first && second else first || second)) span
  | _, _ => .mk (.logical isAnd left right) .bool span

/-- An operation on two operands of its types, which is carried out at once on constants. -/
def folded (operation : Operation) (type : Ty) (left right : TypedExpr) (span : Span) : Check TypedExpr :=
  let unfolded : TypedExpr := .mk (.binary operation left right) type span
  match left.constant?, right.constant? with
  | some first, some second =>
    match Folding.fold operation first second with
    | .ok (some value) => return .mk (.const value) type span
    | .ok none => return unfolded
    | .error problem => fail problem span
  | _, _ => return unfolded

/-- An operator on two checked operands. -/
def binary (operator : BinaryOperator) (left right : TypedExpr) (span : Span) : Check TypedExpr := do
  if left.type == .error || right.type == .error then return .wrong span
  let invalid : Problem := .badOperands (signOf operator) left.type.shown right.type.shown
  if operator == .and || operator == .or then
    if left.type != .bool || right.type != .bool then fail invalid span
    return logical (operator == .and) left right span
  match OperatorTyping.of? operator left.type right.type with
  | none => fail invalid span
  | some typing =>
    let left ← convertOperand typing.operands left
    let right ← convertOperand typing.operands right
    folded typing.operation typing.result left right span

/-- The negation of a checked number. -/
def negate (value : TypedExpr) (span : Span) : Check TypedExpr := do
  let unfolded : TypedExpr := .mk (.negate value) value.type span
  match value.constant? with
  | none => return unfolded
  | some constant =>
    match Folding.negate? constant with
    | .ok (some folded) => return .constant folded span
    | .ok none => return unfolded
    | .error problem => fail problem span

/-- An operator in front of a checked operand. -/
def unary (operator : UnaryOperator) (value : TypedExpr) (span : Span) : Check TypedExpr := do
  if value.type == .error then return value
  let invalid : Problem := .badOperand operator.sign.spelling value.type.shown
  match operator with
  | .not =>
    if value.type != .bool then fail invalid span
    match value.constantBool? with
    | some truth => return .constant (.bool !truth) span
    | none => return .mk (.not value) .bool span
  | .plus => if value.type.isNumeric then return value else fail invalid span
  | .negate => if value.type.isNumeric then negate value span else fail invalid span

/-- Whether an operand is the magnitude of the least 32-bit integer, which is no such integer. -/
def isLeastMagnitude : Expr → Bool
  | .long _ value => value == 2147483648
  | _ => false

/-- The common type of two branches: one of their types, to which the other converts. -/
def branchType? (first second : Ty) : Option Ty :=
  let common :=
    if first = second then some first
    else
      match (Coercion.implicit? first second).isSome, (Coercion.implicit? second first).isSome with
      | true, false => some second
      | false, true => some first
      | _, _ => none
  common.filter fun type => type != .null && type != .void

/-- A choice between two checked values. -/
def conditional (condition thenValue elseValue : TypedExpr) (span : Span) : Check TypedExpr := do
  let first := thenValue.type
  let second := elseValue.type
  if first == .error || second == .error then return .wrong span
  match branchType? first second with
  | none => fail (.noBranchType first.shown second.shown) span
  | some type =>
    let thenValue ← ofExcept (thenValue.coerce type)
    let elseValue ← ofExcept (elseValue.coerce type)
    return .mk (.conditional condition thenValue elseValue) type span

/-- A cast of a checked value. -/
def cast (target : Ty) (value : TypedExpr) (span : Span) : Check TypedExpr :=
  match Coercion.explicit? value.type target with
  | some coercion => return .mk (value.coerced coercion target).node target span
  | none => fail (.noCast value.type.shown target.shown) span

/-! ### Expressions -/

mutual

/-- What an expression denotes. -/
def denote : Expr → Check Referent
  | .int span value => return .value (.constant (.int value) span)
  | .long span value => return .value (.constant (.long value) span)
  | .double span value => return .value (.constant (.double value.toBits) span)
  | .text span value => return .value (.constant (.text value) span)
  | .bool span value => return .value (.constant (.bool value) span)
  | .null span => return .value (.constant .null span)
  | .name span name => denoteName name span
  | .basicType _ type => return .type (.host (Ty.ofBasic type).fullName []) type.word.spelling
  | .member span object name => do denoteMember (← denote object) name span
  | .paren _ inner => do return .value (← asValue (← denote inner) inner.span)
  | .call span callee arguments => do
    let callee ← denoteCallee callee
    let arguments ← checkArguments arguments
    return .value (← resolveCall callee arguments span)
  | .create span type arguments => do return .value (← create type arguments.length span)
  | .assign span operator target value => do
    let checkTarget := do asValue (← denote target) target.span
    let (place, type) ← placeOf target.core checkTarget operator.isSome false
    let value ← asValue (← denote value) value.span
    match operator with
    | none => return .value (← assignPlain place type value span)
    | some operator => return .value (← assignUpdate operator place type value span)
  | .binary span operator left right => do
    let left ← asValue (← denote left) left.span
    let right ← asValue (← denote right) right.span
    return .value (← binary operator left right span)
  | .unary span operator operand => do
    if operator == .negate && isLeastMagnitude operand.core then
      return .value (.constant (.int Int32.minValue) span)
    let value ← asValue (← denote operand) operand.span
    return .value (← unary operator value span)
  | .step span isIncrement isFront target => do
    let checkTarget := do asValue (← denote target) target.span
    let (place, type) ← placeOf target.core checkTarget true true
    if !type.isNumeric && type != .error then
      fail (.badOperand (if isIncrement then "++" else "--") type.shown) span
    return .value (.mk (.step place isIncrement isFront) type span)
  | .conditional span condition thenValue elseValue => do
    let condition ← asValue (← denote condition) condition.span
    let condition ← ofExcept (condition.coerce .bool)
    let thenValue ← asValue (← denote thenValue) thenValue.span
    let elseValue ← asValue (← denote elseValue) elseValue.span
    return .value (← conditional condition thenValue elseValue span)
  | .cast span type operand => do
    let context ← read
    let target ← ofExcept (context.environment.resolveType context.owner .cast type)
    let value ← asValue (← denote operand) operand.span
    return .value (← cast target value span)

/-- What the callee of a call may mean. -/
def denoteCallee : Expr → Check Callee
  | .paren _ inner => denoteCallee inner
  | .name span name => calleeOfName name span
  | .member span object name => do calleeOfMember (← denote object) name span
  | other => fail .methodNameExpected other.span

/-- The arguments of a call from left to right. -/
def checkArguments : List Argument → Check (List CheckedArgument)
  | [] => return []
  | .mk span mode value :: rest => do
    let checkValue := do asValue (← denote value) value.span
    let first ←
      if mode == .value then do pure ⟨mode, ← checkValue, span⟩
      else referenceArgument span mode value.core checkValue
    return first :: (← checkArguments rest)

end

/-- The value of an expression. -/
def expression (source : Expr) : Check TypedExpr := do asValue (← denote source) source.span

/-- A condition. -/
def condition (source : Expr) : Check TypedExpr := do ofExcept ((← expression source).coerce .bool)

end Check

end Snippet
