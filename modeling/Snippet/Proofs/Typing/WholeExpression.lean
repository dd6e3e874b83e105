import Snippet.Proofs.Typing.Expression
import Snippet.Proofs.Typing.Whole

/-!
Expressions without errors in their types. Main statement: over libraries in whose members no error stands, an
expression in which no error is found denotes something whole.
-/

namespace Snippet

/-- Whether the value that is meant, if it is one, is whole. -/
def Referent.IsWhole : Referent → Prop
  | .value denoted => denoted.IsWhole
  | .type _ _ | .space _ | .methods _ => True

/-- Whether the types of a method that a call may mean are whole. -/
structure Candidate.IsWhole (candidate : Candidate) : Prop where
  parameters : ∀ parameter ∈ candidate.parameters, parameter.2.IsWhole
  result : candidate.result.IsWhole

/-- Whether the candidates of a call are whole, and what a built-in member is called on. -/
structure Callee.IsWhole (callee : Callee) : Prop where
  candidates : ∀ candidate ∈ callee.candidates, candidate.IsWhole
  receiver : ∀ candidate ∈ callee.candidates, ∀ member, candidate.target = .builtin member →
    ∃ value, callee.receiver = some value ∧ value.IsWhole

theorem Ty.isWhole_of_isBasic {type : Ty} (basic : type.isBasic = true) : type.IsWhole := by
  cases type <;> trivial

/-- Neither of two whole types is that of an error. -/
theorem Ty.IsWhole.neither {left right : Ty} (isLeft : left.IsWhole) (isRight : right.IsWhole) :
    ¬(left == .error || right == .error) = true := by
  rw [Bool.or_eq_true, beq_iff_eq, beq_iff_eq]
  exact not_or_intro isLeft.ne_error isRight.ne_error

theorem OperatorTyping.of?_whole {operator : BinaryOperator} {left right : Ty} {operators : OperatorTyping}
    (typed : of? operator left right = some operators) :
    (∀ type ∈ operators.operands, type.IsWhole) ∧ operators.result.IsWhole :=
  ⟨fun type isOperand => Ty.isWhole_of_isBasic (of?_operands_isBasic typed type isOperand),
    Ty.isWhole_of_isBasic (of?_result_isBasic typed)⟩

namespace Candidate

theorem isSome_of_mapM_fullName? {types : List TypeDesc} {names : List String}
    (named : types.mapM (·.fullName?) = some names) : ∀ type ∈ types, type.fullName?.isSome := by
  induction types generalizing names with
  | nil => nofun
  | cons type types ih =>
    rw [List.mapM_cons] at named
    obtain ⟨first, isFirst, named⟩ := Option.bind_eq_some_iff.1 named
    obtain ⟨rest, isRest, -⟩ := Option.bind_eq_some_iff.1 named
    exact List.forall_mem_cons.2 ⟨Option.isSome_of_mem isFirst, ih isRest⟩

/-- A function that can be called has whole types. -/
theorem ofHost?_whole {owner : HostType} (whole : owner.IsWhole) {shown : String} {function : HostFunction}
    (member : function ∈ owner.functions) {candidate : Candidate}
    (isCandidate : ofHost? owner shown function = some candidate) : candidate.IsWhole := by
  obtain ⟨names, result, areNames, isResult, areParameters, hasResult, -⟩ := ofHost?_eq_some isCandidate
  have described := whole.functions function member
  refine ⟨fun parameter inParameters => ?_, ?_⟩
  · rw [areParameters, List.map_map] at inParameters
    obtain ⟨desc, inFunction, rfl⟩ := List.mem_map.1 inParameters
    exact described desc (List.mem_append_left _ inFunction) (isSome_of_mapM_fullName? areNames desc inFunction)
  · rw [hasResult]
    cases isDesc : function.result with
    | none => trivial
    | some desc =>
      refine described desc (List.mem_append_right _ (by simp [isDesc])) ?_
      rw [isDesc] at isResult
      cases result with
      | none => cases isResult
      | some name => exact Option.isSome_of_mem (Option.some.inj isResult)

theorem ofMember_whole {receiver : Ty} (whole : receiver.IsWhole) (member : BuiltinMember) :
    (ofMember receiver member).IsWhole := by
  refine ⟨fun parameter inParameters => ?_, whole.slot _⟩
  obtain ⟨type, inTypes, rfl⟩ := List.mem_map.1 inParameters
  obtain ⟨slot, -, rfl⟩ := List.mem_map.1 inTypes
  exact whole.slot slot

end Candidate

namespace Check

variable {context : BodyContext} {facts : Prop}

/-! ### Values -/

theorem asValue_builds {referent : Referent} (whole : facts → referent.IsWhole) (span : Span) :
    Builds context facts (asValue referent span) TypedExpr.IsWhole := by
  cases referent with
  | value value => exact .pure whole
  | type | space | methods => exact .fail rfl

theorem coerce_builds {value : TypedExpr} {target : Ty} (whole : facts → value.IsWhole)
    (isTarget : facts → target.IsWhole) :
    Builds context facts (ofExcept (value.coerce target)) TypedExpr.IsWhole :=
  .ofResolves ((value.coerce_whole target).mono fun _ used holds => used (whole holds) (isTarget holds))

theorem convertOperand_builds {type? : Option Ty} {operand : TypedExpr} (types : ∀ type ∈ type?, type.IsWhole)
    (whole : facts → operand.IsWhole) : Builds context facts (convertOperand type? operand) TypedExpr.IsWhole := by
  cases type? with
  | some type => exact coerce_builds whole fun _ => types type rfl
  | none => exact .pure whole

theorem assignPlain_builds {place : Place} {type : Ty} {value : TypedExpr} (span : Span)
    (isPlace : facts → place.IsWhole ∧ type.IsWhole) (whole : facts → value.IsWhole) :
    Builds context facts (assignPlain place type value span) TypedExpr.IsWhole := by
  rw [assignPlain]
  refine (coerce_builds whole fun holds => (isPlace holds).2).bind fun converted => ?_
  have assigned {more : Prop} : Builds context ((facts ∧ converted.IsWhole) ∧ more)
      (Pure.pure (TypedExpr.mk (.assign place converted) type span)) TypedExpr.IsWhole :=
    .pure fun ⟨⟨holds, isConverted⟩, _⟩ => ⟨(isPlace holds).2, (isPlace holds).1, isConverted⟩
  cases place with
  | slot index => exact (Builds.modifyUsage index _).bind fun _ => assigned
  | field object name => exact assigned.weaken fun holds => ⟨holds, trivial⟩

theorem assignUpdate_builds (operator : BinaryOperator) {place : Place} {type : Ty} {value : TypedExpr} (span : Span)
    (isPlace : facts → place.IsWhole ∧ type.IsWhole) (whole : facts → value.IsWhole) :
    Builds context facts (assignUpdate operator place type value span) TypedExpr.IsWhole := by
  rw [assignUpdate]
  refine .choose (fun isError => .pure fun holds => ?_) fun _ => ?_
  · exact ((isPlace holds).2.neither (whole holds).type isError).elim
  · split
    · exact .fail rfl
    · next operators typed =>
      have updated : Builds context facts (do
          return TypedExpr.mk (.update place operators.operation (← convertOperand operators.operands value)) type span)
          TypedExpr.IsWhole :=
        (convertOperand_builds (OperatorTyping.of?_whole typed).1 whole).bind fun converted =>
          .pure fun ⟨holds, isConverted⟩ => ⟨(isPlace holds).2, (isPlace holds).1, isConverted⟩
      split
      · exact updated
      · exact updated
      · exact .fail (conversionProblem_isError ..)

/-! ### Operators -/

theorem logical_whole {left right : TypedExpr} (isLeft : left.IsWhole) (isRight : right.IsWhole) (isAnd : Bool)
    (span : Span) : (logical isAnd left right span).IsWhole := by
  unfold logical
  split
  · exact TypedExpr.isWhole_constant ..
  · exact ⟨trivial, isLeft, isRight⟩

theorem folded_builds (operation : Operation) {type : Ty} {left right : TypedExpr} (span : Span)
    (isType : type.IsWhole) (isLeft : facts → left.IsWhole) (isRight : facts → right.IsWhole) :
    Builds context facts (folded operation type left right span) TypedExpr.IsWhole := by
  rw [folded]
  have unfolded : Builds context facts (Pure.pure (TypedExpr.mk (.binary operation left right) type span))
      TypedExpr.IsWhole := .pure fun holds => ⟨isType, isLeft holds, isRight holds⟩
  split
  · split
    · exact .pure fun _ => ⟨isType, trivial⟩
    · exact unfolded
    · next refused => exact .fail (Folding.fold_isError refused)
  · exact unfolded

theorem binary_builds (operator : BinaryOperator) {left right : TypedExpr} (span : Span)
    (isLeft : facts → left.IsWhole) (isRight : facts → right.IsWhole) :
    Builds context facts (binary operator left right span) TypedExpr.IsWhole := by
  rw [binary]
  refine .choose (fun isError => .pure fun holds => ?_) fun _ => ?_
  · exact ((isLeft holds).type.neither (isRight holds).type isError).elim
  · refine .choose (fun _ => .choose (fun _ => .fail rfl) fun _ => ?_) fun _ => ?_
    · exact .pure fun holds => logical_whole (isLeft holds) (isRight holds) _ span
    · split
      · exact .fail rfl
      · next operators typed =>
        obtain ⟨operands, result⟩ := OperatorTyping.of?_whole typed
        exact (convertOperand_builds operands isLeft).bind fun left =>
          (convertOperand_builds operands fun holds => isRight holds.1).bind fun right =>
            folded_builds _ span result (fun holds => holds.1.2) fun holds => holds.2

theorem negate_builds {value : TypedExpr} (span : Span) (whole : facts → value.IsWhole) :
    Builds context facts (negate value span) TypedExpr.IsWhole := by
  rw [negate]
  have unfolded : Builds context facts (Pure.pure (TypedExpr.mk (.negate value) value.type span)) TypedExpr.IsWhole :=
    .pure fun holds => ⟨(whole holds).type, whole holds⟩
  split
  · exact unfolded
  · split
    · exact .pure fun _ => TypedExpr.isWhole_constant ..
    · exact unfolded
    · next refused => exact .fail (Folding.negate?_isError refused)

theorem unary_builds (operator : UnaryOperator) {value : TypedExpr} (span : Span) (whole : facts → value.IsWhole) :
    Builds context facts (unary operator value span) TypedExpr.IsWhole := by
  rw [unary]
  refine .choose (fun _ => .pure whole) fun _ => ?_
  cases operator with
  | not =>
    refine .choose (fun _ => .fail rfl) fun _ => ?_
    split
    · exact .pure fun _ => TypedExpr.isWhole_constant ..
    · exact .pure fun holds => ⟨trivial, whole holds⟩
  | plus => exact .choose (fun _ => .pure whole) fun _ => .fail rfl
  | negate => exact .choose (fun _ => negate_builds span whole) fun _ => .fail rfl

theorem conditional_builds {condition thenValue elseValue : TypedExpr} (span : Span)
    (isCondition : facts → condition.IsWhole) (isThen : facts → thenValue.IsWhole)
    (isElse : facts → elseValue.IsWhole) :
    Builds context facts (conditional condition thenValue elseValue span) TypedExpr.IsWhole := by
  rw [conditional]
  refine .choose (fun isError => .pure fun holds => ?_) fun _ => ?_
  · exact ((isThen holds).type.neither (isElse holds).type isError).elim
  · split
    · exact .fail rfl
    · next type common =>
      have isType (holds : facts) : type.IsWhole := by
        rcases (branchType?_cases common).1 with rfl | rfl
        · exact (isThen holds).type
        · exact (isElse holds).type
      exact (coerce_builds isThen isType).bind fun first =>
        (coerce_builds (fun holds => isElse holds.1) fun holds => isType holds.1).bind fun second =>
          .pure fun ⟨⟨holds, isFirst⟩, isSecond⟩ => ⟨isType holds, isCondition holds, isFirst, isSecond⟩

theorem cast_builds {target : Ty} {value : TypedExpr} (span : Span) (isTarget : facts → target.IsWhole)
    (whole : facts → value.IsWhole) : Builds context facts (cast target value span) TypedExpr.IsWhole := by
  rw [cast]
  split
  · next coercion _ =>
    exact .pure fun holds => ⟨isTarget holds, ((whole holds).coerced (isTarget holds) coercion).node⟩
  · exact .fail rfl

theorem created_builds {target : Ty} (count : Nat) (span : Span) (isTarget : facts → target.IsWhole) :
    Builds context facts (created target count span) TypedExpr.IsWhole := by
  unfold created
  cases target with
  | list | data | bool | int | long | double =>
    exact .choose (fun _ => .fail rfl) fun _ => .pure fun holds => ⟨isTarget holds, trivial⟩
  | _ => exact .choose (fun _ => .fail rfl) fun _ => .fail rfl

/-! ### Names -/

theorem ofMeaning_whole (environment : Environment) (meaning : Meaning) : (ofMeaning environment meaning).IsWhole := by
  cases meaning <;> trivial

theorem denoteName_builds (name : String) (span : Span) :
    Builds context facts (denoteName name span) Referent.IsWhole := by
  rw [denoteName]
  refine .readBind (.lookup? ?_ fun index => .noteRead (.slot fun slot => .pure fun holds => ⟨holds.2, trivial⟩))
  dsimp only
  split
  · exact .pure fun _ => trivial
  · split
    · exact .pure fun _ => ofMeaning_whole ..
    · exact .fail rfl
    · exact .fail rfl

theorem denoteStatic_builds (whole : context.IsWhole) (symbol : TypeSymbol) (shown name : String) (span : Span) :
    Builds context facts (denoteStatic symbol shown name span) Referent.IsWhole := by
  rw [denoteStatic]
  refine .readBind ?_
  cases symbol with
  | compiled owner =>
    dsimp only
    split
    · exact .pure fun _ => trivial
    · exact .choose (fun _ => .fail rfl) fun _ => .pure fun _ => trivial
  | host definition arguments =>
    dsimp only
    split
    · next constant found =>
      obtain ⟨host, isHost, isConstant⟩ := Option.bind_eq_some_iff.1 found
      have isType := (whole.libraries definition host isHost).constants constant (List.mem_of_find?_eq_some isConstant)
      split
      · exact .pure fun _ => ⟨isType, trivial⟩
      · exact .fail rfl
    · exact .choose (fun _ => .pure fun _ => trivial) fun _ => .choose (fun _ => .fail rfl) fun _ =>
        .choose (fun _ => .pure fun _ => trivial) fun _ => .fail rfl

theorem fieldOf?_whole {environment : Environment} (whole : environment.libraries.IsWhole) {type : Ty} {name : String}
    {field : HostField} (found : fieldOf? environment type name = some field) : (Ty.ofDesc field.type).IsWhole := by
  unfold fieldOf? at found
  split at found
  · next definition =>
    obtain ⟨host, isHost, isField⟩ := Option.bind_eq_some_iff.1 found
    exact (whole definition host isHost).fields field (List.mem_of_find?_eq_some isField)
  · cases found

theorem denoteInstance_builds (whole : context.IsWhole) {object : TypedExpr} (name : String) (span : Span)
    (isObject : facts → object.IsWhole) :
    Builds context facts (denoteInstance object name span) Referent.IsWhole := by
  rw [denoteInstance]
  split
  · exact .fail rfl
  · exact .fail rfl
  · next isError => exact .pure fun holds => ((isObject holds).type.ne_error isError).elim
  · refine .environment ?_
    split
    · next field found => exact .pure fun holds => ⟨fieldOf?_whole whole.libraries found, isObject holds⟩
    · split
      · exact .pure fun holds => ⟨(isObject holds).type.slot _, isObject holds, trivial⟩
      · exact .choose (fun _ => .fail rfl) fun _ => .pure fun _ => trivial

theorem denoteMember_builds (whole : context.IsWhole) {base : Referent} (name : String) (span : Span)
    (isBase : facts → base.IsWhole) : Builds context facts (denoteMember base name span) Referent.IsWhole := by
  cases base with
  | space space =>
    refine .environment ?_
    split
    · exact .pure fun _ => ofMeaning_whole ..
    · exact .fail rfl
  | methods label => exact .fail rfl
  | type symbol shown => exact denoteStatic_builds whole symbol shown name span
  | value object => exact denoteInstance_builds whole name span isBase

/-! ### Calls -/

/-- The methods of the program are whole, and none of them is a built-in member. -/
theorem compiledCandidates_whole (whole : context.IsWhole) {methods : List (Nat × MethodHeader)}
    (inContext : ∀ method ∈ methods, context.methods.toList[method.1]? = some method.2) (name : String) :
    (Callee.mk (compiledCandidates methods) none name).IsWhole := by
  refine ⟨fun candidate member => ?_, fun candidate member => ?_⟩
  · obtain ⟨⟨index, header⟩, inMethods, rfl⟩ := List.mem_map.1 member
    have isWhole := whole.methods header (List.mem_of_getElem? (inContext _ inMethods))
    refine ⟨fun parameter inParameters => ?_, isWhole.result⟩
    obtain ⟨typed, inHeader, rfl⟩ := List.mem_map.1 inParameters
    exact isWhole.parameters typed inHeader
  · obtain ⟨⟨index, header⟩, -, rfl⟩ := List.mem_map.1 member
    exact nofun

theorem calleeOfName_builds (whole : context.IsWhole) (name : String) (span : Span) :
    Builds context facts (calleeOfName name span) Callee.IsWhole := by
  rw [calleeOfName]
  refine .readBind (.lookup? ?_ fun index => ?_)
  · refine .choose (fun _ => .fail rfl) fun _ => ?_
    dsimp only
    split
    · next owner methods found =>
      have inContext (method : Nat × MethodHeader) (member : method ∈ methods) :=
        getElem?_of_mem_methodsOf (methodScope?_eq_some found ▸ member)
      exact .pure fun _ => compiledCandidates_whole whole inContext name
    · split
      · exact .fail rfl
      · exact .fail rfl
  · exact Builds.fromAny (.fail rfl)

theorem calleeOfMember_builds (whole : context.IsWhole) {base : Referent} (name : String) (span : Span)
    (isBase : facts → base.IsWhole) : Builds context facts (calleeOfMember base name span) Callee.IsWhole := by
  rw [calleeOfMember]
  refine .readBind ?_
  cases base with
  | space space => exact .fail rfl
  | methods label => exact .fail rfl
  | type symbol shown =>
    cases symbol with
    | compiled owner =>
      dsimp only
      split
      · exact .choose (fun _ => .fail rfl) fun _ => .fail rfl
      · exact .pure fun _ => compiledCandidates_whole whole (fun _ => getElem?_of_mem_methodsOf) name
    | host definition arguments =>
      refine .choose (fun _ => .choose (fun _ => .fail rfl) fun _ => .fail rfl) fun _ => .pure fun _ => ?_
      have called (candidate : Candidate) (member : candidate ∈
          ((context.environment.libraries.findType? definition).map fun type =>
            (type.overloads name).filterMap (Candidate.ofHost? type shown)).getD []) :
          candidate.IsWhole ∧ ∀ member, candidate.target ≠ .builtin member := by
        cases isHost : context.environment.libraries.findType? definition with
        | none =>
          rw [isHost] at member
          exact absurd member List.not_mem_nil
        | some host =>
          rw [isHost] at member
          obtain ⟨function, inOverloads, isCandidate⟩ := List.mem_filterMap.1 member
          refine ⟨Candidate.ofHost?_whole (whole.libraries definition host isHost) (List.mem_filter.1 inOverloads).1
            isCandidate, fun other => ?_⟩
          obtain ⟨names, result, -, -, -, -, isTarget⟩ := Candidate.ofHost?_eq_some isCandidate
          rw [isTarget]
          nofun
      exact ⟨fun candidate member => (called candidate member).1, fun candidate member other isTarget =>
        ((called candidate member).2 other isTarget).elim⟩
  | value object =>
    refine .choose (fun _ => .fail rfl) fun _ => ?_
    split
    · exact .choose (fun _ => .fail rfl) fun _ => .fail rfl
    · refine .pure fun holds => ⟨fun candidate member => ?_, fun _ _ _ _ => ⟨object, rfl, isBase holds⟩⟩
      obtain ⟨builtin, -, rfl⟩ := List.mem_map.1 member
      exact Candidate.ofMember_whole (isBase holds).type builtin

theorem coerceArguments_whole (arguments : List CheckedArgument) (parameters : List (PassMode × Ty)) :
    Resolves (fun passed => (∀ argument ∈ arguments, argument.value.IsWhole) →
      (∀ parameter ∈ parameters, parameter.2.IsWhole) → ∀ argument ∈ passed, argument.value.IsWhole)
      (coerceArguments arguments parameters) := by
  rw [coerceArguments]
  induction arguments generalizing parameters with
  | nil => exact fun _ _ => nofun
  | cons argument arguments ih =>
    obtain _ | ⟨⟨mode, type⟩, parameters⟩ := parameters
    · exact fun _ _ => nofun
    · rw [List.zip_cons_cons, List.mapM_cons]
      have first : Resolves (fun passed => argument.value.IsWhole → type.IsWhole → passed.value.IsWhole) (do
          let value ← if mode.writesBack then pure argument.value else argument.value.coerce type
          return TypedArgument.mk mode value) := by
        split
        · exact fun isWhole _ => isWhole
        · exact (argument.value.coerce_whole type).bind fun used isUsed => isUsed
      refine first.bind fun passed isPassed => (ih parameters).bind fun others areOthers => ?_
      intro areArguments areParameters
      rw [List.forall_mem_cons] at areArguments areParameters
      exact List.forall_mem_cons.2 ⟨isPassed areArguments.1 areParameters.1, areOthers areArguments.2 areParameters.2⟩

theorem resolveCall_builds {callee : Callee} {arguments : List CheckedArgument} (span : Span)
    (isCallee : facts → callee.IsWhole) (areArguments : facts → ∀ argument ∈ arguments, argument.value.IsWhole) :
    Builds context facts (resolveCall callee arguments span) TypedExpr.IsWhole := by
  rw [resolveCall]
  split
  · exact .throw (Candidate.mismatch_isError ..)
  · exact .fail rfl
  · next candidate isBest _ =>
    have member : candidate ∈ callee.candidates := (List.mem_filter.1 (Candidate.best?_mem isBest)).1
    have typed (node : List TypedArgument → TypedNode) (isNode : facts → ∀ passed : List TypedArgument,
        (∀ argument ∈ passed, argument.value.IsWhole) → (node passed).IsWhole) : Builds context facts (do
          let converted ← ofExcept (coerceArguments arguments candidate.parameters)
          return TypedExpr.mk (node converted) candidate.result span) TypedExpr.IsWhole := by
      refine (Builds.ofResolves ((coerceArguments_whole arguments candidate.parameters).mono
        fun passed arePassed holds => arePassed (areArguments holds) ((isCallee holds).candidates _ member).parameters)).bind
        fun passed => .pure fun ⟨holds, arePassed⟩ => ?_
      exact ⟨((isCallee holds).candidates _ member).result, isNode holds passed arePassed⟩
    have areValues {passed : List TypedArgument} (arePassed : ∀ argument ∈ passed, argument.value.IsWhole) :
        TypedExpr.EveryOfAll (fun _ type => type.IsWhole) (argumentValues passed) :=
      TypedExpr.everyOfAll_iff.2 (List.forall_mem_map.2 arePassed)
    refine .readBind ?_
    split
    · refine .choose (fun _ => .fail rfl) fun _ => typed _ fun _ passed arePassed => ?_
      exact TypedArgument.everyOfAll_iff.2 arePassed
    · exact typed _ fun _ passed arePassed => areValues arePassed
    · next builtin isTarget =>
      refine typed _ fun holds passed arePassed => ⟨?_, areValues arePassed⟩
      obtain ⟨value, isReceiver, isWhole⟩ := (isCallee holds).receiver candidate member builtin isTarget
      rw [isReceiver]
      exact isWhole

/-! ### Places and creation -/

theorem refusedReference_builds (mode : PassMode) (value : TypedExpr) (place : Span) :
    Builds context facts (match mode, value.node with
      | .input, _ => fail .notReferable place
      | _, .field _ _ => fail .fieldByReference place
      | _, _ => fail .notAVariable place) fun argument : CheckedArgument => argument.value.IsWhole := by
  cases mode <;> cases value.node <;> exact .fail rfl

theorem referenceArgument_builds (span : Span) (mode : PassMode) (target : Expr) {check : Check TypedExpr}
    (checks : Builds context facts check TypedExpr.IsWhole) :
    Builds context facts (referenceArgument span mode target check) fun argument => argument.value.IsWhole := by
  unfold referenceArgument
  cases target with
  | name place name =>
    refine .lookup? (checks.bind fun value => refusedReference_builds mode value place) fun index => .slot fun slot => ?_
    exact .choose (fun _ => .fail rfl) fun _ => (Builds.modifyUsage index _).bind fun _ =>
      .pure fun holds => ⟨holds.1.2, trivial⟩
  | _ => exact checks.bind fun value => refusedReference_builds mode value _

theorem placeOfValue_builds {value : TypedExpr} (whole : facts → value.IsWhole) (isStep : Bool) (place : Span) :
    Builds context facts (match value.node with
      | .field object name => return (.field object name, value.type)
      | .builtin member receiver _ => fail (.readonlyProperty receiver.type.shown member.name) place
      | _ => fail (if isStep then .badIncrementTarget else .badAssignmentTarget) place)
      fun found : Place × Ty => found.1.IsWhole ∧ found.2.IsWhole := by
  have isNode (holds : facts) := (whole holds).node
  cases isField : value.node with
  | field object name =>
    rw [isField] at isNode
    exact .pure fun holds => ⟨isNode holds, (whole holds).type⟩
  | builtin => exact .fail rfl
  | _ => cases isStep <;> exact .fail rfl

theorem placeOf_builds (target : Expr) {check : Check TypedExpr}
    (checks : Builds context facts check TypedExpr.IsWhole) (reads isStep : Bool) :
    Builds context facts (placeOf target check reads isStep)
      fun found => found.1.IsWhole ∧ found.2.IsWhole := by
  unfold placeOf
  cases target with
  | name place name =>
    refine .lookup? (checks.bind fun value => placeOfValue_builds And.right isStep place) fun index => .slot fun slot => ?_
    refine .choose (fun _ => .fail rfl) fun _ => .choose (fun _ => ?_) fun _ => .pure fun holds => ⟨trivial, holds.2⟩
    exact (Builds.modifyUsage index _).bind fun _ => .pure fun holds => ⟨trivial, holds.1.2⟩
  | _ => exact checks.bind fun value => placeOfValue_builds And.right isStep _

theorem create_builds (type : TypeName) (count : Nat) (span : Span) :
    Builds context facts (create type count span) TypedExpr.IsWhole := by
  rw [create]
  refine .readBind ?_
  let typing : Typing := ⟨context.environment.libraries, [], [], .void⟩
  have settles := Environment.resolveSymbol_settles (show typing.libraries = context.environment.libraries from rfl)
    context.owner type
  refine (Builds.ofResolves (settles.mono fun symbol settled _ => settled)).bind fun symbol => ?_
  have finish : Builds context (facts ∧ Environment.IsSettled typing symbol) (do
      created (← ofExcept (context.environment.symbolType .creation type.span symbol)) count span) TypedExpr.IsWhole :=
    (Builds.ofResolves ((Environment.symbolType_named typing symbol .creation type.span).mono
      fun target named holds => (named holds.2).whole)).bind fun target => created_builds count span And.right
  cases symbol with
  | host definition arguments => exact .choose (fun _ => .fail rfl) fun _ => finish
  | compiled index => exact .choose (fun _ => .fail rfl) fun _ => finish

/-! ### Expressions -/

/-- A step that gives a value, as what an expression denotes. -/
theorem Builds.given {step : Check TypedExpr} (inner : Builds context facts step TypedExpr.IsWhole) :
    Builds context facts (do return Referent.value (← step)) Referent.IsWhole :=
  inner.bind fun _ => .pure And.right

/-- A value that is asked for and used. -/
theorem Builds.valueBind {α : Type} {source : Expr} {rest : TypedExpr → Check α} {good : α → Prop}
    (denotes : Builds context facts (denote source) Referent.IsWhole)
    (tail : ∀ value : TypedExpr, Builds context (facts ∧ value.IsWhole) (rest value) good) :
    Builds context facts (denote source >>= fun referent => asValue referent source.span >>= rest) good :=
  denotes.bind fun _ => (asValue_builds And.right source.span).bind fun value =>
    (tail value).weaken fun holds => ⟨holds.1.1, holds.2⟩

mutual

theorem denote_builds (whole : context.IsWhole) (facts : Prop) (source : Expr) :
    Builds context facts (denote source) Referent.IsWhole := by
  match source with
  | .int _ _ | .long _ _ | .double _ _ | .text _ _ | .bool _ _ | .null _ =>
    rw [denote]
    exact .pure fun _ => TypedExpr.isWhole_constant ..
  | .basicType _ _ =>
    rw [denote]
    exact .pure fun _ => trivial
  | .name span name =>
    rw [denote]
    exact denoteName_builds name span
  | .member span object name =>
    rw [denote]
    exact (denote_builds whole facts object).bind fun base => denoteMember_builds whole name span And.right
  | .paren _ inner =>
    rw [denote]
    exact Builds.valueBind (denote_builds whole facts inner) fun value => .pure And.right
  | .call span callee arguments =>
    rw [denote]
    refine (denoteCallee_builds whole facts callee).bind fun callee =>
      (checkArguments_builds whole _ arguments).bind fun passed => ?_
    exact Builds.given (resolveCall_builds span (fun holds => holds.1.2) And.right)
  | .create span type arguments =>
    rw [denote]
    exact Builds.given (create_builds type arguments.length span)
  | .assign span operator target value =>
    rw [denote]
    refine (placeOf_builds target.core (value_builds whole facts target) _ _).bind fun (place, type) => ?_
    refine Builds.valueBind (denote_builds whole _ value) fun value => ?_
    cases operator with
    | none => exact Builds.given (assignPlain_builds span (fun holds => holds.1.2) And.right)
    | some operator => exact Builds.given (assignUpdate_builds operator span (fun holds => holds.1.2) And.right)
  | .binary span operator left right =>
    rw [denote]
    refine Builds.valueBind (denote_builds whole facts left) fun left =>
      Builds.valueBind (denote_builds whole _ right) fun right => ?_
    exact Builds.given (binary_builds operator span (fun holds => holds.1.2) And.right)
  | .unary span operator operand =>
    rw [denote]
    refine .choose (fun _ => .pure fun _ => TypedExpr.isWhole_constant ..) fun _ =>
      Builds.valueBind (denote_builds whole facts operand) fun value => ?_
    exact Builds.given (unary_builds operator span And.right)
  | .step span isIncrement isFront target =>
    rw [denote]
    refine (placeOf_builds target.core (value_builds whole facts target) _ _).bind fun (place, type) => ?_
    exact .choose (fun _ => .fail rfl) fun _ => .pure fun holds => ⟨holds.2.2, holds.2.1⟩
  | .conditional span condition thenValue elseValue =>
    rw [denote]
    refine Builds.valueBind (denote_builds whole facts condition) fun condition =>
      (coerce_builds And.right fun _ => show Ty.bool.IsWhole from trivial).bind fun condition => ?_
    refine Builds.valueBind (denote_builds whole _ thenValue) fun thenValue =>
      Builds.valueBind (denote_builds whole _ elseValue) fun elseValue => ?_
    exact Builds.given (conditional_builds span (fun holds => holds.1.1.2) (fun holds => holds.1.2) And.right)
  | .cast span type operand =>
    rw [denote]
    have resolves := context.environment.resolveType_whole context.owner .cast type
    refine .readBind ((Builds.ofResolves (resolves.mono fun target isTarget (_ : facts) => isTarget)).bind
      fun target => Builds.valueBind (denote_builds whole _ operand) fun value => ?_)
    exact Builds.given (cast_builds span (fun holds => holds.1.2) And.right)

/-- An expression where a value is asked for. -/
theorem value_builds (whole : context.IsWhole) (facts : Prop) (source : Expr) :
    Builds context facts (do asValue (← denote source) source.span) TypedExpr.IsWhole :=
  (denote_builds whole facts source).bind fun _ => asValue_builds And.right source.span

theorem denoteCallee_builds (whole : context.IsWhole) (facts : Prop) (source : Expr) :
    Builds context facts (denoteCallee source) Callee.IsWhole := by
  match source with
  | .paren _ inner =>
    rw [denoteCallee]
    exact denoteCallee_builds whole facts inner
  | .name span name =>
    rw [denoteCallee]
    exact calleeOfName_builds whole name span
  | .member span object name =>
    rw [denoteCallee]
    exact (denote_builds whole facts object).bind fun base => calleeOfMember_builds whole name span And.right
  | .int _ _ | .long _ _ | .double _ _ | .text _ _ | .bool _ _ | .null _ | .basicType _ _ | .call _ _ _
  | .create _ _ _ | .assign _ _ _ _ | .binary _ _ _ _ | .unary _ _ _ | .step _ _ _ _ | .conditional _ _ _ _
  | .cast _ _ _ => exact .fail rfl

theorem checkArguments_builds (whole : context.IsWhole) (facts : Prop) (arguments : List Argument) :
    Builds context facts (checkArguments arguments) fun passed => ∀ argument ∈ passed, argument.value.IsWhole := by
  match arguments with
  | [] => exact .pure fun _ => nofun
  | .mk span mode value :: rest =>
    rw [checkArguments]
    have others (first : CheckedArgument) (facts : Prop) : Builds context (facts ∧ first.value.IsWhole)
        (do return first :: (← checkArguments rest)) fun passed => ∀ argument ∈ passed, argument.value.IsWhole :=
      (checkArguments_builds whole _ rest).bind fun others =>
        .pure fun ⟨⟨_, isFirst⟩, areOthers⟩ => List.forall_mem_cons.2 ⟨isFirst, areOthers⟩
    refine .choose (fun _ => ?_) fun _ => ?_
    · exact (value_builds whole facts value).bind fun value => others ⟨mode, value, span⟩ facts
    · exact (referenceArgument_builds span mode value.core (value_builds whole facts value)).bind fun first =>
        others first facts

end

theorem expression_builds (whole : context.IsWhole) (source : Expr) :
    Builds context facts (expression source) TypedExpr.IsWhole := value_builds whole facts source

theorem condition_builds (whole : context.IsWhole) (source : Expr) :
    Builds context facts (condition source) TypedExpr.IsWhole :=
  (expression_builds whole source).bind fun _ => coerce_builds And.right fun _ => show Ty.bool.IsWhole from trivial

end Check

end Snippet
