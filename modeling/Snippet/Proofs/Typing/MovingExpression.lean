import Snippet.Proofs.Typing.Moving

/-!
The checker of expressions gives the same on trees with changed places.
-/

namespace Snippet.Check

variable {change : Span → Span} {context : BodyContext}

/-! ### Names -/

theorem asValue_moves (referent : Referent) (span : Span) :
    Moves change context (TypedExpr.mapSpans change) (asValue referent span)
      (asValue (referent.mapSpans change) (change span)) := by
  cases referent with
  | value => exact .pure rfl
  | type | space | methods => exact .fail

/-- The methods of a class by name with changed places. -/
def movedMethods (change : Span → Span) (methods : List (Nat × MethodHeader)) : List (Nat × MethodHeader) :=
  methods.map (Prod.map id (MethodHeader.mapSpans change))

theorem methodsOf_mapSpans (owner : Nat) (name : String) :
    methodsOf (context.mapSpans change) owner name = movedMethods change (methodsOf context owner name) := by
  have sameList : (context.mapSpans change).methods.toList.zipIdx =
      context.methods.toList.zipIdx.map (Prod.map (MethodHeader.mapSpans change) id) := by
    simp [BodyContext.mapSpans, List.zipIdx_map]
  rw [methodsOf, sameList, List.filter_map, List.map_map, methodsOf, movedMethods, List.map_map]
  rfl

theorem isEmpty_movedMethods (methods : List (Nat × MethodHeader)) :
    (movedMethods change methods).isEmpty = methods.isEmpty := List.isEmpty_map

theorem methodScope?_mapSpans (name : String) :
    methodScope? (context.mapSpans change) name =
      (methodScope? context name).map (Prod.map id (movedMethods change)) := by
  simp only [methodScope?, methodsOf_mapSpans, BodyContext.environment_mapSpans, BodyContext.owner_mapSpans]
  rw [List.map_findSome?]
  refine congrArg (List.findSome? · _) (funext fun owner => ?_)
  rw [Function.comp_apply]
  cases methodsOf context owner name <;> rfl

theorem compiledCandidates_movedMethods (methods : List (Nat × MethodHeader)) :
    compiledCandidates (movedMethods change methods) = compiledCandidates methods := by
  rw [compiledCandidates, movedMethods, List.map_map]
  rfl

theorem ofMeaning_mapSpans (environment : Environment) (meaning : Meaning) :
    (ofMeaning environment meaning).mapSpans change = ofMeaning environment meaning := by
  cases meaning <;> rfl

theorem denoteName_moves (name : String) (span : Span) :
    Moves change context (Referent.mapSpans change) (denoteName name span) (denoteName name (change span)) := by
  rw [denoteName, denoteName]
  refine .readBind (.lookup? fun found => ?_)
  cases found with
  | some index =>
    refine (noteRead_moves index).bind fun _ => .slot fun slot slot' _ sameType _ => .pure ?_
    rw [sameType]
    rfl
  | none =>
    rw [methodScope?_mapSpans]
    cases methodScope? context name with
    | some scope => exact .pure rfl
    | none =>
      simp only [Option.map_none, BodyContext.environment_mapSpans, BodyContext.owner_mapSpans]
      split
      · exact .pure (ofMeaning_mapSpans ..).symm
      · exact .fail
      · exact .fail

theorem denoteStatic_moves (symbol : TypeSymbol) (shown name : String) (span : Span) :
    Moves change context (Referent.mapSpans change) (denoteStatic symbol shown name span)
      (denoteStatic symbol shown name (change span)) := by
  rw [denoteStatic, denoteStatic]
  refine .readBind ?_
  cases symbol with
  | compiled owner =>
    simp only [BodyContext.environment_mapSpans, methodsOf_mapSpans, isEmpty_movedMethods]
    split
    · exact .pure rfl
    · exact .choose .fail (.pure rfl)
  | host definition arguments =>
    simp only [BodyContext.environment_mapSpans]
    split
    · split
      · exact .pure rfl
      · exact .fail
    · exact .choose (.pure rfl) (.choose .fail (.choose (.pure rfl) .fail))

theorem denoteInstance_moves (object : TypedExpr) (name : String) (span : Span) :
    Moves change context (Referent.mapSpans change) (denoteInstance object name span)
      (denoteInstance (object.mapSpans change) name (change span)) := by
  rw [denoteInstance, denoteInstance]
  simp only [TypedExpr.type_mapSpans]
  split
  · exact .fail
  · exact .fail
  · exact .pure rfl
  · refine .environment ?_
    split
    · exact .pure rfl
    · split
      · exact .pure rfl
      · exact .choose .fail (.pure rfl)

theorem denoteMember_moves (base : Referent) (name : String) (span : Span) :
    Moves change context (Referent.mapSpans change) (denoteMember base name span)
      (denoteMember (base.mapSpans change) name (change span)) := by
  cases base with
  | space space =>
    refine .environment ?_
    split
    · exact .pure (ofMeaning_mapSpans ..).symm
    · exact .fail
  | methods label => exact .fail
  | type symbol shown => exact denoteStatic_moves symbol shown name span
  | value object => exact denoteInstance_moves object name span

/-! ### Calls -/

theorem calleeOfName_moves (name : String) (span : Span) :
    Moves change context (Callee.mapSpans change) (calleeOfName name span) (calleeOfName name (change span)) := by
  rw [calleeOfName, calleeOfName]
  refine .readBind (.lookup? fun found => .choose .fail ?_)
  rw [methodScope?_mapSpans]
  cases methodScope? context name with
  | some scope =>
    refine .pure ?_
    rw [Callee.mapSpans, ← compiledCandidates_movedMethods scope.2]
    rfl
  | none =>
    simp only [Option.map_none, BodyContext.environment_mapSpans, BodyContext.owner_mapSpans]
    split
    · exact .fail
    · exact .fail

theorem calleeOfMember_moves (base : Referent) (name : String) (span : Span) :
    Moves change context (Callee.mapSpans change) (calleeOfMember base name span)
      (calleeOfMember (base.mapSpans change) name (change span)) := by
  rw [calleeOfMember, calleeOfMember]
  refine .readBind ?_
  simp only [BodyContext.environment_mapSpans]
  cases base with
  | space space => exact .fail
  | methods label => exact .fail
  | type symbol shown =>
    cases symbol with
    | compiled owner =>
      simp only [Referent.mapSpans, methodsOf_mapSpans]
      cases isFound : methodsOf context owner name with
      | nil => exact .choose .fail .fail
      | cons first others =>
        refine .pure ?_
        rw [Callee.mapSpans, ← compiledCandidates_movedMethods (first :: others)]
        rfl
    | host definition arguments =>
      exact .choose (.choose .fail .fail) (.pure rfl)
  | value object =>
    simp only [Referent.mapSpans, TypedExpr.type_mapSpans]
    refine .choose .fail ?_
    split
    · exact .choose .fail .fail
    · exact .pure rfl

theorem accessible_mapSpans (method : Nat) :
    accessible (context.mapSpans change) method = accessible context method := by
  have sameMethod : (context.mapSpans change).methods[method]? =
      context.methods[method]?.map (MethodHeader.mapSpans change) := Array.getElem?_map
  rw [accessible, accessible, sameMethod]
  cases context.methods[method]? <;> rfl

theorem fits_mapSpans (argument : CheckedArgument) (mode : PassMode) (type : Ty) :
    (argument.mapSpans change).fits mode type = argument.fits mode type := by
  simp only [CheckedArgument.fits, CheckedArgument.mapSpans, TypedExpr.type_mapSpans]

theorem applies_mapSpans (candidate : Candidate) (arguments : List CheckedArgument) :
    candidate.applies (arguments.map (CheckedArgument.mapSpans change)) = candidate.applies arguments := by
  rw [Candidate.applies, List.length_map, List.zip_map_left, List.all_map, Candidate.applies]
  refine congrArg (_ && List.all _ ·) (funext fun entry => ?_)
  exact fits_mapSpans entry.1 entry.2.1 entry.2.2

theorem isBetter_mapSpans (first second : Candidate) (arguments : List CheckedArgument) :
    first.isBetter second (arguments.map (CheckedArgument.mapSpans change)) = first.isBetter second arguments := by
  have sameResults : Candidate.comparisons first second (arguments.map (CheckedArgument.mapSpans change)) =
      Candidate.comparisons first second arguments := by
    rw [Candidate.comparisons, List.zip_map_left, List.map_map, Candidate.comparisons]
    refine List.map_congr_left fun entry _ => ?_
    simp only [Function.comp_apply, Prod.map_fst, Prod.map_snd, CheckedArgument.mapSpans, TypedExpr.type_mapSpans, id]
  rw [Candidate.isBetter, sameResults, Candidate.isBetter]

theorem best?_mapSpans (candidates : List Candidate) (arguments : List CheckedArgument) :
    Candidate.best? candidates (arguments.map (CheckedArgument.mapSpans change)) =
      Candidate.best? candidates arguments := by
  simp only [Candidate.best?, isBetter_mapSpans]

theorem argumentProblem?_mapSpans (position : Nat) (argument : CheckedArgument) (mode : PassMode) (type : Ty) :
    Candidate.argumentProblem? position (argument.mapSpans change) mode type =
      Candidate.argumentProblem? position argument mode type := by
  simp only [Candidate.argumentProblem?, fits_mapSpans]
  simp only [CheckedArgument.mapSpans, TypedExpr.type_mapSpans]

theorem mismatch_mapSpans (candidates : List Candidate) (arguments : List CheckedArgument) (name : String)
    (span : Span) : Candidate.mismatch candidates (arguments.map (CheckedArgument.mapSpans change)) name (change span) =
      (Candidate.mismatch candidates arguments name span).mapSpans change := by
  simp only [Candidate.mismatch, List.length_map]
  cases candidates.find? fun candidate => candidate.parameters.length == arguments.length with
  | none => rfl
  | some candidate =>
    dsimp only
    rw [← Option.getD_map (Finding.mapSpans change), List.map_findSome?, List.zip_map_left, List.zipIdx_map,
      List.findSome?_map]
    refine congrArg (Option.getD · _) (congrArg (List.findSome? · _) (funext fun entry => ?_))
    rw [Function.comp_apply, Function.comp_apply, Option.map_map]
    exact congrArg (Option.map _) (argumentProblem?_mapSpans ..)

theorem coerceArguments_mapSpans (arguments : List CheckedArgument) (parameters : List (PassMode × Ty)) :
    coerceArguments (arguments.map (CheckedArgument.mapSpans change)) parameters =
      moveResult change (List.map (TypedArgument.mapSpans change)) (coerceArguments arguments parameters) := by
  rw [coerceArguments, coerceArguments, List.zip_map_left]
  refine moveResult_mapM (fun entry => ?_) _
  obtain ⟨argument, mode, type⟩ := entry
  dsimp only [Prod.map, id, CheckedArgument.mapSpans]
  split
  · rfl
  · rw [TypedExpr.coerce_mapSpans]
    exact moveResult_bind fun value => rfl

theorem argumentValues_mapSpans (arguments : List TypedArgument) :
    argumentValues (arguments.map (TypedArgument.mapSpans change)) =
      (argumentValues arguments).map (TypedExpr.mapSpans change) := by
  rw [argumentValues, List.map_map, argumentValues, List.map_map]
  refine List.map_congr_left fun argument _ => ?_
  cases argument
  rfl

theorem resolveCall_moves (callee : Callee) (arguments : List CheckedArgument) (span : Span) :
    Moves change context (TypedExpr.mapSpans change) (resolveCall callee arguments span)
      (resolveCall (callee.mapSpans change) (arguments.map (CheckedArgument.mapSpans change)) (change span)) := by
  rw [resolveCall, resolveCall]
  simp only [applies_mapSpans, best?_mapSpans, Callee.mapSpans]
  have typed (candidate : Candidate) {node node' : List TypedArgument → TypedNode}
      (same : ∀ passed, node' (passed.map (TypedArgument.mapSpans change)) = (node passed).mapSpans change) :
      Moves change context (TypedExpr.mapSpans change) (do
        let converted ← ofExcept (coerceArguments arguments candidate.parameters)
        return .mk (node converted) candidate.result span) (do
        let converted ← ofExcept
          (coerceArguments (arguments.map (CheckedArgument.mapSpans change)) candidate.parameters)
        return .mk (node' converted) candidate.result (change span)) := by
    refine (Moves.ofExcept (coerceArguments_mapSpans arguments candidate.parameters)).bind fun passed => .pure ?_
    rw [same, TypedExpr.mapSpans]
  split
  · exact .throw (mismatch_mapSpans ..)
  · exact .fail
  · next candidate _ _ =>
    refine .readBind ?_
    simp only [accessible_mapSpans]
    cases candidate.target with
    | compiled method =>
      refine .choose .fail (typed candidate fun passed => ?_)
      rw [TypedNode.mapSpans, TypedArgument.mapSpansOfAll_eq_map]
    | host function =>
      refine typed candidate fun passed => ?_
      rw [TypedNode.mapSpans, TypedExpr.mapSpansOfAll_eq_map, argumentValues_mapSpans]
    | builtin member =>
      refine typed candidate fun passed => ?_
      rw [TypedNode.mapSpans, TypedExpr.mapSpansOfAll_eq_map, argumentValues_mapSpans]
      cases callee.receiver <;> rfl

/-- Why an argument that is passed by reference and no variable is refused. -/
theorem refusedReference_moves (mode : PassMode) (value : TypedExpr) (span : Span) :
    Moves (α := CheckedArgument) change context (CheckedArgument.mapSpans change)
      (match mode, value.node with
      | .input, _ => fail .notReferable span
      | _, .field _ _ => fail .fieldByReference span
      | _, _ => fail .notAVariable span)
      (match mode, (value.mapSpans change).node with
      | .input, _ => fail .notReferable (change span)
      | _, .field _ _ => fail .fieldByReference (change span)
      | _, _ => fail .notAVariable (change span)) := by
  rw [TypedExpr.node_mapSpans]
  cases mode <;> cases value.node <;> exact .fail

theorem referenceArgument_moves (span : Span) (mode : PassMode) (target : Expr) {check check' : Check TypedExpr}
    (checks : Moves change context (TypedExpr.mapSpans change) check check') :
    Moves change context (CheckedArgument.mapSpans change) (referenceArgument span mode target check)
      (referenceArgument (change span) mode (target.mapSpans change) check') := by
  unfold referenceArgument
  cases target with
  | name place name =>
    simp only [Expr.mapSpans]
    refine .lookup? fun found => ?_
    cases found with
    | some index =>
      refine .slot fun slot slot' _ sameType sameMode => ?_
      rw [sameMode]
      refine .choose .fail ((Moves.modifyUsage index _).bind fun _ => .pure ?_)
      rw [sameType]
      rfl
    | none =>
      refine checks.bind fun value => ?_
      exact refusedReference_moves mode value place
  | _ =>
    refine .pureBind (checks.bind fun value => ?_)
    exact refusedReference_moves mode value _

/-! ### Creation -/

theorem created_moves (target : Ty) (count : Nat) (span : Span) :
    Moves change context (TypedExpr.mapSpans change) (created target count span)
      (created target count (change span)) := by
  unfold created
  cases target with
  | list | data | bool | int | long | double => exact .choose .fail (.pure rfl)
  | _ => exact .choose .fail .fail

theorem create_moves (type : TypeName) (count : Nat) (span : Span) :
    Moves change context (TypedExpr.mapSpans change) (create type count span)
      (create (type.mapSpans change) count (change span)) := by
  rw [create, create]
  refine .readBind ?_
  simp only [BodyContext.environment_mapSpans, BodyContext.owner_mapSpans, TypeName.span_mapSpans]
  refine (Moves.ofExcept (context.environment.resolveSymbol_mapSpans change context.owner type)).bind fun symbol => ?_
  have finish : Moves change context (TypedExpr.mapSpans change) (do
      created (← ofExcept (context.environment.symbolType .creation type.span symbol)) count span) (do
      created (← ofExcept (context.environment.symbolType .creation (change type.span) symbol)) count (change span)) :=
    (Moves.ofExcept (context.environment.symbolType_mapSpans change .creation type.span symbol)).bind fun target =>
      created_moves target count span
  cases symbol with
  | host definition arguments => exact .choose .fail finish
  | compiled index => exact .choose .fail finish

/-! ### Assignment -/

/-- The place that a checked value denotes. -/
theorem placeOfValue_moves (value : TypedExpr) (isStep : Bool) (span : Span) :
    Moves (α := Place × Ty) change context (Prod.map (Place.mapSpans change) id)
      (match value.node with
      | .field object name => return (.field object name, value.type)
      | .builtin member receiver _ => fail (.readonlyProperty receiver.type.shown member.name) span
      | _ => fail (if isStep then .badIncrementTarget else .badAssignmentTarget) span)
      (match (value.mapSpans change).node with
      | .field object name => return (.field object name, (value.mapSpans change).type)
      | .builtin member receiver _ => fail (.readonlyProperty receiver.type.shown member.name) (change span)
      | _ => fail (if isStep then .badIncrementTarget else .badAssignmentTarget) (change span)) := by
  rw [TypedExpr.node_mapSpans, TypedExpr.type_mapSpans]
  cases value.node with
  | field object name => exact .pure rfl
  | builtin member receiver passed =>
    simp only [TypedNode.mapSpans, TypedExpr.type_mapSpans]
    exact .fail
  | _ => exact .fail

theorem placeOf_moves (target : Expr) {check check' : Check TypedExpr}
    (checks : Moves change context (TypedExpr.mapSpans change) check check') (reads isStep : Bool) :
    Moves change context (Prod.map (Place.mapSpans change) id) (placeOf target check reads isStep)
      (placeOf (target.mapSpans change) check' reads isStep) := by
  unfold placeOf
  cases target with
  | name place name =>
    simp only [Expr.mapSpans]
    refine .lookup? fun found => ?_
    cases found with
    | some index =>
      refine .slot fun slot slot' _ sameType sameMode => ?_
      rw [sameMode, sameType]
      exact .choose .fail (.choose ((Moves.modifyUsage index _).bind fun _ => .pure rfl) (.pure rfl))
    | none => exact checks.bind fun value => placeOfValue_moves value isStep place
  | _ => exact .pureBind (checks.bind fun value => placeOfValue_moves value isStep _)

theorem assignPlain_moves (place : Place) (type : Ty) (value : TypedExpr) (span : Span) :
    Moves change context (TypedExpr.mapSpans change) (assignPlain place type value span)
      (assignPlain (place.mapSpans change) type (value.mapSpans change) (change span)) := by
  rw [assignPlain, assignPlain]
  refine (Moves.ofExcept (value.coerce_mapSpans change type)).bind fun converted => ?_
  cases place with
  | slot index => exact (noteWrite_moves index converted).bind fun _ => .pure rfl
  | field object name => exact .pure rfl

theorem convertOperand_moves (type? : Option Ty) (operand : TypedExpr) :
    Moves change context (TypedExpr.mapSpans change) (convertOperand type? operand)
      (convertOperand type? (operand.mapSpans change)) := by
  cases type? with
  | some type => exact .ofExcept (operand.coerce_mapSpans change type)
  | none => exact .pure rfl

theorem assignUpdate_moves (operator : BinaryOperator) (place : Place) (type : Ty) (value : TypedExpr) (span : Span) :
    Moves change context (TypedExpr.mapSpans change) (assignUpdate operator place type value span)
      (assignUpdate operator (place.mapSpans change) type (value.mapSpans change) (change span)) := by
  rw [assignUpdate, assignUpdate]
  simp only [TypedExpr.type_mapSpans]
  refine .choose (.pure rfl) ?_
  split
  · exact .fail
  · split
    · exact (convertOperand_moves _ value).bind fun converted => .pure rfl
    · exact (convertOperand_moves _ value).bind fun converted => .pure rfl
    · exact .fail

/-! ### Operators -/

theorem logical_mapSpans (isAnd : Bool) (left right : TypedExpr) (span : Span) :
    logical isAnd (left.mapSpans change) (right.mapSpans change) (change span) =
      (logical isAnd left right span).mapSpans change := by
  simp only [logical, TypedExpr.constantBool?_mapSpans]
  split <;> rfl

theorem folded_moves (operation : Operation) (type : Ty) (left right : TypedExpr) (span : Span) :
    Moves change context (TypedExpr.mapSpans change) (folded operation type left right span)
      (folded operation type (left.mapSpans change) (right.mapSpans change) (change span)) := by
  rw [folded, folded]
  simp only [TypedExpr.constant?_mapSpans]
  split
  · split
    · exact .pure rfl
    · exact .pure rfl
    · exact .fail
  · exact .pure rfl

theorem binary_moves (operator : BinaryOperator) (left right : TypedExpr) (span : Span) :
    Moves change context (TypedExpr.mapSpans change) (binary operator left right span)
      (binary operator (left.mapSpans change) (right.mapSpans change) (change span)) := by
  rw [binary, binary]
  simp only [TypedExpr.type_mapSpans, logical_mapSpans]
  refine .choose (.pure rfl) (.choose (.choose .fail (.pure rfl)) ?_)
  split
  · exact .fail
  · refine (convertOperand_moves _ left).bind fun left => (convertOperand_moves _ right).bind fun right => ?_
    exact folded_moves _ _ left right span

theorem negate_moves (value : TypedExpr) (span : Span) :
    Moves change context (TypedExpr.mapSpans change) (negate value span)
      (negate (value.mapSpans change) (change span)) := by
  rw [negate, negate]
  simp only [TypedExpr.constant?_mapSpans, TypedExpr.type_mapSpans]
  split
  · exact .pure rfl
  · split
    · exact .pure rfl
    · exact .pure rfl
    · exact .fail

theorem unary_moves (operator : UnaryOperator) (value : TypedExpr) (span : Span) :
    Moves change context (TypedExpr.mapSpans change) (unary operator value span)
      (unary operator (value.mapSpans change) (change span)) := by
  rw [unary, unary]
  simp only [TypedExpr.type_mapSpans, TypedExpr.constantBool?_mapSpans]
  refine .choose (.pure rfl) ?_
  cases operator with
  | not =>
    refine .choose .fail ?_
    split
    · exact .pure rfl
    · exact .pure rfl
  | plus => exact .choose (.pure rfl) .fail
  | negate => exact .choose (negate_moves value span) .fail

theorem conditional_moves (condition thenValue elseValue : TypedExpr) (span : Span) :
    Moves change context (TypedExpr.mapSpans change) (conditional condition thenValue elseValue span)
      (conditional (condition.mapSpans change) (thenValue.mapSpans change) (elseValue.mapSpans change)
        (change span)) := by
  rw [conditional, conditional]
  simp only [TypedExpr.type_mapSpans]
  refine .choose (.pure rfl) ?_
  split
  · exact .fail
  · next type _ =>
    refine (Moves.ofExcept (thenValue.coerce_mapSpans change type)).bind fun first => ?_
    exact (Moves.ofExcept (elseValue.coerce_mapSpans change type)).bind fun second => .pure rfl

theorem cast_moves (target : Ty) (value : TypedExpr) (span : Span) :
    Moves change context (TypedExpr.mapSpans change) (cast target value span)
      (cast target (value.mapSpans change) (change span)) := by
  rw [cast, cast]
  simp only [TypedExpr.type_mapSpans, TypedExpr.coerced_mapSpans]
  split
  · refine .pure ?_
    rw [TypedExpr.node_mapSpans, TypedExpr.mapSpans]
  · exact .fail

/-! ### Expressions -/

theorem isLeastMagnitude_mapSpans (operand : Expr) :
    isLeastMagnitude (operand.mapSpans change) = isLeastMagnitude operand := by
  cases operand <;> rfl

/-- A value that is asked for and used. -/
theorem Moves.valueBind {α β : Type} {move : α → β} {source : Expr} {rest : TypedExpr → Check α}
    {rest' : TypedExpr → Check β}
    (denotes : Moves change context (Referent.mapSpans change) (denote source) (denote (source.mapSpans change)))
    (tail : ∀ value : TypedExpr, Moves change context move (rest value) (rest' (value.mapSpans change))) :
    Moves change context move (denote source >>= fun referent => asValue referent source.span >>= rest)
      (denote (source.mapSpans change) >>= fun referent =>
        asValue referent (source.mapSpans change).span >>= rest') := by
  rw [Expr.span_mapSpans]
  exact denotes.bind fun referent => (asValue_moves referent source.span).bind tail

/-- A step that gives a value, as what an expression denotes. -/
theorem Moves.given {step moved : Check TypedExpr}
    (inner : Moves change context (TypedExpr.mapSpans change) step moved) :
    Moves change context (Referent.mapSpans change) (do return .value (← step)) (do return .value (← moved)) :=
  inner.bind fun _ => .pure rfl

mutual

theorem denote_moves (source : Expr) :
    Moves change context (Referent.mapSpans change) (denote source) (denote (source.mapSpans change)) := by
  match source with
  | .int _ _ | .long _ _ | .double _ _ | .text _ _ | .bool _ _ | .null _ =>
    rw [Expr.mapSpans, denote, denote]
    exact .pure rfl
  | .basicType _ _ =>
    rw [Expr.mapSpans, denote, denote]
    exact .pure rfl
  | .name span name =>
    rw [Expr.mapSpans, denote, denote]
    exact denoteName_moves name span
  | .member span object name =>
    rw [Expr.mapSpans, denote, denote]
    exact (denote_moves object).bind fun base => denoteMember_moves base name span
  | .paren _ inner =>
    rw [Expr.mapSpans, denote, denote]
    exact (denote_moves inner).valueBind fun value => .pure rfl
  | .call span callee arguments =>
    rw [Expr.mapSpans, denote, denote, Argument.mapSpansOfAll_eq_map]
    refine (denoteCallee_moves callee).bind fun callee => (checkArguments_moves arguments).bind fun passed => ?_
    exact (resolveCall_moves callee passed span).given
  | .create span type arguments =>
    rw [Expr.mapSpans, denote, denote, Argument.mapSpansOfAll_eq_map, List.length_map]
    exact (create_moves type arguments.length span).given
  | .assign span operator target value =>
    rw [Expr.mapSpans, denote, denote, Expr.core_mapSpans]
    refine (placeOf_moves target.core (value_moves target) _ _).bind fun (place, type) => ?_
    refine (denote_moves value).valueBind fun value => ?_
    cases operator with
    | none => exact (assignPlain_moves place type value span).given
    | some operator => exact (assignUpdate_moves operator place type value span).given
  | .binary span operator left right =>
    rw [Expr.mapSpans, denote, denote]
    refine (denote_moves left).valueBind fun left => (denote_moves right).valueBind fun right => ?_
    exact (binary_moves operator left right span).given
  | .unary span operator operand =>
    rw [Expr.mapSpans, denote, denote, Expr.core_mapSpans, isLeastMagnitude_mapSpans]
    refine .choose (.pure rfl) ((denote_moves operand).valueBind fun value => ?_)
    exact (unary_moves operator value span).given
  | .step span isIncrement isFront target =>
    rw [Expr.mapSpans, denote, denote, Expr.core_mapSpans]
    refine (placeOf_moves target.core (value_moves target) _ _).bind fun (place, type) => ?_
    exact .choose .fail (.pure rfl)
  | .conditional span condition thenValue elseValue =>
    rw [Expr.mapSpans, denote, denote]
    refine (denote_moves condition).valueBind fun condition => ?_
    refine (Moves.ofExcept (condition.coerce_mapSpans change .bool)).bind fun condition => ?_
    refine (denote_moves thenValue).valueBind fun thenValue => (denote_moves elseValue).valueBind fun elseValue => ?_
    exact (conditional_moves condition thenValue elseValue span).given
  | .cast span type operand =>
    rw [Expr.mapSpans, denote, denote]
    refine .readBind ((Moves.ofExcept (context.environment.resolveType_mapSpans change context.owner .cast type)).bind
      fun target => (denote_moves operand).valueBind fun value => ?_)
    exact (cast_moves target value span).given

/-- An expression where a value is asked for. -/
theorem value_moves (source : Expr) :
    Moves change context (TypedExpr.mapSpans change) (do asValue (← denote source) source.span)
      (do asValue (← denote (source.mapSpans change)) (source.mapSpans change).span) := by
  rw [Expr.span_mapSpans]
  exact (denote_moves source).bind fun referent => asValue_moves referent source.span

theorem denoteCallee_moves (source : Expr) :
    Moves change context (Callee.mapSpans change) (denoteCallee source) (denoteCallee (source.mapSpans change)) := by
  match source with
  | .paren _ inner =>
    rw [Expr.mapSpans, denoteCallee, denoteCallee]
    exact denoteCallee_moves inner
  | .name span name =>
    rw [Expr.mapSpans, denoteCallee, denoteCallee]
    exact calleeOfName_moves name span
  | .member span object name =>
    rw [Expr.mapSpans, denoteCallee, denoteCallee]
    exact (denote_moves object).bind fun base => calleeOfMember_moves base name span
  | .int _ _ | .long _ _ | .double _ _ | .text _ _ | .bool _ _ | .null _ | .basicType _ _ | .call _ _ _
  | .create _ _ _ | .assign _ _ _ _ | .binary _ _ _ _ | .unary _ _ _ | .step _ _ _ _ | .conditional _ _ _ _
  | .cast _ _ _ => exact .fail

theorem checkArguments_moves (arguments : List Argument) :
    Moves change context (List.map (CheckedArgument.mapSpans change)) (checkArguments arguments)
      (checkArguments (arguments.map (Argument.mapSpans change))) := by
  match arguments with
  | [] => exact .pure rfl
  | .mk span mode value :: rest =>
    rw [List.map_cons, Argument.mapSpans, checkArguments, checkArguments, Expr.core_mapSpans]
    have others (first : CheckedArgument) : Moves change context (List.map (CheckedArgument.mapSpans change))
        (do return first :: (← checkArguments rest))
        (do return first.mapSpans change :: (← checkArguments (rest.map (Argument.mapSpans change)))) :=
      (checkArguments_moves rest).bind fun others => .pure rfl
    refine .choose ?_ ((referenceArgument_moves span mode value.core (value_moves value)).bind others)
    exact (value_moves value).bind fun value => .pureBind (others ⟨mode, value, span⟩)

end

theorem expression_moves (source : Expr) :
    Moves change context (TypedExpr.mapSpans change) (expression source) (expression (source.mapSpans change)) :=
  value_moves source

theorem condition_moves (source : Expr) :
    Moves change context (TypedExpr.mapSpans change) (condition source) (condition (source.mapSpans change)) :=
  (expression_moves source).bind fun value => .ofExcept (value.coerce_mapSpans change .bool)

end Snippet.Check
