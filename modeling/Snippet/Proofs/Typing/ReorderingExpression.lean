import Snippet.Proofs.Typing.Call
import Snippet.Proofs.Typing.Following
import Snippet.Proofs.Typing.Operator
import Snippet.Proofs.Typing.Reordering

/-!
The checking of expressions where the namespaces in use stand in another order. Main statement: an expression in which
no error is found denotes the same in every order.
-/

namespace Snippet

/-- The context with other classes. -/
def BodyContext.withClasses (context : BodyContext) (classes : Array ClassInfo) : BodyContext :=
  { context with environment := context.environment.withClasses classes }

@[simp]
theorem BodyContext.environment_withClasses (context : BodyContext) (classes : Array ClassInfo) :
    (context.withClasses classes).environment = context.environment.withClasses classes := rfl

@[simp]
theorem BodyContext.owner_withClasses (context : BodyContext) (classes : Array ClassInfo) :
    (context.withClasses classes).owner = context.owner := rfl

@[simp]
theorem Environment.libraries_withClasses (environment : Environment) (classes : Array ClassInfo) :
    (environment.withClasses classes).libraries = environment.libraries := rfl

/-- A missing conversion is an error. -/
theorem TypedExpr.coerce_kept (value : TypedExpr) (target : Ty) :
    Resolves (value.coerce target = .ok ·) (value.coerce target) :=
  resolves_coerce fun coercion implicit => by rw [coerce, implicit]

namespace Check

/-- Whether a step that finds no error does the same for other classes. -/
abbrev Keeps {α : Type} (context : BodyContext) (classes : Array ClassInfo) (step : Check α) : Prop :=
  Follows True context (context.withClasses classes) step step

variable {context : BodyContext} {classes : Array ClassInfo}

/-! ### Values -/

theorem asValue_keeps (referent : Referent) (span : Span) : Keeps context classes (asValue referent span) := by
  cases referent with
  | value value => exact .pure value
  | type | space | methods => exact .fail rfl

theorem coerce_keeps (value : TypedExpr) (target : Ty) : Keeps context classes (ofExcept (value.coerce target)) :=
  .ofExcept (value.coerce_kept target)

theorem coerceArguments_kept (arguments : List CheckedArgument) (parameters : List (PassMode × Ty)) :
    Resolves (coerceArguments arguments parameters = .ok ·) (coerceArguments arguments parameters) := by
  rw [coerceArguments]
  generalize arguments.zip parameters = entries
  induction entries with
  | nil => rfl
  | cons entry rest ih =>
    obtain ⟨argument, mode, type⟩ := entry
    rw [List.mapM_cons]
    refine Resolves.keepsBind ?_ fun first => ih.keepsBind fun others => rfl
    dsimp only
    split
    · rfl
    · exact (argument.value.coerce_kept type).keepsBind fun value => rfl

theorem assignPlain_keeps (place : Place) (type : Ty) (value : TypedExpr) (span : Span) :
    Keeps context classes (assignPlain place type value span) := by
  rw [assignPlain]
  refine (coerce_keeps value type).bind fun converted => ?_
  cases place with
  | slot index => exact (noteWrite_follows index converted).bind fun _ => .pure _
  | field object name => exact .pure _

theorem convertOperand_keeps (type? : Option Ty) (operand : TypedExpr) :
    Keeps context classes (convertOperand type? operand) := by
  cases type? with
  | some type => exact coerce_keeps operand type
  | none => exact .pure operand

theorem assignUpdate_keeps (operator : BinaryOperator) (place : Place) (type : Ty) (value : TypedExpr) (span : Span) :
    Keeps context classes (assignUpdate operator place type value span) := by
  rw [assignUpdate]
  refine .choose (.pure _) ?_
  split
  · exact .fail rfl
  · split
    · exact (convertOperand_keeps _ value).bind fun converted => .pure _
    · exact (convertOperand_keeps _ value).bind fun converted => .pure _
    · exact .fail (conversionProblem_isError ..)

theorem folded_keeps (operation : Operation) (type : Ty) (left right : TypedExpr) (span : Span) :
    Keeps context classes (folded operation type left right span) := by
  rw [folded]
  split
  · split
    · exact .pure _
    · exact .pure _
    · next refused => exact .fail (Folding.fold_isError refused)
  · exact .pure _

theorem binary_keeps (operator : BinaryOperator) (left right : TypedExpr) (span : Span) :
    Keeps context classes (binary operator left right span) := by
  rw [binary]
  refine .choose (.pure _) (.choose (.choose (.fail rfl) (.pure _)) ?_)
  split
  · exact .fail rfl
  · exact (convertOperand_keeps _ left).bind fun left => (convertOperand_keeps _ right).bind fun right =>
      folded_keeps _ _ left right span

theorem negate_keeps (value : TypedExpr) (span : Span) : Keeps context classes (negate value span) := by
  rw [negate]
  split
  · exact .pure _
  · split
    · exact .pure _
    · exact .pure _
    · next refused => exact .fail (Folding.negate?_isError refused)

theorem unary_keeps (operator : UnaryOperator) (value : TypedExpr) (span : Span) :
    Keeps context classes (unary operator value span) := by
  rw [unary]
  refine .choose (.pure value) ?_
  cases operator with
  | not =>
    refine .choose (.fail rfl) ?_
    split
    · exact .pure _
    · exact .pure _
  | plus => exact .choose (.pure value) (.fail rfl)
  | negate => exact .choose (negate_keeps value span) (.fail rfl)

theorem conditional_keeps (condition thenValue elseValue : TypedExpr) (span : Span) :
    Keeps context classes (conditional condition thenValue elseValue span) := by
  rw [conditional]
  refine .choose (.pure _) ?_
  split
  · exact .fail rfl
  · exact (coerce_keeps thenValue _).bind fun first => (coerce_keeps elseValue _).bind fun second => .pure _

theorem cast_keeps (target : Ty) (value : TypedExpr) (span : Span) :
    Keeps context classes (cast target value span) := by
  rw [cast]
  split
  · exact .pure _
  · exact .fail rfl

theorem created_keeps (target : Ty) (count : Nat) (span : Span) :
    Keeps context classes (created target count span) := by
  unfold created
  cases target with
  | list | data | bool | int | long | double => exact .choose (.fail rfl) (.pure _)
  | _ => exact .choose (.fail rfl) (.fail rfl)

theorem refusedReference_keeps (mode : PassMode) (value : TypedExpr) (place : Span) :
    Keeps (α := CheckedArgument) context classes (match mode, value.node with
      | .input, _ => fail .notReferable place
      | _, .field _ _ => fail .fieldByReference place
      | _, _ => fail .notAVariable place) := by
  cases mode <;> cases value.node <;> exact .fail rfl

theorem referenceArgument_keeps (span : Span) (mode : PassMode) (target : Expr) {check : Check TypedExpr}
    (checks : Keeps context classes check) : Keeps context classes (referenceArgument span mode target check) := by
  unfold referenceArgument
  cases target with
  | name place name =>
    refine .lookup? fun found => ?_
    cases found with
    | some index =>
      exact .slot fun slot => .choose (.fail rfl) ((Follows.modifyUsage index _).bind fun _ => .pure _)
    | none => exact checks.bind fun value => refusedReference_keeps mode value place
  | _ => exact .pureBind (checks.bind fun value => refusedReference_keeps mode value _)

theorem placeOfValue_keeps (value : TypedExpr) (isStep : Bool) (place : Span) :
    Keeps (α := Place × Ty) context classes (match value.node with
      | .field object name => return (.field object name, value.type)
      | .builtin member receiver _ => fail (.readonlyProperty receiver.type.shown member.name) place
      | _ => fail (if isStep then .badIncrementTarget else .badAssignmentTarget) place) := by
  cases value.node with
  | field object name => exact .pure _
  | builtin => exact .fail rfl
  | _ => cases isStep <;> exact .fail rfl

theorem placeOf_keeps (target : Expr) {check : Check TypedExpr} (checks : Keeps context classes check)
    (reads isStep : Bool) : Keeps context classes (placeOf target check reads isStep) := by
  unfold placeOf
  cases target with
  | name place name =>
    refine .lookup? fun found => ?_
    cases found with
    | some index =>
      exact .slot fun slot => .choose (.fail rfl)
        (.choose ((Follows.modifyUsage index _).bind fun _ => .pure _) (.pure _))
    | none => exact checks.bind fun value => placeOfValue_keeps value isStep place
  | _ => exact .pureBind (checks.bind fun value => placeOfValue_keeps value isStep _)

/-! ### Names -/

section

variable (reorders : ClassInfo.ReorderAll context.environment.classes classes)

include reorders

theorem methodScope?_withClasses (name : String) :
    methodScope? (context.withClasses classes) name = methodScope? context name := by
  rw [methodScope?, BodyContext.environment_withClasses, BodyContext.owner_withClasses,
    Environment.classChain_withClasses reorders]
  rfl

theorem ofMeaning_withClasses (meaning : Meaning) :
    ofMeaning (context.environment.withClasses classes) meaning = ofMeaning context.environment meaning := by
  cases meaning with
  | type symbol => rw [ofMeaning, ofMeaning, Environment.symbolShown_withClasses reorders]
  | space name => rfl

theorem accessible_withClasses (method : Nat) :
    accessible (context.withClasses classes) method = accessible context method := by
  rw [accessible, BodyContext.environment_withClasses, BodyContext.owner_withClasses,
    Environment.classChain_withClasses reorders]
  rfl

theorem denoteName_keeps (name : String) (span : Span) : Keeps context classes (denoteName name span) := by
  rw [denoteName]
  refine .readBind (.lookup? fun found => ?_)
  cases found with
  | some index => exact (noteRead_follows index).bind fun _ => .slot fun slot => .pure _
  | none =>
    rw [methodScope?_withClasses reorders]
    simp only [BodyContext.environment_withClasses, BodyContext.owner_withClasses]
    cases methodScope? context name with
    | some scope =>
      dsimp only
      rw [Environment.classShown_withClasses reorders]
      exact .pure _
    | none =>
      have lookups := Environment.findSimple_reorders reorders context.owner name
      revert lookups
      generalize context.environment.findSimple context.owner name = lookup,
        (context.environment.withClasses classes).findSimple context.owner name = lookup'
      rintro (_ | _)
      · cases lookup with
        | found meaning =>
          dsimp only
          rw [ofMeaning_withClasses reorders]
          exact .pure _
        | ambiguous first second => exact .fail rfl
        | missing => exact .fail rfl
      · exact .fail rfl

theorem denoteStatic_keeps (symbol : TypeSymbol) (shown name : String) (span : Span) :
    Keeps context classes (denoteStatic symbol shown name span) := by
  rw [denoteStatic]
  refine .readBind ?_
  simp only [BodyContext.environment_withClasses, Environment.libraries_withClasses]
  cases symbol with
  | compiled owner =>
    dsimp only
    rw [Environment.nestedClass?_withClasses reorders]
    cases context.environment.nestedClass? owner name with
    | some nested =>
      dsimp only
      rw [Environment.classShown_withClasses reorders]
      exact .pure _
    | none => exact .choose (.fail rfl) (.pure _)
  | host definition arguments =>
    dsimp only
    cases (context.environment.libraries.findType? definition).bind (·.constant? name) with
    | some constant =>
      dsimp only
      cases Constant.ofValue? constant.value with
      | some value => exact .pure _
      | none => exact .fail rfl
    | none => exact .choose (.pure _) (.choose (.fail rfl) (.choose (.pure _) (.fail rfl)))

omit reorders in
theorem denoteInstance_keeps (object : TypedExpr) (name : String) (span : Span) :
    Keeps context classes (denoteInstance object name span) := by
  rw [denoteInstance]
  split
  · exact .fail rfl
  · exact .fail rfl
  · exact .pure _
  · refine .environment ?_
    have sameField : fieldOf? (context.withClasses classes).environment = fieldOf? context.environment := rfl
    rw [sameField]
    split
    · exact .pure _
    · split
      · exact .pure _
      · exact .choose (.fail rfl) (.pure _)

theorem denoteMember_keeps (base : Referent) (name : String) (span : Span) :
    Keeps context classes (denoteMember base name span) := by
  cases base with
  | space space =>
    refine .environment ?_
    rw [BodyContext.environment_withClasses, Environment.findMember?_withClasses reorders]
    cases context.environment.findMember? (.space space) name with
    | some meaning =>
      dsimp only
      rw [ofMeaning_withClasses reorders]
      exact .pure _
    | none => exact .fail rfl
  | methods label => exact .fail rfl
  | type symbol shown => exact denoteStatic_keeps reorders symbol shown name span
  | value object => exact denoteInstance_keeps object name span

/-! ### Calls -/

theorem calleeOfName_keeps (name : String) (span : Span) : Keeps context classes (calleeOfName name span) := by
  rw [calleeOfName]
  refine .readBind (.lookup? fun found => .choose (.fail rfl) ?_)
  rw [methodScope?_withClasses reorders]
  cases methodScope? context name with
  | some scope => exact .pure _
  | none =>
    dsimp only
    cases context.environment.findSimple context.owner name <;> exact .fail rfl

omit reorders in
theorem calleeOfMember_keeps (base : Referent) (name : String) (span : Span) :
    Keeps context classes (calleeOfMember base name span) := by
  rw [calleeOfMember]
  refine .readBind ?_
  simp only [BodyContext.environment_withClasses, Environment.libraries_withClasses]
  cases base with
  | space space => exact .fail rfl
  | methods label => exact .fail rfl
  | type symbol shown =>
    cases symbol with
    | compiled owner =>
      have sameMethods : methodsOf (context.withClasses classes) owner name = methodsOf context owner name := rfl
      dsimp only
      rw [sameMethods]
      cases methodsOf context owner name with
      | nil =>
        dsimp only
        split
        · exact .fail rfl
        · exact .fail rfl
      | cons first others => exact .pure _
    | host definition arguments => exact .choose (.choose (.fail rfl) (.fail rfl)) (.pure _)
  | value object =>
    refine .choose (.fail rfl) ?_
    split
    · exact .choose (.fail rfl) (.fail rfl)
    · exact .pure _

theorem resolveCall_keeps (callee : Callee) (arguments : List CheckedArgument) (span : Span) :
    Keeps context classes (resolveCall callee arguments span) := by
  have typed (candidate : Candidate) (node : List TypedArgument → TypedNode) : Keeps context classes (do
      let converted ← ofExcept (coerceArguments arguments candidate.parameters)
      return TypedExpr.mk (node converted) candidate.result span) :=
    (Follows.ofExcept (coerceArguments_kept arguments candidate.parameters)).bind fun passed => .pure _
  rw [resolveCall]
  split
  · exact .throw (Candidate.mismatch_isError ..)
  · exact .fail rfl
  · next candidate _ _ =>
    refine .readBind ?_
    simp only [accessible_withClasses reorders]
    cases candidate.target with
    | compiled method => exact .choose (.fail rfl) (typed candidate _)
    | host function => exact typed candidate _
    | builtin member => exact typed candidate _

theorem create_keeps (type : TypeName) (count : Nat) (span : Span) :
    Keeps context classes (create type count span) := by
  rw [create]
  refine .readBind ?_
  simp only [BodyContext.environment_withClasses, BodyContext.owner_withClasses, Environment.libraries_withClasses]
  refine (Follows.ofExcept (Environment.resolveSymbol_kept reorders context.owner type)).bind fun symbol => ?_
  rw [Environment.symbolType_withClasses reorders]
  have finish : Keeps context classes (do
      created (← ofExcept (context.environment.symbolType .creation type.span symbol)) count span) :=
    (Follows.ofExcept (Environment.symbolType_kept .creation type.span symbol)).bind fun target =>
      created_keeps target count span
  cases symbol with
  | host definition arguments => exact .choose (.fail rfl) finish
  | compiled index =>
    have sameTest := Environment.any_class?_withClasses reorders (·.modifiers.isStatic) (fun _ _ => rfl) index
    simp only [sameTest]
    exact .choose (.fail rfl) finish

/-! ### Expressions -/

omit reorders in
/-- A value that is asked for and used. -/
theorem Keeps.valueBind {α : Type} {source : Expr} {rest : TypedExpr → Check α}
    (denotes : Keeps context classes (denote source)) (tail : ∀ value : TypedExpr, Keeps context classes (rest value)) :
    Keeps context classes (denote source >>= fun referent => asValue referent source.span >>= rest) :=
  denotes.bind fun referent => (asValue_keeps referent source.span).bind tail

omit reorders in
/-- A step that gives a value, as what an expression denotes. -/
theorem Keeps.given {step : Check TypedExpr} (inner : Keeps context classes step) :
    Keeps context classes (do return Referent.value (← step)) := inner.bind fun _ => .pure _

end

mutual

theorem denote_keeps (reorders : ClassInfo.ReorderAll context.environment.classes classes) (source : Expr) :
    Keeps context classes (denote source) := by
  match source with
  | .int _ _ | .long _ _ | .double _ _ | .text _ _ | .bool _ _ | .null _ | .basicType _ _ =>
    rw [denote]
    exact .pure _
  | .name span name =>
    rw [denote]
    exact denoteName_keeps reorders name span
  | .member span object name =>
    rw [denote]
    exact (denote_keeps reorders object).bind fun base => denoteMember_keeps reorders base name span
  | .paren _ inner =>
    rw [denote]
    exact Keeps.valueBind (denote_keeps reorders inner) fun value => .pure _
  | .call span callee arguments =>
    rw [denote]
    refine (denoteCallee_keeps reorders callee).bind fun callee =>
      (checkArguments_keeps reorders arguments).bind fun passed => ?_
    exact Keeps.given (resolveCall_keeps reorders callee passed span)
  | .create span type arguments =>
    rw [denote]
    exact Keeps.given (create_keeps reorders type arguments.length span)
  | .assign span operator target value =>
    rw [denote]
    refine (placeOf_keeps target.core (value_keeps reorders target) _ _).bind fun (place, type) => ?_
    refine Keeps.valueBind (denote_keeps reorders value) fun value => ?_
    cases operator with
    | none => exact Keeps.given (assignPlain_keeps place type value span)
    | some operator => exact Keeps.given (assignUpdate_keeps operator place type value span)
  | .binary span operator left right =>
    rw [denote]
    refine Keeps.valueBind (denote_keeps reorders left) fun left =>
      Keeps.valueBind (denote_keeps reorders right) fun right => ?_
    exact Keeps.given (binary_keeps operator left right span)
  | .unary span operator operand =>
    rw [denote]
    refine .choose (.pure _) (Keeps.valueBind (denote_keeps reorders operand) fun value => ?_)
    exact Keeps.given (unary_keeps operator value span)
  | .step span isIncrement isFront target =>
    rw [denote]
    refine (placeOf_keeps target.core (value_keeps reorders target) _ _).bind fun (place, type) => ?_
    exact .choose (.fail rfl) (.pure _)
  | .conditional span condition thenValue elseValue =>
    rw [denote]
    refine Keeps.valueBind (denote_keeps reorders condition) fun condition =>
      (coerce_keeps condition .bool).bind fun condition => ?_
    refine Keeps.valueBind (denote_keeps reorders thenValue) fun thenValue =>
      Keeps.valueBind (denote_keeps reorders elseValue) fun elseValue => ?_
    exact Keeps.given (conditional_keeps condition thenValue elseValue span)
  | .cast span type operand =>
    rw [denote]
    refine .readBind ((Follows.ofExcept (Environment.resolveType_kept reorders context.owner .cast type)).bind
      fun target => Keeps.valueBind (denote_keeps reorders operand) fun value => ?_)
    exact Keeps.given (cast_keeps target value span)

/-- An expression where a value is asked for. -/
theorem value_keeps (reorders : ClassInfo.ReorderAll context.environment.classes classes) (source : Expr) :
    Keeps context classes (do asValue (← denote source) source.span) :=
  (denote_keeps reorders source).bind fun referent => asValue_keeps referent source.span

theorem denoteCallee_keeps (reorders : ClassInfo.ReorderAll context.environment.classes classes) (source : Expr) :
    Keeps context classes (denoteCallee source) := by
  match source with
  | .paren _ inner =>
    rw [denoteCallee]
    exact denoteCallee_keeps reorders inner
  | .name span name =>
    rw [denoteCallee]
    exact calleeOfName_keeps reorders name span
  | .member span object name =>
    rw [denoteCallee]
    exact (denote_keeps reorders object).bind fun base => calleeOfMember_keeps base name span
  | .int _ _ | .long _ _ | .double _ _ | .text _ _ | .bool _ _ | .null _ | .basicType _ _ | .call _ _ _
  | .create _ _ _ | .assign _ _ _ _ | .binary _ _ _ _ | .unary _ _ _ | .step _ _ _ _ | .conditional _ _ _ _
  | .cast _ _ _ => exact .fail rfl

theorem checkArguments_keeps (reorders : ClassInfo.ReorderAll context.environment.classes classes)
    (arguments : List Argument) : Keeps context classes (checkArguments arguments) := by
  match arguments with
  | [] => exact .pure _
  | .mk span mode value :: rest =>
    rw [checkArguments]
    have others (first : CheckedArgument) : Keeps context classes (do return first :: (← checkArguments rest)) :=
      (checkArguments_keeps reorders rest).bind fun others => .pure _
    refine .choose ?_ ((referenceArgument_keeps span mode value.core (value_keeps reorders value)).bind others)
    exact (value_keeps reorders value).bind fun value => .pureBind (others ⟨mode, value, span⟩)

end

theorem expression_keeps (reorders : ClassInfo.ReorderAll context.environment.classes classes) (source : Expr) :
    Keeps context classes (expression source) := value_keeps reorders source

theorem condition_keeps (reorders : ClassInfo.ReorderAll context.environment.classes classes) (source : Expr) :
    Keeps context classes (condition source) :=
  (expression_keeps reorders source).bind fun value => coerce_keeps value .bool

end Check

end Snippet
