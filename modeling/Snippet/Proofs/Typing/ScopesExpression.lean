import Snippet.Proofs.Typing.Scopes
import Snippet.Proofs.Typing.Whole

/-!
The slots in typed expressions. Main statement: what an expression denotes uses only slots of names that are visible
where it stands, whatever is found in it, and checking it leaves slots and scopes as they are.
-/

namespace Snippet

/-! ### The slots of a tree -/

/-- The slot that a place is. -/
def Place.slot? : Place → Option Nat
  | .slot index => some index
  | .field _ _ => none

/-- The slot that a node reads or writes itself. -/
def TypedNode.slot? : TypedNode → Option Nat
  | .slot index => some index
  | .assign place _ | .update place _ _ | .step place _ _ => place.slot?
  | _ => none

/-- Whether the slot that a node reads or writes itself is allowed. -/
def TypedNode.SlotIn (allowed : Nat → Prop) (node : TypedNode) (_ : Ty) : Prop :=
  ∀ index ∈ node.slot?, allowed index

/-- Whether only allowed slots occur in an expression. -/
def TypedExpr.UsesOnly (allowed : Nat → Prop) (value : TypedExpr) : Prop := value.Every (TypedNode.SlotIn allowed)

/-- Whether only allowed slots occur in a node. -/
def TypedNode.UsesOnly (allowed : Nat → Prop) (node : TypedNode) : Prop :=
  (∀ index ∈ node.slot?, allowed index) ∧ node.Every (TypedNode.SlotIn allowed)

/-- Whether only allowed slots occur in a place. -/
def Place.UsesOnly (allowed : Nat → Prop) (place : Place) : Prop :=
  (∀ index ∈ place.slot?, allowed index) ∧ place.Every (TypedNode.SlotIn allowed)

/-- Whether only allowed slots occur in a statement. -/
def TypedStmt.UsesOnly (allowed : Nat → Prop) (statement : TypedStmt) : Prop :=
  statement.Every (·.UsesOnly allowed) (·.UsesOnly allowed)

/-- Whether only allowed slots occur in the value that is meant, if it is one. -/
def Referent.UsesOnly (allowed : Nat → Prop) : Referent → Prop
  | .value denoted => denoted.UsesOnly allowed
  | .type _ _ | .space _ | .methods _ => True

/-- Whether only allowed slots occur in what a member is called on. -/
def Callee.UsesOnly (allowed : Nat → Prop) (callee : Callee) : Prop :=
  ∀ value ∈ callee.receiver, value.UsesOnly allowed

namespace TypedExpr

variable {allowed : Nat → Prop} {value : TypedExpr}

theorem UsesOnly.node (uses : value.UsesOnly allowed) : value.node.UsesOnly allowed := by
  cases value
  exact uses

/-- A node that is no slot uses those of the expressions in it. -/
theorem usesOnly_of_inner {node : TypedNode} {type : Ty} {span : Span} (noSlot : node.slot? = none)
    (inner : node.Every (TypedNode.SlotIn allowed)) : (mk node type span).UsesOnly allowed :=
  ⟨fun index isSlot => by simp [noSlot] at isSlot, inner⟩

theorem usesOnly_slot {index : Nat} {type : Ty} {span : Span} (isAllowed : allowed index) :
    (mk (.slot index) type span).UsesOnly allowed := by
  refine ⟨?_, trivial⟩
  rintro _ ⟨⟩
  exact isAllowed

theorem usesOnly_constant (constant : Constant) (type : Ty) (span : Span) :
    (mk (.const constant) type span).UsesOnly allowed := usesOnly_of_inner rfl trivial

theorem UsesOnly.coerced (uses : value.UsesOnly allowed) (coercion : Coercion) (target : Ty) :
    (value.coerced coercion target).UsesOnly allowed := by
  unfold TypedExpr.coerced
  split
  · exact uses
  · exact uses.node
  · dsimp only
    split
    · split
      · exact usesOnly_constant ..
      · exact usesOnly_of_inner rfl uses
    · exact usesOnly_of_inner rfl uses

theorem coerce_usesOnly (value : TypedExpr) (target : Ty) :
    Resolves (fun used => ∀ allowed, value.UsesOnly allowed → used.UsesOnly allowed) (value.coerce target) :=
  resolves_coerce fun coercion _ _ uses => uses.coerced coercion target

end TypedExpr

namespace Check

variable {context : BodyContext} {allowed : Nat → Prop}

/-! ### Values -/

theorem asValue_balances (referent : Referent) (span : Span) :
    Balances context [] (asValue referent span) fun allowed value =>
      referent.UsesOnly allowed → value.UsesOnly allowed := by
  cases referent with
  | value value => exact .pure fun _ uses => uses
  | type | space | methods => exact .fail

theorem coerce_balances (value : TypedExpr) (target : Ty) :
    Balances context [] (ofExcept (value.coerce target)) fun allowed used =>
      value.UsesOnly allowed → used.UsesOnly allowed :=
  .ofResolves fun allowed => (value.coerce_usesOnly target).mono fun _ converts => converts allowed

theorem convertOperand_balances (type? : Option Ty) (operand : TypedExpr) :
    Balances context [] (convertOperand type? operand) fun allowed used =>
      operand.UsesOnly allowed → used.UsesOnly allowed := by
  cases type? with
  | some type => exact coerce_balances operand type
  | none => exact .pure fun _ => id

theorem assignPlain_balances (place : Place) (type : Ty) (value : TypedExpr) (span : Span) :
    Balances context [] (assignPlain place type value span) fun allowed assigned =>
      place.UsesOnly allowed → value.UsesOnly allowed → assigned.UsesOnly allowed := by
  rw [assignPlain]
  refine (coerce_balances value type).quietBind fun converted => ?_
  have assigned : Balances context [] (Pure.pure (TypedExpr.mk (.assign place converted) type span))
      fun allowed assigned => (value.UsesOnly allowed → converted.UsesOnly allowed) →
        place.UsesOnly allowed → value.UsesOnly allowed → assigned.UsesOnly allowed :=
    .pure fun _ converts isPlace uses => ⟨isPlace.1, isPlace.2, converts uses⟩
  cases place with
  | slot index => exact (Balances.modifyUsage index _).quietThen fun _ => assigned
  | field object name => exact assigned

theorem assignUpdate_balances (operator : BinaryOperator) (place : Place) (type : Ty) (value : TypedExpr)
    (span : Span) :
    Balances context [] (assignUpdate operator place type value span) fun allowed assigned =>
      place.UsesOnly allowed → value.UsesOnly allowed → assigned.UsesOnly allowed := by
  rw [assignUpdate]
  refine .choose (.pure fun _ _ _ => TypedExpr.usesOnly_constant ..) ?_
  split
  · exact .fail
  · next operators _ =>
    have updated : Balances context [] (do
        return TypedExpr.mk (.update place operators.operation (← convertOperand operators.operands value)) type span)
        fun allowed assigned => place.UsesOnly allowed → value.UsesOnly allowed → assigned.UsesOnly allowed :=
      (convertOperand_balances operators.operands value).quietBind fun converted =>
        .pure fun _ converts isPlace uses => ⟨isPlace.1, isPlace.2, converts uses⟩
    split
    · exact updated
    · exact updated
    · exact .fail

/-! ### Operators -/

theorem logical_usesOnly {left right : TypedExpr} (isLeft : left.UsesOnly allowed) (isRight : right.UsesOnly allowed)
    (isAnd : Bool) (span : Span) : (logical isAnd left right span).UsesOnly allowed := by
  unfold logical
  split
  · exact TypedExpr.usesOnly_constant ..
  · exact TypedExpr.usesOnly_of_inner rfl ⟨isLeft, isRight⟩

theorem folded_balances (operation : Operation) (type : Ty) (left right : TypedExpr) (span : Span) :
    Balances context [] (folded operation type left right span) fun allowed value =>
      left.UsesOnly allowed → right.UsesOnly allowed → value.UsesOnly allowed := by
  rw [folded]
  have unfolded : Balances context [] (Pure.pure (TypedExpr.mk (.binary operation left right) type span))
      fun allowed value => left.UsesOnly allowed → right.UsesOnly allowed → value.UsesOnly allowed :=
    .pure fun _ isLeft isRight => TypedExpr.usesOnly_of_inner rfl ⟨isLeft, isRight⟩
  split
  · split
    · exact .pure fun _ _ _ => TypedExpr.usesOnly_constant ..
    · exact unfolded
    · exact .fail
  · exact unfolded

theorem binary_balances (operator : BinaryOperator) (left right : TypedExpr) (span : Span) :
    Balances context [] (binary operator left right span) fun allowed value =>
      left.UsesOnly allowed → right.UsesOnly allowed → value.UsesOnly allowed := by
  rw [binary]
  refine .choose (.pure fun _ _ _ => TypedExpr.usesOnly_constant ..) (.choose (.choose .fail ?_) ?_)
  · exact .pure fun _ isLeft isRight => logical_usesOnly isLeft isRight _ span
  · split
    · exact .fail
    · next operators _ =>
      refine (convertOperand_balances operators.operands left).quietBind fun first =>
        (convertOperand_balances operators.operands right).quietBind fun second =>
        (folded_balances _ _ first second span).mono (.refl _) ?_
      exact fun _ _ folds convertsRight convertsLeft isLeft isRight =>
        folds (convertsLeft isLeft) (convertsRight isRight)

theorem negate_balances (value : TypedExpr) (span : Span) :
    Balances context [] (negate value span) fun allowed result => value.UsesOnly allowed → result.UsesOnly allowed := by
  rw [negate]
  have unfolded : Balances context [] (Pure.pure (TypedExpr.mk (.negate value) value.type span))
      fun allowed result => value.UsesOnly allowed → result.UsesOnly allowed :=
    .pure fun _ uses => TypedExpr.usesOnly_of_inner rfl uses
  split
  · exact unfolded
  · split
    · exact .pure fun _ _ => TypedExpr.usesOnly_constant ..
    · exact unfolded
    · exact .fail

theorem unary_balances (operator : UnaryOperator) (value : TypedExpr) (span : Span) :
    Balances context [] (unary operator value span) fun allowed result =>
      value.UsesOnly allowed → result.UsesOnly allowed := by
  rw [unary]
  refine .choose (.pure fun _ => id) ?_
  cases operator with
  | not =>
    refine .choose .fail ?_
    split
    · exact .pure fun _ _ => TypedExpr.usesOnly_constant ..
    · exact .pure fun _ uses => TypedExpr.usesOnly_of_inner rfl uses
  | plus => exact .choose (.pure fun _ => id) .fail
  | negate => exact .choose (negate_balances value span) .fail

theorem conditional_balances (condition thenValue elseValue : TypedExpr) (span : Span) :
    Balances context [] (conditional condition thenValue elseValue span) fun allowed value =>
      condition.UsesOnly allowed → thenValue.UsesOnly allowed → elseValue.UsesOnly allowed →
        value.UsesOnly allowed := by
  rw [conditional]
  refine .choose (.pure fun _ _ _ _ => TypedExpr.usesOnly_constant ..) ?_
  split
  · exact .fail
  · next type _ =>
    exact (coerce_balances thenValue type).quietBind fun first =>
      (coerce_balances elseValue type).quietBind fun second =>
      .pure fun _ convertsElse convertsThen isCondition isThen isElse =>
        TypedExpr.usesOnly_of_inner rfl ⟨isCondition, convertsThen isThen, convertsElse isElse⟩

theorem cast_balances (target : Ty) (value : TypedExpr) (span : Span) :
    Balances context [] (cast target value span) fun allowed result =>
      value.UsesOnly allowed → result.UsesOnly allowed := by
  rw [cast]
  split
  · next coercion _ => exact .pure fun _ uses => (uses.coerced coercion target).node
  · exact .fail

theorem created_balances (target : Ty) (count : Nat) (span : Span) :
    Balances context [] (created target count span) fun allowed value => value.UsesOnly allowed := by
  unfold created
  cases target with
  | list | data | bool | int | long | double =>
    exact .choose .fail (.pure fun _ => TypedExpr.usesOnly_of_inner rfl trivial)
  | _ => exact .choose .fail .fail

/-! ### Names -/

theorem ofMeaning_usesOnly (environment : Environment) (meaning : Meaning) :
    (ofMeaning environment meaning).UsesOnly allowed := by
  cases meaning <;> trivial

theorem denoteName_balances (name : String) (span : Span) :
    Balances context [] (denoteName name span) fun allowed referent => referent.UsesOnly allowed := by
  rw [denoteName]
  refine .readBind ((Balances.lookup? name).quietBind fun found => ?_)
  cases found with
  | none =>
    dsimp only
    split
    · exact .pure fun _ _ => trivial
    · split
      · exact .pure fun _ _ => ofMeaning_usesOnly ..
      · exact .fail
      · exact .fail
  | some index =>
    exact (Balances.modifyUsage index _).quietThen fun _ => (Balances.slot index).quietThen fun slot =>
      .pure fun _ isAllowed => TypedExpr.usesOnly_slot (isAllowed index rfl)

theorem denoteStatic_balances (symbol : TypeSymbol) (shown name : String) (span : Span) :
    Balances context [] (denoteStatic symbol shown name span) fun allowed referent => referent.UsesOnly allowed := by
  rw [denoteStatic]
  refine .readBind ?_
  cases symbol with
  | compiled owner =>
    dsimp only
    split
    · exact .pure fun _ => trivial
    · exact .choose .fail (.pure fun _ => trivial)
  | host definition arguments =>
    dsimp only
    split
    · split
      · exact .pure fun _ => TypedExpr.usesOnly_constant ..
      · exact .fail
    · exact .choose (.pure fun _ => trivial) (.choose .fail (.choose (.pure fun _ => trivial) .fail))

theorem denoteInstance_balances (object : TypedExpr) (name : String) (span : Span) :
    Balances context [] (denoteInstance object name span) fun allowed referent =>
      object.UsesOnly allowed → referent.UsesOnly allowed := by
  rw [denoteInstance]
  split
  · exact .fail
  · exact .fail
  · exact .pure fun _ _ => TypedExpr.usesOnly_constant ..
  · refine .environment ?_
    split
    · exact .pure fun _ uses => TypedExpr.usesOnly_of_inner rfl uses
    · split
      · exact .pure fun _ uses => TypedExpr.usesOnly_of_inner rfl ⟨uses, trivial⟩
      · exact .choose .fail (.pure fun _ _ => trivial)

theorem denoteMember_balances (base : Referent) (name : String) (span : Span) :
    Balances context [] (denoteMember base name span) fun allowed referent =>
      base.UsesOnly allowed → referent.UsesOnly allowed := by
  cases base with
  | space space =>
    refine .environment ?_
    split
    · exact .pure fun _ _ => ofMeaning_usesOnly ..
    · exact .fail
  | methods label => exact .fail
  | type symbol shown =>
    exact (denoteStatic_balances symbol shown name span).mono (.refl _) fun _ _ uses _ => uses
  | value object => exact denoteInstance_balances object name span

/-! ### Calls -/

theorem calleeOfName_balances (name : String) (span : Span) :
    Balances context [] (calleeOfName name span) fun allowed callee => callee.UsesOnly allowed := by
  rw [calleeOfName]
  refine .readBind ((Balances.lookup? name).quietBind fun found => .choose .fail ?_)
  dsimp only
  split
  · exact .pure fun _ _ => nofun
  · split
    · exact .fail
    · exact .fail

theorem calleeOfMember_balances (base : Referent) (name : String) (span : Span) :
    Balances context [] (calleeOfMember base name span) fun allowed callee =>
      base.UsesOnly allowed → callee.UsesOnly allowed := by
  rw [calleeOfMember]
  refine .readBind ?_
  cases base with
  | space space => exact .fail
  | methods label => exact .fail
  | type symbol shown =>
    cases symbol with
    | compiled owner =>
      dsimp only
      split
      · exact .choose .fail .fail
      · exact .pure fun _ _ => nofun
    | host definition arguments => exact .choose (.choose .fail .fail) (.pure fun _ _ => nofun)
  | value object =>
    refine .choose .fail ?_
    split
    · exact .choose .fail .fail
    · refine .pure fun _ uses => ?_
      rintro _ ⟨⟩
      exact uses

theorem coerceArguments_usesOnly (arguments : List CheckedArgument) (parameters : List (PassMode × Ty)) :
    Resolves (fun passed => (∀ argument ∈ arguments, argument.value.UsesOnly allowed) →
      ∀ argument ∈ passed, argument.value.UsesOnly allowed) (coerceArguments arguments parameters) := by
  rw [coerceArguments]
  induction arguments generalizing parameters with
  | nil => exact fun _ => nofun
  | cons argument arguments inductionHypothesis =>
    obtain _ | ⟨⟨mode, type⟩, parameters⟩ := parameters
    · exact fun _ => nofun
    · rw [List.zip_cons_cons, List.mapM_cons]
      have first : Resolves (fun passed => argument.value.UsesOnly allowed → passed.value.UsesOnly allowed) (do
          let value ← if mode.writesBack then pure argument.value else argument.value.coerce type
          return TypedArgument.mk mode value) := by
        split
        · exact id
        · exact (argument.value.coerce_usesOnly type).bind fun _ converts => converts allowed
      refine first.bind fun passed isPassed => (inductionHypothesis parameters).bind fun others areOthers => ?_
      intro areArguments
      rw [List.forall_mem_cons] at areArguments
      exact List.forall_mem_cons.2 ⟨isPassed areArguments.1, areOthers areArguments.2⟩

theorem resolveCall_balances (callee : Callee) (arguments : List CheckedArgument) (span : Span) :
    Balances context [] (resolveCall callee arguments span) fun allowed value =>
      callee.UsesOnly allowed → (∀ argument ∈ arguments, argument.value.UsesOnly allowed) → value.UsesOnly allowed := by
  rw [resolveCall]
  split
  · exact .throw
  · exact .fail
  · next candidate _ _ =>
    have typed (node : List TypedArgument → TypedNode) (isNode : ∀ allowed : Nat → Prop, ∀ passed : List TypedArgument,
        callee.UsesOnly allowed → (∀ argument ∈ passed, argument.value.UsesOnly allowed) →
          (node passed).UsesOnly allowed) : Balances context [] (do
          let converted ← ofExcept (coerceArguments arguments candidate.parameters)
          return TypedExpr.mk (node converted) candidate.result span) fun allowed value => callee.UsesOnly allowed →
            (∀ argument ∈ arguments, argument.value.UsesOnly allowed) → value.UsesOnly allowed :=
      (Balances.ofResolves fun _ => coerceArguments_usesOnly arguments candidate.parameters).quietBind fun passed =>
        .pure fun allowed converts isCallee areArguments => isNode allowed passed isCallee (converts areArguments)
    have areValues {allowed : Nat → Prop} {passed : List TypedArgument}
        (arePassed : ∀ argument ∈ passed, argument.value.UsesOnly allowed) :
        TypedExpr.EveryOfAll (TypedNode.SlotIn allowed) (argumentValues passed) :=
      TypedExpr.everyOfAll_iff.2 (List.forall_mem_map.2 arePassed)
    refine .readBind ?_
    split
    · exact .choose .fail (typed _ fun _ passed _ arePassed => ⟨nofun, TypedArgument.everyOfAll_iff.2 arePassed⟩)
    · exact typed _ fun _ passed _ arePassed => ⟨nofun, areValues arePassed⟩
    · refine typed _ fun allowed passed isCallee arePassed => ⟨nofun, ?_, areValues arePassed⟩
      cases isReceiver : callee.receiver with
      | none => exact TypedExpr.usesOnly_constant ..
      | some value => exact isCallee value isReceiver

/-! ### Places and creation -/

theorem refusedReference_balances (mode : PassMode) (value : TypedExpr) (place : Span)
    {good : (Nat → Prop) → CheckedArgument → Prop} :
    Balances context [] (match mode, value.node with
      | .input, _ => fail .notReferable place
      | _, .field _ _ => fail .fieldByReference place
      | _, _ => fail .notAVariable place) good := by
  cases mode <;> cases value.node <;> exact .fail

theorem referenceArgument_balances (span : Span) (mode : PassMode) (target : Expr) {check : Check TypedExpr}
    (checks : Balances context [] check fun allowed value => value.UsesOnly allowed) :
    Balances context [] (referenceArgument span mode target check) fun allowed argument =>
      argument.value.UsesOnly allowed := by
  unfold referenceArgument
  cases target with
  | name place name =>
    refine (Balances.lookup? name).quietBind fun found => ?_
    cases found with
    | none => exact checks.quietBind fun value => refusedReference_balances mode value place
    | some index =>
      refine (Balances.slot index).quietThen fun slot => .choose .fail ?_
      exact (Balances.modifyUsage index _).quietThen fun _ =>
        .pure fun _ isAllowed => TypedExpr.usesOnly_slot (isAllowed index rfl)
  | _ => exact checks.quietBind fun value => refusedReference_balances mode value _

theorem placeOfValue_balances (value : TypedExpr) (isStep : Bool) (place : Span) :
    Balances context [] (match value.node with
      | .field object name => return (.field object name, value.type)
      | .builtin member receiver _ => fail (.readonlyProperty receiver.type.shown member.name) place
      | _ => fail (if isStep then .badIncrementTarget else .badAssignmentTarget) place)
      fun allowed (found : Place × Ty) => value.UsesOnly allowed → found.1.UsesOnly allowed := by
  cases isField : value.node with
  | field object name =>
    refine .pure fun _ uses => ⟨nofun, ?_⟩
    have inner := uses.node
    rw [isField] at inner
    exact inner.2
  | _ => exact .fail

theorem placeOf_balances (target : Expr) {check : Check TypedExpr}
    (checks : Balances context [] check fun allowed value => value.UsesOnly allowed) (reads isStep : Bool) :
    Balances context [] (placeOf target check reads isStep) fun allowed found => found.1.UsesOnly allowed := by
  unfold placeOf
  cases target with
  | name place name =>
    refine (Balances.lookup? name).quietBind fun found => ?_
    cases found with
    | none =>
      exact checks.quietBind fun value => (placeOfValue_balances value isStep place).mono (.refl _)
        fun _ _ uses isValue _ => uses isValue
    | some index =>
      have isPlace {allowed : Nat → Prop} (isAllowed : ∀ other ∈ some index, allowed other) :
          (Place.slot index).UsesOnly allowed := ⟨isAllowed, trivial⟩
      refine (Balances.slot index).quietThen fun slot => .choose .fail (.choose ?_ (.pure fun _ => isPlace))
      exact (Balances.modifyUsage index _).quietThen fun _ => .pure fun _ => isPlace
  | _ => exact checks.quietBind fun value => placeOfValue_balances value isStep _

theorem create_balances (type : TypeName) (count : Nat) (span : Span) :
    Balances context [] (create type count span) fun allowed value => value.UsesOnly allowed := by
  rw [create]
  refine .readBind (Balances.ofExcept.quietThen fun symbol => ?_)
  have finish : Balances context [] (do
      created (← ofExcept (context.environment.symbolType .creation type.span symbol)) count span)
      fun allowed value => value.UsesOnly allowed :=
    Balances.ofExcept.quietThen fun target => created_balances target count span
  cases symbol with
  | host definition arguments => exact .choose .fail finish
  | compiled index => exact .choose .fail finish

/-! ### Expressions -/

/-- A value that is asked for and used. -/
theorem Balances.valueBind {α : Type} {source : Expr} {rest : TypedExpr → Check α} {good : (Nat → Prop) → α → Prop}
    (denotes : Balances context [] (denote source) fun allowed referent => referent.UsesOnly allowed)
    (tail : ∀ value : TypedExpr, Balances context [] (rest value) fun allowed result =>
      value.UsesOnly allowed → good allowed result) :
    Balances context [] (denote source >>= fun referent => asValue referent source.span >>= rest) good :=
  denotes.quietBind fun referent => (asValue_balances referent source.span).quietBind fun value =>
    (tail value).mono (.refl _) fun _ _ isGood given denoted => isGood (given denoted)

mutual

theorem denote_balances (source : Expr) :
    Balances context [] (denote source) fun allowed referent => referent.UsesOnly allowed := by
  match source with
  | .int _ _ | .long _ _ | .double _ _ | .text _ _ | .bool _ _ | .null _ =>
    rw [denote]
    exact .pure fun _ => TypedExpr.usesOnly_constant ..
  | .basicType _ _ =>
    rw [denote]
    exact .pure fun _ => trivial
  | .name span name =>
    rw [denote]
    exact denoteName_balances name span
  | .member span object name =>
    rw [denote]
    exact (denote_balances object).quietBind fun base => denoteMember_balances base name span
  | .paren _ inner =>
    rw [denote]
    exact Balances.valueBind (denote_balances inner) fun value => .pure fun _ => id
  | .call span callee arguments =>
    rw [denote]
    refine (denoteCallee_balances callee).quietBind fun callee => (checkArguments_balances arguments).quietBind
      fun passed => (resolveCall_balances callee passed span).quietBind fun value => .pure ?_
    exact fun _ calls arePassed isCallee => calls isCallee arePassed
  | .create span type arguments =>
    rw [denote]
    exact (create_balances type arguments.length span).quietBind fun value => .pure fun _ => id
  | .assign span operator target value =>
    rw [denote]
    refine (placeOf_balances target.core (value_balances target) _ _).quietBind fun (place, type) => ?_
    refine Balances.valueBind (denote_balances value) fun value => ?_
    cases operator with
    | none =>
      exact (assignPlain_balances place type value span).quietBind fun assigned =>
        .pure fun _ assigns isValue isPlace => assigns isPlace isValue
    | some operator =>
      exact (assignUpdate_balances operator place type value span).quietBind fun assigned =>
        .pure fun _ assigns isValue isPlace => assigns isPlace isValue
  | .binary span operator left right =>
    rw [denote]
    exact Balances.valueBind (denote_balances left) fun left => Balances.valueBind (denote_balances right) fun right =>
      (binary_balances operator left right span).quietBind fun value =>
        .pure fun _ combines isRight isLeft => combines isLeft isRight
  | .unary span operator operand =>
    rw [denote]
    refine .choose (.pure fun _ => TypedExpr.usesOnly_constant ..) ?_
    exact Balances.valueBind (denote_balances operand) fun value =>
      (unary_balances operator value span).quietBind fun result => .pure fun _ => id
  | .step span isIncrement isFront target =>
    rw [denote]
    refine (placeOf_balances target.core (value_balances target) _ _).quietBind fun (place, type) => ?_
    exact .choose .fail (.pure fun _ isPlace => isPlace)
  | .conditional span condition thenValue elseValue =>
    rw [denote]
    refine Balances.valueBind (denote_balances condition) fun test => (coerce_balances test .bool).quietBind
      fun condition => Balances.valueBind (denote_balances thenValue) fun thenValue =>
      Balances.valueBind (denote_balances elseValue) fun elseValue =>
      (conditional_balances condition thenValue elseValue span).quietBind fun value => .pure ?_
    exact fun _ chooses isElse isThen converts isTest => chooses (converts isTest) isThen isElse
  | .cast span type operand =>
    rw [denote]
    exact .readBind (Balances.ofExcept.quietThen fun target => Balances.valueBind (denote_balances operand) fun value =>
      (cast_balances target value span).quietBind fun result => .pure fun _ => id)

/-- An expression where a value is asked for. -/
theorem value_balances (source : Expr) :
    Balances context [] (do asValue (← denote source) source.span) fun allowed value => value.UsesOnly allowed :=
  (denote_balances source).quietBind fun referent => asValue_balances referent source.span

theorem denoteCallee_balances (source : Expr) :
    Balances context [] (denoteCallee source) fun allowed callee => callee.UsesOnly allowed := by
  match source with
  | .paren _ inner =>
    rw [denoteCallee]
    exact denoteCallee_balances inner
  | .name span name =>
    rw [denoteCallee]
    exact calleeOfName_balances name span
  | .member span object name =>
    rw [denoteCallee]
    exact (denote_balances object).quietBind fun base => calleeOfMember_balances base name span
  | .int _ _ | .long _ _ | .double _ _ | .text _ _ | .bool _ _ | .null _ | .basicType _ _ | .call _ _ _
  | .create _ _ _ | .assign _ _ _ _ | .binary _ _ _ _ | .unary _ _ _ | .step _ _ _ _ | .conditional _ _ _ _
  | .cast _ _ _ => exact .fail

theorem checkArguments_balances (arguments : List Argument) :
    Balances context [] (checkArguments arguments) fun allowed passed =>
      ∀ argument ∈ passed, argument.value.UsesOnly allowed := by
  match arguments with
  | [] => exact .pure fun _ => nofun
  | .mk span mode value :: rest =>
    rw [checkArguments]
    have others (first : CheckedArgument) : Balances context [] (do return first :: (← checkArguments rest))
        fun allowed passed => first.value.UsesOnly allowed → ∀ argument ∈ passed, argument.value.UsesOnly allowed :=
      (checkArguments_balances rest).quietBind fun others =>
        .pure fun _ areOthers isFirst => List.forall_mem_cons.2 ⟨isFirst, areOthers⟩
    refine .choose ?_ ?_
    · exact (value_balances value).quietBind fun value => others ⟨mode, value, span⟩
    · exact (referenceArgument_balances span mode value.core (value_balances value)).quietBind others

end

theorem expression_balances (source : Expr) :
    Balances context [] (expression source) fun allowed value => value.UsesOnly allowed := value_balances source

theorem condition_balances (source : Expr) :
    Balances context [] (condition source) fun allowed value => value.UsesOnly allowed :=
  (expression_balances source).quietBind fun value => coerce_balances value .bool

end Check

end Snippet
