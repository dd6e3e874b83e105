import Snippet.Proofs.Typing.Member

/-!
Expressions: what the checker gives for an expression keeps its promises. Main statement:
`Check.expression_checked`.
-/

namespace Snippet.Check

variable {typing : Typing} {context : BodyContext} {before : BodyState} {known : Prop}

/-! ### Names -/

theorem asValue_checked (referent : Referent) (span : Span) :
    Yields typing context before (referent.Good typing) (asValue referent span) (TypedExpr.Checked typing) := by
  cases referent with
  | value value => exact .pure id
  | _ => exact .fail rfl

theorem ofMeaning_good (environment : Environment) (meaning : Meaning) :
    (ofMeaning environment meaning).Good typing := by
  cases meaning <;> trivial

/-- The methods of a name stand at their indices. -/
theorem getElem?_of_mem_methodsOf {owner : Nat} {name : String} {method : Nat × MethodHeader}
    (member : method ∈ methodsOf context owner name) : context.methods.toList[method.1]? = some method.2 := by
  obtain ⟨⟨header, index⟩, inFilter, rfl⟩ := List.mem_map.1 member
  exact List.mem_zipIdx_iff_getElem?.1 (List.mem_filter.1 inFilter).1

theorem methodScope?_eq_some {name : String} {owner : Nat} {methods : List (Nat × MethodHeader)}
    (found : methodScope? context name = some (owner, methods)) : methods = methodsOf context owner name := by
  obtain ⟨other, -, isScope⟩ := List.exists_of_findSome?_eq_some found
  split at isScope
  · cases isScope
  · cases isScope
    rfl

/-- What a simple name denotes. -/
theorem denoteName_good (name : String) (span : Span) :
    Yields typing context before known (denoteName name span) (Referent.Good typing) := by
  unfold denoteName
  refine .read_bind (.lookup_bind ?_ fun index inside => ?_)
  · dsimp only
    split
    · exact .pure fun _ => trivial
    · split
      · exact .pure fun _ => ofMeaning_good ..
      · exact .fail rfl
      · exact .fail rfl
  · refine .bind (.modifyUsage index _) fun _ after grows => ?_
    refine .slot_bind (Nat.lt_of_lt_of_le inside grows.size_le) fun slot => .pure fun holds => ?_
    exact slot_checked holds.2.1 holds.2.2 span

/-- A constant of a library. -/
theorem hostConstant_checked {definition name : String} {constant : HostConstant} {value : Constant}
    (found : (typing.libraries.findType? definition).bind (·.constant? name) = some constant)
    (isValue : Constant.ofValue? constant.value = some value) (span : Span) :
    (TypedExpr.mk (.const value) (Ty.ofDesc constant.type) span).Checked typing := by
  obtain ⟨host, isHost, isConstant⟩ := Option.bind_eq_some_iff.1 found
  have closed (strict : typing.Strict) :=
    (strict.types definition host isHost).constants constant (List.mem_of_find?_eq_some isConstant)
  have stores : (Ty.ofDesc constant.type).Stores typing :=
    ⟨Ty.ofDesc_holdsValues _, fun strict => (closed strict).1.1⟩
  exact TypedExpr.checked_const stores.sits stores.ne_void fun strict =>
    Ty.admits_of_accepts strict (closed strict).1 (closed strict).2 isValue

/-- What a name denotes behind the name of a type. -/
theorem denoteStatic_good (describes : context.Describes typing) (symbol : TypeSymbol) (shown name : String)
    (span : Span) :
    Yields typing context before known (denoteStatic symbol shown name span) (Referent.Good typing) := by
  unfold denoteStatic
  refine .read_bind ?_
  cases symbol with
  | compiled owner =>
    dsimp only
    split
    · exact .pure fun _ => trivial
    · split
      · exact .fail rfl
      · exact .pure fun _ => trivial
  | host definition arguments =>
    dsimp only
    split
    · next constant found =>
      split
      · next value isValue =>
        rw [← describes.libraries] at found
        exact .pure fun _ => hostConstant_checked found isValue span
      · exact .fail rfl
    · split
      · exact .pure fun _ => trivial
      · split
        · exact .fail rfl
        · split
          · exact .pure fun _ => trivial
          · exact .fail rfl

/-- A field of a checked object. -/
theorem field_checked (describes : context.Describes typing) {object : TypedExpr} {name : String}
    {field : HostField} (found : fieldOf? context.environment object.type name = some field)
    (checked : object.Checked typing) (span : Span) :
    (TypedExpr.mk (.field object name) (Ty.ofDesc field.type) span).Checked typing := by
  have has : typing.libraries.HasField object.type name (Ty.ofDesc field.type) := by
    unfold fieldOf? at found
    split at found
    · next definition isData =>
      obtain ⟨host, isHost, isField⟩ := Option.bind_eq_some_iff.1 found
      rw [← describes.libraries] at isHost
      have isName := LibrarySet.fullName_of_findType? isHost
      exact ⟨host, field, by rw [isData, isName], by rw [isName, isHost], isField, rfl⟩
    · cases found
  have stores : (Ty.ofDesc field.type).Stores typing :=
    ⟨Ty.ofDesc_holdsValues _, fun strict => strict.field_defined has⟩
  refine ⟨TypedExpr.fits_mk ?_, stores.sits⟩
  rw [TypedNode.Fits]
  exact ⟨stores.ne_void, checked.fits, fun _ => ⟨_, has, .refl _⟩⟩

/-- A property of a checked value. -/
theorem property_checked {object : TypedExpr} (checked : object.Checked typing)
    (stores : object.type.Stores typing) {member : BuiltinMember} {name : String}
    (inNamed : member ∈ BuiltinMember.named object.type.owner? name true) (span : Span) :
    (TypedExpr.mk (.builtin member object []) (object.type.slot member.signature.result) span).Checked typing := by
  have meets := Candidate.ofMember_meets checked stores inNamed
  have noParameters := BuiltinMember.named_property inNamed
  have passes : List.Forall₂ (TypedArgument.Passes typing) (Candidate.ofMember object.type member).parameters [] := by
    simp [Candidate.ofMember, noParameters]
  refine ⟨TypedExpr.fits_mk (builtin_fits meets rfl span passes), ?_⟩
  rcases meets.result with isVoid | stores
  · have isVoid : object.type.slot member.signature.result = .void := isVoid
    exact ⟨.inl isVoid, fun _ => .inl isVoid⟩
  · exact stores.sits

/-- What a name denotes behind a checked value. -/
theorem denoteInstance_good (describes : context.Describes typing) (object : TypedExpr) (name : String)
    (span : Span) :
    Yields typing context before (object.Checked typing) (denoteInstance object name span)
      (Referent.Good typing) := by
  unfold denoteInstance
  dsimp only
  split
  · exact .fail rfl
  · exact .fail rfl
  · next isError =>
    exact .pure fun checked => TypedExpr.checked_wrong (fun strict => checked.type.ne_error strict isError) span
  · next notNull hasValue _ =>
    have stores (checked : object.Checked typing) := checked.type.stores hasValue notNull
    refine .environment_bind ?_
    split
    · next field found => exact .pure fun checked => field_checked describes found checked span
    · split
      · next member rest isNamed =>
        have inNamed : member ∈ BuiltinMember.named object.type.owner? name true := by
          rw [isNamed]
          exact List.mem_cons_self ..
        exact .pure fun checked => property_checked checked (stores checked) inNamed span
      · split
        · exact .fail rfl
        · exact .pure fun _ => trivial

/-- What a name denotes behind a dot. -/
theorem denoteMember_good (describes : context.Describes typing) (base : Referent) (name : String) (span : Span) :
    Yields typing context before (base.Good typing) (denoteMember base name span) (Referent.Good typing) := by
  unfold denoteMember
  cases base with
  | space space =>
    refine .environment_bind ?_
    split
    · exact .pure fun _ => ofMeaning_good ..
    · exact .fail rfl
  | methods label => exact .fail rfl
  | type symbol shown => exact denoteStatic_good describes symbol shown name span
  | value object => exact denoteInstance_good describes object name span

/-! ### Callees -/

/-- What a call of a simple name may mean. -/
theorem calleeOfName_meets (describes : context.Describes typing) (name : String) (span : Span) :
    Yields typing context before known (calleeOfName name span) (Callee.Meets typing) := by
  unfold calleeOfName
  refine .read_bind (.lookup_bind ?_ fun index _ => .fail_bind rfl)
  rw [if_neg (by simp)]
  dsimp only
  split
  · next owner methods found =>
    have inContext (method : Nat × MethodHeader) (member : method ∈ methods) :=
      getElem?_of_mem_methodsOf (methodScope?_eq_some found ▸ member)
    exact .pure fun _ => Candidate.compiledCandidates_meet describes inContext
  · split
    · exact .fail rfl
    · exact .fail rfl

/-- What a call of a name behind a dot may mean. -/
theorem calleeOfMember_meets (describes : context.Describes typing) (base : Referent) (name : String)
    (span : Span) :
    Yields typing context before (base.Good typing) (calleeOfMember base name span) (Callee.Meets typing) := by
  unfold calleeOfMember
  refine .read_bind ?_
  cases base with
  | space space => exact .fail rfl
  | methods label => exact .fail rfl
  | type symbol shown =>
    cases symbol with
    | compiled owner =>
      dsimp only
      split
      · split
        · exact .fail rfl
        · exact .fail rfl
      · exact .pure fun _ => Candidate.compiledCandidates_meet describes fun _ => getElem?_of_mem_methodsOf
    | host definition arguments =>
      dsimp only
      split
      · split
        · exact .fail_bind rfl
        · exact .fail_bind rfl
      · refine .pure fun _ candidate inCandidates => ?_
        cases found : context.environment.libraries.findType? definition with
        | none =>
          rw [found] at inCandidates
          exact absurd inCandidates List.not_mem_nil
        | some host =>
          rw [found] at inCandidates
          obtain ⟨function, inOverloads, isCandidate⟩ := List.mem_filterMap.1 inCandidates
          rw [← describes.libraries] at found
          exact Candidate.ofHost?_meets found inOverloads isCandidate
  | value object =>
    dsimp only
    refine .refuse rfl fun isValue => ?_
    simp only [Bool.or_eq_true, beq_iff_eq, not_or] at isValue
    split
    · split
      · exact .fail rfl
      · exact .fail rfl
    · next candidates _ =>
      refine .pure fun checked candidate inCandidates => ?_
      obtain ⟨member, inNamed, rfl⟩ := List.mem_map.1 inCandidates
      have stores := checked.type.stores isValue.2 isValue.1
      exact Candidate.ofMember_meets checked stores inNamed

/-! ### Creation and assignment -/

/-- A created value of a type that can be written down. -/
theorem created_checked (target : Ty) (count : Nat) (span : Span) :
    Yields typing context before
      (target.Named typing ∧ ∀ name, target = .data name → typing.libraries.Creates name)
      (created target count span) (TypedExpr.Checked typing) := by
  unfold created
  refine .refuse rfl fun _ => ?_
  cases target with
  | list element =>
    refine .pure fun holds => ⟨TypedExpr.fits_mk ?_, holds.1.sits⟩
    rw [TypedNode.Fits]
    exact ⟨by simp, fun strict => ⟨element, holds.1.defined strict, rfl, .refl _⟩⟩
  | data name =>
    refine .pure fun holds => ⟨TypedExpr.fits_mk ?_, holds.1.sits⟩
    rw [TypedNode.Fits]
    exact ⟨by simp, holds.2 name rfl, fun _ => .refl _⟩
  | bool | int | long | double =>
    exact .pure fun holds => TypedExpr.checked_const holds.1.sits (by simp) fun strict =>
      (holds.1.defined strict).admits_default
  | _ => exact .fail rfl

/-- The creation of a value. -/
theorem create_checked (describes : context.Describes typing) (type : TypeName) (count : Nat) (span : Span) :
    Yields typing context before known (create type count span) (TypedExpr.Checked typing) := by
  have creates (symbol : TypeSymbol) (after : BodyState) : Yields typing context after
      (known ∧ Environment.IsSettled typing symbol)
      (do created (← ofExcept (context.environment.symbolType .creation type.span symbol)) count span)
      (TypedExpr.Checked typing) :=
    .bind (.ofResolves (Environment.symbolType_creates describes.libraries symbol _ _)) fun target _ _ =>
      .weaken (fun holds => holds.2 holds.1.2) (created_checked target count span)
  unfold create
  refine .read_bind ?_
  refine .bind (.ofResolves (Environment.resolveSymbol_settles describes.libraries context.owner type))
    fun symbol after _ => ?_
  cases symbol with
  | host definition arguments => exact .refuse rfl fun _ => creates _ after
  | compiled index => exact .refuse rfl fun _ => creates _ after

/-- Whether a place exists and shows as one of a type of variables. -/
def IsPlace (typing : Typing) (found : Place × Ty) : Prop :=
  found.1.Shows typing found.2 ∧ found.2.Stores typing

/-- A field that is used as one of a type. -/
theorem isPlace_of_field {value : TypedExpr} {object : TypedExpr} {name : String} (checked : value.Checked typing)
    (isField : value.node = .field object name) : IsPlace typing (.field object name, value.type) := by
  have fits := checked.fits.node
  rw [isField, TypedNode.Fits] at fits
  obtain ⟨hasValue, fitsObject, has⟩ := fits
  have notNull (strict : typing.Strict) : value.type ≠ .null := by
    intro isNull
    obtain ⟨held, hasField, widens⟩ := has strict
    have defined := strict.field_defined hasField
    rw [isNull] at widens
    rcases widens with rfl | ⟨rfl, -⟩ | ⟨isObject, -⟩
    · exact defined
    · exact defined
    · cases isObject
  refine ⟨⟨fitsObject, has⟩, checked.type.holds.resolve_left hasValue, fun strict => ?_⟩
  exact (checked.type.stores hasValue (notNull strict)).defined strict

/-- The place that a target denotes. -/
theorem placeOf_isPlace (target : Expr) {check : Check TypedExpr} (reads isStep : Bool)
    (checks : Yields typing context before known check (TypedExpr.Checked typing)) :
    Yields typing context before known (placeOf target check reads isStep) (IsPlace typing) := by
  unfold placeOf
  refine target_bind ?_ fun index inside nameSpan name isName => ?_
  · cases target <;>
    · refine checks.bind fun value after _ => ?_
      split
      · next object name isField => exact .pure fun holds => isPlace_of_field holds.2 isField
      · exact .fail rfl
      · exact .fail (by cases isStep <;> rfl)
  · subst isName
    refine .slot_bind inside fun slot => .refuse rfl fun notRefused => ?_
    have assignable : slot.mode ≠ some .input := by simpa using notRefused
    have isPlace (found : typing.slots[index]? = some slot) (stores : slot.type.Stores typing) :
        IsPlace typing (.slot index, slot.type) := ⟨⟨slot, found, assignable, rfl⟩, stores⟩
    dsimp only
    split
    · exact .bind (.modifyUsage index _) fun _ _ _ => .pure fun holds => isPlace holds.1.2.1 holds.1.2.2
    · exact .pure fun holds => isPlace holds.2.1 holds.2.2

/-- A plain assignment. -/
theorem assignPlain_checked (place : Place) (type : Ty) (value : TypedExpr) (span : Span) :
    Yields typing context before (IsPlace typing (place, type) ∧ value.Checked typing)
      (assignPlain place type value span) (TypedExpr.Checked typing) := by
  have assigned (found : IsPlace typing (place, type)) {converted : TypedExpr}
      (checked : converted.Checked typing) (isType : typing.Strict → converted.type = type) :
      (TypedExpr.mk (.assign place converted) type span).Checked typing := by
    obtain ⟨shows, stores⟩ := found
    refine ⟨TypedExpr.fits_mk ?_, stores.sits⟩
    rw [TypedNode.Fits]
    exact ⟨stores.ne_void, checked.fits, type, shows, fun strict => ⟨.inl (isType strict), .refl _⟩⟩
  unfold assignPlain
  refine .bind (.coerce And.right fun holds => holds.1.2) fun converted after _ => ?_
  cases place with
  | slot index =>
    exact .bind (.modifyUsage index _) fun _ _ _ => .pure fun holds =>
      assigned holds.1.1.1 holds.1.2.1 holds.1.2.2
  | field object name =>
    exact .pure fun holds => assigned holds.1.1 holds.2.1 holds.2.2

/-- An assignment of an operator's result. -/
theorem assignUpdate_checked (operator : BinaryOperator) (place : Place) (type : Ty) (value : TypedExpr)
    (span : Span) :
    Yields typing context before (IsPlace typing (place, type) ∧ value.Checked typing)
      (assignUpdate operator place type value span) (TypedExpr.Checked typing) := by
  unfold assignUpdate
  split
  · next isError =>
    refine .pure fun holds => TypedExpr.checked_wrong (fun strict => ?_) span
    simp only [Bool.or_eq_true, beq_iff_eq] at isError
    exact isError.elim (holds.1.2.ne_error strict) (holds.2.type.ne_error strict)
  · next noError =>
    simp only [Bool.or_eq_true, beq_iff_eq, not_or] at noError
    split
    · exact .fail rfl
    · next operators typed =>
      have basic := OperatorTyping.of?_operands_isBasic typed
      have takes := OperatorTyping.of?_takes typed
      have updates {coercion : Coercion} (back : Coercion.implicit? operators.result type = some coercion)
          (plain : coercion = .identity ∨ coercion = .reference) :
          Yields typing context before (IsPlace typing (place, type) ∧ value.Checked typing)
            (do return .mk (.update place operators.operation (← convertOperand operators.operands value)) type span)
            (TypedExpr.Checked typing) := by
        obtain ⟨isLeft, widens⟩ := OperatorTyping.of?_left_of_back typed noError.1 back plain
        rw [isLeft] at takes
        refine .bind (operand_checked And.right basic) fun operand _ _ => .pure fun holds => ?_
        obtain ⟨⟨⟨shows, stores⟩, -⟩, checked, isType⟩ := holds
        refine ⟨TypedExpr.fits_mk ?_, stores.sits⟩
        rw [TypedNode.Fits]
        refine ⟨stores.ne_void, checked.fits, type, shows, fun strict => ⟨operators.result, ?_, widens, .refl _⟩⟩
        rw [isType strict]
        exact takes
      split
      · next back => exact updates back (.inl rfl)
      · next back => exact updates back (.inr rfl)
      · exact .fail (conversionProblem_isError ..)

/-! ### Expressions -/

/-- What is denoted is used as a value. -/
theorem value_bind {α : Type} {denoted : Check Referent} {span : Span} {next : TypedExpr → Check α}
    {goal : α → Prop} (good : Yields typing context before known denoted (Referent.Good typing))
    (tail : ∀ (value : TypedExpr) (after : BodyState), before.Grows after →
      Yields typing context after (known ∧ value.Checked typing) (next value) goal) :
    Yields typing context before known (denoted >>= fun referent => asValue referent span >>= next) goal := by
  refine good.bind fun referent middle grows => ?_
  refine .bind (.weaken And.right (asValue_checked referent span)) fun value after further => ?_
  exact .weaken (fun holds => ⟨holds.1.1, holds.2⟩) (tail value after (grows.trans further))

theorem value_checked {denoted : Check Referent} (span : Span)
    (good : Yields typing context before known denoted (Referent.Good typing)) :
    Yields typing context before known (denoted >>= fun referent => asValue referent span)
      (TypedExpr.Checked typing) :=
  good.bind fun referent _ _ => .weaken And.right (asValue_checked referent span)

/-- A step keeps what its value promises when the value is meant. -/
theorem return_good {step : Check TypedExpr} (checked : Yields typing context before known step (TypedExpr.Checked typing)) :
    Yields typing context before known (step >>= fun value => pure (.value value)) (Referent.Good typing) :=
  checked.bind fun _ _ _ => .pure And.right

mutual

/-- What an expression denotes. -/
theorem denote_good (describes : context.Describes typing) (before : BodyState) (source : Expr) :
    Yields typing context before True (denote source) (Referent.Good typing) := by
  match source with
  | .int span value | .long span value | .double span value | .text span value | .bool span value | .null span =>
    rw [denote]
    exact .pure fun _ => TypedExpr.checked_constant _ span
  | .name span name =>
    rw [denote]
    exact denoteName_good name span
  | .basicType span type =>
    rw [denote]
    exact .pure fun _ => trivial
  | .member span object name =>
    rw [denote]
    exact (denote_good describes before object).bind fun base _ _ =>
      .weaken And.right (denoteMember_good describes base name span)
  | .paren span inner =>
    rw [denote]
    exact value_bind (denote_good describes before inner) fun _ _ _ => .pure And.right
  | .call span callee arguments =>
    rw [denote]
    refine (denoteCallee_meets describes before callee).bind fun callee after _ => ?_
    refine .bind (.weaken (fun _ => trivial) (checkArguments_good describes after arguments))
      fun arguments _ _ => ?_
    exact return_good (.weaken (fun holds => ⟨holds.1.2, holds.2⟩) (resolveCall_checked callee arguments span))
  | .create span type arguments =>
    rw [denote]
    exact return_good (create_checked describes type arguments.length span)
  | .assign span operator target value =>
    rw [denote]
    have place := placeOf_isPlace target.core operator.isSome false
      (value_checked target.span (denote_good describes before target))
    refine place.bind fun found after _ => ?_
    refine value_bind (.weaken (fun _ => trivial) (denote_good describes after value)) fun value _ _ => ?_
    cases operator with
    | none =>
      exact return_good (.weaken (fun holds => ⟨holds.1.2, holds.2⟩) (assignPlain_checked found.1 found.2 value span))
    | some operator =>
      exact return_good (.weaken (fun holds => ⟨holds.1.2, holds.2⟩)
        (assignUpdate_checked operator found.1 found.2 value span))
  | .binary span operator left right =>
    rw [denote]
    refine value_bind (denote_good describes before left) fun left after _ => ?_
    refine value_bind (.weaken (fun _ => trivial) (denote_good describes after right)) fun right _ _ => ?_
    exact return_good (.weaken (fun holds => ⟨holds.1.2, holds.2⟩) (binary_checked operator left right span))
  | .unary span operator operand =>
    rw [denote]
    split
    · exact .pure fun _ => TypedExpr.checked_constant _ span
    · refine value_bind (denote_good describes before operand) fun value _ _ => ?_
      exact return_good (.weaken And.right (unary_checked operator value span))
  | .step span isIncrement isFront target =>
    rw [denote]
    have place := placeOf_isPlace target.core true true
      (value_checked target.span (denote_good describes before target))
    refine place.bind fun found after _ => .refuse rfl fun isNumber => .pure fun ⟨_, shows, stores⟩ => ?_
    refine ⟨TypedExpr.fits_mk ?_, stores.sits⟩
    rw [TypedNode.Fits]
    refine ⟨stores.ne_void, found.2, shows, fun strict => ⟨?_, .refl _⟩⟩
    simpa [stores.ne_error strict] using isNumber
  | .conditional span condition thenValue elseValue =>
    rw [denote]
    refine value_bind (denote_good describes before condition) fun condition after _ => ?_
    refine .bind (.coerce And.right fun _ => .of_isBasic rfl) fun condition after _ => ?_
    refine value_bind (.weaken (fun _ => trivial) (denote_good describes after thenValue)) fun first after _ => ?_
    refine value_bind (.weaken (fun _ => trivial) (denote_good describes after elseValue)) fun second after _ => ?_
    exact return_good (.weaken (fun holds => ⟨holds.1.1.2, holds.1.2, holds.2⟩)
      (conditional_checked condition first second span))
  | .cast span type operand =>
    rw [denote]
    refine .read_bind ?_
    refine .bind (.ofResolves (Environment.resolveType_named describes.libraries context.owner .cast type))
      fun target after _ => ?_
    refine value_bind (.weaken (fun _ => trivial) (denote_good describes after operand)) fun value _ _ => ?_
    exact return_good (.weaken (fun holds => ⟨holds.1.2, holds.2⟩) (cast_checked target value span))

/-- What the callee of a call may mean. -/
theorem denoteCallee_meets (describes : context.Describes typing) (before : BodyState) (source : Expr) :
    Yields typing context before True (denoteCallee source) (Callee.Meets typing) := by
  match source with
  | .paren span inner =>
    rw [denoteCallee]
    exact denoteCallee_meets describes before inner
  | .name span name =>
    rw [denoteCallee]
    exact calleeOfName_meets describes name span
  | .member span object name =>
    rw [denoteCallee]
    exact (denote_good describes before object).bind fun base _ _ =>
      .weaken And.right (calleeOfMember_meets describes base name span)
  | .int _ _ | .long _ _ | .double _ _ | .text _ _ | .bool _ _ | .null _ | .basicType _ _ | .call _ _ _
  | .create _ _ _ | .assign _ _ _ _ | .binary _ _ _ _ | .unary _ _ _ | .step _ _ _ _
  | .conditional _ _ _ _ | .cast _ _ _ =>
    rw [denoteCallee]
    · exact .fail rfl
    all_goals nofun

/-- The arguments of a call. -/
theorem checkArguments_good (describes : context.Describes typing) (before : BodyState) (sources : List Argument) :
    Yields typing context before True (checkArguments sources) fun arguments =>
      ∀ argument ∈ arguments, argument.Good typing := by
  match sources with
  | [] =>
    rw [checkArguments]
    exact .pure fun _ _ member => absurd member List.not_mem_nil
  | .mk span mode value :: rest =>
    rw [checkArguments]
    have checks := value_checked value.span (denote_good describes before value)
    have others (first : CheckedArgument) (after : BodyState) :
        Yields typing context after (True ∧ first.Good typing)
          (checkArguments rest >>= fun rest => pure (first :: rest)) fun arguments =>
            ∀ argument ∈ arguments, argument.Good typing := by
      refine .bind (.weaken (fun _ => trivial) (checkArguments_good describes after rest)) fun rest _ _ => ?_
      refine .pure fun ⟨⟨_, good⟩, goodRest⟩ argument member => ?_
      rcases List.mem_cons.1 member with rfl | inRest
      · exact good
      · exact goodRest argument inRest
    split
    · next isValue =>
      refine checks.bind fun value after _ => .weaken (fun ⟨_, checked⟩ => ⟨trivial, checked, ?_⟩) (others _ after)
      exact fun byReference => absurd (beq_iff_eq.1 isValue) byReference
    · exact (referenceArgument_good span mode value.core checks).bind fun first after _ => others first after

end

/-- An expression keeps its promises. -/
theorem expression_checked (describes : context.Describes typing) (before : BodyState) (source : Expr) :
    Yields typing context before known (expression source) (TypedExpr.Checked typing) :=
  .weaken (fun _ => trivial) (value_checked source.span (denote_good describes before source))

/-- A condition is a truth value. -/
theorem condition_checked (describes : context.Describes typing) (before : BodyState) (source : Expr) :
    Yields typing context before known (condition source) fun test =>
      test.Checked typing ∧ (typing.Strict → test.type = .bool) :=
  (expression_checked describes before source).bind fun _ _ _ => .coerce And.right fun _ => .of_isBasic rfl

end Snippet.Check
