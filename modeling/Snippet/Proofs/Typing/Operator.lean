import Snippet.Proofs.Typing.Conversion

/-!
Operators on checked operands: what an operator gives is what its typing says, also where constants
are computed at once.
-/

namespace Snippet

namespace OperatorTyping

/-- The operation of an operator computes, compares numbers or tests for equality. -/
theorem operation?_cases {operator : BinaryOperator} {operation : Operation}
    (has : operation? operator = some operation) :
    (operation ∈ [.add, .subtract, .multiply, .divide, .remainder] ∧ operator.compares = false) ∨
      (operation ∈ [.less, .lessEqual, .greater, .greaterEqual] ∧ operator.compares = true) ∨
      (operation ∈ [.equal, .notEqual] ∧ operator.compares = true) := by
  cases operator <;> cases has <;> simp [BinaryOperator.compares]

/-- An operator that tests for equality has an operation that does. -/
theorem operation_of_testsEquality {operator : BinaryOperator} {operation : Operation}
    (has : operation? operator = some operation) (tests : testsEquality operator = true) :
    operation ∈ [.equal, .notEqual] := by
  cases operator <;> cases has <;> first | exact absurd tests (by decide) | simp

theorem wider?_cases {left right type : Ty} (wider : wider? left right = some type) :
    left.isNumeric = true ∧ right.isNumeric = true ∧ type.isNumeric = true := by
  unfold wider? at wider
  obtain ⟨first, isFirst, wider⟩ := Option.bind_eq_some_iff.1 wider
  obtain ⟨second, isSecond, wider⟩ := Option.bind_eq_some_iff.1 wider
  have isLeft : left.isNumeric = true := Option.isSome_iff_exists.2 ⟨first, isFirst⟩
  have isRight : right.isNumeric = true := Option.isSome_iff_exists.2 ⟨second, isSecond⟩
  refine ⟨isLeft, isRight, ?_⟩
  rw [← Option.some.inj wider]
  split
  · exact isLeft
  · exact isRight

/-- The typing of an operator joins texts, works on numbers of one type, or tests truth values or
references for equality. -/
theorem of?_cases {operator : BinaryOperator} {left right : Ty} {operators : OperatorTyping}
    (typed : of? operator left right = some operators) :
    (operators = ⟨.concat, none, .string⟩ ∧ left ≠ .void ∧ right ≠ .void) ∨
      (∃ operation type, operation? operator = some operation ∧ wider? left right = some type ∧
        operators = ⟨operation, some type, if operator.compares then .bool else type⟩) ∨
      (∃ operation, operation ∈ [.equal, .notEqual] ∧ left = .bool ∧
        operators = ⟨operation, some .bool, .bool⟩) ∨
      (∃ operation, operation ∈ [.equal, .notEqual] ∧ left.isReference = true ∧
        right.isReference = true ∧ operators = ⟨operation, none, .bool⟩) := by
  unfold of? at typed
  obtain ⟨operation, has, typed⟩ := Option.bind_eq_some_iff.1 typed
  split at typed
  · next joins =>
    simp only [Bool.and_eq_true, bne_iff_ne, ne_eq] at joins
    exact .inl ⟨(Option.some.inj typed).symm, joins.1.2, joins.2⟩
  · refine .inr ?_
    split at typed
    · next type wider => exact .inl ⟨operation, type, has, wider, (Option.some.inj typed).symm⟩
    · split at typed
      · next tests =>
        simp only [Bool.and_eq_true, beq_iff_eq] at tests
        exact .inr (.inl ⟨operation, operation_of_testsEquality has tests.1.1, tests.1.2,
          (Option.some.inj typed).symm⟩)
      · split at typed
        · next tests =>
          simp only [Bool.and_eq_true] at tests
          exact .inr (.inr ⟨operation, operation_of_testsEquality has tests.1.1.1, tests.1.1.2,
            tests.1.2, (Option.some.inj typed).symm⟩)
        · cases typed

/-- An operation on operands that are converted as the typing says. -/
theorem of?_takes {operator : BinaryOperator} {left right : Ty} {operators : OperatorTyping}
    (typed : of? operator left right = some operators) :
    operators.operation.Takes (operators.operands.getD left) (operators.operands.getD right)
      operators.result := by
  rcases of?_cases typed with ⟨rfl, hasLeft, hasRight⟩ | ⟨operation, type, has, wider, rfl⟩ |
    ⟨operation, tests, -, rfl⟩ | ⟨operation, tests, isLeft, isRight, rfl⟩
  · exact .concat hasLeft hasRight
  · obtain ⟨-, -, isNumber⟩ := wider?_cases wider
    have hasValue : type ≠ .void := Ty.ne_void_of_isNumeric isNumber
    rcases operation?_cases has with ⟨computes, compares⟩ | ⟨isComparison, compares⟩ | ⟨tests, compares⟩
    · rw [compares]
      exact .arithmetic isNumber computes
    · rw [compares]
      exact .comparison isNumber isComparison
    · rw [compares]
      exact .equality tests hasValue hasValue
  · exact .equality tests nofun nofun
  · exact .equality tests (Ty.ne_void_of_isReference isLeft) (Ty.ne_void_of_isReference isRight)

/-- Operands are converted to types without type parameters. -/
theorem of?_operands_isBasic {operator : BinaryOperator} {left right : Ty} {operators : OperatorTyping}
    (typed : of? operator left right = some operators) (type : Ty) (converts : operators.operands = some type) :
    type.isBasic = true := by
  rcases of?_cases typed with ⟨rfl, -, -⟩ | ⟨operation, wide, -, wider, rfl⟩ |
    ⟨operation, -, -, rfl⟩ | ⟨operation, -, -, -, rfl⟩ <;> cases converts
  · obtain ⟨-, -, isNumber⟩ := wider?_cases wider
    cases type <;> first | rfl | cases isNumber
  · rfl

/-- The result of an operator is a type without type parameters. -/
theorem of?_result_isBasic {operator : BinaryOperator} {left right : Ty} {operators : OperatorTyping}
    (typed : of? operator left right = some operators) : operators.result.isBasic = true := by
  rcases of?_cases typed with ⟨rfl, -, -⟩ | ⟨operation, wide, -, wider, rfl⟩ |
    ⟨operation, -, -, rfl⟩ | ⟨operation, -, -, -, rfl⟩
  · rfl
  · obtain ⟨-, -, isNumber⟩ := wider?_cases wider
    show (if operator.compares then Ty.bool else wide).isBasic = true
    split
    · rfl
    · cases wide <;> first | rfl | cases isNumber
  · rfl
  · rfl

/-- Where the result goes back without a conversion, the left operand was not converted. -/
theorem of?_left_of_back {operator : BinaryOperator} {left right : Ty} {operators : OperatorTyping}
    (typed : of? operator left right = some operators) (written : left ≠ .error) {coercion : Coercion}
    (back : Coercion.implicit? operators.result left = some coercion)
    (plain : coercion = .identity ∨ coercion = .reference) :
    operators.operands.getD left = left ∧ operators.result.Widens left := by
  have widens : operators.result.Widens left := by
    rcases Coercion.implicit?_cases back with ⟨-, same⟩ | ⟨conversion, rfl, -⟩ | ⟨-, -, widens⟩
    · rcases same with same | isError | isError
      · exact .inl same
      · have basic := of?_result_isBasic typed
        rw [isError] at basic
        cases basic
      · exact absurd isError written
    · rcases plain with isPlain | isPlain <;> cases isPlain
    · exact widens
  refine ⟨?_, widens⟩
  rcases of?_cases typed with ⟨rfl, -, -⟩ | ⟨operation, wide, -, wider, rfl⟩ |
    ⟨operation, -, rfl, rfl⟩ | ⟨operation, -, -, -, rfl⟩
  · rfl
  · obtain ⟨isLeft, -, isNumber⟩ := wider?_cases wider
    have same : (if operator.compares then Ty.bool else wide) = left := by
      rcases widens with same | ⟨-, isReference⟩ | ⟨rfl, -⟩
      · exact same
      · rw [left.isReference_of_isNumeric isLeft] at isReference
        cases isReference
      · cases isLeft
    show wide = left
    split at same
    · rw [← same] at isLeft
      cases isLeft
    · exact same
  · rfl
  · rfl

end OperatorTyping

/-! ### Constants -/

namespace Folding

/-- The operations that compute numbers. -/
def computing : List Operation := [.add, .subtract, .multiply, .divide, .remainder]

/-- The operations that give truth values. -/
def comparing : List Operation := [.less, .lessEqual, .greater, .greaterEqual, .equal, .notEqual]

/-- Whether a constant may be what an operation gives for a left operand of a type. -/
def Gives (operation : Operation) (left : Ty) (folded : Constant) : Prop :=
  (operation ∈ computing ∧ Ty.ofConstant folded = left) ∨
    (operation ∈ comparing ∧ Ty.ofConstant folded = .bool) ∨
    (operation = .concat ∧ Ty.ofConstant folded = .string)

/-- An operation on whole numbers of one type. -/
theorem whole_gives {operation : Operation} {type : Ty} {left right low high : Int}
    {ofInt : Int → Constant} {folded : Constant} (typed : ∀ value, Ty.ofConstant (ofInt value) = type)
    (folds : (whole? operation left right >>= wholeConstant low high ofInt) = .ok (some folded)) :
    Gives operation type folded := by
  have number (value : Int) (computes : operation ∈ computing)
      (folds : wholeConstant low high ofInt (some (.number value)) = .ok (some folded)) :
      Gives operation type folded := by
    simp only [wholeConstant] at folds
    split at folds
    · cases folds
      exact .inl ⟨computes, typed value⟩
    · cases folds
  have truth (value : Bool) (compares : operation ∈ comparing)
      (folds : wholeConstant low high ofInt (some (.truth value)) = .ok (some folded)) :
      Gives operation type folded := by
    cases folds
    exact .inr (.inl ⟨compares, rfl⟩)
  cases operation with
  | add | subtract | multiply => exact number _ (by simp [computing]) folds
  | divide | remainder =>
    by_cases isZero : right = 0
    · simp only [whole?, isZero, if_true] at folds
      cases folds
    · simp only [whole?, isZero, if_false] at folds
      exact number _ (by simp [computing]) folds
  | concat => cases folds
  | equal | notEqual | less | lessEqual | greater | greaterEqual =>
    exact truth _ (by simp [comparing]) folds

theorem double_gives {operation : Operation} {left right : UInt64} {folded : Constant}
    (folds : double? operation left right = some folded) : Gives operation .double folded := by
  cases operation <;> cases folds <;> simp [Gives, computing, comparing, Ty.ofConstant]

/-- A folded operation is of the type of its left operand, or a truth value or a text. -/
theorem fold_gives {operation : Operation} {left right folded : Constant}
    (folds : fold operation left right = .ok (some folded)) :
    Gives operation (Ty.ofConstant left) folded := by
  unfold fold at folds
  split at folds
  · exact whole_gives (fun value => (rfl : Ty.ofConstant (.int (.ofInt value)) = .int)) folds
  · exact whole_gives (fun value => (rfl : Ty.ofConstant (.long (.ofInt value)) = .long)) folds
  · exact double_gives (Except.ok.inj folds)
  · split at folds <;> cases folds <;> simp [Gives, comparing, Ty.ofConstant]
  · split at folds <;> cases folds
    simp [Gives, Ty.ofConstant]
  · split at folds <;> cases folds
    simp [Gives, Ty.ofConstant]
  · split at folds <;> cases folds <;> simp [Gives, comparing, Ty.ofConstant]
  · cases folds

theorem whole_isError {operation : Operation} {left right low high : Int} {ofInt : Int → Constant}
    {problem : Problem}
    (fails : (whole? operation left right >>= wholeConstant low high ofInt) = .error problem) :
    problem.isWarning = false := by
  have number (value : Int)
      (fails : wholeConstant low high ofInt (some (.number value)) = .error problem) :
      problem.isWarning = false := by
    simp only [wholeConstant] at fails
    split at fails <;> cases fails
    rfl
  cases operation with
  | add | subtract | multiply => exact number _ fails
  | divide | remainder =>
    by_cases isZero : right = 0
    · simp only [whole?, isZero, if_true] at fails
      cases fails
      rfl
    · simp only [whole?, isZero, if_false] at fails
      exact number _ fails
  | concat | equal | notEqual | less | lessEqual | greater | greaterEqual => cases fails

/-- What stops a folding is an error. -/
theorem fold_isError {operation : Operation} {left right : Constant} {problem : Problem}
    (fails : fold operation left right = .error problem) : problem.isWarning = false := by
  unfold fold at fails
  split at fails
  · exact whole_isError fails
  · exact whole_isError fails
  all_goals first | cases fails | (split at fails <;> cases fails)

theorem negate?_isError {value : Constant} {problem : Problem} (fails : negate? value = .error problem) :
    problem.isWarning = false := by
  unfold negate? at fails
  split at fails
  all_goals first | cases fails | (split at fails <;> cases fails; rfl)

theorem ofConstant_of_isNumeric {type : Ty} {value : Constant} (admits : type.AdmitsConstant value)
    (isNumber : type.isNumeric = true) : Ty.ofConstant value = type := by
  cases value with
  | null =>
    have isReference : type.isReference = true := by cases type <;> first | exact admits | rfl
    rw [type.isReference_of_isNumeric isNumber] at isReference
    cases isReference
  | _ => cases type <;> first | rfl | exact absurd admits id | cases isNumber

/-- A folded operation belongs to the type of its result. -/
theorem fold_admits {operation : Operation} {first second result : Ty} {left right folded : Constant}
    (takes : operation.Takes first second result) (admits : first.AdmitsConstant left)
    (folds : fold operation left right = .ok (some folded)) : result.AdmitsConstant folded := by
  have isOf := Ty.ofConstant_admits folded
  have gives := fold_gives folds
  cases takes with
  | arithmetic isNumber computes =>
    rcases gives with ⟨-, same⟩ | ⟨compares, -⟩ | ⟨rfl, -⟩
    · rwa [same, ofConstant_of_isNumeric admits isNumber] at isOf
    · simp only [comparing, List.mem_cons, List.not_mem_nil, or_false] at compares
      rcases compares with rfl | rfl | rfl | rfl | rfl | rfl <;> simp at computes
    · simp at computes
  | comparison _ compares | equality compares _ _ =>
    rcases gives with ⟨computes, -⟩ | ⟨-, same⟩ | ⟨rfl, -⟩
    · simp only [computing, List.mem_cons, List.not_mem_nil, or_false] at computes
      rcases computes with rfl | rfl | rfl | rfl | rfl <;> simp at compares
    · rwa [same] at isOf
    · simp at compares
  | concat _ _ =>
    rcases gives with ⟨computes, -⟩ | ⟨compares, -⟩ | ⟨-, same⟩
    · simp [computing] at computes
    · simp [comparing] at compares
    · rwa [same] at isOf

end Folding

/-! ### Checked operands -/

namespace Check

variable {typing : Typing} {context : BodyContext} {before : BodyState}

/-- An operand that is converted if the typing of its operator says so. -/
theorem operand_checked {known : Prop} {operands : Option Ty} {operand : TypedExpr}
    (checked : known → operand.Checked typing) (basic : ∀ type, operands = some type → type.isBasic = true) :
    Yields typing context before known
      (convertOperand operands operand)
      fun used => used.Checked typing ∧ (typing.Strict → used.type = operands.getD operand.type) := by
  cases operands with
  | none => exact .pure fun holds => ⟨checked holds, fun _ => rfl⟩
  | some type => exact .coerce checked fun _ => .of_isBasic (basic type rfl)

theorem logical_checked {isAnd : Bool} {left right : TypedExpr} (one : left.Checked typing)
    (other : right.Checked typing) (isLeft : left.type = .bool) (isRight : right.type = .bool)
    (span : Span) : (logical isAnd left right span).Checked typing := by
  unfold logical
  split
  · exact TypedExpr.checked_constant _ span
  · refine ⟨TypedExpr.fits_mk ?_, (Ty.Stores.of_isBasic rfl).sits⟩
    rw [TypedNode.Fits]
    exact ⟨by simp, one.fits, other.fits, fun _ => ⟨isLeft, isRight, .refl _⟩⟩

/-- An operation on operands of its types, which is carried out at once on constants. -/
theorem folded_checked (operation : Operation) {type : Ty} (left right : TypedExpr) (span : Span)
    (result : type.Stores typing) :
    Yields typing context before (left.Checked typing ∧ right.Checked typing ∧
        (typing.Strict → operation.Takes left.type right.type type))
      (folded operation type left right span) (TypedExpr.Checked typing) := by
  have unfolded : Yields typing context before (left.Checked typing ∧ right.Checked typing ∧
      (typing.Strict → operation.Takes left.type right.type type))
      (pure (.mk (.binary operation left right) type span)) (TypedExpr.Checked typing) := by
    refine .pure fun ⟨one, other, takes⟩ => ⟨TypedExpr.fits_mk ?_, result.sits⟩
    rw [TypedNode.Fits]
    exact ⟨result.ne_void, one.fits, other.fits, fun strict => ⟨_, takes strict, .refl _⟩⟩
  unfold folded
  dsimp only
  split
  · next first second isFirst isSecond =>
    split
    · next folded folds =>
      exact .pure fun ⟨one, _, takes⟩ => TypedExpr.checked_const result.sits result.ne_void fun strict =>
        Folding.fold_admits (takes strict) (one.fits.admitsConstant isFirst strict) folds
    · exact unfolded
    · next problem fails => exact .fail (Folding.fold_isError fails)
  · exact unfolded

/-- An operator on two checked operands. -/
theorem binary_checked (operator : BinaryOperator) (left right : TypedExpr) (span : Span) :
    Yields typing context before (left.Checked typing ∧ right.Checked typing)
      (binary operator left right span) (TypedExpr.Checked typing) := by
  unfold binary
  split
  · next isError =>
    refine .pure fun ⟨one, other⟩ => TypedExpr.checked_wrong (fun strict => ?_) span
    simp only [Bool.or_eq_true, beq_iff_eq] at isError
    exact isError.elim (one.type.ne_error strict) (other.type.ne_error strict)
  · dsimp only
    split
    · refine .refuse rfl fun areBool => .pure fun ⟨one, other⟩ => ?_
      simp only [Bool.or_eq_true, bne_iff_ne, ne_eq, not_or, Decidable.not_not] at areBool
      exact logical_checked one other areBool.1 areBool.2 span
    · split
      · exact .fail rfl
      · next operators typed =>
        have basic := OperatorTyping.of?_operands_isBasic typed
        refine .bind (operand_checked And.left basic) fun first after grows => ?_
        refine .bind (operand_checked (fun holds => holds.1.2) basic) fun second after grows => ?_
        have takes := OperatorTyping.of?_takes typed
        have result : operators.result.Stores typing := .of_isBasic (OperatorTyping.of?_result_isBasic typed)
        refine .weaken (fun ⟨⟨_, one, isOne⟩, other, isOther⟩ => ⟨one, other, fun strict => ?_⟩)
          (folded_checked operators.operation first second span result)
        rw [isOne strict, isOther strict]
        exact takes

/-- The negation of a checked number. -/
theorem negate_checked (value : TypedExpr) (span : Span) (isNumber : value.type.isNumeric = true) :
    Yields typing context before (value.Checked typing) (negate value span) (TypedExpr.Checked typing) := by
  have unfolded : Yields typing context before (value.Checked typing)
      (pure (.mk (.negate value) value.type span)) (TypedExpr.Checked typing) := by
    refine .pure fun checked => ⟨TypedExpr.fits_mk ?_, checked.type⟩
    rw [TypedNode.Fits]
    exact ⟨Ty.ne_void_of_isNumeric isNumber, checked.fits, fun _ => ⟨isNumber, .refl _⟩⟩
  unfold negate
  dsimp only
  split
  · exact unfolded
  · split
    · exact .pure fun _ => TypedExpr.checked_constant _ span
    · exact unfolded
    · next fails => exact .fail (Folding.negate?_isError fails)

/-- An operator in front of a checked operand. -/
theorem unary_checked (operator : UnaryOperator) (value : TypedExpr) (span : Span) :
    Yields typing context before (value.Checked typing) (unary operator value span)
      (TypedExpr.Checked typing) := by
  unfold unary
  split
  · exact .pure id
  · cases operator with
    | not =>
      refine .refuse rfl fun isBool => ?_
      split
      · exact .pure fun _ => TypedExpr.checked_constant _ span
      · refine .pure fun checked => ⟨TypedExpr.fits_mk ?_, (Ty.Stores.of_isBasic rfl).sits⟩
        rw [TypedNode.Fits]
        exact ⟨by simp, checked.fits, fun _ => ⟨by simpa using isBool, .refl _⟩⟩
    | plus =>
      dsimp only
      split
      · exact .pure id
      · exact .fail rfl
    | negate =>
      dsimp only
      split
      · next isNumber => exact negate_checked value span isNumber
      · exact .fail rfl

theorem branchType?_cases {first second type : Ty} (common : branchType? first second = some type) :
    (type = first ∨ type = second) ∧ type ≠ .null ∧ type ≠ .void := by
  unfold branchType? at common
  obtain ⟨isCommon, proper⟩ := Option.filter_eq_some_iff.1 common
  simp only [Bool.and_eq_true, bne_iff_ne, ne_eq] at proper
  refine ⟨?_, proper⟩
  split at isCommon
  · exact .inl (Option.some.inj isCommon).symm
  · split at isCommon
    · exact .inr (Option.some.inj isCommon).symm
    · exact .inl (Option.some.inj isCommon).symm
    · cases isCommon

/-- A choice between two checked values. -/
theorem conditional_checked (condition thenValue elseValue : TypedExpr) (span : Span) :
    Yields typing context before
      ((condition.Checked typing ∧ (typing.Strict → condition.type = .bool)) ∧
        thenValue.Checked typing ∧ elseValue.Checked typing)
      (conditional condition thenValue elseValue span) (TypedExpr.Checked typing) := by
  unfold conditional
  dsimp only
  split
  · next isError =>
    refine .pure fun ⟨_, one, other⟩ => TypedExpr.checked_wrong (fun strict => ?_) span
    simp only [Bool.or_eq_true, beq_iff_eq] at isError
    exact isError.elim (one.type.ne_error strict) (other.type.ne_error strict)
  · split
    · exact .fail rfl
    · next type common =>
      obtain ⟨isOne, notNull, hasValue⟩ := branchType?_cases common
      have stores (checked : thenValue.Checked typing ∧ elseValue.Checked typing) : type.Stores typing := by
        rcases isOne with rfl | rfl
        · exact checked.1.type.stores hasValue notNull
        · exact checked.2.type.stores hasValue notNull
      refine .bind (.coerce (fun holds => holds.2.1) fun holds => stores holds.2) fun first after grows => ?_
      refine .bind (.coerce (fun holds => holds.1.2.2) fun holds => stores holds.1.2) fun second after grows => ?_
      refine .pure fun ⟨⟨⟨⟨good, isBool⟩, both⟩, one, isOne⟩, other, isOther⟩ =>
        ⟨TypedExpr.fits_mk ?_, (stores both).sits⟩
      rw [TypedNode.Fits]
      exact ⟨hasValue, good.fits, one.fits, other.fits, fun strict =>
        ⟨isBool strict, .inl (isOne strict), .inl (isOther strict)⟩⟩

/-- A cast of a checked value. -/
theorem cast_checked (target : Ty) (value : TypedExpr) (span : Span) :
    Yields typing context before (target.Named typing ∧ value.Checked typing) (cast target value span)
      (TypedExpr.Checked typing) := by
  unfold cast
  split
  · next coercion explicit => exact .pure fun ⟨named, checked⟩ => checked.cast named explicit span
  · exact .fail rfl

end Check

end Snippet
