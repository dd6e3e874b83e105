import Snippet.Proofs.Decimal.Bits
import Snippet.Machine.Operate
import Snippet.Typing.Operators

/-!
Operations on constants against the same operations on values. What is carried out while a program is
checked gives the constant of the value that the machine would compute, and what is refused is exactly
what the machine would refuse or what does not fit.
-/

namespace Snippet

/-! ### Whole numbers -/

/-- The exact result of an operation that computes a whole number. There is none behind a division by zero. -/
def Operation.exact? (operation : Operation) (left right : Int) : Option Int :=
  match operation with
  | .add => some (left + right)
  | .subtract => some (left - right)
  | .multiply => some (left * right)
  | .divide => if right = 0 then none else some (left.tdiv right)
  | .remainder => if right = 0 then none else some (left.tmod right)
  | _ => none

/-- The integers of one size: their arithmetic, the whole numbers that they stand for, and their constants. -/
structure Width (α : Type) where
  arithmetic : Arithmetic α
  toInt : α → Int
  ofInt : Int → α
  low : Int
  high : Int
  constant : α → Constant
  number : α → Value

namespace Width

/-- The integers of 32 bits. -/
def int : Width Int32 where
  arithmetic := .int
  toInt := Int32.toInt
  ofInt := Int32.ofInt
  low := Int32.minValue.toInt
  high := Int32.maxValue.toInt
  constant := .int
  number := .int

/-- The integers of 64 bits. -/
def long : Width Int64 where
  arithmetic := .long
  toInt := Int64.toInt
  ofInt := Int64.ofInt
  low := Int64.minValue.toInt
  high := Int64.maxValue.toInt
  constant := .long
  number := .long

variable {α : Type}

/-- Whether arithmetic computes what whole numbers give, reduced to the size. -/
structure Computes (width : Width α) : Prop where
  add : ∀ left right, width.ofInt (width.toInt left + width.toInt right) = width.arithmetic.add left right
  subtract : ∀ left right, width.ofInt (width.toInt left - width.toInt right) = width.arithmetic.subtract left right
  multiply : ∀ left right, width.ofInt (width.toInt left * width.toInt right) = width.arithmetic.multiply left right
  divide : ∀ left right, width.ofInt ((width.toInt left).tdiv (width.toInt right)) =
    width.arithmetic.divide left right
  remainder : ∀ left right, width.ofInt ((width.toInt left).tmod (width.toInt right)) =
    width.arithmetic.remainder left right
  refuses : ∀ right, width.arithmetic.refuses right = decide (width.toInt right = 0)
  less : ∀ left right, width.arithmetic.less left right = decide (width.toInt left < width.toInt right)
  lessEqual : ∀ left right, width.arithmetic.lessEqual left right = decide (width.toInt left ≤ width.toInt right)
  toValue : ∀ value, (width.constant value).toValue = width.number value
  same : ∀ left right, (width.number left).same (width.number right) = (width.toInt left == width.toInt right)
  onNumbers : ∀ operation left right, Operation.onNumbers? operation (width.number left) (width.number right) =
    width.arithmetic.result? width.number operation left right
  fold : ∀ operation left right, Folding.fold operation (width.constant left) (width.constant right) = do
    Folding.wholeConstant width.low width.high (fun value => width.constant (width.ofInt value))
      (← Folding.whole? operation (width.toInt left) (width.toInt right))

theorem int_computes : int.Computes where
  add left right := by simp [int, Arithmetic.int]
  subtract left right := by simp [int, Arithmetic.int]
  multiply left right := by simp [int, Arithmetic.int]
  divide left right := by
    simp only [int, Arithmetic.int]
    rw [Int32.ofInt_tdiv left.minValue_le_toInt left.toInt_le right.minValue_le_toInt right.toInt_le]
    simp
  remainder left right := by
    simp only [int, Arithmetic.int]
    rw [Int32.ofInt_tmod left.minValue_le_toInt left.toInt_le right.minValue_le_toInt right.toInt_le]
    simp
  refuses right := by
    rw [Bool.eq_iff_iff, decide_eq_true_iff]
    exact beq_iff_eq.trans Int32.toInt_inj.symm
  less left right := by simp [int, Arithmetic.int, Int32.lt_iff_toInt_lt]
  lessEqual left right := by simp [int, Arithmetic.int, Int32.le_iff_toInt_le]
  toValue _ := rfl
  same left right := by
    rw [Bool.eq_iff_iff, beq_iff_eq]
    exact beq_iff_eq.trans Int32.toInt_inj.symm
  onNumbers _ _ _ := rfl
  fold _ _ _ := rfl

theorem long_computes : long.Computes where
  add left right := by simp [long, Arithmetic.long]
  subtract left right := by simp [long, Arithmetic.long]
  multiply left right := by simp [long, Arithmetic.long]
  divide left right := by
    simp only [long, Arithmetic.long]
    rw [Int64.ofInt_tdiv left.minValue_le_toInt left.toInt_le right.minValue_le_toInt right.toInt_le]
    simp
  remainder left right := by
    simp only [long, Arithmetic.long]
    rw [Int64.ofInt_tmod left.minValue_le_toInt left.toInt_le right.minValue_le_toInt right.toInt_le]
    simp
  refuses right := by
    rw [Bool.eq_iff_iff, decide_eq_true_iff]
    exact beq_iff_eq.trans Int64.toInt_inj.symm
  less left right := by simp [long, Arithmetic.long, Int64.lt_iff_toInt_lt]
  lessEqual left right := by simp [long, Arithmetic.long, Int64.le_iff_toInt_le]
  toValue _ := rfl
  same left right := by
    rw [Bool.eq_iff_iff, beq_iff_eq]
    exact beq_iff_eq.trans Int64.toInt_inj.symm
  onNumbers _ _ _ := rfl
  fold _ _ _ := rfl

/-- How an operation on two integers of one size ends, while it is checked and in the machine. -/
inductive Outcome (width : Width α) (operation : Operation) (left right : α) : Prop where
  | constant (folded : Constant)
      (fits : ∀ exact, operation.exact? (width.toInt left) (width.toInt right) = some exact →
        width.low ≤ exact ∧ exact ≤ width.high)
      (applies : operation.apply (width.number left) (width.number right) = .ok folded.toValue)
      (folds : Folding.fold operation (width.constant left) (width.constant right) = .ok (some folded))
  | overflow (exact : Int) (isExact : operation.exact? (width.toInt left) (width.toInt right) = some exact)
      (outside : ¬(width.low ≤ exact ∧ exact ≤ width.high))
      (applies : operation.apply (width.number left) (width.number right) ≠ .error .divideByZero)
      (folds : Folding.fold operation (width.constant left) (width.constant right) = .error .constantOverflow)
  | divisionByZero (notExact : operation.exact? (width.toInt left) (width.toInt right) = none)
      (applies : operation.apply (width.number left) (width.number right) = .error .divideByZero)
      (folds : Folding.fold operation (width.constant left) (width.constant right) = .error .divisionByZero)
  | joined (isConcat : operation = .concat)
      (folds : Folding.fold operation (width.constant left) (width.constant right) = .ok none)

section

variable {width : Width α} (computes : width.Computes)

include computes

/-- An operation that computes a number is folded if the exact result fits. -/
theorem Computes.outcome_number {operation : Operation} {left right : α} {exact : Int}
    (isExact : operation.exact? (width.toInt left) (width.toInt right) = some exact)
    (applies : operation.apply (width.number left) (width.number right) = .ok (width.number (width.ofInt exact)))
    (whole : Folding.whole? operation (width.toInt left) (width.toInt right) = .ok (some (.number exact))) :
    width.Outcome operation left right := by
  have folds : Folding.fold operation (width.constant left) (width.constant right) =
      Folding.wholeConstant width.low width.high (fun value => width.constant (width.ofInt value))
        (some (.number exact)) := by
    rw [computes.fold, whole]
    rfl
  rw [Folding.wholeConstant] at folds
  split_ifs at folds with fits
  · refine .constant _ (fun other isOther => ?_) ?_ folds
    · cases isExact.symm.trans isOther
      exact fits
    · rw [computes.toValue, applies]
  · exact .overflow exact isExact fits (by rw [applies]; nofun) folds

/-- An operation that computes a truth value is always folded. -/
theorem Computes.outcome_truth {operation : Operation} {left right : α} {value : Bool}
    (notExact : operation.exact? (width.toInt left) (width.toInt right) = none)
    (applies : operation.apply (width.number left) (width.number right) = .ok (.bool value))
    (whole : Folding.whole? operation (width.toInt left) (width.toInt right) = .ok (some (.truth value))) :
    width.Outcome operation left right := by
  refine .constant (.bool value) (fun exact isExact => ?_) applies ?_
  · rw [notExact] at isExact
    cases isExact
  · rw [computes.fold, whole]
    rfl

/-- An operation on two integers of one size ends while it is checked as in the machine. -/
theorem Computes.outcome (operation : Operation) (left right : α) : width.Outcome operation left right := by
  cases operation with
  | add | subtract | multiply =>
    refine computes.outcome_number rfl ?_ rfl
    simp only [Operation.apply, computes.onNumbers, Arithmetic.result?, Option.getD_some, computes.add,
      computes.subtract, computes.multiply]
  | divide | remainder =>
    by_cases isZero : width.toInt right = 0
    · refine .divisionByZero (if_pos isZero) ?_ ?_
      · simp [Operation.apply, computes.onNumbers, Arithmetic.result?, computes.refuses, isZero]
      · rw [computes.fold, Folding.whole?, if_pos isZero]
        rfl
    · refine computes.outcome_number (if_neg isZero) ?_ (if_neg isZero)
      simp [Operation.apply, computes.onNumbers, Arithmetic.result?, computes.refuses, isZero, computes.divide,
        computes.remainder]
  | concat =>
    refine .joined rfl ?_
    rw [computes.fold]
    rfl
  | equal | notEqual =>
    refine computes.outcome_truth rfl ?_ rfl
    simp only [Operation.apply, computes.same, bne]
  | less | lessEqual | greater | greaterEqual =>
    refine computes.outcome_truth rfl ?_ rfl
    simp only [Operation.apply, computes.onNumbers, Arithmetic.result?, Option.getD_some, computes.less,
      computes.lessEqual]

end

end Width

/-- How an operation on two constants that stand for whole numbers is folded: it is refused as a division by zero
where the machine refuses it so, and as an overflow where the exact result does not fit, and every other operation but
the joining of texts gives a constant. -/
structure Operation.FoldsWhole (operation : Operation) (left right : Constant) (first second low high : Int) :
    Prop where
  divisionByZero : Folding.fold operation left right = .error .divisionByZero ↔
    operation.apply left.toValue right.toValue = .error .divideByZero
  overflow : Folding.fold operation left right = .error .constantOverflow ↔
    ∃ exact, operation.exact? first second = some exact ∧ ¬(low ≤ exact ∧ exact ≤ high)
  otherwise : operation ≠ .concat → Folding.fold operation left right ≠ .error .divisionByZero →
    Folding.fold operation left right ≠ .error .constantOverflow →
    ∃ folded, Folding.fold operation left right = .ok (some folded)

namespace Width

variable {α : Type} {width : Width α} (computes : width.Computes)

include computes

theorem Computes.folds (operation : Operation) (left right : α) :
    operation.FoldsWhole (width.constant left) (width.constant right) (width.toInt left) (width.toInt right)
      width.low width.high := by
  have values (value : α) : (width.constant value).toValue = width.number value := computes.toValue value
  rcases computes.outcome operation left right with
    ⟨folded, fits, applies, folds⟩ | ⟨exact, isExact, outside, applies, folds⟩ | ⟨notExact, applies, folds⟩ |
    ⟨rfl, folds⟩
  · refine ⟨?_, ?_, fun _ _ _ => ⟨folded, folds⟩⟩
    · rw [folds, values, values, applies]
      exact iff_of_false nofun nofun
    · rw [folds]
      exact iff_of_false nofun fun ⟨exact, isExact, outside⟩ => outside (fits exact isExact)
  · refine ⟨?_, iff_of_true folds ⟨exact, isExact, outside⟩, fun _ _ noOverflow => absurd folds noOverflow⟩
    rw [folds, values, values]
    exact iff_of_false nofun applies
  · refine ⟨iff_of_true folds (by rw [values, values, applies]), ?_, fun _ noDivision => absurd folds noDivision⟩
    rw [folds, notExact]
    exact iff_of_false nofun nofun
  · refine ⟨?_, ?_, fun notConcat => absurd rfl notConcat⟩
    · rw [folds]
      exact iff_of_false nofun nofun
    · rw [folds]
      exact iff_of_false nofun nofun

theorem Computes.apply_of_fold {operation : Operation} {left right : α} {folded : Constant}
    (folds : Folding.fold operation (width.constant left) (width.constant right) = .ok (some folded)) :
    operation.apply (width.constant left).toValue (width.constant right).toValue = .ok folded.toValue := by
  rw [computes.toValue, computes.toValue]
  rcases computes.outcome operation left right with
    ⟨other, -, applies, isFold⟩ | ⟨_, -, -, -, isFold⟩ | ⟨-, -, isFold⟩ | ⟨-, isFold⟩
  · cases isFold.symm.trans folds
    exact applies
  all_goals cases isFold.symm.trans folds

end Width

/-! ### All constants -/

/-- A constant that is made of a value stands for it. -/
theorem Constant.toValue_of_ofValue? {value : Value} {constant : Constant} (isConstant : ofValue? value = some constant) :
    constant.toValue = value := by
  cases value with
  | double value =>
    cases isConstant
    exact congrArg Value.double (Decimal.ofBits_toBits value)
  | _ => cases isConstant <;> rfl

/-- What is folded on two doubles is what the machine gives on them. -/
theorem Folding.apply_of_double? {operation : Operation} {left right : UInt64} {folded : Constant}
    (folds : double? operation left right = some folded) :
    operation.apply (.double (.ofBits left)) (.double (.ofBits right)) = .ok folded.toValue := by
  have computes {compute : Float → Float → Float} (passes : Decimal.PassesUndefined compute) :
      (Constant.double (Decimal.onBits compute left right)).toValue =
        .double (compute (.ofBits left) (.ofBits right)) :=
    congrArg Value.double (Decimal.ofBits_onBits passes left right)
  cases operation with
  | add => exact Option.some.inj folds ▸ congrArg Except.ok (computes Decimal.passesUndefined_add).symm
  | subtract => exact Option.some.inj folds ▸ congrArg Except.ok (computes Decimal.passesUndefined_sub).symm
  | multiply => exact Option.some.inj folds ▸ congrArg Except.ok (computes Decimal.passesUndefined_mul).symm
  | divide => exact Option.some.inj folds ▸ congrArg Except.ok (computes Decimal.passesUndefined_div).symm
  | remainder => exact Option.some.inj folds ▸ congrArg Except.ok (computes Decimal.passesUndefined_remainder).symm
  | concat => cases folds
  | equal | notEqual | less | lessEqual | greater | greaterEqual => exact Option.some.inj folds ▸ rfl

/-- What is folded on two constants is what the machine gives on their values. -/
theorem Folding.apply_of_fold {operation : Operation} {left right folded : Constant}
    (folds : fold operation left right = .ok (some folded)) :
    operation.apply left.toValue right.toValue = .ok folded.toValue := by
  have whole := folds
  unfold fold at folds
  split at folds
  · exact Width.int_computes.apply_of_fold whole
  · exact Width.long_computes.apply_of_fold whole
  · exact apply_of_double? (Except.ok.inj folds)
  · cases operation <;> cases folds <;> rfl
  · cases operation <;> cases folds
    simp [Operation.apply, Constant.toValue, Value.shown]
  · cases operation <;> cases folds
    simp [Operation.apply, Constant.toValue, Value.shown]
  · cases operation <;> cases folds <;> rfl
  · cases folds

/-- What a negation is folded to is what the machine gives on the value. -/
theorem Folding.negate_of_negate? {constant folded : Constant} (folds : negate? constant = .ok (some folded)) :
    constant.toValue.negate = .ok folded.toValue := by
  cases constant with
  | int value | long value =>
    simp only [negate?] at folds
    split_ifs at folds
    cases folds
    rfl
  | double bits =>
    cases folds
    exact congrArg (Except.ok ∘ Value.double) (Decimal.ofBits_negateBits bits).symm
  | _ => cases folds

end Snippet
