import Snippet.Emit.Basic
import Snippet.Machine.Step
import Snippet.Proofs.Emit.Characters
import Snippet.Proofs.Typing.Folding
import Snippet.Typing.Expression

/-!
Constants that are carried out while a program is checked, against the instructions that the machine would
carry out. Main statement: `Folding.agrees` — folded operators, conversions, negations and logical operators
give what their instructions push.
-/

namespace Snippet

/-! ### Instructions on values -/

/-- Whether an instruction, wherever it stands in a running call, takes operands from the stack, the last of them from
the top, and pushes a value or raises an exception. -/
def Instruction.Ends (instruction : Instruction) (operands : List Value) (outcome : Except Fault Value) : Prop :=
  ∀ (module : Module) (machine : Machine) (stack : Stack),
    machine.active.method.code[machine.active.position]? = some instruction →
    machine.stack = stack.pushAll operands →
    module.step machine = do
      let value ← Action.ofFaulty outcome
      return .running { machine.advance with stack := value :: stack }

/-- An instruction that works on the stack alone leaves everything else as it is. -/
theorem Module.execute_of_onStack? {module : Module} {instruction : Instruction} {machine : Machine}
    {stack : Except Fault Stack} (works : module.onStack? instruction machine.stack = some stack) :
    module.execute instruction machine = do return .running { machine with stack := ← stack } := by
  cases instruction with
  | call _ | giveBack | giveBackNothing => cases works
  | _ => simp only [execute.eq_def, works]

namespace Instruction

/-- An instruction that changes only the stack. -/
theorem ends_of_onStack? {instruction : Instruction} {operands : List Value} {outcome : Except Fault Value}
    (onStack : ∀ (module : Module) (stack : Stack), module.onStack? instruction (stack.pushAll operands) =
      some (do return (← outcome) :: stack)) : instruction.Ends operands outcome := by
  intro module machine stack reached isStack
  have works := onStack module stack
  have isStack : machine.advance.stack = stack.pushAll operands := isStack
  rw [← isStack] at works
  rw [Module.step, reached]
  dsimp only
  rw [Module.execute_of_onStack? works]
  cases outcome <;> rfl

theorem operate_ends (operation : Operation) (first second : Value) :
    (operate operation).Ends [first, second] (operation.apply first second) :=
  ends_of_onStack? fun _ _ => rfl

theorem negate_ends (value : Value) : negate.Ends [value] value.negate := ends_of_onStack? fun _ _ => rfl

theorem not_ends (truth : Bool) : not.Ends [.bool truth] (.ok (.bool !truth)) := ends_of_onStack? fun _ _ => rfl

theorem convert_ends (conversion : NumericConversion) (value : Value) :
    (convert conversion).Ends [value] (.ok (conversion.apply value)) := ends_of_onStack? fun _ _ => rfl

end Instruction

/-! ### The code of logical operators -/

/-- Whether a module has the constants that a compilation has met. -/
def Module.HasConstants (module : Module) (state : EmitState) : Prop :=
  ∀ (index : Nat) (constant : Constant), state.constants.entries[index]? = some constant →
    module.constant (.ofNat index) = .ok constant.toValue

/-- Whether code that stands in a running call from a position on leads behind itself, with one more value on the
stack. -/
def Module.Pushes (module : Module) (start : Nat) (code : List Instruction) (value : Value) : Prop :=
  ∀ machine : Machine, machine.active.position = start →
    (∀ index < code.length, machine.active.method.code[start + index]? = code[index]?) →
    ∃ taken : Nat, ∀ steps : Nat, module.run (taken + steps) machine =
      module.run steps { machine with
        active := { machine.active with position := start + code.length }
        stack := value :: machine.stack }

/-- The machine at a position of the running call, with another stack. -/
def Machine.at (machine : Machine) (position : Nat) (stack : Stack) : Machine :=
  { machine with active := { machine.active with position }, stack }

namespace Module

variable {module : Module} {machine : Machine} {position : Nat} {stack after : Stack}

theorem step_at {instruction : Instruction} (reached : machine.active.method.code[position]? = some instruction) :
    module.step (machine.at position stack) = module.execute instruction (machine.at (position + 1) stack) := by
  have reached : (machine.at position stack).active.method.code[(machine.at position stack).active.position]? =
      some instruction := reached
  rw [step, reached]
  rfl

theorem run_of_step {next : Machine} (goes : module.step machine = pure (.running next)) (steps : Nat) :
    module.run (steps + 1) machine = module.run steps next := by
  rw [run, goes]
  rfl

theorem run_onStack {instruction : Instruction}
    (reached : machine.active.method.code[position]? = some instruction)
    (works : module.onStack? instruction stack = some (.ok after)) (steps : Nat) :
    module.run (steps + 1) (machine.at position stack) = module.run steps (machine.at (position + 1) after) := by
  refine run_of_step ?_ steps
  have works : module.onStack? instruction (machine.at (position + 1) stack).stack = some (.ok after) := works
  rw [step_at reached, execute_of_onStack? works]
  rfl

theorem onStack?_const {index : UInt32} {value : Value} (isConstant : module.constant index = .ok value)
    (stack : Stack) : module.onStack? (.const index) stack = some (.ok (value :: stack)) := by
  show some (do return (← module.constant index) :: stack) = _
  rw [isConstant]
  rfl

/-- The jump of a logical operator goes on if the truth value leaves the result open. -/
theorem run_jump {isAnd : Bool} {target : UInt32}
    (reached : machine.active.method.code[position]? =
      some (if isAnd then .jumpIfFalse target else .jumpIfTrue target)) (truth : Bool) (steps : Nat) :
    module.run (steps + 1) (machine.at position (.bool truth :: stack)) =
      module.run steps (machine.at (if truth = isAnd then position + 1 else target.toNat) stack) := by
  refine run_of_step ?_ steps
  rw [step_at reached]
  cases isAnd <;> cases truth <;> rfl

/-- Code that pushes a constant, and pushes another one in its place if the first one leaves the result open. -/
theorem pushes_shortcut {start : Nat} (small : start + 5 < 2 ^ 32) {first second : Bool} {index place : UInt32}
    (isFirst : module.constant index = .ok (.bool first)) (isSecond : module.constant place = .ok (.bool second))
    (isAnd : Bool) :
    module.Pushes start
      [.const index, .duplicate, if isAnd then .jumpIfFalse (Emit.position (start + 5))
        else .jumpIfTrue (Emit.position (start + 5)), .drop, .const place]
      (.bool (if isAnd then first && second else first || second)) := by
  rintro machine rfl stands
  have reached (offset : Nat) (inside : offset < 5) := stands offset inside
  have target : (Emit.position (machine.active.position + 5)).toNat = machine.active.position + 5 :=
    UInt32.toNat_ofNat_of_lt' small
  have opened (steps : Nat) : module.run (steps + 3) machine = module.run steps (machine.at
      (if first = isAnd then machine.active.position + 3 else machine.active.position + 5)
      (.bool first :: machine.stack)) := by
    refine (run_onStack (reached 0 (by decide)) (onStack?_const isFirst machine.stack) (steps + 2)).trans ?_
    refine (run_onStack (reached 1 (by decide)) rfl (steps + 1)).trans ?_
    refine (run_jump (reached 2 (by decide)) first steps).trans ?_
    rw [target]
  by_cases isOpen : first = isAnd
  · refine ⟨5, fun steps => ?_⟩
    have isResult : (if isAnd then first && second else first || second) = second := by
      cases isAnd <;> cases isOpen <;> rfl
    rw [Nat.add_comm, opened (steps + 2), if_pos isOpen, isResult]
    refine (run_onStack (reached 3 (by decide)) rfl (steps + 1)).trans ?_
    exact run_onStack (reached 4 (by decide)) (onStack?_const isSecond machine.stack) steps
  · refine ⟨3, fun steps => ?_⟩
    have isResult : (if isAnd then first && second else first || second) = first := by
      cases isAnd <;> cases first <;> first | rfl | exact absurd rfl isOpen
    rw [Nat.add_comm, opened steps, if_neg isOpen, isResult]
    rfl

/-- The code of a logical operator on two constants pushes what is folded. -/
theorem pushes_logical {left right : TypedExpr} {first second : Bool} (isFirst : left.constant? = some (.bool first))
    (isSecond : right.constant? = some (.bool second)) (isAnd : Bool) {start : Nat} (small : start + 5 < 2 ^ 32)
    (type : Ty) (before : EmitState)
    (has : module.HasConstants ((Emit.node start type (.logical isAnd left right)).run before).2) :
    module.Pushes start ((Emit.node start type (.logical isAnd left right)).run before).1
      (.bool (if isAnd then first && second else first || second)) := by
  obtain ⟨⟨_⟩, leftType, leftSpan⟩ := left <;> cases isFirst
  obtain ⟨⟨_⟩, rightType, rightSpan⟩ := right <;> cases isSecond
  have opened : (Emit.node start type (.logical isAnd (.mk (.const (.bool first)) leftType leftSpan)
      (.mk (.const (.bool second)) rightType rightSpan))).run before =
      (let one := before.constants.intern (.bool first)
      let two := one.2.intern (.bool second)
      ([.const (.ofNat one.1), .duplicate, if isAnd then .jumpIfFalse (Emit.position (start + 5))
        else .jumpIfTrue (Emit.position (start + 5)), .drop, .const (.ofNat two.1)],
        { before with constants := two.2 })) := rfl
  rw [opened] at has ⊢
  dsimp only at has ⊢
  refine pushes_shortcut small ?_ ?_ isAnd
  · have inside := (Array.getElem?_eq_some_iff.1 (Pool.getElem?_intern before.constants (.bool first))).1
    exact has _ (.bool first) ((Pool.getElem?_intern_of_lt _ _ _ inside).trans (Pool.getElem?_intern ..))
  · exact has _ (.bool second) (Pool.getElem?_intern ..)

end Module

/-! ### What is carried out while a program is checked -/

/-- Whether the exact negation of an integer does not fit its type. -/
def Constant.NegationOverflows : Constant → Prop
  | .int value => ¬(Int32.minValue.toInt ≤ -value.toInt ∧ -value.toInt ≤ Int32.maxValue.toInt)
  | .long value => ¬(Int64.minValue.toInt ≤ -value.toInt ∧ -value.toInt ≤ Int64.maxValue.toInt)
  | .null | .bool _ | .double _ | .text _ => False

/-- How the checker carries out operations on constants: as the machine does on their values. -/
structure Folding.Agrees : Prop where
  /-- A folded operation gives what its instruction pushes. -/
  operation : ∀ {operation : Operation} {left right folded : Constant},
    fold operation left right = .ok (some folded) →
      (Instruction.operate operation).Ends [left.toValue, right.toValue] (.ok folded.toValue)
  /-- Operations on 32-bit integers are refused where the machine refuses them or the result does not fit. -/
  int : ∀ (operation : Operation) (left right : Int32), operation.FoldsWhole (.int left) (.int right)
    left.toInt right.toInt Int32.minValue.toInt Int32.maxValue.toInt
  /-- Operations on 64-bit integers are refused where the machine refuses them or the result does not fit. -/
  long : ∀ (operation : Operation) (left right : Int64), operation.FoldsWhole (.long left) (.long right)
    left.toInt right.toInt Int64.minValue.toInt Int64.maxValue.toInt
  /-- A conversion of a constant is folded, and gives what its instruction pushes. -/
  conversion : ∀ (conversion : NumericConversion) (target : Ty) {value : TypedExpr} {constant : Constant},
    value.constant? = some constant → ∃ folded,
      (value.coerced (.convert (.numeric conversion)) target).constant? = some folded ∧
      (Instruction.convert conversion).Ends [constant.toValue] (.ok folded.toValue)
  /-- An operator works on its checked operand, unless it negates the magnitude of the least 32-bit integer. -/
  operand : ∀ (operator : UnaryOperator) (operand : Expr) (span : Span),
    (operator = .negate → Check.isLeastMagnitude operand.core = false) →
      Check.expression (.unary span operator operand) = do
        let value ← Check.expression operand
        Check.unary operator value span
  /-- A number is negated as its instruction does, unless the exact result does not fit. -/
  negation : ∀ {value : TypedExpr} {constant : Constant} (span : Span),
    value.constant? = some constant → value.type.isNumeric = true →
      constant.NegationOverflows ∧ Check.unary .negate value span = Check.fail .constantOverflow span ∨
      ¬constant.NegationOverflows ∧ (∃ folded, Check.unary .negate value span = pure (.constant folded span) ∧
        Instruction.negate.Ends [constant.toValue] (.ok folded.toValue)) ∨
      (Ty.ofConstant constant).isNumeric = false ∧
        Check.unary .negate value span = pure (.mk (.negate value) value.type span)
  /-- A truth value is turned as its instruction does. -/
  not : ∀ {value : TypedExpr} {truth : Bool} (span : Span),
    value.constantBool? = some truth → value.type = .bool → ∃ folded,
      Check.unary .not value span = pure (.constant (.bool folded) span) ∧
      Instruction.not.Ends [.bool truth] (.ok (.bool folded))
  /-- A logical operator gives what its code pushes. -/
  logical : ∀ {left right : TypedExpr} {first second : Bool} (isAnd : Bool) (span : Span),
    left.constant? = some (.bool first) → right.constant? = some (.bool second) → ∃ folded,
      Check.logical isAnd left right span = .constant (.bool folded) span ∧
      ∀ (module : Module) (start : Nat) (type : Ty) (before : EmitState), start + 5 < 2 ^ 32 →
        module.HasConstants ((Emit.node start type (.logical isAnd left right)).run before).2 →
        module.Pushes start ((Emit.node start type (.logical isAnd left right)).run before).1 (.bool folded)

namespace Folding

/-- The negation of a constant number is folded unless it does not fit. -/
theorem negate?_cases (constant : Constant) :
    constant.NegationOverflows ∧ negate? constant = .error .constantOverflow ∨
      ¬constant.NegationOverflows ∧ (∃ folded, negate? constant = .ok (some folded)) ∨
      (Ty.ofConstant constant).isNumeric = false ∧ negate? constant = .ok none := by
  cases constant with
  | int value =>
    have least : value = Int32.minValue ↔ (Constant.int value).NegationOverflows := by
      have low := value.minValue_le_toInt
      have high := value.toInt_le
      rw [← Int32.toInt_inj, Constant.NegationOverflows]
      simp only [Int32.toInt_minValue, Int32.toInt_maxValue] at *
      omega
    rw [← least, negate?]
    by_cases isLeast : value = Int32.minValue
    · exact .inl ⟨isLeast, if_pos isLeast⟩
    · exact .inr (.inl ⟨isLeast, _, if_neg isLeast⟩)
  | long value =>
    have least : value = Int64.minValue ↔ (Constant.long value).NegationOverflows := by
      have low := value.minValue_le_toInt
      have high := value.toInt_le
      rw [← Int64.toInt_inj, Constant.NegationOverflows]
      simp only [Int64.toInt_minValue, Int64.toInt_maxValue] at *
      omega
    rw [← least, negate?]
    by_cases isLeast : value = Int64.minValue
    · exact .inl ⟨isLeast, if_pos isLeast⟩
    · exact .inr (.inl ⟨isLeast, _, if_neg isLeast⟩)
  | double bits => exact .inr (.inl ⟨id, _, rfl⟩)
  | null | bool _ | text _ => exact .inr (.inr ⟨rfl, rfl⟩)

theorem exists_ofValue?_apply (conversion : NumericConversion) (constant : Constant) :
    ∃ folded, Constant.ofValue? (conversion.apply constant.toValue) = some folded := by
  cases conversion <;> cases constant <;> exact ⟨_, rfl⟩

/-- What the checker gives for constants is what the machine gives for their values. -/
theorem agrees : Folding.Agrees where
  operation {operation left right folded} folds := by
    rw [← apply_of_fold folds]
    exact Instruction.operate_ends operation left.toValue right.toValue
  int operation left right := Width.int_computes.folds operation left right
  long operation left right := Width.long_computes.folds operation left right
  conversion conversion target value constant isConstant := by
    obtain ⟨folded, folds⟩ := exists_ofValue?_apply conversion constant
    refine ⟨folded, ?_, ?_⟩
    · simp only [TypedExpr.coerced, isConstant, folds]
      rfl
    · rw [Constant.toValue_of_ofValue? folds]
      exact Instruction.convert_ends conversion constant.toValue
  operand operator operand span notLeast := by
    have notSpecial : (operator == .negate && Check.isLeastMagnitude operand.core) = false := by
      cases operator <;> simp at notLeast ⊢
      exact notLeast
    simp [Check.expression, Check.denote, notSpecial, Check.asValue]
  negation {value constant} span isConstant isNumeric := by
    have unary : Check.unary .negate value span = Check.negate value span := by
      have notError : (value.type == .error) = false := by
        cases isType : value.type <;> rw [isType] at isNumeric <;> first | rfl | cases isNumeric
      simp [Check.unary, notError, isNumeric]
    rw [unary, Check.negate, isConstant]
    dsimp only
    rcases negate?_cases constant with ⟨overflows, refuses⟩ | ⟨fits, folded, folds⟩ | ⟨noNumber, stays⟩
    · exact .inl ⟨overflows, by rw [refuses]⟩
    · refine .inr (.inl ⟨fits, folded, by rw [folds], ?_⟩)
      rw [← negate_of_negate? folds]
      exact Instruction.negate_ends constant.toValue
    · exact .inr (.inr ⟨noNumber, by rw [stays]⟩)
  not {value truth} span isTruth isBool := by
    refine ⟨!truth, ?_, Instruction.not_ends truth⟩
    simp [Check.unary, isBool, isTruth]
  logical {left right first second} isAnd span isFirst isSecond := by
    refine ⟨if isAnd then first && second else first || second, ?_, fun module start type before small has =>
      Module.pushes_logical isFirst isSecond isAnd small type before has⟩
    simp only [Check.logical, TypedExpr.constantBool?, isFirst, isSecond]

end Folding

/-- A minus sign in front of the magnitude of the least 32-bit integer is an exception. The whole is that integer,
while the magnitude alone is one of 64 bits, and so is what the machine makes of it. -/
theorem not_negation_agrees :
    (emit "class C \x7b static object M() \x7b return 2147483648; \x7d \x7d" .empty .default "snippet").image.map
        (·.constants) = some [.long 2147483648] ∧
      (emit "class C \x7b static object M() \x7b return -2147483648; \x7d \x7d" .empty .default "snippet").image.map
        (·.constants) = some [.int (-2147483648)] ∧
      Instruction.negate.Ends [(Constant.long 2147483648).toValue] (.ok (Constant.long (-2147483648)).toValue) ∧
      (Constant.long (-2147483648)).toValue ≠ (Constant.int (-2147483648)).toValue := by
  refine ⟨?_, ?_, Instruction.negate_ends _, nofun⟩
  · rw [emit_ofList]
    decide +kernel
  · rw [emit_ofList]
    decide +kernel

end Snippet
