import Snippet.Proofs.Typing.Judgement

/-!
Properties of all expressions of a tree, and the one that code generation relies on: whatever is used
as an operand has a value. Main statement: over closed libraries the typing judgement gives it.
-/

namespace Snippet

mutual

/-- Whether an expression and all expressions in it have a property of node and type. -/
def TypedExpr.Every (property : TypedNode → Ty → Prop) : TypedExpr → Prop
  | .mk node type _ => property node type ∧ node.Every property

/-- Whether all expressions in a node have a property. -/
def TypedNode.Every (property : TypedNode → Ty → Prop) : TypedNode → Prop
  | .const _ | .slot _ | .newList _ | .newObject _ => True
  | .field object _ => object.Every property
  | .assign place value | .update place _ value => place.Every property ∧ value.Every property
  | .step place _ _ => place.Every property
  | .binary _ left right | .logical _ left right => left.Every property ∧ right.Every property
  | .not operand | .negate operand | .convert _ operand => operand.Every property
  | .conditional condition thenValue elseValue =>
    condition.Every property ∧ thenValue.Every property ∧ elseValue.Every property
  | .call _ passed => TypedArgument.EveryOfAll property passed
  | .hostCall _ passed => TypedExpr.EveryOfAll property passed
  | .builtin _ receiver passed => receiver.Every property ∧ TypedExpr.EveryOfAll property passed

/-- Whether all expressions in a place have a property. -/
def Place.Every (property : TypedNode → Ty → Prop) : Place → Prop
  | .slot _ => True
  | .field object _ => object.Every property

/-- Whether all expressions in some expressions have a property. -/
def TypedExpr.EveryOfAll (property : TypedNode → Ty → Prop) : List TypedExpr → Prop
  | [] => True
  | first :: rest => first.Every property ∧ TypedExpr.EveryOfAll property rest

/-- Whether all expressions in the arguments of a call have a property. -/
def TypedArgument.EveryOfAll (property : TypedNode → Ty → Prop) : List TypedArgument → Prop
  | [] => True
  | .mk _ value :: rest => value.Every property ∧ TypedArgument.EveryOfAll property rest

end

mutual

/-- Whether the expressions of a statement that are evaluated for their effect have one property, and
those of which the value is used have another one. -/
def TypedStmt.Every (effect operand : TypedExpr → Prop) : TypedStmt → Prop
  | .block body => TypedStmt.EveryOfAll effect operand body
  | .evaluate value => effect value
  | .giveBack _ none | .leaveLoop | .nextRound => True
  | .giveBack _ (some value) => operand value
  | .branch condition thenBranch none => operand condition ∧ thenBranch.Every effect operand
  | .branch condition thenBranch (some elseBranch) =>
    operand condition ∧ thenBranch.Every effect operand ∧ elseBranch.Every effect operand
  | .whileLoop condition body => operand condition ∧ body.Every effect operand
  | .forLoop start condition steps body =>
    TypedStmt.EveryOfAll effect operand start ∧ (∀ test ∈ condition, operand test) ∧
      (∀ step ∈ steps, effect step) ∧ body.Every effect operand

/-- Whether the expressions of statements have the properties. -/
def TypedStmt.EveryOfAll (effect operand : TypedExpr → Prop) : List TypedStmt → Prop
  | [] => True
  | first :: rest => first.Every effect operand ∧ TypedStmt.EveryOfAll effect operand rest

end

theorem TypedStmt.everyOfAll_iff {effect operand : TypedExpr → Prop} {body : List TypedStmt} :
    EveryOfAll effect operand body ↔ ∀ statement ∈ body, statement.Every effect operand := by
  induction body with
  | nil => exact ⟨fun _ => nofun, fun _ => trivial⟩
  | cons first rest ih => rw [List.forall_mem_cons, ← ih, EveryOfAll]

mutual

/-- What follows at every node from two properties of it holds of all expressions that have both. -/
theorem TypedExpr.Every.combine {first second both : TypedNode → Ty → Prop}
    (follows : ∀ (node : TypedNode) (type : Ty), first node type → second node type → both node type)
    (value : TypedExpr) (one : value.Every first) (other : value.Every second) : value.Every both := by
  match value with
  | .mk node type _ => exact ⟨follows node type one.1 other.1, node.every_combine follows one.2 other.2⟩

theorem TypedNode.every_combine {first second both : TypedNode → Ty → Prop}
    (follows : ∀ (node : TypedNode) (type : Ty), first node type → second node type → both node type)
    (node : TypedNode) (one : node.Every first) (other : node.Every second) : node.Every both := by
  match node with
  | .const _ | .slot _ | .newList _ | .newObject _ => trivial
  | .field object _ => exact TypedExpr.Every.combine follows object one other
  | .assign place value | .update place _ value =>
    exact ⟨place.every_combine follows one.1 other.1, TypedExpr.Every.combine follows value one.2 other.2⟩
  | .step place _ _ => exact place.every_combine follows one other
  | .binary _ left right | .logical _ left right =>
    exact ⟨TypedExpr.Every.combine follows left one.1 other.1, TypedExpr.Every.combine follows right one.2 other.2⟩
  | .not operand | .negate operand | .convert _ operand => exact TypedExpr.Every.combine follows operand one other
  | .conditional condition thenValue elseValue =>
    exact ⟨TypedExpr.Every.combine follows condition one.1 other.1,
      TypedExpr.Every.combine follows thenValue one.2.1 other.2.1,
      TypedExpr.Every.combine follows elseValue one.2.2 other.2.2⟩
  | .call _ passed => exact TypedArgument.every_combine follows passed one other
  | .hostCall _ passed => exact TypedExpr.everyOfAll_combine follows passed one other
  | .builtin _ receiver passed =>
    exact ⟨TypedExpr.Every.combine follows receiver one.1 other.1,
      TypedExpr.everyOfAll_combine follows passed one.2 other.2⟩

theorem Place.every_combine {first second both : TypedNode → Ty → Prop}
    (follows : ∀ (node : TypedNode) (type : Ty), first node type → second node type → both node type)
    (place : Place) (one : place.Every first) (other : place.Every second) : place.Every both := by
  match place with
  | .slot _ => trivial
  | .field object _ => exact TypedExpr.Every.combine follows object one other

theorem TypedExpr.everyOfAll_combine {first second both : TypedNode → Ty → Prop}
    (follows : ∀ (node : TypedNode) (type : Ty), first node type → second node type → both node type)
    (values : List TypedExpr) (one : TypedExpr.EveryOfAll first values) (other : TypedExpr.EveryOfAll second values) :
    TypedExpr.EveryOfAll both values := by
  match values with
  | [] => trivial
  | head :: rest =>
    exact ⟨TypedExpr.Every.combine follows head one.1 other.1,
      TypedExpr.everyOfAll_combine follows rest one.2 other.2⟩

theorem TypedArgument.every_combine {first second both : TypedNode → Ty → Prop}
    (follows : ∀ (node : TypedNode) (type : Ty), first node type → second node type → both node type)
    (passed : List TypedArgument) (one : TypedArgument.EveryOfAll first passed)
    (other : TypedArgument.EveryOfAll second passed) : TypedArgument.EveryOfAll both passed := by
  match passed with
  | [] => trivial
  | .mk _ value :: rest =>
    exact ⟨TypedExpr.Every.combine follows value one.1 other.1,
      TypedArgument.every_combine follows rest one.2 other.2⟩

end

section

variable {effect effect' effect'' operand operand' operand'' : TypedExpr → Prop}

mutual

/-- What follows for expressions from two properties of them holds of statements that have both. -/
theorem TypedStmt.Every.combine
    (effects : ∀ value : TypedExpr, effect value → effect' value → effect'' value)
    (operands : ∀ value : TypedExpr, operand value → operand' value → operand'' value)
    (statement : TypedStmt) (one : statement.Every effect operand)
    (other : statement.Every effect' operand') : statement.Every effect'' operand'' := by
  match statement with
  | .block body => exact TypedStmt.everyOfAll_combine effects operands body one other
  | .evaluate value => exact effects value one other
  | .giveBack _ none | .leaveLoop | .nextRound => trivial
  | .giveBack _ (some value) => exact operands value one other
  | .branch condition thenBranch none =>
    exact ⟨operands condition one.1 other.1, TypedStmt.Every.combine effects operands thenBranch one.2 other.2⟩
  | .branch condition thenBranch (some elseBranch) =>
    exact ⟨operands condition one.1 other.1, TypedStmt.Every.combine effects operands thenBranch one.2.1 other.2.1,
      TypedStmt.Every.combine effects operands elseBranch one.2.2 other.2.2⟩
  | .whileLoop condition body =>
    exact ⟨operands condition one.1 other.1, TypedStmt.Every.combine effects operands body one.2 other.2⟩
  | .forLoop start condition steps body =>
    obtain ⟨starts, tests, advances, bodies⟩ := one
    obtain ⟨starts', tests', advances', bodies'⟩ := other
    exact ⟨TypedStmt.everyOfAll_combine effects operands start starts starts',
      fun test isTest => operands test (tests test isTest) (tests' test isTest),
      fun step isStep => effects step (advances step isStep) (advances' step isStep),
      TypedStmt.Every.combine effects operands body bodies bodies'⟩

theorem TypedStmt.everyOfAll_combine
    (effects : ∀ value : TypedExpr, effect value → effect' value → effect'' value)
    (operands : ∀ value : TypedExpr, operand value → operand' value → operand'' value)
    (statements : List TypedStmt)
    (one : TypedStmt.EveryOfAll effect operand statements)
    (other : TypedStmt.EveryOfAll effect' operand' statements) :
    TypedStmt.EveryOfAll effect'' operand'' statements := by
  match statements with
  | [] => trivial
  | head :: rest =>
    exact ⟨TypedStmt.Every.combine effects operands head one.1 other.1,
      TypedStmt.everyOfAll_combine effects operands rest one.2 other.2⟩

end

end

/-- The value that is passed as an argument. -/
def TypedArgument.value : TypedArgument → TypedExpr
  | .mk _ value => value

/-- Whether the object of a place, if it has one, has a value. -/
def Place.HasValue : Place → Prop
  | .slot _ => True
  | .field object _ => object.type ≠ .void

/-- Whether all operands of a node have a value. -/
def TypedNode.OperandsHaveValues : TypedNode → Prop
  | .const _ | .slot _ | .newList _ | .newObject _ => True
  | .field object _ => object.type ≠ .void
  | .assign place value | .update place _ value => place.HasValue ∧ value.type ≠ .void
  | .step place _ _ => place.HasValue
  | .binary _ left right | .logical _ left right => left.type ≠ .void ∧ right.type ≠ .void
  | .not operand | .negate operand | .convert _ operand => operand.type ≠ .void
  | .conditional condition thenValue elseValue =>
    condition.type ≠ .void ∧ thenValue.type ≠ .void ∧ elseValue.type ≠ .void
  | .call _ passed => ∀ argument ∈ passed, argument.value.type ≠ .void
  | .hostCall _ passed => ∀ argument ∈ passed, argument.type ≠ .void
  | .builtin _ receiver passed => receiver.type ≠ .void ∧ ∀ argument ∈ passed, argument.type ≠ .void

/-- Whether every operand in an expression has a value. -/
def TypedExpr.ValuesOnly (value : TypedExpr) : Prop := value.Every fun node _ => node.OperandsHaveValues

/-- Whether an expression has a value, and every operand in it as well. -/
def TypedExpr.IsOperand (value : TypedExpr) : Prop := value.type ≠ .void ∧ value.ValuesOnly

/-- Whether every operand in a method has a value. -/
def TypedMethod.ValuesOnly (method : TypedMethod) : Prop :=
  TypedStmt.EveryOfAll TypedExpr.ValuesOnly TypedExpr.IsOperand method.body

/-- Whether every operand in a program has a value. -/
def TypedProgram.ValuesOnly (program : TypedProgram) : Prop := ∀ method ∈ program.methods, method.ValuesOnly

/-! ### Closed libraries -/

theorem LibrarySet.HasField.ne_void {libraries : LibrarySet} {owner type : Ty} {name : String}
    (has : libraries.HasField owner name type) : owner ≠ .void := by
  obtain ⟨host, -, rfl, -⟩ := has
  nofun

theorem BuiltinMember.BelongsTo.ne_void {member : BuiltinMember} {libraries : LibrarySet} {owner : Ty}
    (belongs : member.BelongsTo libraries owner) : owner ≠ .void := by
  unfold BelongsTo at belongs
  split at belongs
  · rw [belongs]
    nofun
  · obtain ⟨element, rfl, -⟩ := belongs
    nofun
  · exact Ty.ne_void_of_holdsValues belongs.holdsValues

/-- The elements of a list that has members have values. -/
theorem BuiltinMember.BelongsTo.element_ne_void {member : BuiltinMember} {libraries : LibrarySet}
    {element : Ty} (belongs : member.BelongsTo libraries (.list element)) : element ≠ .void := by
  unfold BelongsTo at belongs
  split at belongs
  · cases belongs
  · obtain ⟨element', isList, defined⟩ := belongs
    cases isList
    exact Ty.ne_void_of_holdsValues defined.holdsValues
  · exact Ty.ne_void_of_holdsValues (Ty.Defined.holdsValues (show element.Defined libraries from belongs))

/-- The parameters of a member have values. -/
theorem BuiltinMember.slot_ne_void {member : BuiltinMember} {libraries : LibrarySet} {owner : Ty}
    (belongs : member.BelongsTo libraries owner) :
    ∀ parameter ∈ member.signature.parameters.map owner.slot, parameter ≠ .void := by
  have notVoid : ∀ slot ∈ member.signature.parameters, slot ≠ .void := by cases member <;> decide
  intro parameter inParameters
  obtain ⟨slot, inSignature, rfl⟩ := List.mem_map.1 inParameters
  cases slot with
  | void => exact absurd rfl (notVoid _ inSignature)
  | element =>
    cases owner with
    | list element => exact belongs.element_ne_void
    | _ => nofun
  | _ => nofun

/-- What widens to types of values has values. -/
theorem Ty.ne_void_of_forall₂_widens {sources targets : List Ty} (widen : List.Forall₂ Ty.Widens sources targets)
    (haveValues : ∀ target ∈ targets, target ≠ .void) : ∀ source ∈ sources, source ≠ .void := by
  induction widen with
  | nil => exact haveValues
  | cons head _ ih =>
      rw [List.forall_mem_cons] at haveValues ⊢
      exact ⟨head.ne_void haveValues.1, ih haveValues.2⟩

theorem Place.Shows.hasValue {typing : Typing} {place : Place} {shown : Ty} (strict : typing.Strict)
    (shows : place.Shows typing shown) : place.HasValue := by
  cases place with
  | slot index => trivial
  | field object name =>
      obtain ⟨held, has, -⟩ := shows.2 strict
      exact has.ne_void

/-- The arguments of a call have values. -/
theorem TypedArgument.AllFit.ne_void {typing : Typing} (strict : typing.Strict)
    {parameters : List TypedParameter} {passed : List TypedArgument}
    (fits : TypedArgument.AllFit typing parameters passed) :
    ∀ argument ∈ passed, argument.value.type ≠ .void := by
  induction passed generalizing parameters with
  | nil => nofun
  | cons first rest ih =>
      obtain ⟨mode, value⟩ := first
      cases parameters with
      | nil => cases fits
      | cons parameter parameters =>
        obtain ⟨-, -, typed, -, others⟩ := fits
        exact List.forall_mem_cons.2 ⟨(typed strict).1, ih others⟩

mutual

theorem TypedExpr.valuesOnly_of_fits {typing : Typing} (strict : typing.Strict) (value : TypedExpr)
    (fits : value.Fits typing) : value.ValuesOnly := by
  match value with
  | .mk node type span => exact node.valuesOnly_of_fits strict type fits

theorem TypedNode.valuesOnly_of_fits {typing : Typing} (strict : typing.Strict) (node : TypedNode) (type : Ty)
    (fits : node.Fits typing type) :
    node.OperandsHaveValues ∧ node.Every fun node _ => node.OperandsHaveValues := by
  match node with
  | .const _ | .slot _ | .newList _ | .newObject _ => exact ⟨trivial, trivial⟩
  | .field object name =>
    obtain ⟨-, objectFits, typed⟩ := fits
    obtain ⟨held, has, -⟩ := typed strict
    exact ⟨has.ne_void, object.valuesOnly_of_fits strict objectFits⟩
  | .assign place value =>
    obtain ⟨hasValue, valueFits, shown, shows, typed⟩ := fits
    obtain ⟨stored, widens⟩ := typed strict
    exact ⟨⟨shows.hasValue strict, stored.ne_void (widens.ne_void hasValue)⟩,
      place.valuesOnly_of_shows strict shown shows, value.valuesOnly_of_fits strict valueFits⟩
  | .update place operation value =>
    obtain ⟨hasValue, valueFits, shown, shows, typed⟩ := fits
    obtain ⟨result, takes, -, -⟩ := typed strict
    exact ⟨⟨shows.hasValue strict, takes.second_ne_void⟩, place.valuesOnly_of_shows strict shown shows,
      value.valuesOnly_of_fits strict valueFits⟩
  | .step place _ _ =>
    obtain ⟨-, shown, shows, -⟩ := fits
    exact ⟨shows.hasValue strict, place.valuesOnly_of_shows strict shown shows⟩
  | .binary operation left right =>
    obtain ⟨-, leftFits, rightFits, typed⟩ := fits
    obtain ⟨result, takes, -⟩ := typed strict
    exact ⟨⟨takes.first_ne_void, takes.second_ne_void⟩, left.valuesOnly_of_fits strict leftFits,
      right.valuesOnly_of_fits strict rightFits⟩
  | .logical isAnd left right =>
    obtain ⟨-, leftFits, rightFits, typed⟩ := fits
    obtain ⟨isBool, isBool', -⟩ := typed strict
    refine ⟨⟨?_, ?_⟩, left.valuesOnly_of_fits strict leftFits, right.valuesOnly_of_fits strict rightFits⟩
    · rw [isBool]
      nofun
    · rw [isBool']
      nofun
  | .not operand =>
    obtain ⟨-, operandFits, typed⟩ := fits
    refine ⟨?_, operand.valuesOnly_of_fits strict operandFits⟩
    show operand.type ≠ .void
    rw [(typed strict).1]
    nofun
  | .negate operand =>
    obtain ⟨-, operandFits, typed⟩ := fits
    exact ⟨Ty.ne_void_of_isNumeric (typed strict).1, operand.valuesOnly_of_fits strict operandFits⟩
  | .conditional condition thenValue elseValue =>
    obtain ⟨hasValue, testFits, thenFits, elseFits, typed⟩ := fits
    obtain ⟨isBool, thenWidens, elseWidens⟩ := typed strict
    refine ⟨⟨?_, thenWidens.ne_void hasValue, elseWidens.ne_void hasValue⟩,
      condition.valuesOnly_of_fits strict testFits, thenValue.valuesOnly_of_fits strict thenFits,
      elseValue.valuesOnly_of_fits strict elseFits⟩
    rw [isBool]
    nofun
  | .convert (.numeric conversion) operand =>
    obtain ⟨-, operandFits, typed⟩ := fits
    refine ⟨?_, operand.valuesOnly_of_fits strict operandFits⟩
    show operand.type ≠ .void
    rw [(typed strict).1]
    cases conversion <;> nofun
  | .convert (.cast target) operand =>
    obtain ⟨-, operandFits, typed⟩ := fits
    exact ⟨(typed strict).1, operand.valuesOnly_of_fits strict operandFits⟩
  | .call method passed =>
    obtain ⟨signature, -, -, passedFit, -⟩ := fits
    exact ⟨passedFit.ne_void strict, TypedArgument.valuesOnly_of_allFit strict passed passedFit⟩
  | .hostCall function passed =>
    obtain ⟨-, -, passedFit, -, typed⟩ := fits
    obtain ⟨parameters, ⟨defined, -⟩, widen, -⟩ := typed strict
    refine ⟨fun argument member => ?_, TypedExpr.valuesOnly_of_allFit strict passed passedFit⟩
    exact Ty.ne_void_of_forall₂_widens widen
      (fun parameter inParameters => Ty.ne_void_of_holdsValues (defined parameter inParameters).holdsValues)
      argument.type (List.mem_map_of_mem member)
  | .builtin member receiver passed =>
    obtain ⟨receiverFits, -, -, passedFit, typed⟩ := fits
    obtain ⟨belongs, widen, -⟩ := typed strict
    exact ⟨⟨belongs.ne_void, fun argument member => Ty.ne_void_of_forall₂_widens widen
        (BuiltinMember.slot_ne_void belongs) argument.type (List.mem_map_of_mem member)⟩,
      receiver.valuesOnly_of_fits strict receiverFits, TypedExpr.valuesOnly_of_allFit strict passed passedFit⟩

theorem Place.valuesOnly_of_shows {typing : Typing} (strict : typing.Strict) (place : Place) (shown : Ty)
    (shows : place.Shows typing shown) : place.Every fun node _ => node.OperandsHaveValues := by
  match place with
  | .slot index => trivial
  | .field object name => exact object.valuesOnly_of_fits strict shows.1

theorem TypedExpr.valuesOnly_of_allFit {typing : Typing} (strict : typing.Strict) (values : List TypedExpr)
    (fits : TypedExpr.AllFit typing values) :
    TypedExpr.EveryOfAll (fun node _ => node.OperandsHaveValues) values := by
  match values with
  | [] => trivial
  | first :: rest =>
    exact ⟨first.valuesOnly_of_fits strict fits.1, TypedExpr.valuesOnly_of_allFit strict rest fits.2⟩

theorem TypedArgument.valuesOnly_of_allFit {typing : Typing} (strict : typing.Strict)
    {parameters : List TypedParameter} (passed : List TypedArgument)
    (fits : TypedArgument.AllFit typing parameters passed) :
    TypedArgument.EveryOfAll (fun node _ => node.OperandsHaveValues) passed := by
  match passed, parameters with
  | [], _ => trivial
  | .mk mode value :: rest, [] => cases fits
  | .mk mode value :: rest, parameter :: parameters =>
    obtain ⟨-, valueFits, -, -, others⟩ := fits
    exact ⟨value.valuesOnly_of_fits strict valueFits, TypedArgument.valuesOnly_of_allFit strict rest others⟩

end

section

variable {typing : Typing} (strict : typing.Strict)

include strict

/-- A condition is an operand. -/
theorem TypedExpr.isOperand_of_bool (value : TypedExpr) (fits : value.Fits typing)
    (isBool : typing.Strict → value.type = .bool) : value.IsOperand := by
  refine ⟨?_, value.valuesOnly_of_fits strict fits⟩
  rw [isBool strict]
  nofun

theorem TypedExpr.forall_valuesOnly (values : List TypedExpr) (fits : TypedExpr.AllFit typing values) :
    ∀ value ∈ values, value.ValuesOnly := by
  induction values with
  | nil => nofun
  | cons first rest ih => exact List.forall_mem_cons.2 ⟨first.valuesOnly_of_fits strict fits.1, ih fits.2⟩

end

mutual

theorem TypedStmt.valuesOnly_of_fits {typing : Typing} {isNested : Bool} (strict : typing.Strict)
    (statement : TypedStmt) (fits : statement.Fits typing isNested) :
    statement.Every TypedExpr.ValuesOnly TypedExpr.IsOperand := by
  match statement with
  | .block body => exact TypedStmt.valuesOnly_of_allFit strict body fits
  | .evaluate value => exact value.valuesOnly_of_fits strict fits
  | .giveBack _ none | .leaveLoop | .nextRound => trivial
  | .giveBack _ (some value) =>
    obtain ⟨hasResult, valueFits, widens⟩ := fits
    exact ⟨(widens strict).ne_void hasResult, value.valuesOnly_of_fits strict valueFits⟩
  | .branch condition thenBranch none =>
    obtain ⟨testFits, isBool, thenFits⟩ := fits
    exact ⟨condition.isOperand_of_bool strict testFits isBool, thenBranch.valuesOnly_of_fits strict thenFits⟩
  | .branch condition thenBranch (some elseBranch) =>
    obtain ⟨testFits, isBool, thenFits, elseFits⟩ := fits
    exact ⟨condition.isOperand_of_bool strict testFits isBool, thenBranch.valuesOnly_of_fits strict thenFits,
      elseBranch.valuesOnly_of_fits strict elseFits⟩
  | .whileLoop condition body =>
    obtain ⟨testFits, isBool, bodyFits⟩ := fits
    exact ⟨condition.isOperand_of_bool strict testFits isBool, body.valuesOnly_of_fits strict bodyFits⟩
  | .forLoop start condition steps body =>
    obtain ⟨startFits, testFits, stepsFit, bodyFits⟩ := fits
    exact ⟨TypedStmt.valuesOnly_of_allFit strict start startFits,
      fun test isTest => test.isOperand_of_bool strict (testFits test isTest).1 (testFits test isTest).2,
      TypedExpr.forall_valuesOnly strict steps stepsFit, body.valuesOnly_of_fits strict bodyFits⟩

theorem TypedStmt.valuesOnly_of_allFit {typing : Typing} {isNested : Bool} (strict : typing.Strict)
    (statements : List TypedStmt) (fits : TypedStmt.AllFit typing isNested statements) :
    TypedStmt.EveryOfAll TypedExpr.ValuesOnly TypedExpr.IsOperand statements := by
  match statements with
  | [] => trivial
  | first :: rest =>
    exact ⟨first.valuesOnly_of_fits strict fits.1, TypedStmt.valuesOnly_of_allFit strict rest fits.2⟩

end

/-- Over closed libraries every operand in a program whose methods keep their promises has a value. -/
theorem TypedProgram.valuesOnly_of_closed {program : TypedProgram} {libraries : LibrarySet}
    (closed : libraries.Closed) (fits : ∀ method ∈ program.methods, program.MethodFits libraries method) :
    program.ValuesOnly :=
  fun method member => TypedStmt.valuesOnly_of_allFit (show (program.typing libraries method).Strict from closed)
    method.body (fits method member).body

end Snippet
