import Snippet.Machine.Module
import Snippet.Proofs.Typing.Types
import Snippet.Typing.Tree

/-!
The typing judgement: what the nodes of a typed tree promise. Slots and methods exist, an expression
has no value exactly if it calls what gives none, and jumps out of a round stand in loops. Over
closed libraries the types fit as well; over others an open type of a member fits everywhere.
-/

namespace Snippet

/-- A method as its callers and its body know it. -/
structure MethodType where
  parameters : List TypedParameter
  result : Ty

/-- What the body of a method is typed against. -/
structure Typing where
  libraries : LibrarySet
  methods : List MethodType
  slots : List Slot
  /-- The result of the method. -/
  result : Ty

/-- Whether every type of the body fits. -/
def Typing.Strict (typing : Typing) : Prop := typing.libraries.Closed

/-- The type of the numbers that a conversion takes. -/
def NumericConversion.source : NumericConversion → Ty
  | intToLong | intToDouble => .int
  | longToDouble | longToInt => .long
  | doubleToInt | doubleToLong => .double

/-- The type of the numbers that a conversion gives. -/
def NumericConversion.target : NumericConversion → Ty
  | intToLong | doubleToLong => .long
  | intToDouble | longToDouble => .double
  | longToInt | doubleToInt => .int

/-- Whether values of a type have a member. -/
def BuiltinMember.BelongsTo (member : BuiltinMember) (libraries : LibrarySet) (owner : Ty) : Prop :=
  match member.signature.owner with
  | .text => owner = .string
  | .list => ∃ element : Ty, owner = .list element ∧ element.Defined libraries
  | .any => owner.Defined libraries

/-- Whether a name is that of a type that is not static. -/
def LibrarySet.Creates (libraries : LibrarySet) (name : String) : Prop :=
  ∃ type, libraries.findType? name = some type ∧ type.kind ≠ .static

/-- Whether a function is found in the libraries. -/
def FunctionImport.Links (function : FunctionImport) (libraries : LibrarySet) : Prop :=
  ∃ linked, function.link libraries = .ok linked

/-- The types of the parameters of a function, by their full names. -/
def FunctionImport.Takes (function : FunctionImport) (libraries : LibrarySet) (parameters : List Ty) : Prop :=
  (∀ parameter ∈ parameters, parameter.Defined libraries) ∧
    parameters.map Ty.fullName = function.parameters

/-- The type of the result of a function, by its full name. -/
def FunctionImport.Gives (function : FunctionImport) (libraries : LibrarySet) (result : Ty) : Prop :=
  result.Defined libraries ∧ function.result = some result.fullName

mutual

/-- Whether an expression keeps the promises of its node. -/
def TypedExpr.Fits (typing : Typing) : TypedExpr → Prop
  | .mk node type _ => node.Fits typing type

/-- Whether a node keeps its promises as an expression of a type. The type may be wider than the one
that the node gives by itself. -/
def TypedNode.Fits (typing : Typing) (type : Ty) : TypedNode → Prop
  | .const value => type ≠ .void ∧ (typing.Strict → type.AdmitsConstant value)
  | .slot index => type ≠ .void ∧ ∃ slot, typing.slots[index]? = some slot ∧
      (typing.Strict → slot.type.Widens type)
  | .field object name => type ≠ .void ∧ object.Fits typing ∧
      (typing.Strict → ∃ held, typing.libraries.HasField object.type name held ∧ held.Widens type)
  | .assign place value => type ≠ .void ∧ value.Fits typing ∧ ∃ shown, place.Shows typing shown ∧
      (typing.Strict → value.type.Widens shown ∧ shown.Widens type)
  | .update place operation value => type ≠ .void ∧ value.Fits typing ∧ ∃ shown,
      place.Shows typing shown ∧ (typing.Strict → ∃ result,
        operation.Takes shown value.type result ∧ result.Widens shown ∧ shown.Widens type)
  | .step place _ _ => type ≠ .void ∧ ∃ shown, place.Shows typing shown ∧
      (typing.Strict → shown.isNumeric = true ∧ shown.Widens type)
  | .binary operation left right => type ≠ .void ∧ left.Fits typing ∧ right.Fits typing ∧
      (typing.Strict → ∃ result, operation.Takes left.type right.type result ∧ result.Widens type)
  | .logical _ left right => type ≠ .void ∧ left.Fits typing ∧ right.Fits typing ∧
      (typing.Strict → left.type = .bool ∧ right.type = .bool ∧ Ty.bool.Widens type)
  | .not operand => type ≠ .void ∧ operand.Fits typing ∧
      (typing.Strict → operand.type = .bool ∧ Ty.bool.Widens type)
  | .negate operand => type ≠ .void ∧ operand.Fits typing ∧
      (typing.Strict → operand.type.isNumeric = true ∧ operand.type.Widens type)
  | .conditional condition thenValue elseValue =>
      type ≠ .void ∧ condition.Fits typing ∧ thenValue.Fits typing ∧ elseValue.Fits typing ∧
      (typing.Strict → condition.type = .bool ∧ thenValue.type.Widens type ∧ elseValue.type.Widens type)
  | .convert (.numeric conversion) operand => type ≠ .void ∧ operand.Fits typing ∧
      (typing.Strict → operand.type = conversion.source ∧ conversion.target.Widens type)
  | .convert (.cast name) operand => type ≠ .void ∧ operand.Fits typing ∧
      (typing.Strict → operand.type ≠ .void ∧
        ∃ target : Ty, target.Defined typing.libraries ∧ target.fullName = name ∧ target.Widens type)
  | .call method passed => ∃ signature, typing.methods[method]? = some signature ∧
      (type = .void ↔ signature.result = .void) ∧
      TypedArgument.AllFit typing signature.parameters passed ∧
      (typing.Strict → signature.result.Widens type)
  | .hostCall function passed => passed.length = function.parameters.length ∧
      (type = .void ↔ function.result = none) ∧ TypedExpr.AllFit typing passed ∧
      function.Links typing.libraries ∧ (typing.Strict → ∃ parameters, function.Takes typing.libraries parameters ∧
        List.Forall₂ Ty.Widens (passed.map (·.type)) parameters ∧
        (type ≠ .void → ∃ result, function.Gives typing.libraries result ∧ result.Widens type))
  | .builtin member receiver passed => receiver.Fits typing ∧ passed.length = member.arity ∧
      (type = .void ↔ member.hasResult = false) ∧ TypedExpr.AllFit typing passed ∧
      (typing.Strict → member.BelongsTo typing.libraries receiver.type ∧
        List.Forall₂ Ty.Widens (passed.map (·.type))
          (member.signature.parameters.map receiver.type.slot) ∧
        (receiver.type.slot member.signature.result).Widens type)
  | .newList name => type ≠ .void ∧ (typing.Strict → ∃ element : Ty,
      element.Defined typing.libraries ∧ element.fullName = name ∧ (Ty.list element).Widens type)
  | .newObject name => type ≠ .void ∧ typing.libraries.Creates name ∧
      (typing.Strict → (Ty.data name).Widens type)

/-- Whether a place exists, can be assigned to and is used as one of a type: a variable as one of its own
type, a field as one of its type or of a wider one. -/
def Place.Shows (typing : Typing) (shown : Ty) : Place → Prop
  | .slot index => ∃ slot, typing.slots[index]? = some slot ∧ slot.mode ≠ some .input ∧ slot.type = shown
  | .field object name => object.Fits typing ∧
      (typing.Strict → ∃ held, typing.libraries.HasField object.type name held ∧ held.Widens shown)

/-- Whether expressions keep their promises. -/
def TypedExpr.AllFit (typing : Typing) : List TypedExpr → Prop
  | [] => True
  | first :: rest => first.Fits typing ∧ TypedExpr.AllFit typing rest

/-- Whether the arguments of a call fit its parameters. What is written back is a slot that can be
assigned to. -/
def TypedArgument.AllFit (typing : Typing) : List TypedParameter → List TypedArgument → Prop
  | [], [] => True
  | parameter :: parameters, .mk mode value :: rest => mode = parameter.mode ∧ value.Fits typing ∧
      (typing.Strict → value.type ≠ .void ∧ value.type.Widens parameter.type) ∧
      (mode.writesBack = true → ∃ index slot, value.node = .slot index ∧
        typing.slots[index]? = some slot ∧ slot.mode ≠ some .input ∧
        (typing.Strict → value.type = parameter.type ∧ slot.type = parameter.type)) ∧
      TypedArgument.AllFit typing parameters rest
  | _, _ => False

end

mutual

/-- Whether a statement keeps its promises, in a loop or outside all loops. -/
def TypedStmt.Fits (typing : Typing) (isNested : Bool) : TypedStmt → Prop
  | .block body => TypedStmt.AllFit typing isNested body
  | .evaluate value => value.Fits typing
  | .giveBack _ none => typing.result = .void
  | .giveBack _ (some value) => typing.result ≠ .void ∧ value.Fits typing ∧
      (typing.Strict → value.type.Widens typing.result)
  | .branch condition thenBranch none => condition.Fits typing ∧
      (typing.Strict → condition.type = .bool) ∧ thenBranch.Fits typing isNested
  | .branch condition thenBranch (some elseBranch) => condition.Fits typing ∧
      (typing.Strict → condition.type = .bool) ∧ thenBranch.Fits typing isNested ∧
      elseBranch.Fits typing isNested
  | .whileLoop condition body => condition.Fits typing ∧
      (typing.Strict → condition.type = .bool) ∧ body.Fits typing true
  | .forLoop start condition steps body => TypedStmt.AllFit typing isNested start ∧
      (∀ test ∈ condition, test.Fits typing ∧ (typing.Strict → test.type = .bool)) ∧
      TypedExpr.AllFit typing steps ∧ body.Fits typing true
  | .leaveLoop | .nextRound => isNested = true

/-- Whether statements keep their promises, in a loop or outside all loops. -/
def TypedStmt.AllFit (typing : Typing) (isNested : Bool) : List TypedStmt → Prop
  | [] => True
  | first :: rest => first.Fits typing isNested ∧ TypedStmt.AllFit typing isNested rest

end

theorem TypedExpr.Fits.node {typing : Typing} {value : TypedExpr} (fits : value.Fits typing) :
    value.node.Fits typing value.type := by
  cases value
  rwa [TypedExpr.Fits] at fits

theorem TypedExpr.fits_mk {typing : Typing} {node : TypedNode} {type : Ty} {span : Span}
    (fits : node.Fits typing type) : (TypedExpr.mk node type span).Fits typing := by
  rwa [TypedExpr.Fits]

/-- A node keeps its promises at a wider type. -/
theorem TypedNode.Fits.relabel {typing : Typing} {node : TypedNode} {source target : Ty}
    (fits : node.Fits typing source) (hasSource : source ≠ .void) (hasTarget : target ≠ .void)
    (widens : typing.Strict → source.Widens target) : node.Fits typing target := by
  have callable (hasNone : Prop) (same : source = .void ↔ hasNone) : target = .void ↔ hasNone :=
    iff_of_false hasTarget (mt same.2 hasSource)
  cases node with
  | const value =>
    rw [TypedNode.Fits] at fits ⊢
    exact ⟨hasTarget, fun strict => (widens strict).admitsConstant (fits.2 strict)⟩
  | slot index =>
    rw [TypedNode.Fits] at fits ⊢
    obtain ⟨-, slot, found, fit⟩ := fits
    exact ⟨hasTarget, slot, found, fun strict => (fit strict).trans (widens strict)⟩
  | field object name =>
    rw [TypedNode.Fits] at fits ⊢
    refine ⟨hasTarget, fits.2.1, fun strict => ?_⟩
    obtain ⟨held, has, fit⟩ := fits.2.2 strict
    exact ⟨held, has, fit.trans (widens strict)⟩
  | assign place value =>
    rw [TypedNode.Fits] at fits ⊢
    obtain ⟨-, fitsValue, shown, shows, fit⟩ := fits
    exact ⟨hasTarget, fitsValue, shown, shows, fun strict =>
      ⟨(fit strict).1, (fit strict).2.trans (widens strict)⟩⟩
  | update place operation value =>
    rw [TypedNode.Fits] at fits ⊢
    obtain ⟨-, fitsValue, shown, shows, fit⟩ := fits
    refine ⟨hasTarget, fitsValue, shown, shows, fun strict => ?_⟩
    obtain ⟨result, takes, back, fit⟩ := fit strict
    exact ⟨result, takes, back, fit.trans (widens strict)⟩
  | step place isIncrement isFront =>
    rw [TypedNode.Fits] at fits ⊢
    obtain ⟨-, shown, shows, fit⟩ := fits
    exact ⟨hasTarget, shown, shows, fun strict => ⟨(fit strict).1, (fit strict).2.trans (widens strict)⟩⟩
  | binary operation left right =>
    rw [TypedNode.Fits] at fits ⊢
    refine ⟨hasTarget, fits.2.1, fits.2.2.1, fun strict => ?_⟩
    obtain ⟨result, takes, fit⟩ := fits.2.2.2 strict
    exact ⟨result, takes, fit.trans (widens strict)⟩
  | logical isAnd left right =>
    rw [TypedNode.Fits] at fits ⊢
    refine ⟨hasTarget, fits.2.1, fits.2.2.1, fun strict => ?_⟩
    obtain ⟨isLeft, isRight, fit⟩ := fits.2.2.2 strict
    exact ⟨isLeft, isRight, fit.trans (widens strict)⟩
  | not operand | negate operand =>
    rw [TypedNode.Fits] at fits ⊢
    exact ⟨hasTarget, fits.2.1, fun strict =>
      ⟨(fits.2.2 strict).1, (fits.2.2 strict).2.trans (widens strict)⟩⟩
  | conditional condition thenValue elseValue =>
    rw [TypedNode.Fits] at fits ⊢
    obtain ⟨-, fitsCondition, fitsThen, fitsElse, fit⟩ := fits
    exact ⟨hasTarget, fitsCondition, fitsThen, fitsElse, fun strict => ⟨(fit strict).1,
      (fit strict).2.1.trans (widens strict), (fit strict).2.2.trans (widens strict)⟩⟩
  | convert conversion operand =>
    cases conversion with
    | numeric conversion =>
      rw [TypedNode.Fits] at fits ⊢
      exact ⟨hasTarget, fits.2.1, fun strict =>
        ⟨(fits.2.2 strict).1, (fits.2.2 strict).2.trans (widens strict)⟩⟩
    | cast name =>
      rw [TypedNode.Fits] at fits ⊢
      refine ⟨hasTarget, fits.2.1, fun strict => ?_⟩
      obtain ⟨hasValue, named, defined, isName, fit⟩ := fits.2.2 strict
      exact ⟨hasValue, named, defined, isName, fit.trans (widens strict)⟩
  | call method passed =>
    rw [TypedNode.Fits] at fits ⊢
    obtain ⟨signature, found, same, fitsPassed, fit⟩ := fits
    exact ⟨signature, found, callable _ same, fitsPassed, fun strict => (fit strict).trans (widens strict)⟩
  | hostCall function passed =>
    rw [TypedNode.Fits] at fits ⊢
    obtain ⟨count, same, fitsPassed, links, fit⟩ := fits
    refine ⟨count, callable _ same, fitsPassed, links, fun strict => ?_⟩
    obtain ⟨parameters, takes, fitsTypes, gives⟩ := fit strict
    obtain ⟨result, isResult, fit⟩ := gives hasSource
    exact ⟨parameters, takes, fitsTypes, fun _ => ⟨result, isResult, fit.trans (widens strict)⟩⟩
  | builtin member receiver passed =>
    rw [TypedNode.Fits] at fits ⊢
    obtain ⟨fitsReceiver, count, same, fitsPassed, fit⟩ := fits
    exact ⟨fitsReceiver, count, callable _ same, fitsPassed, fun strict =>
      ⟨(fit strict).1, (fit strict).2.1, (fit strict).2.2.trans (widens strict)⟩⟩
  | newList name =>
    rw [TypedNode.Fits] at fits ⊢
    refine ⟨hasTarget, fun strict => ?_⟩
    obtain ⟨element, defined, isName, fit⟩ := fits.2 strict
    exact ⟨element, defined, isName, fit.trans (widens strict)⟩
  | newObject name =>
    rw [TypedNode.Fits] at fits ⊢
    exact ⟨hasTarget, fits.2.1, fun strict => (fits.2.2 strict).trans (widens strict)⟩

theorem TypedExpr.allFit_iff {typing : Typing} {values : List TypedExpr} :
    AllFit typing values ↔ ∀ value ∈ values, value.Fits typing := by
  induction values with
  | nil => exact ⟨fun _ => nofun, fun _ => trivial⟩
  | cons first rest ih => rw [List.forall_mem_cons, ← ih, AllFit]

theorem TypedStmt.allFit_iff {typing : Typing} {nested : Bool} {body : List TypedStmt} :
    AllFit typing nested body ↔ ∀ statement ∈ body, statement.Fits typing nested := by
  induction body with
  | nil => exact ⟨fun _ => nofun, fun _ => trivial⟩
  | cons first rest ih => rw [List.forall_mem_cons, ← ih, AllFit]

/-- Whether parameters and result of a method exist. -/
structure MethodType.Defined (libraries : LibrarySet) (method : MethodType) : Prop where
  parameters : ∀ parameter ∈ method.parameters, parameter.type.Defined libraries
  result : method.result = .void ∨ method.result.Defined libraries

/-- A method as its callers know it. -/
def TypedMethod.methodType (method : TypedMethod) : MethodType := ⟨method.parameters, method.result⟩

namespace TypedProgram

/-- What the body of a method of a program is typed against. -/
def typing (program : TypedProgram) (libraries : LibrarySet) (method : TypedMethod) : Typing :=
  ⟨libraries, program.methods.map (·.methodType), method.slots, method.result⟩

/-- What holds of a method of a checked program. -/
structure MethodFits (program : TypedProgram) (libraries : LibrarySet) (method : TypedMethod) : Prop where
  /-- The parameters are the first slots. -/
  parameters : (method.slots.take method.parameters.length).map (fun slot => (slot.type, slot.mode)) =
    method.parameters.map fun parameter => (parameter.type, some parameter.mode)
  /-- No other slot is a parameter. -/
  locals : ∀ slot ∈ method.slots.drop method.parameters.length, slot.mode = none
  slots : ∀ slot ∈ method.slots, slot.type.holdsValues = true ∧
    (libraries.Closed → slot.type.Defined libraries)
  defined : libraries.Closed → method.methodType.Defined libraries
  body : TypedStmt.AllFit (program.typing libraries method) false method.body

end TypedProgram

end Snippet
