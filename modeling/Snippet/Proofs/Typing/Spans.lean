import Snippet.Proofs.Grammar.Spans
import Snippet.Typing.Program

/-!
Typed trees, findings and the state of the checker with other places, and conversions in such trees.
-/

namespace Snippet

/-- A finding at a changed place. -/
def Finding.mapSpans (change : Span → Span) (finding : Finding) : Finding := ⟨finding.problem, change finding.span⟩

@[simp]
theorem Finding.isError_mapSpans (change : Span → Span) (finding : Finding) :
    (finding.mapSpans change).isError = finding.isError := rfl

/-! ### Typed trees -/

mutual

/-- A typed expression with changed places. -/
def TypedExpr.mapSpans (change : Span → Span) : TypedExpr → TypedExpr
  | .mk node type span => .mk (node.mapSpans change) type (change span)

/-- A kind of typed expression with changed places. -/
def TypedNode.mapSpans (change : Span → Span) : TypedNode → TypedNode
  | .const value => .const value
  | .slot index => .slot index
  | .field object name => .field (object.mapSpans change) name
  | .assign place value => .assign (place.mapSpans change) (value.mapSpans change)
  | .update place operation value => .update (place.mapSpans change) operation (value.mapSpans change)
  | .step place isIncrement isFront => .step (place.mapSpans change) isIncrement isFront
  | .binary operation left right => .binary operation (left.mapSpans change) (right.mapSpans change)
  | .logical isAnd left right => .logical isAnd (left.mapSpans change) (right.mapSpans change)
  | .not operand => .not (operand.mapSpans change)
  | .negate operand => .negate (operand.mapSpans change)
  | .conditional condition thenValue elseValue =>
    .conditional (condition.mapSpans change) (thenValue.mapSpans change) (elseValue.mapSpans change)
  | .convert conversion operand => .convert conversion (operand.mapSpans change)
  | .call method arguments => .call method (TypedArgument.mapSpansOfAll change arguments)
  | .hostCall function arguments => .hostCall function (TypedExpr.mapSpansOfAll change arguments)
  | .builtin member receiver arguments =>
    .builtin member (receiver.mapSpans change) (TypedExpr.mapSpansOfAll change arguments)
  | .newList element => .newList element
  | .newObject type => .newObject type

/-- What can be assigned to, with changed places. -/
def Place.mapSpans (change : Span → Span) : Place → Place
  | .slot index => .slot index
  | .field object name => .field (object.mapSpans change) name

/-- An argument of a call with changed places. -/
def TypedArgument.mapSpans (change : Span → Span) : TypedArgument → TypedArgument
  | .mk mode value => .mk mode (value.mapSpans change)

/-- Typed expressions with changed places. -/
def TypedExpr.mapSpansOfAll (change : Span → Span) : List TypedExpr → List TypedExpr
  | [] => []
  | first :: rest => first.mapSpans change :: TypedExpr.mapSpansOfAll change rest

/-- Arguments of a call with changed places. -/
def TypedArgument.mapSpansOfAll (change : Span → Span) : List TypedArgument → List TypedArgument
  | [] => []
  | first :: rest => first.mapSpans change :: TypedArgument.mapSpansOfAll change rest

end

mutual

/-- A typed statement with changed places. -/
def TypedStmt.mapSpans (change : Span → Span) : TypedStmt → TypedStmt
  | .block body => .block (TypedStmt.mapSpansOfAll change body)
  | .evaluate value => .evaluate (value.mapSpans change)
  | .giveBack span value => .giveBack (change span) (value.map (TypedExpr.mapSpans change))
  | .branch condition thenBranch elseBranch =>
    .branch (condition.mapSpans change) (thenBranch.mapSpans change) (TypedStmt.mapSpansOfOptional change elseBranch)
  | .whileLoop condition body => .whileLoop (condition.mapSpans change) (body.mapSpans change)
  | .forLoop start condition steps body =>
    .forLoop (TypedStmt.mapSpansOfAll change start) (condition.map (TypedExpr.mapSpans change))
      (steps.map (TypedExpr.mapSpans change)) (body.mapSpans change)
  | .leaveLoop => .leaveLoop
  | .nextRound => .nextRound

/-- Typed statements with changed places. -/
def TypedStmt.mapSpansOfAll (change : Span → Span) : List TypedStmt → List TypedStmt
  | [] => []
  | first :: rest => first.mapSpans change :: TypedStmt.mapSpansOfAll change rest

/-- A typed branch that may be missing, with changed places. -/
def TypedStmt.mapSpansOfOptional (change : Span → Span) : Option TypedStmt → Option TypedStmt
  | none => none
  | some body => some (body.mapSpans change)

end

/-! ### No change of places -/

mutual

theorem TypedExpr.mapSpans_id (value : TypedExpr) : value.mapSpans id = value := by
  match value with
  | .mk node _ _ => rw [TypedExpr.mapSpans, node.mapSpans_id, id]

theorem TypedNode.mapSpans_id (node : TypedNode) : node.mapSpans id = node := by
  match node with
  | .const _ | .slot _ | .newList _ | .newObject _ => rfl
  | .field inner _ | .not inner | .negate inner | .convert _ inner => rw [TypedNode.mapSpans, inner.mapSpans_id]
  | .assign place value | .update place _ value => rw [TypedNode.mapSpans, place.mapSpans_id, value.mapSpans_id]
  | .step place _ _ => rw [TypedNode.mapSpans, place.mapSpans_id]
  | .binary _ left right | .logical _ left right => rw [TypedNode.mapSpans, left.mapSpans_id, right.mapSpans_id]
  | .conditional condition thenValue elseValue =>
    rw [TypedNode.mapSpans, condition.mapSpans_id, thenValue.mapSpans_id, elseValue.mapSpans_id]
  | .call _ passed => rw [TypedNode.mapSpans, TypedArgument.mapSpansOfAll_id passed]
  | .hostCall _ passed => rw [TypedNode.mapSpans, TypedExpr.mapSpansOfAll_id passed]
  | .builtin _ receiver passed =>
    rw [TypedNode.mapSpans, receiver.mapSpans_id, TypedExpr.mapSpansOfAll_id passed]

theorem Place.mapSpans_id (place : Place) : place.mapSpans id = place := by
  match place with
  | .slot _ => rfl
  | .field object _ => rw [Place.mapSpans, object.mapSpans_id]

theorem TypedExpr.mapSpansOfAll_id (values : List TypedExpr) : TypedExpr.mapSpansOfAll id values = values := by
  match values with
  | [] => rfl
  | first :: rest => rw [TypedExpr.mapSpansOfAll, first.mapSpans_id, TypedExpr.mapSpansOfAll_id rest]

theorem TypedArgument.mapSpansOfAll_id (passed : List TypedArgument) :
    TypedArgument.mapSpansOfAll id passed = passed := by
  match passed with
  | [] => rfl
  | .mk _ value :: rest =>
    rw [TypedArgument.mapSpansOfAll, TypedArgument.mapSpans, value.mapSpans_id, TypedArgument.mapSpansOfAll_id rest]

end

mutual

theorem TypedStmt.mapSpans_id (statement : TypedStmt) : statement.mapSpans id = statement := by
  match statement with
  | .leaveLoop | .nextRound => rfl
  | .block body => rw [TypedStmt.mapSpans, TypedStmt.mapSpansOfAll_id body]
  | .evaluate value => rw [TypedStmt.mapSpans, value.mapSpans_id]
  | .giveBack _ value => rw [TypedStmt.mapSpans, funext TypedExpr.mapSpans_id, Option.map_id', id]
  | .branch condition thenBranch elseBranch =>
    rw [TypedStmt.mapSpans, condition.mapSpans_id, thenBranch.mapSpans_id, TypedStmt.mapSpansOfOptional_id elseBranch]
  | .whileLoop condition body => rw [TypedStmt.mapSpans, condition.mapSpans_id, body.mapSpans_id]
  | .forLoop start condition steps body =>
    rw [TypedStmt.mapSpans, TypedStmt.mapSpansOfAll_id start, body.mapSpans_id, funext TypedExpr.mapSpans_id,
      Option.map_id', List.map_id']

theorem TypedStmt.mapSpansOfAll_id (body : List TypedStmt) : TypedStmt.mapSpansOfAll id body = body := by
  match body with
  | [] => rfl
  | first :: rest => rw [TypedStmt.mapSpansOfAll, first.mapSpans_id, TypedStmt.mapSpansOfAll_id rest]

theorem TypedStmt.mapSpansOfOptional_id (branch : Option TypedStmt) :
    TypedStmt.mapSpansOfOptional id branch = branch := by
  match branch with
  | none => rfl
  | some body => rw [TypedStmt.mapSpansOfOptional, body.mapSpans_id]

end

/-- A slot with a changed place. -/
def Slot.mapSpans (change : Span → Span) (slot : Slot) : Slot := { slot with span := change slot.span }

/-- A typed method with changed places. -/
def TypedMethod.mapSpans (change : Span → Span) (method : TypedMethod) : TypedMethod :=
  { method with
    slots := method.slots.map (Slot.mapSpans change)
    body := method.body.map (TypedStmt.mapSpans change)
    span := change method.span }

/-- A typed program with changed places. -/
def TypedProgram.mapSpans (change : Span → Span) (program : TypedProgram) : TypedProgram :=
  { program with methods := program.methods.map (TypedMethod.mapSpans change) }

/-! ### The checker -/

/-- A checked argument with changed places. -/
def CheckedArgument.mapSpans (change : Span → Span) (argument : CheckedArgument) : CheckedArgument :=
  ⟨argument.mode, argument.value.mapSpans change, change argument.span⟩

/-- What an expression means, with changed places. -/
def Referent.mapSpans (change : Span → Span) : Referent → Referent
  | .value typed => .value (typed.mapSpans change)
  | other => other

/-- What a call may mean, with changed places. -/
def Callee.mapSpans (change : Span → Span) (callee : Callee) : Callee :=
  { callee with receiver := callee.receiver.map (TypedExpr.mapSpans change) }

/-- A method header with changed places. -/
def MethodHeader.mapSpans (change : Span → Span) (header : MethodHeader) : MethodHeader :=
  { header with decl := header.decl.mapSpans change }

/-- What a body is checked against, with changed places. -/
def BodyContext.mapSpans (change : Span → Span) (context : BodyContext) : BodyContext :=
  { context with methods := context.methods.map (MethodHeader.mapSpans change) }

/-- The state of the checker with changed places. -/
def BodyState.mapSpans (change : Span → Span) (state : BodyState) : BodyState :=
  { state with
    slots := state.slots.map (Slot.mapSpans change)
    findings := state.findings.map (Finding.mapSpans change) }

/-- What has been collected, with changed places. -/
def Collected.mapSpans (change : Span → Span) (collected : Collected) : Collected :=
  { collected with
    methods := collected.methods.map (List.map (MethodDecl.mapSpans change))
    directives := collected.directives.map (List.map (UsingDirective.mapSpans change))
    findings := collected.findings.map (Finding.mapSpans change) }

/-! ### What a change of places keeps -/

section

variable (change : Span → Span)

@[simp]
theorem TypedExpr.mapSpansOfAll_eq_map (values : List TypedExpr) :
    TypedExpr.mapSpansOfAll change values = values.map (TypedExpr.mapSpans change) := by
  induction values with
  | nil => rfl
  | cons first rest ih => rw [TypedExpr.mapSpansOfAll, ih, List.map_cons]

@[simp]
theorem TypedArgument.mapSpansOfAll_eq_map (passed : List TypedArgument) :
    TypedArgument.mapSpansOfAll change passed = passed.map (TypedArgument.mapSpans change) := by
  induction passed with
  | nil => rfl
  | cons first rest ih => rw [TypedArgument.mapSpansOfAll, ih, List.map_cons]

@[simp]
theorem TypedStmt.mapSpansOfAll_eq_map (body : List TypedStmt) :
    TypedStmt.mapSpansOfAll change body = body.map (TypedStmt.mapSpans change) := by
  induction body with
  | nil => rfl
  | cons first rest ih => rw [TypedStmt.mapSpansOfAll, ih, List.map_cons]

namespace BodyContext

variable (context : BodyContext)

@[simp]
theorem environment_mapSpans : (context.mapSpans change).environment = context.environment := rfl

@[simp]
theorem owner_mapSpans : (context.mapSpans change).owner = context.owner := rfl

@[simp]
theorem label_mapSpans : (context.mapSpans change).label = context.label := rfl

@[simp]
theorem result_mapSpans : (context.mapSpans change).result = context.result := rfl

end BodyContext

namespace TypedExpr

variable (value : TypedExpr)

@[simp]
theorem type_mapSpans : (value.mapSpans change).type = value.type := by
  cases value
  rfl

@[simp]
theorem span_mapSpans : (value.mapSpans change).span = change value.span := by
  cases value
  rfl

@[simp]
theorem node_mapSpans : (value.mapSpans change).node = value.node.mapSpans change := by
  cases value
  rfl

@[simp]
theorem constant?_mapSpans : (value.mapSpans change).constant? = value.constant? := by
  obtain ⟨node, type, span⟩ := value
  cases node <;> rfl

@[simp]
theorem constantBool?_mapSpans : (value.mapSpans change).constantBool? = value.constantBool? := by
  rw [constantBool?, constant?_mapSpans]
  rfl

end TypedExpr

end

/-! ### Results and conversions -/

/-- A result with changed places. -/
def moveResult {α β : Type} (change : Span → Span) (move : α → β) : Except Finding α → Except Finding β
  | .ok value => .ok (move value)
  | .error finding => .error (finding.mapSpans change)

theorem moveResult_bind {α β γ δ : Type} {change : Span → Span} {through : γ → δ} {move : α → β}
    {first : Except Finding γ} {rest : γ → Except Finding α} {rest' : δ → Except Finding β}
    (tail : ∀ value : γ, rest' (through value) = moveResult change move (rest value)) :
    (moveResult change through first >>= rest') = moveResult change move (first >>= rest) := by
  cases first with
  | ok value => exact tail value
  | error finding => rfl

theorem moveResult_choose {α β : Type} {change : Span → Span} {move : α → β} {condition : Prop}
    [Decidable condition] {first second : Except Finding α} {first' second' : Except Finding β}
    (yes : first' = moveResult change move first) (no : second' = moveResult change move second) :
    (if condition then first' else second') = moveResult change move (if condition then first else second) := by
  rw [yes, no, apply_ite (moveResult change move)]

theorem moveResult_mapM {α β γ δ : Type} {change : Span → Span} {through : γ → δ} {move : α → β}
    {give : γ → Except Finding α} {give' : δ → Except Finding β}
    (each : ∀ value : γ, give' (through value) = moveResult change move (give value)) (values : List γ) :
    (values.map through).mapM give' = moveResult change (List.map move) (values.mapM give) := by
  induction values with
  | nil => rfl
  | cons value rest ih =>
    rw [List.map_cons, List.mapM_cons, List.mapM_cons, each, ih]
    exact moveResult_bind fun first => moveResult_bind fun others => rfl

section

variable (change : Span → Span)

@[simp]
theorem TypedExpr.withType_mapSpans (value : TypedExpr) (type : Ty) :
    (value.mapSpans change).withType type = (value.withType type).mapSpans change := by
  cases value
  rfl

theorem TypedExpr.coerced_mapSpans (value : TypedExpr) (coercion : Coercion) (target : Ty) :
    (value.mapSpans change).coerced coercion target = (value.coerced coercion target).mapSpans change := by
  cases coercion with
  | identity => rfl
  | reference => exact value.withType_mapSpans change target
  | convert conversion =>
      simp only [coerced, constant?_mapSpans, span_mapSpans]
      split
      · split <;> rfl
      · rfl

theorem TypedExpr.coerce_mapSpans (value : TypedExpr) (target : Ty) :
    (value.mapSpans change).coerce target = moveResult change (TypedExpr.mapSpans change) (value.coerce target) := by
  simp only [coerce, type_mapSpans, span_mapSpans]
  cases Coercion.implicit? value.type target with
  | some coercion => exact congrArg Except.ok (value.coerced_mapSpans change coercion target)
  | none => rfl

end

end Snippet
