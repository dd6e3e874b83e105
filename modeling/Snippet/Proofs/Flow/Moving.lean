import Snippet.Flow.Assignment
import Snippet.Proofs.Typing.Spans

/-!
Definite assignment does not depend on the places of a typed tree. Main statement: the findings are those of the tree
as it was, with changed places.
-/

namespace Snippet

variable {change : Span → Span}

/-- A report with changed places. -/
def FlowReport.mapSpans (change : Span → Span) (report : FlowReport) : FlowReport :=
  { report with findings := report.findings.map (Finding.mapSpans change) }

namespace Flow

/-- Whether two steps give the same on trees that differ in places only, and leave reports that differ in places
only. -/
def Moves {α : Type} (change : Span → Span) (slots : List Slot) (step moved : Flow α) : Prop :=
  ∀ before : FlowReport, (moved.run (slots.map (Slot.mapSpans change))).run (before.mapSpans change) =
    (((step.run slots).run before).1, ((step.run slots).run before).2.mapSpans change)

namespace Moves

variable {α β : Type} {slots : List Slot}

theorem pure {value : α} : Moves change slots (Pure.pure value) (Pure.pure value) := fun _ => rfl

theorem bind {first first' : Flow α} {rest rest' : α → Flow β} (head : Moves change slots first first')
    (tail : ∀ value : α, Moves change slots (rest value) (rest' value)) :
    Moves change slots (first >>= rest) (first' >>= rest') := by
  intro before
  have goes (result : α × FlowReport) (same : result = (first'.run (slots.map (Slot.mapSpans change))).run
      (before.mapSpans change)) : ((rest' result.1).run (slots.map (Slot.mapSpans change))).run result.2 =
        ((first' >>= rest').run (slots.map (Slot.mapSpans change))).run (before.mapSpans change) := by
    subst same
    rfl
  exact (goes _ (head before).symm).symm.trans (tail _ _)

theorem readBind {rest rest' : List Slot → Flow α}
    (go : Moves change slots (rest slots) (rest' (slots.map (Slot.mapSpans change)))) :
    Moves change slots (read >>= rest) (read >>= rest') := go

theorem getBind {rest rest' : FlowReport → Flow α}
    (go : ∀ state : FlowReport, Moves change slots (rest state) (rest' (state.mapSpans change))) :
    Moves change slots (get >>= rest) (get >>= rest') := fun before => go before before

theorem choose {condition : Prop} [Decidable condition] {first second first' second' : Flow α}
    (yes : Moves change slots first first') (no : Moves change slots second second') :
    Moves change slots (if condition then first else second) (if condition then first' else second') := by
  split
  · exact yes
  · exact no

theorem modify {update update' : FlowReport → FlowReport}
    (same : ∀ state : FlowReport, update' (state.mapSpans change) = (update state).mapSpans change) :
    Moves change slots (MonadStateOf.modifyGet fun state => (PUnit.unit, update state) : Flow PUnit)
      (MonadStateOf.modifyGet fun state => (PUnit.unit, update' state) : Flow PUnit) := by
  intro before
  show (PUnit.unit, update' (before.mapSpans change)) = _
  rw [same]
  rfl

theorem report {findings findings' : List Finding} (same : findings' = findings.map (Finding.mapSpans change)) :
    Moves change slots (Flow.report findings) (Flow.report findings') := by
  subst same
  refine modify fun state => ?_
  simp [FlowReport.mapSpans]

end Moves

variable {slots : List Slot}

theorem readSlot_moves (index : Nat) (reached : Reached) (span : Span) :
    Moves change slots (readSlot index reached span) (readSlot index reached (change span)) := by
  rw [readSlot, readSlot]
  have noted : Moves change slots (modify fun state => { state with reported := index :: state.reported } : Flow PUnit)
      (modify fun state => { state with reported := index :: state.reported }) := .modify fun _ => rfl
  refine .readBind (.getBind fun state => .choose (noted.bind fun _ => .report ?_) .pure)
  rw [List.getElem?_map]
  cases slots[index]? <;> rfl

theorem checkOut_moves (reached : Reached) (span : Span) :
    Moves change slots (checkOut reached span) (checkOut reached (change span)) := by
  rw [checkOut, checkOut]
  refine .readBind (.report ?_)
  rw [List.zipIdx_map, List.filter_map, List.map_map, List.map_map]
  rfl

theorem outSlots_mapSpans (passed : List TypedArgument) :
    outSlots (passed.map (TypedArgument.mapSpans change)) = outSlots passed := by
  rw [outSlots, List.filterMap_map, outSlots]
  refine congrArg (List.filterMap · passed) (funext fun argument => ?_)
  obtain ⟨mode, node, type, span⟩ := argument
  cases mode <;> cases node <;> rfl

mutual

theorem expression_moves (reached : Reached) (value : TypedExpr) :
    Moves change slots (expression reached value) (expression reached (value.mapSpans change)) := by
  match value with
  | .mk value type span =>
    rw [TypedExpr.mapSpans, expression, expression]
    exact node_moves reached span value

theorem node_moves (reached : Reached) (span : Span) (value : TypedNode) :
    Moves change slots (node reached span value) (node reached (change span) (value.mapSpans change)) := by
  match value with
  | .const _ | .newList _ | .newObject _ => exact .pure
  | .slot index => exact (readSlot_moves index reached span).bind fun _ => .pure
  | .field object name =>
    rw [TypedNode.mapSpans, node, node]
    exact expression_moves reached object
  | .assign (.slot index) value =>
    rw [TypedNode.mapSpans, Place.mapSpans, node, node]
    exact (expression_moves reached value).bind fun _ => .pure
  | .assign (.field object name) value =>
    rw [TypedNode.mapSpans, Place.mapSpans, node, node]
    exact (expression_moves reached object).bind fun reached => expression_moves reached value
  | .update (.slot index) operation value =>
    rw [TypedNode.mapSpans, Place.mapSpans, node, node]
    exact (readSlot_moves index reached span).bind fun _ => expression_moves reached value
  | .update (.field object name) operation value =>
    rw [TypedNode.mapSpans, Place.mapSpans, node, node]
    exact (expression_moves reached object).bind fun reached => expression_moves reached value
  | .step (.slot index) _ _ => exact (readSlot_moves index reached span).bind fun _ => .pure
  | .step (.field object name) _ _ =>
    rw [TypedNode.mapSpans, Place.mapSpans, node, node]
    exact expression_moves reached object
  | .binary _ left right =>
    rw [TypedNode.mapSpans, node, node]
    exact (expression_moves reached left).bind fun reached => expression_moves reached right
  | .logical _ left right =>
    rw [TypedNode.mapSpans, node, node]
    exact (expression_moves reached left).bind fun reached => (expression_moves reached right).bind fun _ => .pure
  | .not operand | .negate operand | .convert _ operand =>
    rw [TypedNode.mapSpans, node, node]
    exact expression_moves reached operand
  | .conditional condition thenValue elseValue =>
    rw [TypedNode.mapSpans, node, node]
    exact (expression_moves reached condition).bind fun decided => (expression_moves decided thenValue).bind fun _ =>
      (expression_moves decided elseValue).bind fun _ => .pure
  | .call _ passed =>
    rw [TypedNode.mapSpans, node, node, TypedArgument.mapSpansOfAll_eq_map, outSlots_mapSpans]
    exact (arguments_moves reached passed).bind fun _ => .pure
  | .hostCall _ passed =>
    rw [TypedNode.mapSpans, node, node, TypedExpr.mapSpansOfAll_eq_map]
    exact expressions_moves reached passed
  | .builtin _ receiver passed =>
    rw [TypedNode.mapSpans, node, node, TypedExpr.mapSpansOfAll_eq_map]
    exact (expression_moves reached receiver).bind fun reached => expressions_moves reached passed

theorem expressions_moves (reached : Reached) (values : List TypedExpr) :
    Moves change slots (expressions reached values) (expressions reached (values.map (TypedExpr.mapSpans change))) := by
  match values with
  | [] => exact .pure
  | first :: rest =>
    rw [List.map_cons, expressions, expressions]
    exact (expression_moves reached first).bind fun reached => expressions_moves reached rest

theorem arguments_moves (reached : Reached) (passed : List TypedArgument) :
    Moves change slots (arguments reached passed) (arguments reached (passed.map (TypedArgument.mapSpans change))) := by
  match passed with
  | [] => exact .pure
  | .mk mode value :: rest =>
    have evaluated : Moves change slots (do arguments (← expression reached value) rest)
        (do arguments (← expression reached (value.mapSpans change)) (rest.map (TypedArgument.mapSpans change))) :=
      (expression_moves reached value).bind fun reached => arguments_moves reached rest
    obtain ⟨node, type, span⟩ := value
    rw [List.map_cons, TypedArgument.mapSpans]
    cases mode with
    | out =>
      cases node with
      | slot index => exact arguments_moves reached rest
      | _ => exact evaluated
    | _ => exact evaluated

end

/-! ### Statements -/

theorem branches_mapSpans (condition : TypedExpr) (reached : Reached) :
    branches (condition.mapSpans change) reached = branches condition reached := by
  rw [branches, TypedExpr.constantBool?_mapSpans, branches]

theorem loopBranches_mapSpans (condition : Option TypedExpr) (reached : Reached) :
    loopBranches (condition.map (TypedExpr.mapSpans change)) reached = loopBranches condition reached := by
  cases condition with
  | none => rfl
  | some condition => exact branches_mapSpans condition reached

theorem optionalExpression_moves (reached : Reached) (value : Option TypedExpr) :
    Moves change slots (optionalExpression reached value)
      (optionalExpression reached (value.map (TypedExpr.mapSpans change))) := by
  cases value with
  | none => exact .pure
  | some value => exact expression_moves reached value

mutual

theorem statement_moves (reached : Reached) (body : TypedStmt) :
    Moves change slots (statement reached body) (statement reached (body.mapSpans change)) := by
  match body with
  | .block body =>
    rw [TypedStmt.mapSpans, statement, statement, TypedStmt.mapSpansOfAll_eq_map]
    exact statements_moves reached body
  | .evaluate value =>
    rw [TypedStmt.mapSpans, statement, statement]
    exact (expression_moves reached value).bind fun _ => .pure
  | .giveBack span value =>
    rw [TypedStmt.mapSpans, statement, statement]
    exact (optionalExpression_moves reached value).bind fun reached => (checkOut_moves reached span).bind fun _ => .pure
  | .branch condition thenBranch elseBranch =>
    rw [TypedStmt.mapSpans, statement, statement]
    refine (expression_moves reached condition).bind fun reached => ?_
    rw [branches_mapSpans]
    exact (statement_moves _ thenBranch).bind fun _ => (optional_moves _ elseBranch).bind fun _ => .pure
  | .whileLoop condition body =>
    rw [TypedStmt.mapSpans, statement, statement]
    refine (expression_moves reached condition).bind fun reached => ?_
    rw [branches_mapSpans]
    exact (statement_moves _ body).bind fun _ => .pure
  | .forLoop start condition steps body =>
    rw [TypedStmt.mapSpans, statement, statement, TypedStmt.mapSpansOfAll_eq_map]
    refine (statements_moves reached start).bind fun started =>
      (optionalExpression_moves started.next condition).bind fun reached => ?_
    rw [loopBranches_mapSpans]
    exact (statement_moves _ body).bind fun _ => (expressions_moves _ steps).bind fun _ => .pure
  | .leaveLoop => exact .pure
  | .nextRound => exact .pure

theorem statements_moves (reached : Reached) (body : List TypedStmt) :
    Moves change slots (statements reached body) (statements reached (body.map (TypedStmt.mapSpans change))) := by
  match body with
  | [] => exact .pure
  | first :: rest =>
    rw [List.map_cons, statements, statements]
    exact (statement_moves reached first).bind fun exits => (statements_moves exits.next rest).bind fun _ => .pure

theorem optional_moves (reached : Reached) (body : Option TypedStmt) :
    Moves change slots (optional reached body) (optional reached (TypedStmt.mapSpansOfOptional change body)) := by
  match body with
  | none => exact .pure
  | some body =>
    rw [TypedStmt.mapSpansOfOptional, optional, optional]
    exact statement_moves reached body

end

theorem method_moves (method : TypedMethod) :
    Moves change slots (Flow.method method) (Flow.method (method.mapSpans change)) := by
  have sameEntry : Reached.entry (method.mapSpans change).slots = Reached.entry method.slots := by
    simp [Reached.entry, TypedMethod.mapSpans, Slot.mapSpans]
  rw [Flow.method, Flow.method, sameEntry]
  refine (statements_moves _ method.body).bind fun exits => .choose ?_ .pure
  obtain ⟨name, label, owner, isPublic, parameters, result, slots, body, span⟩ := method
  cases result with
  | void => exact checkOut_moves exits.next span
  | _ => exact .report rfl

end Flow

theorem TypedMethod.flowFindings_mapSpans (method : TypedMethod) :
    (method.mapSpans change).flowFindings = method.flowFindings.map (Finding.mapSpans change) :=
  congrArg (FlowReport.findings ·.2) (Flow.method_moves method ⟨[], []⟩)

theorem TypedProgram.flowFindings_mapSpans (program : TypedProgram) :
    (program.mapSpans change).flowFindings = program.flowFindings.map (Finding.mapSpans change) := by
  rw [flowFindings, mapSpans, List.flatMap_map, flowFindings, List.map_flatMap]
  exact congrArg (List.flatMap · _) (funext TypedMethod.flowFindings_mapSpans)

end Snippet
