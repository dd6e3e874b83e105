import Snippet.Proofs.Block.Program
import Snippet.Proofs.Typing.Moving

/-!
Code does not depend on the places of a typed tree. Main statement: a program with changed places has the image of the
program as it was.
-/

namespace Snippet

variable {change : Span → Span}

namespace Emit

theorem writtenSlots_mapSpans (passed : List TypedArgument) :
    writtenSlots (passed.map (TypedArgument.mapSpans change)) = writtenSlots passed := by
  rw [writtenSlots, List.filterMap_map, writtenSlots]
  refine congrArg (List.filterMap · passed) (funext fun argument => ?_)
  obtain ⟨mode, node, type, span⟩ := argument
  cases mode <;> cases node <;> rfl

mutual

theorem expression_mapSpans (start : Nat) (value : TypedExpr) :
    expression start (value.mapSpans change) = expression start value := by
  match value with
  | .mk value type span =>
    rw [TypedExpr.mapSpans, expression, expression]
    exact node_mapSpans start type value

theorem node_mapSpans (start : Nat) (type : Ty) (value : TypedNode) :
    node start type (value.mapSpans change) = node start type value := by
  match value with
  | .const _ | .slot _ | .newList _ | .newObject _ => rfl
  | .field object _ | .not object | .negate object | .convert (.numeric _) object | .convert (.cast _) object =>
    rw [TypedNode.mapSpans, node, node, expression_mapSpans _ object]
  | .assign (.slot _) value | .update (.slot _) _ value =>
    rw [TypedNode.mapSpans, Place.mapSpans, node, node, expression_mapSpans _ value]
  | .assign (.field object _) value | .update (.field object _) _ value =>
    rw [TypedNode.mapSpans, Place.mapSpans, node, node, expression_mapSpans _ object]
    simp only [expression_mapSpans _ value]
  | .step (.slot _) _ _ => rfl
  | .step (.field object _) _ _ =>
    rw [TypedNode.mapSpans, Place.mapSpans, node, node, expression_mapSpans _ object]
  | .binary _ left right | .logical _ left right =>
    rw [TypedNode.mapSpans, node, node, expression_mapSpans _ left]
    simp only [expression_mapSpans _ right]
  | .conditional condition thenValue elseValue =>
    rw [TypedNode.mapSpans, node, node, expression_mapSpans _ condition]
    simp only [expression_mapSpans _ thenValue, expression_mapSpans _ elseValue]
  | .call _ passed =>
    rw [TypedNode.mapSpans, node, node, TypedArgument.mapSpansOfAll_eq_map, arguments_mapSpans _ passed, writeBack,
      writtenSlots_mapSpans, ← writeBack]
  | .hostCall _ passed =>
    rw [TypedNode.mapSpans, node, node, TypedExpr.mapSpansOfAll_eq_map, expressions_mapSpans _ passed]
  | .builtin _ receiver passed =>
    rw [TypedNode.mapSpans, node, node, TypedExpr.mapSpansOfAll_eq_map, expression_mapSpans _ receiver]
    simp only [expressions_mapSpans _ passed]

theorem expressions_mapSpans (start : Nat) (values : List TypedExpr) :
    expressions start (values.map (TypedExpr.mapSpans change)) = expressions start values := by
  match values with
  | [] => rfl
  | first :: rest =>
    rw [List.map_cons, expressions, expressions, expression_mapSpans _ first]
    simp only [expressions_mapSpans _ rest]

theorem arguments_mapSpans (start : Nat) (passed : List TypedArgument) :
    arguments start (passed.map (TypedArgument.mapSpans change)) = arguments start passed := by
  match passed with
  | [] => rfl
  | .mk mode value :: rest =>
    have evaluated : (do
          let code ← expression start (value.mapSpans change)
          return code ++ (← arguments (start + code.length) (rest.map (TypedArgument.mapSpans change)))) = do
        let code ← expression start value
        return code ++ (← arguments (start + code.length) rest) := by
      rw [expression_mapSpans _ value]
      simp only [arguments_mapSpans _ rest]
    have unread (type : Ty) : (do
          let unassigned ← constant type.defaultConstant
          return Instruction.const unassigned :: (← arguments (start + 1) (rest.map (TypedArgument.mapSpans change)))) = do
        let unassigned ← constant type.defaultConstant
        return Instruction.const unassigned :: (← arguments (start + 1) rest) := by
      simp only [arguments_mapSpans _ rest]
    obtain ⟨node, type, span⟩ := value
    rw [List.map_cons, TypedArgument.mapSpans]
    cases mode with
    | out =>
      cases node with
      | slot index => exact unread type
      | _ => exact evaluated
    | _ => exact evaluated

end

theorem effect_mapSpans (start : Nat) (value : TypedExpr) :
    effect start (value.mapSpans change) = effect start value := by
  have dropped : (do
        let code ← expression start (value.mapSpans change)
        return if (value.mapSpans change).type == Ty.void then code else code ++ [Instruction.drop]) = do
      let code ← expression start value
      return if value.type == Ty.void then code else code ++ [Instruction.drop] := by
    rw [expression_mapSpans, TypedExpr.type_mapSpans]
  obtain ⟨node, type, span⟩ := value
  cases node with
  | assign place assigned =>
    cases place with
    | slot index =>
      rw [TypedExpr.mapSpans, TypedNode.mapSpans, Place.mapSpans, effect, effect, expression_mapSpans]
    | field object name => exact dropped
  | update place operation changed =>
    cases place with
    | slot index =>
      rw [TypedExpr.mapSpans, TypedNode.mapSpans, Place.mapSpans, effect, effect, expression_mapSpans]
    | field object name => exact dropped
  | step place isIncrement isFront =>
    cases place with
    | slot index => rfl
    | field object name => exact dropped
  | _ => exact dropped

theorem effects_mapSpans (start : Nat) (values : List TypedExpr) :
    effects start (values.map (TypedExpr.mapSpans change)) = effects start values := by
  induction values generalizing start with
  | nil => rfl
  | cons first rest ih =>
    rw [List.map_cons, effects, effects, effect_mapSpans]
    simp only [ih]

theorem optionalTest_mapSpans (start : Nat) (condition : Option TypedExpr) :
    optionalTest start (condition.map (TypedExpr.mapSpans change)) = optionalTest start condition := by
  cases condition with
  | none => rfl
  | some condition => rw [Option.map_some, optionalTest, optionalTest, expression_mapSpans]

mutual

theorem statement_mapSpans (start : Nat) (body : TypedStmt) :
    statement start (body.mapSpans change) = statement start body := by
  match body with
  | .block body =>
    rw [TypedStmt.mapSpans, statement, statement, TypedStmt.mapSpansOfAll_eq_map]
    exact statements_mapSpans start body
  | .evaluate value => rw [TypedStmt.mapSpans, statement, statement, effect_mapSpans]
  | .giveBack _ none | .leaveLoop | .nextRound => rfl
  | .giveBack _ (some value) => rw [TypedStmt.mapSpans, Option.map_some, statement, statement, expression_mapSpans]
  | .branch condition thenBranch none =>
    rw [TypedStmt.mapSpans, TypedStmt.mapSpansOfOptional, statement, statement, expression_mapSpans]
    simp only [statement_mapSpans _ thenBranch]
  | .branch condition thenBranch (some elseBranch) =>
    rw [TypedStmt.mapSpans, TypedStmt.mapSpansOfOptional, statement, statement, expression_mapSpans]
    simp only [statement_mapSpans _ thenBranch, statement_mapSpans _ elseBranch]
  | .whileLoop condition body =>
    rw [TypedStmt.mapSpans, statement, statement, expression_mapSpans]
    simp only [statement_mapSpans _ body]
  | .forLoop first condition steps body =>
    rw [TypedStmt.mapSpans, statement, statement, TypedStmt.mapSpansOfAll_eq_map, statements_mapSpans _ first]
    simp only [optionalTest_mapSpans, statement_mapSpans _ body, effects_mapSpans]

theorem statements_mapSpans (start : Nat) (body : List TypedStmt) :
    statements start (body.map (TypedStmt.mapSpans change)) = statements start body := by
  match body with
  | [] => rfl
  | first :: rest =>
    rw [List.map_cons, statements, statements, statement_mapSpans _ first]
    simp only [statements_mapSpans _ rest]

end

theorem methodCode_mapSpans (method : TypedMethod) : methodCode (method.mapSpans change) = methodCode method := by
  rw [methodCode, methodCode, TypedMethod.mapSpans, statements_mapSpans]

end Emit

/-! ### Images -/

theorem TypedMethod.toImage_mapSpans (method : TypedMethod) (state : EmitState) :
    (method.mapSpans change).toImage.run state = moveResult change id (method.toImage.run state) := by
  have sameCode : (Emit.methodCode (method.mapSpans change)).run
        { state with slots := (method.mapSpans change).slots.length } =
      (Emit.methodCode method).run { state with slots := method.slots.length } := by
    rw [Emit.methodCode_mapSpans, TypedMethod.mapSpans, List.length_map]
  rw [toImage_run, toImage_run, sameCode]
  dsimp only
  generalize (Emit.methodCode method).run _ = result
  cases result.2.excess? result.1 <;> rfl

theorem TypedMethod.toImages_mapSpans (methods : List TypedMethod) (state : EmitState) :
    ((methods.map (TypedMethod.mapSpans change)).mapM TypedMethod.toImage).run state =
      moveResult change id ((methods.mapM TypedMethod.toImage).run state) := by
  induction methods generalizing state with
  | nil => rfl
  | cons method rest ih =>
    rw [List.map_cons, List.mapM_cons, List.mapM_cons, StateT.run_bind, StateT.run_bind, toImage_mapSpans]
    refine moveResult_bind fun first => ?_
    rw [StateT.run_bind, StateT.run_bind, id, ih]
    exact moveResult_bind fun others => rfl

theorem TypedProgram.toImage_mapSpans (program : TypedProgram) (moduleName : String) :
    (program.mapSpans change).toImage moduleName = moveResult change id (program.toImage moduleName) := by
  rw [toImage, toImage, mapSpans, TypedMethod.toImages_mapSpans]
  exact moveResult_bind fun emitted => rfl

end Snippet
