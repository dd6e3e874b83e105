import Snippet.Proofs.Machine.Moves

/-!
Evaluation of typed programs in which `ref`, `out` and `in` parameters denote the variables of the caller themselves.
Every variable of every call is a cell of its own; a call knows the cells that its slots denote.
-/

namespace Snippet

/-- A call of a function of the host, in the world that it finds. -/
structure HostCall where
  function : FunctionImport
  arguments : List Value
  world : World

/-- What an evaluation changes: the cells of all variables, the world, and the calls of the host so far. -/
structure Situation where
  cells : Array Value
  world : World
  calls : List HostCall

/-- A step of an evaluation. It has no result if it raises an exception or takes too many rounds. -/
abbrev Evaluation (α : Type) := StateT Situation Option α

/-- What is passed to a parameter: the value of a new variable, or a cell of the caller. -/
inductive Passed where
  | value (value : Value)
  | cell (cell : Nat)

/-- How a statement ends. -/
inductive Completion where
  | next
  | leaveLoop
  | nextRound
  | gaveBack (value : Option Value)

/-- The truth value that a value is. -/
def Value.truth? : Value → Option Bool
  | .bool truth => some truth
  | _ => none

namespace Action

/-- The value of a field of an object. -/
def getField (name : String) (object : Value) : Action Value := do
  let reference ← Module.fieldOwner name object
  match ((← Action.store).fields reference).get? name with
  | some value => return value
  | none => throw (.missingField name)

/-- Sets a field of an object. -/
def setField (name : String) (object value : Value) : Action PUnit := do
  let reference ← Module.fieldOwner name object
  let fields := (← Action.store).fields reference
  if (fields.get? name).isNone then throw (.missingField name)
  Action.modifyStore (·.setFields reference (fields.set name value))

end Action

namespace Evaluation

/-- An action in the world of the evaluation. -/
def act {α : Type} (action : Action α) : Evaluation α := fun situation =>
  match action.inWorld situation.world with
  | (.ok value, world) => some (value, { situation with world })
  | (.error _, _) => none

/-- A result that may be missing. -/
def given {α : Type} (value : Option α) : Evaluation α := fun situation => value.map (·, situation)

/-- The value that a step must give. -/
def operand (step : Evaluation (Option Value)) : Evaluation Value := step >>= given

/-- The value in the cell that a slot denotes. -/
def read (frame : List Nat) (slot : Nat) : Evaluation Value := do
  let cell ← given frame[slot]?
  given (← get).cells[cell]?

/-- Puts another value into the cell that a slot denotes. -/
def write (frame : List Nat) (slot : Nat) (value : Value) : Evaluation PUnit := do
  let cell ← given frame[slot]?
  modify fun situation => { situation with cells := situation.cells.setIfInBounds cell value }

/-- The cell of a new variable. -/
def declare (value : Value) : Evaluation Nat :=
  modifyGet fun situation => (situation.cells.size, { situation with cells := situation.cells.push value })

/-- The cell that a parameter denotes. -/
def enter : Passed → Evaluation Nat
  | .value value => declare value
  | .cell cell => return cell

/-- Calls a function of the host. -/
def callHost (libraries : LibrarySet) (function : FunctionImport) (arguments : List Value) :
    Evaluation (Option Value) :=
  match function.link libraries with
  | .ok (.function run _ hasResult) => do
    modify fun situation => { situation with calls := situation.calls ++ [⟨function, arguments, situation.world⟩] }
    let result ← act (run arguments)
    return if hasResult then some result else none
  | _ => failure

/-- A new object of a type of the libraries. -/
def create (libraries : LibrarySet) (type : String) : Evaluation Value :=
  match linkType type libraries with
  | .ok (.type name fields) => act (Action.newObject name fields)
  | _ => failure

/-- Goes on behind what ends normally. -/
def follow (behind : Evaluation Completion) : Completion → Evaluation Completion
  | .next => behind
  | other => return other

/-- Goes on behind the body of a loop: `onward` goes to the end of the round. -/
def turn (onward : Evaluation Completion) : Completion → Evaluation Completion
  | .next | .nextRound => onward
  | .leaveLoop => return .next
  | .gaveBack value => return .gaveBack value

/-- At most the given number of rounds of a loop. -/
def rounds (test : Evaluation Bool) (body : Evaluation Completion) (advance : Evaluation PUnit) :
    Nat → Evaluation Completion
  | 0 => failure
  | most + 1 => do
    if ← test then
      let ended ← body
      turn (do advance; rounds test body advance most) ended
    else return .next

end Evaluation

/-- What an evaluation takes place in: the libraries and the calls of methods, by index. -/
structure Surroundings where
  libraries : LibrarySet
  call : Nat → List Passed → Evaluation (Option Value)

/-- The slot of the caller that an argument passes by reference. -/
def TypedArgument.reference? : TypedArgument → Option Nat
  | .mk .value _ => none
  | .mk _ (.mk (.slot index) _ _) => some index
  | .mk _ _ => none

section

variable (around : Surroundings) (frame : List Nat)

open Evaluation

mutual

/-- The value of an expression, if it has one. -/
def TypedExpr.evaluate : TypedExpr → Evaluation (Option Value)
  | .mk node type _ => node.evaluate type

/-- The value of a node of a static type, if it has one. -/
def TypedNode.evaluate (type : Ty) : TypedNode → Evaluation (Option Value)
  | .const value => return value.toValue
  | .slot index => return ← read frame index
  | .field object name => do
    let owner ← operand object.evaluate
    return ← act (Action.getField name owner)
  | .assign (.slot index) value => do
    let assigned ← operand value.evaluate
    write frame index assigned
    return assigned
  | .assign (.field object name) value => do
    let owner ← operand object.evaluate
    let assigned ← operand value.evaluate
    act (Action.setField name owner assigned)
    return assigned
  | .update (.slot index) operation value => do
    let old ← read frame index
    let right ← operand value.evaluate
    let changed ← act (operation.apply old right)
    write frame index changed
    return changed
  | .update (.field object name) operation value => do
    let owner ← operand object.evaluate
    let old ← act (Action.getField name owner)
    let right ← operand value.evaluate
    let changed ← act (operation.apply old right)
    act (Action.setField name owner changed)
    return changed
  | .step (.slot index) isIncrement isFront => do
    let old ← read frame index
    let changed ← act ((stepOperation isIncrement).apply old type.one.toValue)
    write frame index changed
    return if isFront then changed else old
  | .step (.field object name) isIncrement isFront => do
    let owner ← operand object.evaluate
    let old ← act (Action.getField name owner)
    let changed ← act ((stepOperation isIncrement).apply old type.one.toValue)
    act (Action.setField name owner changed)
    return if isFront then changed else old
  | .binary operation left right => do
    let first ← operand left.evaluate
    let second ← operand right.evaluate
    return ← act (operation.apply first second)
  | .logical isAnd left right => do
    let first ← operand left.evaluate
    if (← given first.truth?) = isAnd then return ← operand right.evaluate
    else return first
  | .not value => do
    let truth ← given (← operand value.evaluate).truth?
    return Value.bool (!truth)
  | .negate value => do
    let negated ← operand value.evaluate
    return ← act negated.negate
  | .conditional condition thenValue elseValue => do
    if ← given (← operand condition.evaluate).truth? then return ← operand thenValue.evaluate
    else return ← operand elseValue.evaluate
  | .convert (.numeric conversion) value => do
    let converted ← operand value.evaluate
    return conversion.apply converted
  | .convert (.cast target) value => do
    let cast ← operand value.evaluate
    return ← act (cast.castTo target)
  | .call method passed => do
    let passed ← TypedArgument.passAll passed
    around.call method passed
  | .hostCall function passed => do
    let arguments ← TypedExpr.evaluateAll passed
    callHost around.libraries function arguments
  | .builtin member receiver passed => do
    let owner ← operand receiver.evaluate
    let arguments ← TypedExpr.evaluateAll passed
    act (member.apply owner arguments)
  | .newList element => return ← act (Action.newList element #[])
  | .newObject type => return ← create around.libraries type

/-- The values of expressions, in order. -/
def TypedExpr.evaluateAll : List TypedExpr → Evaluation (List Value)
  | [] => return []
  | first :: rest => do
    let value ← operand first.evaluate
    return value :: (← TypedExpr.evaluateAll rest)

/-- What is passed to the parameters of a method. A variable that is passed by reference is passed as its cell. -/
def TypedArgument.passAll : List TypedArgument → Evaluation (List Passed)
  | [] => return []
  | .mk mode value :: rest => do
    match (TypedArgument.mk mode value).reference? with
    | some index => do
      let cell ← given frame[index]?
      return .cell cell :: (← TypedArgument.passAll rest)
    | none => do
      let value ← operand value.evaluate
      return .value value :: (← TypedArgument.passAll rest)

end

/-- The truth value of a condition. -/
def TypedExpr.holds (condition : TypedExpr) : Evaluation Bool := do
  given (← operand (condition.evaluate around frame)).truth?

/-- The effects of expressions, in order. -/
def TypedExpr.effects : List TypedExpr → Evaluation PUnit
  | [] => return
  | first :: rest => do
    let _ ← first.evaluate around frame
    effects rest

mutual

/-- Executes a statement. A loop takes at most the given number of rounds. -/
def TypedStmt.execute (most : Nat) : TypedStmt → Evaluation Completion
  | .block body => TypedStmt.executeAll most body
  | .evaluate value => do
    let _ ← value.evaluate around frame
    return .next
  | .giveBack _ none => return .gaveBack none
  | .giveBack _ (some value) => return .gaveBack (← operand (value.evaluate around frame))
  | .branch condition thenBranch none => do
    if ← condition.holds around frame then thenBranch.execute most else return .next
  | .branch condition thenBranch (some elseBranch) => do
    if ← condition.holds around frame then thenBranch.execute most else elseBranch.execute most
  | .whileLoop condition body => rounds (condition.holds around frame) (body.execute most) (return) most
  | .forLoop start condition steps body => do
    let started ← TypedStmt.executeAll most start
    let test := match condition with
      | some condition => condition.holds around frame
      | none => return true
    follow (rounds test (body.execute most) (TypedExpr.effects around frame steps) most) started
  | .leaveLoop => return .leaveLoop
  | .nextRound => return .nextRound

/-- Executes statements in order. -/
def TypedStmt.executeAll (most : Nat) : List TypedStmt → Evaluation Completion
  | [] => return .next
  | first :: rest => do
    let ended ← first.execute most
    follow (TypedStmt.executeAll most rest) ended

end

end

/-- The cells that the slots of a call denote: those of the parameters, and then new ones. -/
def TypedMethod.frame (method : TypedMethod) (passed : List Passed) : Evaluation (List Nat) :=
  (passed ++ List.replicate (method.slots.length - passed.length) (Passed.value .null)).mapM Evaluation.enter

/-- Calls a method of the program. Calls are nested at most as deep as the given number, and no loop takes more
rounds. -/
def TypedProgram.call (program : TypedProgram) (libraries : LibrarySet) :
    Nat → Nat → List Passed → Evaluation (Option Value)
  | 0, _, _ => failure
  | most + 1, index, passed => do
    let method ← Evaluation.given program.methods[index]?
    let frame ← method.frame passed
    let ended ← TypedStmt.executeAll ⟨libraries, program.call libraries most⟩ frame most method.body
    match ended with
    | .gaveBack value => return value
    | .next => if method.result = .void then return none else failure
    | _ => failure

/-- What a call from outside by reference shows: its result, the values of the caller's variables behind it, the world
and the calls of the host. -/
structure ReferenceOutcome where
  result : Value
  passed : List Value
  world : World
  calls : List HostCall

/-- Calls a method from outside, with a variable of the caller for each argument. -/
def TypedProgram.invoke (program : TypedProgram) (libraries : LibrarySet) (most index : Nat) (arguments : List Value)
    (world : World) : Option ReferenceOutcome := do
  let method ← program.methods[index]?
  let passed := (method.parameters.zip arguments).zipIdx.map fun ((parameter, argument), number) =>
    if parameter.mode = .value then Passed.value argument else .cell number
  let (result, situation) ← program.call libraries most index passed ⟨arguments.toArray, world, []⟩
  return ⟨result.getD .null, situation.cells.toList.take arguments.length, situation.world, situation.calls⟩

end Snippet
