import Snippet.Diagnostic.Problem
import Snippet.Typing.Tree

/-!
Definite assignment: no variable is read before it is assigned, every `out` parameter is assigned
where a method ends, and a method with a result never ends without one. Conditions that are
constants decide which way control goes.
-/

namespace Snippet

/-! ### What is known at a point -/

/-- The slots that are assigned on every way to a point, or none if no way leads there. -/
abbrev Reached := Option (Array Bool)

namespace Reached

/-- The start of a method: only arguments that are passed in are assigned. -/
def entry (slots : List Slot) : Reached :=
  some (slots.toArray.map fun slot => slot.mode.any (· != .out))

/-- Where two ways meet: a slot is assigned if it is on both. -/
def join : Reached → Reached → Reached
  | none, other => other
  | other, none => other
  | some first, some second => some (first.zipWith and second)

/-- Behind an assignment of a slot. -/
def assign (reached : Reached) (slot : Nat) : Reached :=
  reached.map (·.setIfInBounds slot true)

/-- Behind assignments of some slots. -/
def assignAll (reached : Reached) (slots : List Nat) : Reached := slots.foldl assign reached

/-- Whether some way on which the slot is not assigned leads here. -/
def lacks (reached : Reached) (slot : Nat) : Bool :=
  reached.any fun assigned => !assigned.getD slot true

end Reached

/-- What is known at the exits of a statement: at its end, and where it leaves the loop around it
or goes on with the loop's next round. -/
structure Exits where
  next : Reached
  breaks : Reached
  rounds : Reached

namespace Exits

/-- A statement that only ends. -/
def ending (next : Reached) : Exits := ⟨next, none, none⟩

/-- The exits of a statement joined with the exits of the one that runs after or instead of it,
from which control goes on as stated. -/
def joinLoop (first second : Exits) (next : Reached) : Exits :=
  ⟨next, first.breaks.join second.breaks, first.rounds.join second.rounds⟩

end Exits

/-! ### The analysis -/

/-- The findings in a method, and the slots that are already reported as unassigned. -/
structure FlowReport where
  findings : List Finding
  reported : List Nat

/-- A step of the flow analysis of a method with the given slots. -/
abbrev Flow (α : Type) := ReaderT (List Slot) (StateM FlowReport) α

namespace Flow

/-- Reports findings. -/
def report (findings : List Finding) : Flow PUnit :=
  modify fun state => { state with findings := state.findings ++ findings }

/-- The problem of reading a slot that may not be assigned. -/
def readProblem (slot : Slot) : Problem :=
  if slot.mode == some .out then .unassignedOut slot.name else .unassignedVariable slot.name

/-- Checks that a slot may be read; every slot is reported once. -/
def readSlot (index : Nat) (reached : Reached) (span : Span) : Flow PUnit := do
  let slots ← read
  if reached.lacks index && !(← get).reported.contains index then
    modify fun state => { state with reported := index :: state.reported }
    report ((slots[index]?.map fun slot => ⟨readProblem slot, span⟩).toList)

/-- Checks that every `out` parameter is assigned where the method ends. -/
def checkOut (reached : Reached) (span : Span) : Flow PUnit := do
  let missing := (← read).zipIdx.filter fun (slot, index) =>
    slot.mode == some .out && reached.lacks index
  report (missing.map fun (slot, _) => ⟨.outNotAssigned slot.name, span⟩)

/-- The slots that a call assigns: those passed as `out`. -/
def outSlots (arguments : List TypedArgument) : List Nat :=
  arguments.filterMap fun
    | .mk .out (.mk (.slot index) _ _) => some index
    | _ => none

mutual

/-- What is known behind an expression. -/
def expression (reached : Reached) : TypedExpr → Flow Reached
  | .mk value _ span => node reached span value

/-- What is known behind an expression that stands at a place. -/
def node (reached : Reached) (span : Span) : TypedNode → Flow Reached
  | .const _ | .newList _ | .newObject _ => return reached
  | .slot index => do
    readSlot index reached span
    return reached
  | .field object _ => expression reached object
  | .assign (.slot index) value => return (← expression reached value).assign index
  | .assign (.field object _) value => do expression (← expression reached object) value
  | .update (.slot index) _ value => do
    readSlot index reached span
    expression reached value
  | .update (.field object _) _ value => do expression (← expression reached object) value
  | .step (.slot index) _ _ => do
    readSlot index reached span
    return reached
  | .step (.field object _) _ _ => expression reached object
  | .binary _ left right => do expression (← expression reached left) right
  | .logical _ left right => do
    let afterLeft ← expression reached left
    return afterLeft.join (← expression afterLeft right)
  | .not operand | .negate operand | .convert _ operand => expression reached operand
  | .conditional condition thenValue elseValue => do
    let decided ← expression reached condition
    let afterThen ← expression decided thenValue
    return afterThen.join (← expression decided elseValue)
  | .call _ passed => return (← arguments reached passed).assignAll (outSlots passed)
  | .hostCall _ passed => expressions reached passed
  | .builtin _ receiver passed => do expressions (← expression reached receiver) passed

/-- What is known behind expressions that are evaluated in order. -/
def expressions (reached : Reached) : List TypedExpr → Flow Reached
  | [] => return reached
  | first :: rest => do expressions (← expression reached first) rest

/-- What is known behind the arguments of a call. A slot that is passed as `out` is not read. -/
def arguments (reached : Reached) : List TypedArgument → Flow Reached
  | [] => return reached
  | .mk .out (.mk (.slot _) _ _) :: rest => arguments reached rest
  | .mk _ value :: rest => do arguments (← expression reached value) rest

end

/-- What is known in front of the two branches of a condition. -/
def branches (condition : TypedExpr) (reached : Reached) : Reached × Reached :=
  match condition.constantBool? with
  | some true => (reached, none)
  | some false => (none, reached)
  | none => (reached, reached)

/-- What is known in front of a loop's body and behind a condition that ends the loop. A loop
without a condition never ends by itself. -/
def loopBranches (condition : Option TypedExpr) (reached : Reached) : Reached × Reached :=
  match condition with
  | some condition => branches condition reached
  | none => (reached, none)

/-- What is known behind an expression, if there is one. -/
def optionalExpression (reached : Reached) : Option TypedExpr → Flow Reached
  | some condition => expression reached condition
  | none => return reached

mutual

/-- The exits of a statement. -/
def statement (reached : Reached) : TypedStmt → Flow Exits
  | .block body => statements reached body
  | .evaluate value => return .ending (← expression reached value)
  | .giveBack span value => do
    let reached ← optionalExpression reached value
    checkOut reached span
    return .ending none
  | .branch condition thenBranch elseBranch => do
    let (thenStart, elseStart) := branches condition (← expression reached condition)
    let first ← statement thenStart thenBranch
    let second ← optional elseStart elseBranch
    return first.joinLoop second (first.next.join second.next)
  | .whileLoop condition body => do
    let (start, skipped) := branches condition (← expression reached condition)
    let exits ← statement start body
    return .ending (skipped.join exits.breaks)
  | .forLoop start condition steps body => do
    let started ← statements reached start
    let (entered, skipped) := loopBranches condition (← optionalExpression started.next condition)
    let exits ← statement entered body
    let _ ← expressions (exits.next.join exits.rounds) steps
    return ⟨skipped.join exits.breaks, started.breaks, started.rounds⟩
  | .leaveLoop => return ⟨none, reached, none⟩
  | .nextRound => return ⟨none, none, reached⟩

/-- The exits of statements that run in order. -/
def statements (reached : Reached) : List TypedStmt → Flow Exits
  | [] => return .ending reached
  | first :: rest => do
    let exits ← statement reached first
    let others ← statements exits.next rest
    return exits.joinLoop others others.next

/-- The exits of a branch that may be missing. -/
def optional (reached : Reached) : Option TypedStmt → Flow Exits
  | none => return .ending reached
  | some body => statement reached body

end

/-- Checks the body of a method and its end. -/
def method (method : TypedMethod) : Flow PUnit := do
  let exits ← statements (.entry method.slots) method.body
  if exits.next.isSome then
    match method.result with
    | .void => checkOut exits.next method.span
    | _ => report [⟨.missingReturn method.label, method.span⟩]

end Flow

/-- The findings of the flow analysis of a method. -/
def TypedMethod.flowFindings (method : TypedMethod) : List Finding :=
  ((Flow.method method).run method.slots |>.run ⟨[], []⟩).2.findings

/-- The findings of the flow analysis, method by method. -/
def TypedProgram.flowFindings (program : TypedProgram) : List Finding :=
  program.methods.flatMap (·.flowFindings)

end Snippet
