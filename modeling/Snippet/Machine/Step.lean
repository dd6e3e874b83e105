import Snippet.Machine.Member
import Snippet.Machine.Module
import Snippet.Machine.Operate
import Snippet.Value.Basic
import Snippet.Value.World

/-!
The machine that runs the code of a module, instruction by instruction, and its stack, the top value first. Main
statements about the stack: what is popped lay on top in the order of pushing, and popping fails exactly if too few
values are there.
-/

namespace Snippet

/-- A stack, the top value first. -/
abbrev Stack := List Value

namespace Stack

/-- The top value and the stack below it. -/
def pop : Stack → Except Fault (Value × Stack)
  | [] => .error (.badImage .stackUnderflow)
  | value :: rest => .ok (value, rest)

/-- The top value, which must be a truth value, and the stack below it. -/
def popBool (stack : Stack) : Except Fault (Bool × Stack) := do
  match ← stack.pop with
  | (.bool value, rest) => return (value, rest)
  | (other, _) => throw (.badImage (.boolExpected other))

/-- The values on top in the order in which they were pushed, and the stack below them. -/
def popMany (stack : Stack) (count : Nat) : Except Fault (List Value × Stack) :=
  if (stack.take count).length < count then .error (.badImage .stackUnderflow)
  else .ok ((stack.take count).reverse, stack.drop count)

/-- The stack with more values, the last of them on top. -/
def pushAll (stack : Stack) (values : List Value) : Stack := values.reverse ++ stack

theorem popMany_pushAll (stack : Stack) (values : List Value) :
    (stack.pushAll values).popMany values.length = .ok (values, stack) := by
  simp [popMany, pushAll]

theorem popMany_eq_error_iff (stack : Stack) (count : Nat) :
    stack.popMany count = .error (.badImage .stackUnderflow) ↔ stack.length < count := by
  have length : (stack.take count).length = min count stack.length := List.length_take
  unfold popMany
  split
  · next short => exact iff_of_true rfl (by omega)
  · next enough => exact iff_of_false nofun (by omega)

end Stack

/-! ### Running -/

/-- A call of a method that has not ended. -/
structure Frame where
  method : MethodImage
  /-- The position of the next instruction. -/
  position : Nat
  slots : Array Value

namespace Frame

/-- The start of a call. Parameters are the first slots, and every other slot holds null. -/
def enter (method : MethodImage) (arguments : List Value) : Frame where
  method := method
  position := 0
  slots := arguments.toArray ++
    Array.replicate (method.slotCount.toNat - arguments.length) Value.null

/-- The final values of the parameters that are written back, in order. -/
def finals (frame : Frame) : List Value :=
  (frame.method.signature.parameters.zipIdx.filter (·.1.mode.writesBack)).map fun (_, index) =>
    frame.slots.getD index .null

/-- The argument slots of the caller behind the call: those that are not written back keep what
they held. -/
def argumentsAfter (frame : Frame) (arguments : List Value) : List Value :=
  (frame.method.signature.parameters.zip arguments).zipIdx.map fun ((parameter, before), index) =>
    if parameter.mode.writesBack then frame.slots.getD index .null else before

/-- The frame with its next instruction at a position. -/
def goto (frame : Frame) (target : UInt32) : Frame := { frame with position := target.toNat }

end Frame

/-- The machine between two instructions: the running call, the calls that wait for it, the
innermost first, and the stack that they share. -/
structure Machine where
  active : Frame
  waiting : List Frame
  stack : Stack
  /-- The number of nested calls, the running one included. -/
  depth : Nat
  depth_eq : depth = waiting.length + 1

namespace Machine

/-- The machine in which only the given call runs. -/
def start (frame : Frame) : Machine := ⟨frame, [], [], 1, rfl⟩

/-- The machine in which the running call waits for another one. -/
def enter (machine : Machine) (frame : Frame) (stack : Stack) : Machine where
  active := frame
  waiting := machine.active :: machine.waiting
  stack := stack
  depth := machine.depth + 1
  depth_eq := by simp [machine.depth_eq]

/-- The machine with one more value on the stack. -/
def push (machine : Machine) (value : Value) : Machine :=
  { machine with stack := value :: machine.stack }

/-- The machine with one more value on the stack, if there is one. -/
def pushOptional (machine : Machine) (value : Option Value) : Machine :=
  { machine with stack := value.toList ++ machine.stack }

/-- The machine in front of the instruction behind the next one. -/
def advance (machine : Machine) : Machine :=
  { machine with active := { machine.active with position := machine.active.position + 1 } }

/-- The machine whose running call goes on at a position. -/
def goto (machine : Machine) (target : UInt32) : Machine :=
  { machine with active := machine.active.goto target }

end Machine

/-- What an instruction leads to. -/
inductive Progress where
  | running (machine : Machine)
  /-- The outermost call has ended, with a result and its last frame. -/
  | ended (result : Value) (frame : Frame)

instance : MonadLift (Except Fault) Action := ⟨Action.ofFaulty⟩

/-- The entry of a table, or else a defect of the image. -/
def tableEntry {α : Type} (table : List α) (index : UInt32) (defect : Nat → ImageDefect Value) :
    Except Fault α :=
  match table[index.toNat]? with
  | some entry => .ok entry
  | none => .error (.badImage (defect index.toNat))

namespace Module

/-- A constant of the module. -/
def constant (module : Module) (index : UInt32) : Except Fault Value :=
  (tableEntry module.image.constants index .noConstant).map (·.toValue)

/-- A name of the module. -/
def string (module : Module) (index : UInt32) : Except Fault String :=
  tableEntry module.image.strings index .noString

/-- A method of the module. -/
def method (module : Module) (index : UInt32) : Except Fault MethodImage :=
  tableEntry module.image.methods index .noMethod

/-- An import of the module. -/
def imported (module : Module) (index : UInt32) : Except Fault LinkedImport :=
  tableEntry module.imports index .noImport

/-- An instruction that changes only the stack; others are none. -/
def onStack? (module : Module) (instruction : Instruction) (stack : Stack) :
    Option (Except Fault Stack) :=
  match instruction with
  | .const index => some do
    return (← module.constant index) :: stack
  | .duplicate => some do
    let (value, rest) ← stack.pop
    return value :: value :: rest
  | .drop => some do
    return (← stack.pop).2
  | .operate operation => some do
    let (second, rest) ← stack.pop
    let (first, rest) ← rest.pop
    return (← operation.apply first second) :: rest
  | .negate => some do
    let (value, rest) ← stack.pop
    return (← value.negate) :: rest
  | .not => some do
    let (truth, rest) ← stack.popBool
    return .bool (!truth) :: rest
  | .convert conversion => some do
    let (value, rest) ← stack.pop
    return conversion.apply value :: rest
  | .cast type => some do
    let target ← module.string type
    let (value, rest) ← stack.pop
    return (← value.castTo target) :: rest
  | _ => none

/-- An instruction that works on the running call; others are none. -/
def onFrame? (instruction : Instruction) (machine : Machine) : Option (Except Fault Machine) :=
  let frame := machine.active
  match instruction with
  | .load slot => some do
    match frame.slots[slot.toNat]? with
    | some value => return machine.push value
    | none => throw (.badImage (.noLocal slot.toNat))
  | .store slot => some do
    let (value, stack) ← machine.stack.pop
    if frame.slots.size ≤ slot.toNat then throw (.badImage (.noLocal slot.toNat))
    let slots := frame.slots.setIfInBounds slot.toNat value
    return { machine with active := { frame with slots }, stack }
  | .jump target => some (.ok (machine.goto target))
  | .jumpIfFalse target => some do
    let (truth, stack) ← machine.stack.popBool
    let popped := { machine with stack }
    return if truth then popped else popped.goto target
  | .jumpIfTrue target => some do
    let (truth, stack) ← machine.stack.popBool
    let popped := { machine with stack }
    return if truth then popped.goto target else popped
  | _ => none

/-- Calls a method of the module, unless too many calls are nested. -/
def call (module : Module) (index : UInt32) (machine : Machine) : Except Fault Machine := do
  if module.maxDepth ≤ machine.depth then throw (.stackOverflow module.maxDepth)
  let method ← module.method index
  let (arguments, stack) ← machine.stack.popMany method.signature.parameters.length
  return machine.enter (.enter method arguments) stack

/-- Calls a function of the host. -/
def hostCall (module : Module) (index : UInt32) (machine : Machine) : Action Machine := do
  match ← module.imported index with
  | .function run arity hasResult =>
    let (arguments, stack) ← machine.stack.popMany arity
    let result ← run arguments
    return { machine with stack }.pushOptional (if hasResult then some result else none)
  | .type _ _ => throw (.badImage (.notAFunction index.toNat))

/-- Calls a member of the value below the arguments. -/
def callMember (member : BuiltinMember) (machine : Machine) : Action Machine := do
  let (arguments, stack) ← machine.stack.popMany member.arity
  let (receiver, stack) ← stack.pop
  return { machine with stack }.pushOptional (← member.apply receiver arguments)

/-- Makes an object of an imported type. -/
def newObject (module : Module) (index : UInt32) (machine : Machine) : Action Machine := do
  match ← module.imported index with
  | .type name fields => return machine.push (← Action.newObject name fields)
  | .function _ _ _ => throw (.badImage (.notAType index.toNat))

/-- The object whose field is meant. -/
def fieldOwner (field : String) : Value → Except Fault Nat
  | .object _ reference => .ok reference
  | .null => .error (.nullReference field)
  | other => .error (.badImage (.noFieldOn field other))

/-- Replaces an object on the stack by the value of its field. -/
def loadField (module : Module) (name : UInt32) (machine : Machine) : Action Machine := do
  let field ← module.string name
  let (object, stack) ← machine.stack.pop
  let reference ← fieldOwner field object
  match ((← Action.store).fields reference).get? field with
  | some value => return { machine with stack }.push value
  | none => throw (.missingField field)

/-- Sets a field of the object below a value, and leaves the value. -/
def storeField (module : Module) (name : UInt32) (machine : Machine) : Action Machine := do
  let field ← module.string name
  let (value, stack) ← machine.stack.pop
  let (object, stack) ← stack.pop
  let reference ← fieldOwner field object
  let fields := (← Action.store).fields reference
  if (fields.get? field).isNone then throw (.missingField field)
  Action.modifyStore (·.setFields reference (fields.set field value))
  return { machine with stack }.push value

/-- An instruction that calls the host or works on lists and objects; others are none. -/
def onWorld? (module : Module) (instruction : Instruction) (machine : Machine) :
    Option (Action Machine) :=
  match instruction with
  | .hostCall function => some (module.hostCall function machine)
  | .builtin member => some (callMember member machine)
  | .newList element => some do
    return machine.push (← Action.newList (← module.string element) #[])
  | .newObject type => some (module.newObject type machine)
  | .loadField name => some (module.loadField name machine)
  | .storeField name => some (module.storeField name machine)
  | _ => none

/-- Ends the running call. Its result, if any, and then the final values of its parameters go to
the call that waits for it. -/
def leave (result : Option Value) (machine : Machine) : Progress :=
  match stillWaiting : machine.waiting with
  | [] => .ended (result.getD .null) machine.active
  | caller :: waiting =>
    let stack := Stack.pushAll (result.toList ++ machine.stack) machine.active.finals
    .running ⟨caller, waiting, stack, machine.depth - 1, by simp [machine.depth_eq, stillWaiting]⟩

/-- Carries out an instruction of a machine that is already in front of the next one. -/
def execute (module : Module) (instruction : Instruction) (machine : Machine) : Action Progress :=
  match instruction with
  | .call method => do return .running (← module.call method machine)
  | .giveBack => do
    let (result, stack) ← machine.stack.pop
    return leave (some result) { machine with stack }
  | .giveBackNothing => return leave none machine
  | instruction =>
    match module.onStack? instruction machine.stack, onFrame? instruction machine,
        module.onWorld? instruction machine with
    | some stack, _, _ => do return .running { machine with stack := ← stack }
    | none, some machine, _ => do return .running (← machine)
    | none, none, some action => do return .running (← action)
    | none, none, none => return .running machine

/-- One step of the machine. -/
def step (module : Module) (machine : Machine) : Action Progress :=
  match machine.active.method.code[machine.active.position]? with
  | some instruction => module.execute instruction machine.advance
  | none => throw (.badImage .ranPastEnd)

/-- At most the given number of steps; none if the outermost call has not ended then. -/
def run (module : Module) : Nat → Machine → Action (Option (Value × Frame))
  | 0, _ => return none
  | steps + 1, machine => do
    match ← module.step machine with
    | .ended result frame => return some (result, frame)
    | .running machine => module.run steps machine

end Module

/-- What a call from outside gives: the result or the exception, and the argument slots behind the
call. -/
structure CallOutcome where
  result : Except Exception Value
  arguments : List Value

namespace Module

/-- The call of a method from outside, up to a number of steps. -/
def callFromOutside (module : Module) (steps : Nat) (index : UInt32) (arguments : List Value) :
    Action (Option (Value × Frame)) := do
  let method ← module.method index
  let expected := method.signature.parameters.length
  if arguments.length != expected then throw (.argumentCount expected arguments.length)
  module.run steps (.start (.enter method arguments))

/-- Calls a method with one argument for each parameter; none if it has not ended after the given
number of steps. The argument slots change only if the call succeeds. -/
def invoke (module : Module) (steps : Nat) (index : UInt32) (arguments : List Value) :
    StateM World (Option CallOutcome) := do
  match ← (module.callFromOutside steps index arguments).run with
  | .ok none => return none
  | .ok (some (result, frame)) => return some ⟨.ok result, frame.argumentsAfter arguments⟩
  | .error exception => return some ⟨.error exception, arguments⟩

end Module

end Snippet
