import Snippet.Proofs.Passing.Evaluation

/-!
Runs of blocks: what the code of a program does, without positions and jumps. A call works on its own slots and on the
stack that all calls share. An `out` parameter has no value before something is stored to it.
-/

namespace Snippet

/-- What the code of a running call works on. -/
structure Activation where
  slots : Array Value
  /-- The slots that the call has stored to. -/
  stored : List Nat
  stack : Stack
  world : World
  calls : List HostCall

/-- What a call leaves behind. -/
structure Leaving where
  result : Option Value
  slots : Array Value
  stack : Stack
  world : World
  calls : List HostCall

/-- A call of a method with arguments, on a stack and in a world, behind the host calls so far. -/
abbrev Calling := Nat → List Value → Stack → World → List HostCall → Option Leaving

/-- What a block runs in: the libraries, the methods of the program, how they are called, and the slots of the method
that the block belongs to. -/
structure Site where
  libraries : LibrarySet
  methods : List TypedMethod
  call : Calling
  slots : List Slot

/-- Whether a slot is an `out` parameter that nothing has been stored to. -/
def Site.lacks (site : Site) (stored : List Nat) (slot : Nat) : Bool :=
  site.slots[slot]?.any (·.mode == some .out) && !stored.contains slot

/-- Whether something has been stored to every `out` parameter. -/
def Site.assignsOut (site : Site) (stored : List Nat) : Bool :=
  (List.range site.slots.length).all fun slot => !site.lacks stored slot

/-- The final values of the parameters that are written back, in order. -/
def TypedMethod.finals (method : TypedMethod) (slots : Array Value) : List Value :=
  (method.signature.parameters.zipIdx.filter (·.1.mode.writesBack)).map fun (_, index) => slots.getD index .null

/-- The call of the host that a command makes. -/
def Command.hostCall? (libraries : LibrarySet) (stack : Stack) (world : World) : Command → Option HostCall
  | .hostCall function =>
    match function.link libraries with
    | .ok (.function _ arity _) => some ⟨function, (stack.take arity).reverse, world⟩
    | _ => none
  | _ => none

/-- Runs a command that is local to the call. -/
def Command.runLocal (site : Site) (single : Command) (activation : Activation) : Option Activation :=
  match (single.perform site.libraries activation.slots activation.stack).inWorld activation.world with
  | (.ok (slots, stack), world) =>
    some ⟨slots, single.noted activation.stored, stack, world,
      activation.calls ++ (single.hostCall? site.libraries activation.stack activation.world).toList⟩
  | (.error _, _) => none

/-- Runs a call of a method: its result and then the final values of its parameters are pushed. -/
def Site.runCall (site : Site) (index : Nat) (activation : Activation) : Option Activation := do
  let method ← site.methods[index]?
  let (arguments, stack) ← (activation.stack.popMany method.parameters.length).toOption
  let left ← site.call index arguments stack activation.world activation.calls
  let stack := Stack.pushAll (left.result.toList ++ left.stack) (method.finals left.slots)
  return { activation with stack, world := left.world, calls := left.calls }

theorem Site.runCall_eq {site : Site} {index : Nat} {activation : Activation} {method : TypedMethod}
    {arguments : List Value} {stack : Stack} {left : Leaving} (found : site.methods[index]? = some method)
    (popped : activation.stack.popMany method.parameters.length = .ok (arguments, stack))
    (called : site.call index arguments stack activation.world activation.calls = some left) :
    site.runCall index activation = some { activation with
      stack := Stack.pushAll (left.result.toList ++ left.stack) (method.finals left.slots)
      world := left.world, calls := left.calls } := by
  simp [runCall, found, popped, called, Except.toOption]

/-- Runs a command. -/
def Command.run (site : Site) (activation : Activation) : Command → Option (Completion × Activation)
  | .call index => (site.runCall index activation).map (Completion.next, ·)
  | .giveBack =>
    match activation.stack with
    | result :: stack =>
      if site.assignsOut activation.stored then some (.gaveBack (some result), { activation with stack }) else none
    | [] => none
  | .giveBackNothing =>
    if site.assignsOut activation.stored then some (.gaveBack none, activation) else none
  | .load slot =>
    if site.lacks activation.stored slot then none
    else ((Command.load slot).runLocal site activation).map (Completion.next, ·)
  | single => (single.runLocal site activation).map (Completion.next, ·)

theorem Command.run_of_isLocal {site : Site} {activation : Activation} {single : Command}
    (isLocal : single.isLocal = true)
    (lacks : ∀ slot : Nat, single = .load slot → site.lacks activation.stored slot = false) :
    single.run site activation = (single.runLocal site activation).map (Completion.next, ·) := by
  cases single with
  | load slot => simp [run, lacks slot rfl]
  | call | giveBack | giveBackNothing => cases isLocal
  | _ => rfl

namespace Activation

/-- The truth value on top of the stack, and the activation without it. -/
def popTruth (activation : Activation) : Option (Bool × Activation) :=
  match activation.stack with
  | .bool truth :: stack => some (truth, { activation with stack })
  | _ => none

/-- Goes on behind what ends normally. -/
def follow (before : Option (Completion × Activation)) (behind : Activation → Option (Completion × Activation)) :
    Option (Completion × Activation) :=
  match before with
  | some (.next, activation) => behind activation
  | other => other

/-- Goes on behind the body of a loop: `round` starts the next round directly, `onward` goes to the end of this one. -/
def turn (body : Option (Completion × Activation)) (round onward : Activation → Option (Completion × Activation)) :
    Option (Completion × Activation) :=
  match body with
  | some (.next, activation) => onward activation
  | some (.nextRound, activation) => round activation
  | some (.leaveLoop, activation) => some (.next, activation)
  | other => other

end Activation

namespace Block

open Activation

/-- Runs at most the given number of rounds of a loop. -/
def runRounds (isGuarded isDirect : Bool) (test body advance : Activation → Option (Completion × Activation)) :
    Nat → Activation → Option (Completion × Activation)
  | 0, _ => none
  | most + 1, activation =>
    let round := runRounds isGuarded isDirect test body advance most
    let onward := fun activation => follow (advance activation) round
    follow (test activation) fun activation =>
      match (if isGuarded then activation.popTruth else some (true, activation)) with
      | none => none
      | some (false, activation) => some (.next, activation)
      | some (true, activation) => turn (body activation) (if isDirect then round else onward) onward

/-- Runs a block. A loop takes at most the given number of rounds. -/
def run (site : Site) (most : Nat) : Block → Activation → Option (Completion × Activation)
  | empty, activation => some (.next, activation)
  | command single, activation => single.run site activation
  | append first second, activation => follow (first.run site most activation) (second.run site most)
  | guard truth body, activation =>
    match activation.popTruth with
    | none => none
    | some (found, activation) =>
      if found = truth then body.run site most activation else some (.next, activation)
  | choose thenBlock elseBlock, activation =>
    match activation.popTruth with
    | none => none
    | some (true, activation) => thenBlock.run site most activation
    | some (false, activation) => elseBlock.run site most activation
  | loop isGuarded isDirect test body advance, activation =>
    runRounds isGuarded isDirect (test.run site most) (body.run site most) (advance.run site most) most activation
  | leaveLoop, activation => some (.leaveLoop, activation)
  | nextRound, activation => some (.nextRound, activation)
  | scope _ body, activation => body.run site most activation

end Block

/-- The slots of a call that starts. -/
def TypedMethod.start (method : TypedMethod) (arguments : List Value) : Array Value :=
  arguments.toArray ++ Array.replicate (method.slots.length + method.temporaries - arguments.length) Value.null

/-- Runs a call of a method of a program. Calls are nested at most as deep as the given number, and no loop takes more
rounds. -/
def TypedProgram.run (program : TypedProgram) (libraries : LibrarySet) : Nat → Calling
  | 0, _, _, _, _, _ => none
  | most + 1, index, arguments, stack, world, calls => do
    let method ← program.methods[index]?
    let site : Site := ⟨libraries, program.methods, program.run libraries most, method.slots⟩
    match ← method.block.run site most ⟨method.start arguments, [], stack, world, calls⟩ with
    | (.gaveBack result, activation) =>
      return ⟨result, activation.slots, activation.stack, activation.world, activation.calls⟩
    | _ => none

/-- A call that ends is a run of the block of a method that gives a result back. -/
theorem TypedProgram.of_run {program : TypedProgram} {libraries : LibrarySet} {most index : Nat}
    {arguments : List Value} {stack : Stack} {world : World} {calls : List HostCall} {left : Leaving}
    (ran : program.run libraries (most + 1) index arguments stack world calls = some left) :
    ∃ method result activation, program.methods[index]? = some method ∧
      method.block.run ⟨libraries, program.methods, program.run libraries most, method.slots⟩ most
        ⟨method.start arguments, [], stack, world, calls⟩ = some (.gaveBack result, activation) ∧
      left = ⟨result, activation.slots, activation.stack, activation.world, activation.calls⟩ := by
  rw [TypedProgram.run] at ran
  obtain ⟨method, found, ran⟩ := Option.bind_eq_some_iff.1 ran
  obtain ⟨⟨completion, activation⟩, ran, isLeft⟩ := Option.bind_eq_some_iff.1 ran
  cases completion with
  | gaveBack result => exact ⟨method, result, activation, found, ran, (Option.some.inj isLeft).symm⟩
  | _ => cases isLeft

end Snippet
