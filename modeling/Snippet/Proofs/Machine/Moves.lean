import Snippet.Emit.Basic
import Snippet.Proofs.Machine.Action
import Snippet.Proofs.Machine.Command
import Snippet.Proofs.Typing.Program

/-!
What a step of the machine in compiled code can do, and runs of a module in which is noted which
method each call belongs to and which slots it has stored to.
-/

namespace Snippet

/-- What a machine can do at a line of a layout, with the world behind it. -/
inductive Machine.Moves (libraries : LibrarySet) (image : Image) (machine : Machine) (world : World) :
    Assembly → Machine → World → Prop where
  | command {single : Command} {after : Array Value × Stack} {world' : World}
      (isLocal : single.isLocal = true)
      (performed : (single.perform libraries machine.active.slots machine.stack).inWorld world =
        (.ok after, world')) :
    Moves libraries image machine world (.command single) (machine.resume after) world'
  | call {method : Nat} {callee : MethodImage} {arguments : List Value} {stack : Stack}
      (found : image.methods[method]? = some callee)
      (popped : machine.stack.popMany callee.signature.parameters.length = .ok (arguments, stack)) :
    Moves libraries image machine world (.command (.call method))
      (machine.advance.enter (.enter callee arguments) stack) world
  | giveBack {result : Value} {stack : Stack} {machine' : Machine}
      (popped : machine.stack.pop = .ok (result, stack))
      (leaves : Module.leave (some result) { machine.advance with stack } = .running machine') :
    Moves libraries image machine world (.command .giveBack) machine' world
  | giveBackNothing {machine' : Machine} (leaves : Module.leave none machine.advance = .running machine') :
    Moves libraries image machine world (.command .giveBackNothing) machine' world
  | jump (target : Nat) : Moves libraries image machine world (.jump target) (machine.moveTo target) world
  | jumpIf {truth found : Bool} {target : Nat} {stack : Stack}
      (popped : machine.stack.popBool = .ok (found, stack)) :
    Moves libraries image machine world (.jumpIf truth target)
      ({ machine with stack }.moveTo (if found = truth then target else machine.active.position + 1)) world

namespace Module

/-- A call that ends leads to the call that waits for it. -/
theorem of_leave {result : Option Value} {machine machine' : Machine}
    (leaves : leave result machine = .running machine') :
    ∃ caller waiting, machine.waiting = caller :: waiting ∧ machine'.active = caller ∧
      machine'.waiting = waiting ∧
      machine'.stack = Stack.pushAll (result.toList ++ machine.stack) machine.active.finals := by
  unfold leave at leaves
  split at leaves
  · cases leaves
  · next caller waiting isWaiting =>
    cases leaves
    exact ⟨caller, waiting, isWaiting, rfl, rfl, rfl⟩

end Module

/-- A source text without errors is compiled to an image of its program. -/
theorem CompilationUnit.compilesTo {unit : CompilationUnit} {libraries : LibrarySet}
    (noError : ∀ finding ∈ (unit.check libraries).findings, finding.isError = false) {moduleName : String}
    {image : Image} (done : (unit.check libraries).program.toImage moduleName = .ok image) :
    (unit.check libraries).program.CompilesTo libraries image where
  fits := unit.methodFits_of_check libraries noError
  count := unit.length_methods_le libraries
  addressable := (TypedProgram.compiles_of_toImage done).1
  methods := (TypedProgram.compiles_of_toImage done).2

/-- An image comes from a source text in which nothing found is an error. -/
theorem exists_unit_of_emit {source moduleName : String} {libraries : LibrarySet} {policy : WarningPolicy}
    {image : Image} (emitted : (emit source libraries policy moduleName).image = some image) :
    ∃ unit, CompilationUnit.ofSource source = .ok unit ∧
      (∀ finding ∈ (unit.check libraries).findings, finding.isError = false) ∧
      (∀ finding ∈ (unit.check libraries).program.flowFindings, finding.isError = false) ∧
      (unit.check libraries).program.toImage moduleName = .ok image := by
  unfold emit at emitted
  dsimp only at emitted
  split at emitted
  · cases emitted
  · unfold compileSource at emitted
    split at emitted
    · cases emitted
    · next unit isUnit =>
      dsimp only at emitted
      split_ifs at emitted with anyError anyFlowError
      split at emitted
      · next done =>
        cases emitted
        simp only [List.any_eq_true, not_exists, not_and, Bool.not_eq_true] at anyError anyFlowError
        refine ⟨unit, isUnit, anyError, fun finding member => anyFlowError finding ?_, done⟩
        exact (List.mergeSort_perm _ _).mem_iff.2 (List.mem_append_right _ member)
      · cases emitted

/-- A class with one method, which gives a variable back. -/
def CompilationUnit.givingVariable : CompilationUnit :=
  ⟨[], [.type (.mk ⟨0, 0⟩ "C" .none
    [⟨"M", { Modifiers.none with isStatic := true }, some (.basic ⟨0, 0⟩ .int), [],
      [.declare ⟨0, 0⟩ (.basic ⟨0, 0⟩ .int) [⟨"x", some (.int ⟨0, 0⟩ 1), ⟨0, 0⟩⟩],
        .giveBack ⟨0, 0⟩ (some (.name ⟨0, 0⟩ "x"))], ⟨0, 0⟩⟩] [])]⟩

/-- The compiled method that gives a variable back. -/
def MethodImage.givingVariable : MethodImage :=
  ⟨"M", 0, false, true, ⟨[], some TypeNames.int⟩, 1, [.const 0, .store 0, .load 0, .giveBack]⟩

/-- The image of a class with one method, which gives a variable back. -/
def Image.givingVariable : Image :=
  ⟨Image.currentVersion, "snippet", [.int 1], [], [], [⟨"C", false, false, [0]⟩], [.givingVariable]⟩

theorem CompilationUnit.toImage_givingVariable :
    (givingVariable.check .empty).program.toImage "snippet" = .ok .givingVariable := by
  with_unfolding_all rfl

theorem CompilationUnit.findings_givingVariable : (givingVariable.check .empty).findings = [] := by
  decide +kernel

/-- What a step of the machine can do in the code of a method. -/
theorem TypedProgram.CompilesTo.moves_of_step {program : TypedProgram} {checked libraries : LibrarySet}
    {image : Image} (compiles : program.CompilesTo checked image) {module : Module} {maxDepth : Nat}
    (loaded : Module.load image libraries maxDepth = .ok module) {machine machine' : Machine}
    {world world' : World} {index : Nat} {method : TypedMethod}
    (isMethod : program.methods[index]? = some method)
    (isCode : image.methods[index]? = some machine.active.method) {instruction : Instruction}
    (reached : machine.active.method.code[machine.active.position]? = some instruction)
    (stepped : (module.step machine).inWorld world = (.ok (.running machine'), world')) :
    ∃ line, (method.block.layout 0 0 0)[machine.active.position]? = some line ∧
      instruction.Encodes image line ∧ machine.Moves libraries image world line machine' world' := by
  obtain ⟨method, isFound, fits, code⟩ := compiles.compiled_at isCode
  cases isMethod.symm.trans isFound
  obtain ⟨line, isLine, encodes⟩ := code.exists_line reached
  refine ⟨line, isLine, encodes, ?_⟩
  cases line with
  | command single =>
      have bounds := code.indexes fits isLine
      cases isLocal : single.isLocal with
      | true =>
        have small := bounds.mono (Nat.le_of_lt (UInt16.toNat_lt machine.active.method.slotCount))
        rw [Module.step_command loaded reached encodes isLocal small] at stepped
        obtain ⟨after, performed, isAfter⟩ := Action.of_map_eq_ok stepped
        cases isAfter
        exact .command isLocal performed
      | false =>
        cases single with
        | call callee =>
          have exists_callee : callee < image.methods.length := compiles.length_methods ▸ bounds
          rw [Module.step_call loaded reached encodes (Nat.lt_of_lt_of_le bounds compiles.count)
            (List.getElem?_eq_getElem exists_callee)] at stepped
          split at stepped
          · cases stepped
          · obtain ⟨⟨arguments, stack⟩, middle, isPopped, rest⟩ := Action.of_bind_eq_ok stepped
            obtain ⟨popped, rfl⟩ := Action.of_lift_eq_ok isPopped
            cases rest
            exact .call (List.getElem?_eq_getElem exists_callee) popped
        | giveBack =>
          rw [Module.step_giveBack reached encodes] at stepped
          obtain ⟨⟨result, stack⟩, middle, isPopped, rest⟩ := Action.of_bind_eq_ok stepped
          obtain ⟨popped, rfl⟩ := Action.of_lift_eq_ok isPopped
          obtain ⟨leaves, rfl⟩ := Action.of_pure_eq_ok rest
          exact .giveBack popped leaves.symm
        | giveBackNothing =>
          rw [Module.step_giveBackNothing reached encodes] at stepped
          obtain ⟨leaves, rfl⟩ := Action.of_pure_eq_ok stepped
          exact .giveBackNothing leaves.symm
        | _ => cases isLocal
  | jump target =>
      rw [Module.step_jump reached encodes (code.target_lt isLine rfl)] at stepped
      cases stepped
      exact .jump target
  | jumpIf truth target =>
      rw [Module.step_jumpIf reached encodes (code.target_lt isLine rfl)] at stepped
      obtain ⟨⟨found, stack⟩, middle, isPopped, rest⟩ := Action.of_bind_eq_ok stepped
      obtain ⟨popped, rfl⟩ := Action.of_lift_eq_ok isPopped
      cases rest
      exact .jumpIf popped

/-! ### Watched runs -/

/-- What is noted about a call: the index of its method and the slots that it has stored to. -/
structure CallRecord where
  method : Nat
  stored : List Nat

/-- A machine with the records of the running call and of the waiting ones. -/
structure Watched where
  machine : Machine
  active : CallRecord
  waiting : List CallRecord

namespace Watched

/-- The start of a call of a method. -/
def start (index : Nat) (method : MethodImage) (arguments : List Value) : Watched :=
  ⟨.start (.enter method arguments), ⟨index, []⟩, []⟩

/-- The next instruction. -/
def instruction? (watched : Watched) : Option Instruction :=
  watched.machine.active.method.code[watched.machine.active.position]?

/-- What is noted behind an instruction that leads to a machine. -/
def next (watched : Watched) (instruction : Instruction) (machine : Machine) : Watched :=
  match instruction, watched.waiting with
  | .store slot, waiting =>
    ⟨machine, { watched.active with stored := slot.toNat :: watched.active.stored }, waiting⟩
  | .call method, waiting => ⟨machine, ⟨method.toNat, []⟩, watched.active :: waiting⟩
  | .giveBack, caller :: waiting | .giveBackNothing, caller :: waiting => ⟨machine, caller, waiting⟩
  | _, waiting => ⟨machine, watched.active, waiting⟩

end Watched

/-- The slots that a call has stored to behind a command. -/
def Command.noted (single : Command) (stored : List Nat) : List Nat :=
  match single with
  | .store slot => slot :: stored
  | _ => stored

namespace Watched

variable {image : Image} {watched : Watched} {machine : Machine} {instruction : Instruction}

/-- A local command changes nothing that is noted but the stored slots. -/
theorem next_command {single : Command} {methods : Nat}
    (encodes : instruction.Encodes image (.command single)) (isLocal : single.isLocal = true)
    (small : single.Indexes 65536 methods) :
    watched.next instruction machine =
      ⟨machine, { watched.active with stored := single.noted watched.active.stored }, watched.waiting⟩ := by
  cases encodes with
  | store slot =>
      have same : (Emit.slot slot).toNat = slot := UInt16.toNat_ofNat_of_lt' small
      show (⟨machine, ⟨watched.active.method, (Emit.slot slot).toNat :: watched.active.stored⟩,
        watched.waiting⟩ : Watched) = _
      rw [same]
      rfl
  | call | giveBack | giveBackNothing => cases isLocal
  | _ => rfl

theorem next_call {method : Nat} (encodes : instruction.Encodes image (.command (.call method)))
    (small : method < UInt32.size) :
    watched.next instruction machine = ⟨machine, ⟨method, []⟩, watched.active :: watched.waiting⟩ := by
  cases encodes
  have same : (UInt32.ofNat method).toNat = method := UInt32.toNat_ofNat_of_lt' small
  show (⟨machine, ⟨(UInt32.ofNat method).toNat, []⟩, watched.active :: watched.waiting⟩ : Watched) = _
  rw [same]

theorem next_leave {single : Command} (encodes : instruction.Encodes image (.command single))
    (leaves : single = .giveBack ∨ single = .giveBackNothing) {caller : CallRecord} {waiting : List CallRecord}
    (isWaiting : watched.waiting = caller :: waiting) :
    watched.next instruction machine = ⟨machine, caller, waiting⟩ := by
  rcases leaves with rfl | rfl <;>
  · cases encodes
    unfold next
    rw [isWaiting]

theorem next_jump {line : Assembly} (encodes : instruction.Encodes image line) {target : Nat}
    (jumps : line.target? = some target) :
    watched.next instruction machine = ⟨machine, watched.active, watched.waiting⟩ := by
  cases encodes <;> first | rfl | cases jumps

end Watched

/-- Runs of a module, with what is noted at their end. -/
inductive Module.Watches (module : Module) (first : Watched) (world : World) : Watched → World → Prop where
  | start : Watches module first world first world
  | step {watched : Watched} {machine : Machine} {world' world'' : World} {instruction : Instruction}
      (run : Watches module first world watched world') (reached : watched.instruction? = some instruction)
      (stepped : (module.step watched.machine).inWorld world' = (.ok (.running machine), world'')) :
    Watches module first world (watched.next instruction machine) world''

end Snippet
