import Snippet.Proofs.Flow.Soundness
import Snippet.Proofs.Passing.Structured

/-!
Runs of the machine that end, at each line of the laid out code of a running call: what the line does, and that the run
goes on behind it. Main statements: `Running.Goes.runLocal`, `Running.Goes.call` and `Running.Goes.giveBack`.
-/

namespace Snippet

/-! ### Runs that end -/

namespace Module

/-- The call of the host that the next instruction makes. -/
def hostCall? (module : Module) (machine : Machine) (world : World) : Option HostCall :=
  match machine.active.method.code[machine.active.position]? with
  | some (.hostCall index) =>
    match module.image.imports[index.toNat]?, module.imports[index.toNat]? with
    | some (.function function), some (.function _ arity _) =>
      some ⟨function, (machine.stack.take arity).reverse, world⟩
    | _, _ => none
  | _ => none

/-- The calls of the host in a run of at most the given number of steps, in order. -/
def hostCalls (module : Module) : Nat → Machine → World → List HostCall
  | 0, _, _ => []
  | steps + 1, machine, world =>
    (module.hostCall? machine world).toList ++
      match (module.step machine).inWorld world with
      | (.ok (.running next), world) => module.hostCalls steps next world
      | _ => []

/-- Runs that end with the outermost call within a number of steps, with the calls of the host that they make. -/
inductive Ends (module : Module) (result : Value) (last : Frame) (final : World) :
    Nat → Machine → World → List HostCall → Prop
  | now {steps : Nat} {machine : Machine} {world : World}
      (stepped : (module.step machine).inWorld world = (.ok (.ended result last), final)) :
    Ends module result last final (steps + 1) machine world (module.hostCall? machine world).toList
  | later {steps : Nat} {machine next : Machine} {world middle : World} {calls : List HostCall}
      (stepped : (module.step machine).inWorld world = (.ok (.running next), middle))
      (rest : Ends module result last final steps next middle calls) :
    Ends module result last final (steps + 1) machine world ((module.hostCall? machine world).toList ++ calls)

variable {module : Module}

/-- A run that gives a result ends, and makes its calls of the host. -/
theorem ends_of_run {steps : Nat} {machine : Machine} {world final : World} {result : Value} {last : Frame}
    (ran : (module.run steps machine).inWorld world = (.ok (some (result, last)), final)) :
    module.Ends result last final steps machine world (module.hostCalls steps machine world) := by
  induction steps generalizing machine world with
  | zero => cases ran
  | succ steps ih =>
      rw [run] at ran
      obtain ⟨progress, middle, stepped, rest⟩ := Action.of_bind_eq_ok ran
      rw [hostCalls, stepped]
      cases progress with
      | ended found frame =>
        cases rest
        rw [List.append_nil]
        exact .now stepped
      | running next => exact .later stepped (ih rest)

end Module

/-- A machine is known by its calls and its stack. -/
theorem Machine.eq_of {machine other : Machine} (active : machine.active = other.active)
    (waiting : machine.waiting = other.waiting) (stack : machine.stack = other.stack) : machine = other := by
  obtain ⟨frame, frames, values, depth, isDepth⟩ := machine
  obtain ⟨frame', frames', values', depth', isDepth'⟩ := other
  cases active
  cases waiting
  cases stack
  subst isDepth isDepth'
  rfl

/-! ### Positions in code -/

/-- Whether some lines stand in a list of lines from a position on. -/
def Assembly.Stands (code : List Assembly) (start : Nat) (part : List Assembly) : Prop :=
  ∀ (index : Nat) (line : Assembly), part[index]? = some line → code[start + index]? = some line

namespace Assembly.Stands

variable {code first second : List Assembly} {start : Nat} {line : Assembly}

theorem left (stands : Stands code start (first ++ second)) : Stands code start first := by
  intro index line found
  apply stands
  rw [List.getElem?_append_left (List.getElem?_eq_some_iff.1 found).1, found]

theorem right (stands : Stands code start (first ++ second)) : Stands code (start + first.length) second := by
  intro index line found
  rw [Nat.add_assoc]
  apply stands
  rw [List.getElem?_append_right (Nat.le_add_right _ _), Nat.add_sub_cancel_left, found]

theorem head (stands : Stands code start (line :: second)) : code[start]? = some line := stands 0 line rfl

theorem tail (stands : Stands code start (line :: second)) : Stands code (start + 1) second := by
  intro index line found
  rw [Nat.add_right_comm, Nat.add_assoc]
  exact stands (index + 1) line found

end Assembly.Stands

/-- A line of the layout of a method has an instruction in its code. -/
theorem MethodImage.Compiles.exists_instruction {compiled : MethodImage} {image : Image} {method : TypedMethod}
    (compiles : compiled.Compiles image method) {position : Nat} {line : Assembly}
    (found : (method.block.layout 0 0 0)[position]? = some line) :
    ∃ instruction, compiled.code[position]? = some instruction ∧ instruction.Encodes image line := by
  obtain ⟨inside, rfl⟩ := List.getElem?_eq_some_iff.1 found
  have inside' : position < compiled.code.length := compiles.encodes.length_eq ▸ inside
  exact ⟨_, List.getElem?_eq_getElem inside', (List.forall₂_iff_get.1 compiles.encodes).2 position inside' inside⟩

/-! ### Running calls -/

/-- Whether a module is the loaded form of a program in which every method is clean. -/
structure TypedProgram.LoadsTo (program : TypedProgram) (references libraries : LibrarySet) (image : Image)
    (module : Module) : Prop where
  compiles : program.CompilesTo references image
  loaded : ∃ maxDepth : Nat, Module.load image libraries maxDepth = .ok module
  clean : ∀ method ∈ program.methods, method.IsFlowClean

/-- A source text in which nothing found is an error is loaded as its program. -/
theorem CompilationUnit.loadsTo {unit : CompilationUnit} {references libraries : LibrarySet}
    (noError : ∀ finding ∈ (unit.check references).findings, finding.isError = false)
    (noFlowError : ∀ finding ∈ (unit.check references).program.flowFindings, finding.isError = false)
    {moduleName : String} {image : Image} (done : (unit.check references).program.toImage moduleName = .ok image)
    {module : Module} {maxDepth : Nat} (loaded : Module.load image libraries maxDepth = .ok module) :
    (unit.check references).program.LoadsTo references libraries image module where
  compiles := compilesTo noError done
  loaded := ⟨maxDepth, loaded⟩
  clean := fun method member finding found => noFlowError finding (List.mem_flatMap.2 ⟨method, member, found⟩)

/-- A running call of a method, and the calls that wait for it. -/
structure Running where
  index : Nat
  method : TypedMethod
  compiled : MethodImage
  waiting : List Frame
  records : List CallRecord

/-- What a run from some point on leads to. -/
structure Outcome where
  result : Value
  last : Frame
  final : World
  /-- All calls of the host, those in front of the point included. -/
  calls : List HostCall

namespace Running

variable (running : Running)

/-- The machine in front of an instruction of the call. -/
def machine (position : Nat) (activation : Activation) : Machine where
  active := ⟨running.compiled, position, activation.slots⟩
  waiting := running.waiting
  stack := activation.stack
  depth := running.waiting.length + 1
  depth_eq := rfl

/-- The machine in front of an instruction of the call, with what is noted about the calls. -/
def watched (position : Nat) (activation : Activation) : Watched :=
  ⟨running.machine position activation, ⟨running.index, activation.stored⟩, running.records⟩

/-- Whether the call is one of a method of a program. -/
structure Of (program : TypedProgram) (image : Image) : Prop where
  found : program.methods[running.index]? = some running.method
  compiled : image.methods[running.index]? = some running.compiled

/-- Whether the machine in front of an instruction of the call comes to an outcome within a number of steps. -/
def Goes (program : TypedProgram) (image : Image) (module : Module) (outcome : Outcome) (steps position : Nat)
    (activation : Activation) : Prop :=
  (running.watched position activation).Follows program image ∧ ∃ calls : List HostCall,
    module.Ends outcome.result outcome.last outcome.final steps (running.machine position activation)
      activation.world calls ∧ activation.calls ++ calls = outcome.calls

/-- The machine behind the end of the call. -/
def behind (result : Option Value) (activation : Activation) (caller : Frame) (waiting : List Frame) : Machine where
  active := caller
  waiting := waiting
  stack := Stack.pushAll (result.toList ++ activation.stack) (running.method.finals activation.slots)
  depth := waiting.length + 1
  depth_eq := rfl

/-- The call of a method that an instruction of the call starts. -/
def calling (position : Nat) (activation : Activation) (index : Nat) (method : TypedMethod) (compiled : MethodImage) :
    Running where
  index := index
  method := method
  compiled := compiled
  waiting := ⟨running.compiled, position + 1, activation.slots⟩ :: running.waiting
  records := ⟨running.index, activation.stored⟩ :: running.records

/-- Whether the end of the call is the outcome, or the machine behind it comes to the outcome. -/
def Leaves (program : TypedProgram) (image : Image) (module : Module) (outcome : Outcome) (steps : Nat)
    (result : Option Value) (activation : Activation) : Prop :=
  match running.waiting, running.records with
  | [], _ => outcome.result = result.getD .null ∧ outcome.last.slots = activation.slots ∧
      outcome.last.method = running.compiled ∧ outcome.final = activation.world ∧ outcome.calls = activation.calls
  | caller :: waiting, record :: records =>
    (Watched.mk (running.behind result activation caller waiting) record records).Follows program image ∧
      ∃ calls : List HostCall, module.Ends outcome.result outcome.last outcome.final steps
        (running.behind result activation caller waiting) activation.world calls ∧
        activation.calls ++ calls = outcome.calls
  | _ :: _, [] => False

/-- Whether the machine comes to the outcome behind a block that ends at a position, in a loop whose end and whose next
round lie at the given ones. -/
def Reaches (program : TypedProgram) (image : Image) (module : Module) (outcome : Outcome)
    (done round stop steps : Nat) : Completion × Activation → Prop
  | (.next, activation) => running.Goes program image module outcome steps stop activation
  | (.leaveLoop, activation) => running.Goes program image module outcome steps done activation
  | (.nextRound, activation) => running.Goes program image module outcome steps round activation
  | (.gaveBack result, activation) => running.Leaves program image module outcome steps result activation

end Running

/-- The call of the host that a line makes. -/
def Assembly.hostCall? (libraries : LibrarySet) (stack : Stack) (world : World) : Assembly → Option HostCall
  | .command single => single.hostCall? libraries stack world
  | _ => none

/-- The instruction that stands for a line makes the line's call of the host. -/
theorem Module.hostCall?_of_encodes {module : Module} {image : Image} {libraries : LibrarySet} {maxDepth : Nat}
    (loaded : Module.load image libraries maxDepth = .ok module) {machine : Machine} {instruction : Instruction}
    {line : Assembly} (reached : machine.active.method.code[machine.active.position]? = some instruction)
    (encodes : instruction.Encodes image line) (world : World) :
    module.hostCall? machine world = line.hostCall? libraries machine.stack world := by
  unfold hostCall?
  rw [reached]
  cases encodes with
  | @hostCall index function found =>
    obtain ⟨isImage, connected, -⟩ := of_load loaded
    obtain ⟨linked, isLinked, isImport⟩ := List.getElem?_of_mapM connected found
    replace isLinked : function.link libraries = .ok linked := isLinked
    simp only [isImage, found, isImport, Assembly.hostCall?, Command.hostCall?, isLinked]
    cases linked <;> rfl
  | _ => rfl

/-! ### Steps -/

namespace Running

variable {program : TypedProgram} {references libraries : LibrarySet} {image : Image} {module : Module}
  {outcome : Outcome} {running : Running} {position steps : Nat} {activation : Activation}

/-- What the next step of a machine in front of a line can be: the end of the run, or a step to a machine that comes to
the outcome. -/
inductive Advances (program : TypedProgram) (image : Image) (module : Module) (outcome : Outcome) (running : Running)
    (position : Nat) (activation : Activation) (instruction : Instruction) (calls : List HostCall) (steps : Nat) : Prop
  | ended (stepped : (module.step (running.machine position activation)).inWorld activation.world =
        (.ok (.ended outcome.result outcome.last), outcome.final)) (isAll : activation.calls ++ calls = outcome.calls)
  | later {rest : Nat} {next : Machine} {middle : World} {others : List HostCall} (isLess : rest < steps)
      (stepped : (module.step (running.machine position activation)).inWorld activation.world =
        (.ok (.running next), middle))
      (ends : module.Ends outcome.result outcome.last outcome.final rest next middle others)
      (follows : ((running.watched position activation).next instruction next).Follows program image)
      (isAll : activation.calls ++ calls ++ others = outcome.calls)

section

variable (loads : program.LoadsTo references libraries image module) (isOf : running.Of program image)

include loads isOf

/-- Every line of the method has an instruction, with indices that fit. -/
theorem Of.instruction {line : Assembly} (isLine : (running.method.block.layout 0 0 0)[position]? = some line) :
    ∃ instruction, running.compiled.code[position]? = some instruction ∧ instruction.Encodes image line ∧
      (∀ single, line = .command single → single.Indexes 65536 program.methods.length) ∧
      ∀ target, line.target? = some target → target < UInt32.size := by
  obtain ⟨method, isMethod, fits, code⟩ := loads.compiles.compiled_at isOf.compiled
  cases isOf.found.symm.trans isMethod
  obtain ⟨instruction, reached, encodes⟩ := code.exists_instruction isLine
  refine ⟨instruction, reached, encodes, fun single isCommand => ?_, fun target jumps => code.target_lt isLine jumps⟩
  subst isCommand
  exact (code.indexes fits isLine).mono (Nat.le_of_lt (UInt16.toNat_lt running.compiled.slotCount))

omit isOf in
/-- A machine that comes to an outcome takes one more step. -/
theorem Goes.advances (goes : running.Goes program image module outcome steps position activation)
    {instruction : Instruction} {line : Assembly} (reached : running.compiled.code[position]? = some instruction)
    (encodes : instruction.Encodes image line) :
    running.Advances program image module outcome position activation instruction
      (line.hostCall? libraries activation.stack activation.world).toList steps := by
  obtain ⟨maxDepth, loaded⟩ := loads.loaded
  obtain ⟨follows, calls, ends, isAll⟩ := goes
  have isCall : module.hostCall? (running.machine position activation) activation.world =
    line.hostCall? libraries activation.stack activation.world :=
      Module.hostCall?_of_encodes loaded reached encodes activation.world
  cases ends with
  | now stepped =>
    rw [isCall] at isAll
    exact .ended stepped isAll
  | later stepped ends =>
    have follows := follows.step loads.compiles loaded reached stepped
    rw [isCall, ← List.append_assoc] at isAll
    exact .later (Nat.lt_succ_self _) stepped ends follows isAll

variable (goes : running.Goes program image module outcome steps position activation)

include goes

/-- A local command is run. -/
theorem Goes.runLocal {single : Command} {site : Site} (isSite : site.libraries = libraries)
    (isLine : (running.method.block.layout 0 0 0)[position]? = some (.command single))
    (isLocal : single.isLocal = true) :
    ∃ after rest, single.runLocal site activation = some after ∧ rest < steps ∧
      running.Goes program image module outcome rest (position + 1) after := by
  obtain ⟨instruction, reached, encodes, bounds, -⟩ := isOf.instruction loads isLine
  obtain ⟨maxDepth, loaded⟩ := loads.loaded
  have small := bounds single rfl
  have step : module.step (running.machine position activation) = _ :=
    Module.step_command loaded reached encodes isLocal small
  cases goes.advances loads reached encodes with
  | ended stepped =>
    rw [step] at stepped
    obtain ⟨after, -, isEnd⟩ := Action.of_map_eq_ok stepped
    cases isEnd
  | @later rest next middle calls isLess stepped ends follows isAll =>
    rw [Watched.next_command encodes isLocal small] at follows
    rw [step] at stepped
    obtain ⟨⟨slots, stack⟩, performed, isNext⟩ := Action.of_map_eq_ok stepped
    cases isNext
    refine ⟨⟨slots, single.noted activation.stored, stack, middle,
      activation.calls ++ (single.hostCall? libraries activation.stack activation.world).toList⟩, rest, ?_,
      isLess, follows, calls, ends, isAll⟩
    replace performed : (single.perform libraries activation.slots activation.stack).inWorld activation.world =
      (.ok (slots, stack), middle) := performed
    rw [Command.runLocal, isSite, performed]

/-- A jump is taken. -/
theorem Goes.jump {target : Nat} (isLine : (running.method.block.layout 0 0 0)[position]? = some (.jump target)) :
    ∃ rest, rest < steps ∧ running.Goes program image module outcome rest target activation := by
  obtain ⟨instruction, reached, encodes, -, small⟩ := isOf.instruction loads isLine
  have step : module.step (running.machine position activation) = _ :=
    Module.step_jump reached encodes (small target rfl)
  cases goes.advances loads reached encodes with
  | ended stepped =>
    rw [step] at stepped
    cases stepped
  | @later rest next middle calls isLess stepped ends follows isAll =>
    rw [Watched.next_jump encodes rfl] at follows
    rw [step] at stepped
    cases stepped
    rw [List.append_assoc] at isAll
    exact ⟨rest, isLess, follows, calls, ends, isAll⟩

/-- A jump with a condition is taken or not. -/
theorem Goes.jumpIf {truth : Bool} {target : Nat}
    (isLine : (running.method.block.layout 0 0 0)[position]? = some (.jumpIf truth target)) :
    ∃ found after rest, activation.popTruth = some (found, after) ∧ rest < steps ∧
      running.Goes program image module outcome rest (if found = truth then target else position + 1) after := by
  obtain ⟨instruction, reached, encodes, -, small⟩ := isOf.instruction loads isLine
  have step : module.step (running.machine position activation) = _ :=
    Module.step_jumpIf reached encodes (small target rfl)
  cases goes.advances loads reached encodes with
  | ended stepped =>
    rw [step] at stepped
    obtain ⟨popped, middle, -, isEnd⟩ := Action.of_bind_eq_ok stepped
    cases isEnd
  | @later rest next middle calls isLess stepped ends follows isAll =>
    rw [Watched.next_jump encodes rfl] at follows
    rw [step] at stepped
    obtain ⟨⟨found, stack⟩, middle, lifted, isNext⟩ := Action.of_bind_eq_ok stepped
    obtain ⟨popped, rfl⟩ := Action.of_lift_eq_ok lifted
    cases isNext
    rw [List.append_assoc] at isAll
    refine ⟨found, { activation with stack }, rest, ?_, isLess, follows, calls, ends, isAll⟩
    replace popped : activation.stack.popBool = .ok (found, stack) := popped
    unfold Activation.popTruth
    cases isStack : activation.stack with
    | nil =>
      rw [isStack] at popped
      cases popped
    | cons value others =>
      rw [isStack] at popped
      cases value <;> cases popped
      rfl

/-- At the end of the method nothing comes to an outcome. -/
theorem Goes.not_end (isEnd : position = running.method.block.length) : False := by
  obtain ⟨method, isMethod, fits, code⟩ := loads.compiles.compiled_at isOf.compiled
  cases isOf.found.symm.trans isMethod
  have isBehind : running.compiled.code[position]? = none :=
    List.getElem?_eq_none (Nat.le_of_eq (code.length_code.trans isEnd.symm))
  obtain ⟨-, calls, ends, -⟩ := goes
  have step : module.step (running.machine position activation) = throw (.badImage .ranPastEnd) := by
    unfold Module.step machine
    rw [isBehind]
  cases ends with
  | now stepped =>
    rw [step] at stepped
    cases stepped
  | later stepped =>
    rw [step] at stepped
    cases stepped

/-- At an `out` parameter that is loaded something has been stored to it. -/
theorem Goes.not_lacks {site : Site} (isSite : site.slots = running.method.slots) {slot : Nat}
    (isLine : (running.method.block.layout 0 0 0)[position]? = some (.command (.load slot))) :
    site.lacks activation.stored slot = false := by
  obtain ⟨instruction, reached, encodes, bounds, -⟩ := isOf.instruction loads isLine
  have small : slot < 65536 := bounds _ rfl
  have assigned := goes.1.active.hasAssigned loads.compiles isOf.found
    (loads.clean _ (List.mem_of_getElem? isOf.found))
  have same : (Emit.slot slot).toNat = slot := UInt16.toNat_ofNat_of_lt' small
  unfold Site.lacks
  rw [isSite]
  cases isDeclared : running.method.slots[slot]? with
  | none => rfl
  | some declared =>
    by_cases isOut : declared.mode = some .out
    · cases encodes
      have isStored := assigned.loads (Emit.slot slot) reached declared (same.symm ▸ isDeclared) (.inr isOut)
      rw [same] at isStored
      have isStored : slot ∈ activation.stored := isStored
      simp [isStored]
    · simp [isOut]

/-- At the end of a call something has been stored to every `out` parameter. -/
theorem Goes.assignsOut {site : Site} (isSite : site.slots = running.method.slots) {single : Command}
    (isEnd : single = .giveBack ∨ single = .giveBackNothing)
    (isLine : (running.method.block.layout 0 0 0)[position]? = some (.command single)) :
    site.assignsOut activation.stored = true := by
  obtain ⟨instruction, reached, encodes, -, -⟩ := isOf.instruction loads isLine
  have assigned := goes.1.active.hasAssigned loads.compiles isOf.found
    (loads.clean _ (List.mem_of_getElem? isOf.found))
  have ends : (running.watched position activation).instruction? = some .giveBack ∨
      (running.watched position activation).instruction? = some .giveBackNothing := by
    rcases isEnd with rfl | rfl <;> cases encodes
    · exact .inl reached
    · exact .inr reached
  unfold Site.assignsOut Site.lacks
  rw [isSite, List.all_eq_true]
  intro slot _
  cases isDeclared : running.method.slots[slot]? with
  | none => rfl
  | some declared =>
    by_cases isOut : declared.mode = some .out
    · have isStored : slot ∈ activation.stored := assigned.ends ends slot declared isDeclared isOut
      simp [isStored]
    · simp [isOut]

/-- Behind the end of a call the machine comes to the outcome, or the end is the outcome. -/
theorem Goes.leave {single : Command} (isEnd : single = .giveBack ∨ single = .giveBackNothing)
    (isLine : (running.method.block.layout 0 0 0)[position]? = some (.command single)) {result : Option Value}
    {after : Activation} {ended : Machine}
    (leaves : (module.step (running.machine position activation)).inWorld activation.world =
      (.ok (Module.leave result ended), activation.world))
    (isWaiting : ended.waiting = running.waiting) (isStack : ended.stack = after.stack)
    (isMethod : ended.active.method = running.compiled) (isSlots : ended.active.slots = after.slots)
    (isWorld : after.world = activation.world) (isCalls : after.calls = activation.calls) :
    ∃ rest, rest ≤ steps ∧ running.Leaves program image module outcome rest result after := by
  obtain ⟨instruction, reached, encodes, -, -⟩ := isOf.instruction loads isLine
  have noCall : (Assembly.command single).hostCall? libraries activation.stack activation.world = none := by
    rcases isEnd with rfl | rfl <;> rfl
  have advances := goes.advances loads reached encodes
  rw [noCall, Option.toList_none] at advances
  unfold Leaves
  cases advances with
  | ended stepped isAll =>
    rw [leaves] at stepped
    obtain ⟨isEnded, isFinal⟩ := Prod.mk.inj stepped
    replace isEnded := Except.ok.inj isEnded
    unfold Module.leave at isEnded
    split at isEnded
    · next noWaiting =>
      obtain ⟨isResult, isLast⟩ := Progress.ended.inj isEnded
      rw [isWaiting] at noWaiting
      rw [List.append_nil] at isAll
      refine ⟨steps, Nat.le_refl steps, ?_⟩
      rw [noWaiting]
      exact ⟨isResult.symm, isLast ▸ isSlots, isLast ▸ isMethod, isFinal.symm.trans isWorld.symm,
        isAll.symm.trans isCalls.symm⟩
    · cases isEnded
  | @later rest next middle calls isLess stepped ends follows isAll =>
    rw [leaves] at stepped
    obtain ⟨isNext, isMiddle⟩ := Prod.mk.inj stepped
    obtain ⟨caller, others, wereWaiting, isActive, areOthers, isNextStack⟩ :=
      Module.of_leave (Except.ok.inj isNext)
    rw [isWaiting] at wereWaiting
    have pairs : List.Forall₂ _ running.waiting running.records := goes.1.waiting
    rw [wereWaiting] at pairs
    obtain ⟨record, records, -, -, areRecords⟩ := List.forall₂_cons_left_iff.1 pairs
    rw [Watched.next_leave encodes isEnd areRecords] at follows
    obtain ⟨method, isFound, -, code⟩ := loads.compiles.compiled_at isOf.compiled
    cases isOf.found.symm.trans isFound
    have areFinals : ended.active.finals = running.method.finals after.slots := by
      rw [Frame.finals, isMethod, isSlots, code.signature]
      rfl
    have isBehind : next = running.behind result after caller others := by
      refine Machine.eq_of isActive areOthers ?_
      rw [isNextStack, isStack, areFinals]
      rfl
    subst isBehind isMiddle
    refine ⟨rest, Nat.le_of_lt isLess, ?_⟩
    rw [wereWaiting, areRecords]
    rw [List.append_nil] at isAll
    exact ⟨follows, calls, isWorld ▸ ends, isCalls ▸ isAll⟩

/-- The end of a call with a result. -/
theorem Goes.giveBack (isLine : (running.method.block.layout 0 0 0)[position]? = some (.command .giveBack)) :
    ∃ result stack rest, activation.stack = result :: stack ∧ rest ≤ steps ∧
      running.Leaves program image module outcome rest (some result) { activation with stack } := by
  obtain ⟨instruction, reached, encodes, -, -⟩ := isOf.instruction loads isLine
  have step : module.step (running.machine position activation) = _ := Module.step_giveBack reached encodes
  have popped : ∃ result stack, activation.stack = result :: stack := by
    cases isStack : activation.stack with
    | cons result stack => exact ⟨result, stack, rfl⟩
    | nil =>
      have fails : (module.step (running.machine position activation)).inWorld activation.world =
          (.error (.badImage .stackUnderflow), activation.world) := by
        rw [step]
        unfold machine
        rw [isStack]
        rfl
      cases goes.advances loads reached encodes with
      | ended stepped =>
        rw [fails] at stepped
        cases stepped
      | later _ stepped =>
        rw [fails] at stepped
        cases stepped
  obtain ⟨result, stack, isStack⟩ := popped
  have leaves : (module.step (running.machine position activation)).inWorld activation.world =
      (.ok (Module.leave (some result) { (running.machine position activation).advance with stack }),
        activation.world) := by
    rw [step]
    unfold machine
    rw [isStack]
    rfl
  have left : ∃ rest, rest ≤ steps ∧
      running.Leaves program image module outcome rest (some result) { activation with stack } :=
    goes.leave loads isOf (.inl rfl) isLine leaves rfl rfl rfl rfl rfl rfl
  obtain ⟨rest, isLess, left⟩ := left
  exact ⟨result, stack, rest, isStack, isLess, left⟩

/-- The end of a call without a result. -/
theorem Goes.giveBackNothing
    (isLine : (running.method.block.layout 0 0 0)[position]? = some (.command .giveBackNothing)) :
    ∃ rest, rest ≤ steps ∧ running.Leaves program image module outcome rest none activation := by
  obtain ⟨instruction, reached, encodes, -, -⟩ := isOf.instruction loads isLine
  have step : module.step (running.machine position activation) = _ := Module.step_giveBackNothing reached encodes
  have leaves : (module.step (running.machine position activation)).inWorld activation.world =
      (.ok (Module.leave none (running.machine position activation).advance), activation.world) := by
    rw [step]
    rfl
  exact goes.leave loads isOf (.inr rfl) isLine leaves rfl rfl rfl rfl rfl rfl

/-- A call of a method starts it. -/
theorem Goes.call {index : Nat}
    (isLine : (running.method.block.layout 0 0 0)[position]? = some (.command (.call index))) :
    ∃ method compiled arguments stack rest, program.methods[index]? = some method ∧
      activation.stack.popMany method.parameters.length = .ok (arguments, stack) ∧ rest < steps ∧
      (running.calling position activation index method compiled).Of program image ∧
      (running.calling position activation index method compiled).Goes program image module outcome rest 0
        ⟨method.start arguments, [], stack, activation.world, activation.calls⟩ := by
  obtain ⟨instruction, reached, encodes, bounds, -⟩ := isOf.instruction loads isLine
  have exists_method : index < program.methods.length := bounds _ rfl
  have small : index < UInt32.size := Nat.lt_of_lt_of_le exists_method loads.compiles.count
  have found := List.getElem?_eq_getElem exists_method
  obtain ⟨compiled, isCompiled, -, code⟩ := loads.compiles.exists_compiled found
  obtain ⟨maxDepth, loaded⟩ := loads.loaded
  have step : module.step (running.machine position activation) = _ :=
    Module.step_call loaded reached encodes small isCompiled
  have count : compiled.signature.parameters.length = program.methods[index].parameters.length := by
    rw [code.signature, TypedMethod.signature, List.length_map]
  rw [count] at step
  cases goes.advances loads reached encodes with
  | ended stepped =>
    rw [step] at stepped
    split at stepped
    · cases stepped
    · obtain ⟨popped, middle, -, isEnd⟩ := Action.of_bind_eq_ok stepped
      cases isEnd
  | @later rest next middle calls isLess stepped ends follows isAll =>
    rw [Watched.next_call encodes small] at follows
    rw [step] at stepped
    split at stepped
    · cases stepped
    · obtain ⟨⟨arguments, stack⟩, middle, lifted, isNext⟩ := Action.of_bind_eq_ok stepped
      obtain ⟨popped, rfl⟩ := Action.of_lift_eq_ok lifted
      cases isNext
      have starts : (running.machine position activation).advance.enter (.enter compiled arguments) stack =
          (running.calling position activation index program.methods[index] compiled).machine 0
            ⟨program.methods[index].start arguments, [], stack, activation.world, activation.calls⟩ := by
        refine Machine.eq_of ?_ rfl rfl
        show Frame.enter compiled arguments = _
        rw [Frame.enter, code.slotCount]
        rfl
      rw [starts] at ends follows
      rw [List.append_assoc] at isAll
      exact ⟨_, compiled, arguments, stack, rest, found, popped, isLess, ⟨found, isCompiled⟩, follows, calls, ends,
        isAll⟩

end

end Running

end Snippet
