import Snippet.Proofs.Emit.Characters
import Snippet.Proofs.Machine.Safety
import Snippet.Proofs.Passing.Calls

/-!
Parameters that are only read. No compiled code stores to the slot of an `in` parameter, so in every run of it every
call that has not ended holds there the argument that it was entered with. Main statement: `emit_keepsInputs`.
-/

namespace Snippet

/-! ### Stores -/

/-- Whether code never stores to the slot of an `in` parameter. -/
def MethodImage.SparesInputs (method : MethodImage) : Prop :=
  ∀ slot : UInt16, .store slot ∈ method.code →
    ∀ parameter, method.signature.parameters[slot.toNat]? = some parameter → parameter.mode ≠ .input

namespace MethodImage.Compiles

variable {program : TypedProgram} {libraries : LibrarySet} {compiled : MethodImage} {image : Image}
  {method : TypedMethod} (compiles : compiled.Compiles image method) (fits : program.MethodFits libraries method)

include compiles fits

/-- A line that stores does so to no `in` parameter. -/
theorem mode_ne_input {position slot : Nat} {parameter : SignatureParameter}
    (found : (method.block.layout 0 0 0)[position]? = some (.command (.store slot)))
    (isParameter : compiled.signature.parameters[slot]? = some parameter) : parameter.mode ≠ .input := by
  obtain ⟨-, isSpared⟩ := compiles.allowed fits found
  rw [compiles.signature, TypedMethod.signature, List.getElem?_map] at isParameter
  obtain ⟨typed, isTyped, rfl⟩ := Option.map_eq_some_iff.1 isParameter
  obtain ⟨held, isHeld, isMode⟩ := fits.exists_slot isTyped
  intro isInput
  exact isSpared held isHeld (isMode.trans (congrArg some isInput))

/-- A slot of the frame is itself when it is written as an operand. -/
theorem toNat_slot {position slot : Nat}
    (found : (method.block.layout 0 0 0)[position]? = some (.command (.store slot))) :
    (Emit.slot slot).toNat = slot :=
  UInt16.toNat_ofNat_of_lt' (Nat.lt_trans (compiles.allowed fits found).1 (UInt16.toNat_lt compiled.slotCount))

/-- Compiled code never stores to the slot of an `in` parameter. -/
theorem sparesInputs : compiled.SparesInputs := by
  intro slot stores parameter isParameter
  obtain ⟨position, reached⟩ := List.getElem?_of_mem stores
  obtain ⟨line, isLine, encodes⟩ := compiles.exists_line reached
  cases encodes with
  | store index =>
    rw [compiles.toNat_slot fits isLine] at isParameter
    exact compiles.mode_ne_input fits isLine isParameter

end MethodImage.Compiles

/-! ### Calls and their arguments -/

/-- The arguments of the calls that have not ended, the innermost first, behind a step from a machine to another one:
those of a call that begins lie on top of the stack, and those of a call that ends are forgotten. -/
def Machine.givenBehind (machine next : Machine) (given : List (List Value)) : List (List Value) :=
  match machine.active.method.code[machine.active.position]? with
  | some (.call _) => (machine.stack.take next.active.method.signature.parameters.length).reverse :: given
  | some .giveBack | some .giveBackNothing => given.tail
  | _ => given

/-- The machines to which a call from outside comes, with the arguments that the calls in them were entered with. -/
inductive Module.Passes (module : Module) (index : UInt32) (arguments : List Value) (world : World) :
    Machine → List (List Value) → World → Prop
  | start {method : MethodImage} (found : module.method index = .ok method)
      (fits : arguments.length = method.signature.parameters.length) :
    Passes module index arguments world (.start (.enter method arguments)) [arguments] world
  | step {machine next : Machine} {given : List (List Value)} {here there : World}
      (reached : Passes module index arguments world machine given here)
      (stepped : (module.step machine).inWorld here = (.ok (.running next), there)) :
    Passes module index arguments world next (machine.givenBehind next given) there

/-- Whether the slot of every `in` parameter of a call holds the argument that was given for it. -/
def Frame.HoldsInputs (frame : Frame) (given : List Value) : Prop :=
  ∀ (position : Nat) (parameter : SignatureParameter),
    frame.method.signature.parameters[position]? = some parameter → parameter.mode = .input →
      ∃ argument, given[position]? = some argument ∧ frame.slots[position]? = some argument

namespace Frame

variable {frame other : Frame} {given : List Value}

theorem holdsInputs_enter {callee : MethodImage} (fits : given.length = callee.signature.parameters.length) :
    (enter callee given).HoldsInputs given := by
  intro position parameter isParameter _
  have inside : position < given.length := fits ▸ (List.getElem?_eq_some_iff.1 isParameter).1
  refine ⟨given[position], List.getElem?_eq_getElem inside, ?_⟩
  show (given.toArray ++ Array.replicate _ Value.null)[position]? = _
  rw [Array.getElem?_append_left (by simpa using inside)]
  simp [inside]

/-- A call that goes on with the same slots holds the same arguments. -/
theorem HoldsInputs.stays (holds : frame.HoldsInputs given) (method : other.method = frame.method)
    (slots : other.slots = frame.slots) : other.HoldsInputs given := by
  intro position parameter isParameter isInput
  rw [slots]
  exact holds position parameter (method ▸ isParameter) isInput

/-- A store to a slot that is not one of an `in` parameter leaves the arguments in theirs. -/
theorem HoldsInputs.store (holds : frame.HoldsInputs given) (method : other.method = frame.method) {slot : Nat}
    {value : Value} (slots : other.slots = frame.slots.setIfInBounds slot value)
    (isSpared : ∀ parameter, frame.method.signature.parameters[slot]? = some parameter → parameter.mode ≠ .input) :
    other.HoldsInputs given := by
  intro position parameter isParameter isInput
  rw [method] at isParameter
  have elsewhere : slot ≠ position := by
    rintro rfl
    exact isSpared parameter isParameter isInput
  rw [slots, Array.getElem?_setIfInBounds_ne elsewhere]
  exact holds position parameter isParameter isInput

end Frame

/-- Whether a call is one of a method of the image and holds what it was given. -/
structure Frame.Reads (image : Image) (frame : Frame) (given : List Value) : Prop where
  code : ∃ index : Nat, image.methods[index]? = some frame.method
  holds : frame.HoldsInputs given

/-! ### Steps -/

/-- A local command either leaves the slots as they are or stores to one of them. -/
theorem Command.slots_of_perform {single : Command} {libraries : LibrarySet} {slots : Array Value} {stack : Stack}
    {after : Array Value × Stack} {world there : World} (isLocal : single.isLocal = true)
    (performed : (single.perform libraries slots stack).inWorld world = (.ok after, there)) :
    after.1 = slots ∨ ∃ slot value, single = .store slot ∧ after.1 = slots.setIfInBounds slot value := by
  cases isKept : single.keepsSlots with
  | true => exact .inl ((single.perform_gives isLocal libraries slots stack performed).2 isKept)
  | false =>
    cases single with
    | store slot =>
      right
      obtain ⟨⟨value, rest⟩, middle, -, stored⟩ := Action.of_bind_eq_ok performed
      dsimp only at stored
      split at stored
      · cases stored
      · cases stored
        exact ⟨slot, value, rfl, rfl⟩
    | _ => cases isKept

namespace Machine

variable {image : Image} {machine next : Machine} {given : List (List Value)} {instruction : Instruction}

/-- An instruction that stands for a local command neither begins nor ends a call. -/
theorem givenBehind_command {single : Command}
    (reached : machine.active.method.code[machine.active.position]? = some instruction)
    (encodes : instruction.Encodes image (.command single)) (isLocal : single.isLocal = true) :
    machine.givenBehind next given = given := by
  unfold givenBehind
  rw [reached]
  cases encodes with
  | call | giveBack | giveBackNothing => cases isLocal
  | _ => rfl

theorem givenBehind_jump {line : Assembly} {target : Nat}
    (reached : machine.active.method.code[machine.active.position]? = some instruction)
    (encodes : instruction.Encodes image line) (jumps : line.target? = some target) :
    machine.givenBehind next given = given := by
  unfold givenBehind
  rw [reached]
  cases encodes <;> first | rfl | cases jumps

/-- A call is entered with the arguments that are taken off the stack. -/
theorem givenBehind_call {method : Nat} {arguments : List Value} {stack : Stack}
    (reached : machine.active.method.code[machine.active.position]? = some instruction)
    (encodes : instruction.Encodes image (.command (.call method)))
    (popped : machine.stack.popMany next.active.method.signature.parameters.length = .ok (arguments, stack)) :
    machine.givenBehind next given = arguments :: given := by
  unfold givenBehind
  rw [reached]
  cases encodes
  unfold Stack.popMany at popped
  split at popped
  · cases popped
  · cases popped
    rfl

theorem givenBehind_leave {single : Command}
    (reached : machine.active.method.code[machine.active.position]? = some instruction)
    (encodes : instruction.Encodes image (.command single))
    (ends : single = .giveBack ∨ single = .giveBackNothing) : machine.givenBehind next given = given.tail := by
  unfold givenBehind
  rw [reached]
  rcases ends with rfl | rfl <;>
  · cases encodes
    rfl

end Machine

namespace Module

variable {program : TypedProgram} {checked libraries : LibrarySet} {image : Image} {module : Module} {maxDepth : Nat}
  {machine next : Machine} {given : List (List Value)} {world there : World}

/-- What is left of the calls when one ends are the others. -/
theorem reads_of_leave {result : Option Value} {ended : Machine} (leaves : leave result ended = .running next)
    (reads : List.Forall₂ (Frame.Reads image) ended.waiting given) :
    List.Forall₂ (Frame.Reads image) next.frames given := by
  obtain ⟨caller, waiting, isWaiting, rfl, rfl, -⟩ := of_leave leaves
  rw [isWaiting] at reads
  exact reads

/-- A step leaves in the slot of every `in` parameter the argument that was given for it. -/
theorem step_reads (compiles : program.CompilesTo checked image)
    (loaded : load image libraries maxDepth = .ok module)
    (reads : List.Forall₂ (Frame.Reads image) machine.frames given)
    (stepped : (module.step machine).inWorld world = (.ok (.running next), there)) :
    List.Forall₂ (Frame.Reads image) next.frames (machine.givenBehind next given) := by
  cases reached : machine.active.method.code[machine.active.position]? with
  | none =>
    unfold step at stepped
    rw [reached] at stepped
    cases stepped
  | some instruction =>
    obtain ⟨first, others, ⟨⟨index, isCode⟩, holds⟩, waiting, rfl⟩ := List.forall₂_cons_left_iff.1 reads
    obtain ⟨method, isMethod, fits, code⟩ := compiles.compiled_at isCode
    obtain ⟨line, isLine, encodes, moves⟩ := compiles.moves_of_step loaded isMethod isCode reached stepped
    cases moves with
    | command isLocal performed =>
      rw [Machine.givenBehind_command reached encodes isLocal]
      refine .cons ⟨⟨index, isCode⟩, ?_⟩ waiting
      rcases Command.slots_of_perform isLocal performed with same | ⟨slot, value, rfl, stored⟩
      · exact holds.stays rfl same
      · exact holds.store rfl stored fun _ => code.mode_ne_input fits isLine
    | call found popped =>
      rw [Machine.givenBehind_call reached encodes popped]
      exact .cons ⟨⟨_, found⟩, Frame.holdsInputs_enter (Stack.length_of_popMany popped)⟩
        (.cons ⟨⟨index, isCode⟩, holds.stays rfl rfl⟩ waiting)
    | giveBack _ leaves =>
      rw [Machine.givenBehind_leave reached encodes (.inl rfl)]
      exact reads_of_leave leaves waiting
    | giveBackNothing leaves =>
      rw [Machine.givenBehind_leave reached encodes (.inr rfl)]
      exact reads_of_leave leaves waiting
    | jump | jumpIf =>
      rw [Machine.givenBehind_jump reached encodes rfl]
      exact .cons ⟨⟨index, isCode⟩, holds.stays rfl rfl⟩ waiting

/-- In every run every call holds in the slot of every `in` parameter the argument that was given for it. -/
theorem Passes.reads (compiles : program.CompilesTo checked image)
    (loaded : load image libraries maxDepth = .ok module) {index : UInt32} {arguments : List Value}
    (passes : module.Passes index arguments world machine given there) :
    List.Forall₂ (Frame.Reads image) machine.frames given := by
  induction passes with
  | @start method found fits =>
    have isCode : image.methods[index.toNat]? = some method := (of_load loaded).1 ▸ getElem?_of_method found
    exact .cons ⟨⟨index.toNat, isCode⟩, Frame.holdsInputs_enter fits⟩ .nil
  | step _ stepped ih => exact step_reads compiles loaded ih stepped

end Module

/-- An `in` parameter never changes. The code that is emitted for a source text stores to the slot of no `in`
parameter, and in every run of it every call that has not ended holds there the argument that it was entered with. -/
theorem emit_keepsInputs {source moduleName : String} {references : LibrarySet} {policy : WarningPolicy}
    {image : Image} (emitted : (emit source references policy moduleName).image = some image) :
    (∀ method ∈ image.methods, method.SparesInputs) ∧
      ∀ (libraries : LibrarySet) (maxDepth : Nat) (module : Module),
        Module.load image libraries maxDepth = .ok module →
        ∀ (index : UInt32) (arguments : List Value) (world : World) (machine : Machine) (given : List (List Value))
          (there : World), module.Passes index arguments world machine given there →
          List.Forall₂ Frame.HoldsInputs machine.frames given := by
  obtain ⟨unit, -, noError, -, done⟩ := exists_unit_of_emit emitted
  have compiles := CompilationUnit.compilesTo noError done
  refine ⟨fun method member => ?_, fun libraries maxDepth module loaded index arguments world machine given there
    passes => (passes.reads compiles loaded).imp fun _ _ reads => reads.holds⟩
  obtain ⟨index, isCode⟩ := List.getElem?_of_mem member
  obtain ⟨typed, -, fits, code⟩ := compiles.compiled_at isCode
  exact code.sparesInputs fits

/-- A source text in which a method passes its `in` parameter on, and a variable that starts as one is changed. -/
def readingTwice : String :=
  "class C \x7b static int Twice(in int x) \x7b int y = x; y += x; return y; \x7d " ++
    "static int M(in int a) \x7b return Twice(in a) + a; \x7d \x7d"

/-- The image of the text in which a method passes its `in` parameter on. -/
def Image.readingTwice : Image :=
  ⟨Image.currentVersion, "snippet", [], [], [], [⟨"C", false, false, [0, 1]⟩],
    [⟨"Twice", 0, false, true, ⟨[⟨"x", .input, TypeNames.int⟩], some TypeNames.int⟩, 2,
        [.load 0, .store 1, .load 1, .load 0, .operate .add, .store 1, .load 1, .giveBack]⟩,
      ⟨"M", 0, false, true, ⟨[⟨"a", .input, TypeNames.int⟩], some TypeNames.int⟩, 1,
        [.load 0, .call 0, .load 0, .operate .add, .giveBack]⟩]⟩

/-- Behind two stores of the inner call both calls still hold the number that the outer one was entered with. -/
theorem emit_keepsInputs_readingTwice :
    ∃ machine, Module.Passes ⟨.readingTwice, [], 256⟩ 1 [.int 5] .empty machine [[.int 5], [.int 5]] .empty ∧
      machine.active.slots = #[.int 5, .int 10] ∧
      List.Forall₂ Frame.HoldsInputs machine.frames [[.int 5], [.int 5]] := by
  have emitted : (emit readingTwice .empty .default "snippet").image = some .readingTwice := by
    have isSource : readingTwice = .ofList _ := String.ofList_append.symm
    rw [isSource, emit_ofList]
    decide +kernel
  have loaded : Module.load .readingTwice .empty 256 = .ok ⟨.readingTwice, [], 256⟩ := rfl
  have first : Module.Passes ⟨.readingTwice, [], 256⟩ 1 [.int 5] .empty _ _ .empty := .step (.start rfl rfl) rfl
  have entered := first.step rfl
  have passes := (((((entered.step rfl).step rfl).step rfl).step rfl).step rfl).step rfl
  exact ⟨_, passes, rfl, (emit_keepsInputs emitted).2 .empty 256 _ loaded _ _ _ _ _ _ passes⟩

end Snippet
