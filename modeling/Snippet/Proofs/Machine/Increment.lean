import Snippet.Proofs.Emit.Characters
import Snippet.Proofs.Passing.Running

/-!
Increments and decrements as the machine runs them. Main statements: the code of one changes a variable or a field by
one and pushes the new or the old value if the constant that it adds is one of the number's own type, and it fails if
not.
-/

namespace Snippet

/-! ### Straight code -/

/-- The slots and the stack behind local commands, one after the other. -/
def Command.performAll (libraries : LibrarySet) (commands : List Command) (before : Array Value × Stack) :
    Action (Array Value × Stack) :=
  commands.foldlM (fun after single => single.perform libraries after.1 after.2) before

/-- The machine behind a number of local commands. -/
def Machine.behind (machine : Machine) (count : Nat) (after : Array Value × Stack) : Machine :=
  { machine with
    active := { machine.active with position := machine.active.position + count, slots := after.1 }
    stack := after.2 }

theorem Machine.behind_resume (machine : Machine) (count : Nat) (after last : Array Value × Stack) :
    (machine.resume after).behind count last = machine.behind (count + 1) last := by
  rw [behind, behind, resume, Nat.add_right_comm, Nat.add_assoc machine.active.position]

/-- Whether commands stand in the code of the running call from the next instruction on. -/
def Machine.Shows (machine : Machine) (image : Image) (commands : List Command) : Prop :=
  ∀ (index : Nat) (single : Command), commands[index]? = some single →
    single.isLocal = true ∧ (∃ methods, single.Indexes 65536 methods) ∧
      ∃ instruction, machine.active.method.code[machine.active.position + index]? = some instruction ∧
        instruction.Encodes image (.command single)

theorem Machine.Shows.tail {machine : Machine} {image : Image} {single : Command} {commands : List Command}
    (shows : machine.Shows image (single :: commands)) (after : Array Value × Stack) :
    (machine.resume after).Shows image commands := by
  intro index next found
  obtain ⟨isLocal, small, instruction, reached, encodes⟩ := shows (index + 1) next found
  refine ⟨isLocal, small, instruction, ?_, encodes⟩
  rw [← reached]
  show machine.active.method.code[machine.active.position + 1 + index]? = _
  rw [Nat.add_right_comm, Nat.add_assoc]

namespace Module

variable {module : Module} {image : Image} {libraries : LibrarySet} {maxDepth : Nat}

/-- Commands that stand in the code are performed one after the other. -/
theorem run_commands (loaded : load image libraries maxDepth = .ok module) {commands : List Command} {machine : Machine}
    (shows : machine.Shows image commands) (steps : Nat) :
    module.run (commands.length + steps) machine = (do
      let after ← Command.performAll libraries commands (machine.active.slots, machine.stack)
      module.run steps (machine.behind commands.length after)) := by
  induction commands generalizing machine with
  | nil =>
    rw [List.length_nil, Nat.zero_add]
    rfl
  | cons single rest ih =>
    obtain ⟨isLocal, ⟨methods, small⟩, instruction, reached, encodes⟩ := shows 0 single rfl
    rw [List.length_cons, Nat.add_right_comm, run, step_command loaded reached encodes isLocal small,
      Command.performAll, List.foldlM_cons, bind_map_left, bind_assoc]
    refine bind_congr fun after => ?_
    dsimp only
    rw [ih (shows.tail after)]
    refine bind_congr fun last => ?_
    rw [Machine.behind_resume]

end Module

/-! ### Numbers -/

/-- Whether a value is a number of a type. -/
def Ty.counts : Ty → Value → Bool
  | .int, .int _ | .long, .long _ | .double, .double _ => true
  | _, _ => false

theorem Ty.isNumeric_of_counts {held : Ty} {old : Value} (counts : held.counts old = true) : held.isNumeric = true := by
  match held, old, counts with
  | .int, .int _, _ | .long, .long _, _ | .double, .double _, _ => rfl

/-- A number changed by one. Integers wrap around, the one of doubles is held by its bits, and what is no number
stays. -/
def Value.changed (isIncrement : Bool) : Value → Value
  | .int number => .int (if isIncrement then number + 1 else number - 1)
  | .long number => .long (if isIncrement then number + 1 else number - 1)
  | .double number =>
    let one := Float.ofBits (Float.toBits 1.0)
    .double (if isIncrement then number + one else number - one)
  | value => value

/-- Adding the constant of the number's own type changes it by one. -/
theorem Ty.apply_one {held : Ty} {old : Value} (counts : held.counts old = true) (isIncrement : Bool) :
    (stepOperation isIncrement).apply old held.one.toValue = .ok (old.changed isIncrement) := by
  match held, old, counts with
  | .int, .int number, _ | .long, .long number, _ | .double, .double number, _ => cases isIncrement <;> rfl

/-- A wider type has the same constant only if it is the type itself or the one of 32-bit numbers is widened. -/
theorem Ty.one_eq_iff {held type : Ty} (isNumeric : held.isNumeric = true) (widens : held.Widens type) :
    type.one = held.one ↔ type = held ∨ held = .int := by
  rcases widens with rfl | ⟨rfl, -⟩ | ⟨rfl, -⟩
  · exact iff_of_true rfl (.inl rfl)
  · cases isNumeric
  · cases held with
    | int => exact iff_of_true rfl (.inr rfl)
    | long => exact iff_of_false nofun nofun
    | double => exact iff_of_false nofun nofun
    | _ => cases isNumeric

/-- Where the type is widened, other numbers than those of 32 bits do not fit to the constant. -/
theorem Ty.apply_one_of_widened {held type : Ty} {old : Value} (counts : held.counts old = true)
    (widens : held.Widens type) (widened : ¬(type = held ∨ held = .int)) (isIncrement : Bool) :
    ∃ defect, (stepOperation isIncrement).apply old type.one.toValue = .error (.badImage defect) := by
  have isObject : type = .object := by
    rcases widens with same | ⟨rfl, -⟩ | ⟨isObject, -⟩
    · exact absurd (.inl same.symm) widened
    · cases isNumeric_of_counts counts
    · exact isObject
  subst isObject
  match held, old, counts with
  | .int, .int _, _ => exact absurd (.inr rfl) widened
  | .long, .long _, _ | .double, .double _, _ => cases isIncrement <;> exact ⟨_, rfl⟩

/-! ### The commands of a step -/

/-- The world in which a field of an object has another value. -/
def World.setField (world : World) (reference : Nat) (name : String) (value : Value) : World :=
  { world with store := world.store.setFields reference ((world.store.fields reference).set name value) }

namespace Command

variable {libraries : LibrarySet} {slots : Array Value} {stack : Stack} {slot : Nat} {old changed : Value} {type : Ty}
  {isIncrement : Bool}

/-- A variable is changed by one, with its new or its old value on the stack. -/
theorem performAll_stepSlot (found : slots[slot]? = some old)
    (applies : (stepOperation isIncrement).apply old type.one.toValue = .ok changed) (isFront : Bool) :
    performAll libraries (.load slot :: (if isFront then Block.change type isIncrement ++ [.duplicate]
      else .duplicate :: Block.change type isIncrement) ++ [.store slot]) (slots, stack) =
      pure (slots.setIfInBounds slot changed, (if isFront then changed else old) :: stack) := by
  have inside : ¬slots.size ≤ slot := Nat.not_le.2 (Array.getElem?_eq_some_iff.1 found).1
  cases isFront <;>
    simp [performAll, Block.change, perform, found, applies, Stack.pop, inside, Action.lift_ok]

/-- A variable is changed by one where its value is not needed. -/
theorem performAll_change (found : slots[slot]? = some old)
    (applies : (stepOperation isIncrement).apply old type.one.toValue = .ok changed) :
    performAll libraries (.load slot :: Block.change type isIncrement ++ [.store slot]) (slots, stack) =
      pure (slots.setIfInBounds slot changed, stack) := by
  have inside : ¬slots.size ≤ slot := Nat.not_le.2 (Array.getElem?_eq_some_iff.1 found).1
  simp [performAll, Block.change, perform, found, applies, Stack.pop, inside, Action.lift_ok]

section

variable {name className : String} {reference temporary : Nat} {world : World}

theorem inWorld_load (found : slots[slot]? = some old) :
    ((load slot).perform libraries slots stack).inWorld world = (.ok (slots, old :: stack), world) := by
  simp only [perform, found]
  rfl

theorem inWorld_store (inside : slot < slots.size) (value : Value) :
    ((store slot).perform libraries slots (value :: stack)).inWorld world =
      (.ok (slots.setIfInBounds slot value, stack), world) := by
  simp only [perform, Stack.pop, Action.lift_ok, pure_bind, if_neg (Nat.not_le.2 inside)]
  rfl

theorem inWorld_loadField (found : (world.store.fields reference).get? name = some old) :
    ((loadField name).perform libraries slots (.object className reference :: stack)).inWorld world =
      (.ok (slots, old :: stack), world) := by
  have read : Action.store.inWorld world = (.ok world.store, world) := rfl
  simp only [perform, Stack.pop, Module.fieldOwner, Action.lift_ok, pure_bind]
  rw [Action.inWorld_bind, read]
  dsimp only
  rw [found]
  rfl

theorem inWorld_storeField (found : (world.store.fields reference).get? name = some old) (value : Value) :
    ((storeField name).perform libraries slots (value :: .object className reference :: stack)).inWorld world =
      (.ok (slots, value :: stack), world.setField reference name value) := by
  have opened : (storeField name).perform libraries slots (value :: .object className reference :: stack) = (do
      let fields := (← Action.store).fields reference
      if (fields.get? name).isNone then throw (.missingField name)
      Action.modifyStore (·.setFields reference (fields.set name value))
      return (slots, value :: stack)) := rfl
  rw [opened, Action.inWorld_bind]
  show (do
    if ((world.store.fields reference).get? name).isNone then throw (Cause.missingField name)
    Action.modifyStore (·.setFields reference ((world.store.fields reference).set name value))
    return (slots, value :: stack) : Action _).inWorld world = _
  rw [found]
  rfl

theorem inWorld_operate {operation : Operation} {first second : Value}
    (applies : operation.apply first second = .ok changed) :
    ((operate operation).perform libraries slots (second :: first :: stack)).inWorld world =
      (.ok (slots, changed :: stack), world) := by
  have opened : (operate operation).perform libraries slots (second :: first :: stack) = (do
      return (slots, (← operation.apply first second) :: stack)) := rfl
  rw [opened, applies]
  rfl

/-- The first command is performed, and then the others. -/
theorem inWorld_performAll_cons {single : Command} {rest : List Command} {after : Array Value × Stack} {middle : World}
    (first : (single.perform libraries slots stack).inWorld world = (.ok after, middle)) :
    (performAll libraries (single :: rest) (slots, stack)).inWorld world =
      (performAll libraries rest after).inWorld middle := by
  rw [performAll, List.foldlM_cons, Action.inWorld_bind, first]
  rfl

/-- A field of the object on top is changed by one, with its new value in the place of the object. -/
theorem inWorld_stepField (found : (world.store.fields reference).get? name = some old)
    (applies : (stepOperation isIncrement).apply old type.one.toValue = .ok changed) :
    (performAll libraries ([.duplicate, .loadField name] ++ Block.change type isIncrement ++ [.storeField name])
      (slots, .object className reference :: stack)).inWorld world =
      (.ok (slots, changed :: stack), world.setField reference name changed) :=
  (inWorld_performAll_cons rfl).trans <| (inWorld_performAll_cons (inWorld_loadField found)).trans <|
    (inWorld_performAll_cons rfl).trans <| (inWorld_performAll_cons (inWorld_operate applies)).trans <|
    (inWorld_performAll_cons (inWorld_storeField found changed)).trans rfl

/-- A field of the object on top is changed by one, with its old value in the place of the object; a temporary slot
keeps it meanwhile. -/
theorem inWorld_stepField_back (found : (world.store.fields reference).get? name = some old)
    (applies : (stepOperation isIncrement).apply old type.one.toValue = .ok changed) (inside : temporary < slots.size) :
    (performAll libraries ([.duplicate, .loadField name, .store temporary, .load temporary] ++
      Block.change type isIncrement ++ [.storeField name, .drop, .load temporary])
      (slots, .object className reference :: stack)).inWorld world =
      (.ok (slots.setIfInBounds temporary old, old :: stack), world.setField reference name changed) := by
  have kept : (slots.setIfInBounds temporary old)[temporary]? = some old :=
    Array.getElem?_setIfInBounds_self_of_lt inside
  exact (inWorld_performAll_cons rfl).trans <| (inWorld_performAll_cons (inWorld_loadField found)).trans <|
    (inWorld_performAll_cons (inWorld_store inside old)).trans <| (inWorld_performAll_cons (inWorld_load kept)).trans <|
    (inWorld_performAll_cons rfl).trans <| (inWorld_performAll_cons (inWorld_operate applies)).trans <|
    (inWorld_performAll_cons (inWorld_storeField found changed)).trans <| (inWorld_performAll_cons rfl).trans <|
    (inWorld_performAll_cons (inWorld_load kept)).trans rfl

/-- The first command may fail. -/
theorem inWorld_performAll_error {single : Command} {rest : List Command} {exception : Exception} {middle : World}
    (first : (single.perform libraries slots stack).inWorld world = (.error exception, middle)) :
    (performAll libraries (single :: rest) (slots, stack)).inWorld world = (.error exception, middle) := by
  rw [performAll, List.foldlM_cons, Action.inWorld_bind, first]

section

variable {fault : Fault} (fails : (stepOperation isIncrement).apply old type.one.toValue = .error fault)

include fails

/-- The constant may not fit to what is changed. -/
theorem inWorld_change_error (rest : List Command) :
    (performAll libraries (Block.change type isIncrement ++ rest) (slots, old :: stack)).inWorld world =
      (.error (fault.inWords world.store), world) := by
  have refused : ((operate (stepOperation isIncrement)).perform libraries slots
      (type.one.toValue :: old :: stack)).inWorld world = (.error (fault.inWords world.store), world) := by
    simp only [perform, Stack.pop, Action.lift_ok, pure_bind, fails]
    rfl
  exact (inWorld_performAll_cons rfl).trans (inWorld_performAll_error refused)

theorem inWorld_stepSlot_error (found : slots[slot]? = some old) (isFront : Bool) :
    (performAll libraries (.load slot :: (if isFront then Block.change type isIncrement ++ [.duplicate]
      else .duplicate :: Block.change type isIncrement) ++ [.store slot]) (slots, stack)).inWorld world =
      (.error (fault.inWords world.store), world) := by
  refine (inWorld_performAll_cons (inWorld_load found)).trans ?_
  cases isFront with
  | true => exact inWorld_change_error fails [.duplicate, .store slot]
  | false => exact (inWorld_performAll_cons rfl).trans (inWorld_change_error fails [.store slot])

theorem inWorld_stepField_error (found : (world.store.fields reference).get? name = some old) :
    (performAll libraries ([.duplicate, .loadField name] ++ Block.change type isIncrement ++ [.storeField name])
      (slots, .object className reference :: stack)).inWorld world = (.error (fault.inWords world.store), world) :=
  (inWorld_performAll_cons rfl).trans <| (inWorld_performAll_cons (inWorld_loadField found)).trans <|
    inWorld_change_error fails [.storeField name]

theorem inWorld_stepField_back_error (found : (world.store.fields reference).get? name = some old)
    (inside : temporary < slots.size) :
    (performAll libraries ([.duplicate, .loadField name, .store temporary, .load temporary] ++
      Block.change type isIncrement ++ [.storeField name, .drop, .load temporary])
      (slots, .object className reference :: stack)).inWorld world = (.error (fault.inWords world.store), world) := by
  have kept : (slots.setIfInBounds temporary old)[temporary]? = some old :=
    Array.getElem?_setIfInBounds_self_of_lt inside
  exact (inWorld_performAll_cons rfl).trans <| (inWorld_performAll_cons (inWorld_loadField found)).trans <|
    (inWorld_performAll_cons (inWorld_store inside old)).trans <| (inWorld_performAll_cons (inWorld_load kept)).trans <|
    inWorld_change_error fails [.storeField name, .drop, .load temporary]

end

/-- Without an object there is no field. -/
theorem inWorld_stepField_null (rest : List Command) :
    (performAll libraries (.duplicate :: .loadField name :: rest) (slots, .null :: stack)).inWorld world =
      (.error (.nullReference name), world) :=
  (inWorld_performAll_cons rfl).trans (inWorld_performAll_error rfl)

end

end Command

/-- The code of a step of a field reads the field first. -/
theorem Block.exists_stepField (type : Ty) (name : String) (isIncrement isFront : Bool) (temporary : Nat) :
    ∃ rest : List Command,
      stepField type name isIncrement isFront temporary = ofList (.duplicate :: .loadField name :: rest) ∧
        ∀ single ∈ Command.duplicate :: .loadField name :: rest, single.isLocal = true := by
  cases isFront <;> exact ⟨_, rfl, by simp [change, Command.isLocal]⟩

/-! ### Steps in compiled methods -/

/-- Whether a block stands in the layout of a method from a line on. -/
def TypedMethod.Has (method : TypedMethod) (start : Nat) (block : Block) : Prop :=
  ∃ done round, Assembly.Stands (method.block.layout 0 0 0) start (block.layout start done round)

namespace TypedMethod.Has

variable {method : TypedMethod} {start : Nat}

theorem second {before behind : Block} (has : method.Has start (before ++ behind)) :
    method.Has (start + before.length) behind := by
  obtain ⟨done, round, stands⟩ := has
  rw [Block.layout_append] at stands
  exact ⟨done, round, Block.length_layout before start done round ▸ stands.right⟩

theorem commands {commands : List Command} (has : method.Has start (.ofList commands)) :
    Assembly.Stands (method.block.layout 0 0 0) start (commands.map .command) := by
  obtain ⟨done, round, stands⟩ := has
  rwa [Block.layout_ofList] at stands

end TypedMethod.Has

/-- A running call of a method of a compiled program, in a module loaded from its image. -/
structure Machine.Runs (machine : Machine) (program : TypedProgram) (checked libraries : LibrarySet) (image : Image)
    (module : Module) (method : TypedMethod) : Prop where
  compiles : program.CompilesTo checked image
  loaded : ∃ maxDepth : Nat, Module.load image libraries maxDepth = .ok module
  code : ∃ index : Nat, program.methods[index]? = some method ∧ image.methods[index]? = some machine.active.method
  roomy : machine.active.method.slotCount.toNat ≤ machine.active.slots.size

/-- Whether the code of a block leads to the line behind it, with other slots, another stack and another world. -/
def Machine.Leads (machine : Machine) (module : Module) (world : World) (code : Block) (after : Array Value × Stack)
    (world' : World) : Prop :=
  ∀ steps : Nat, (module.run (code.length + steps) machine).inWorld world =
    (module.run steps (machine.behind code.length after)).inWorld world'

/-- Whether the code of a block fails and changes nothing outside. -/
def Machine.Fails (machine : Machine) (module : Module) (world : World) (code : Block) (exception : Exception) : Prop :=
  ∀ steps : Nat, (module.run (code.length + steps) machine).inWorld world = (.error exception, world)

namespace Machine.Runs

variable {machine : Machine} {program : TypedProgram} {checked libraries : LibrarySet} {image : Image} {module : Module}
  {method : TypedMethod} (runs : machine.Runs program checked libraries image module method)

include runs

/-- Commands that stand in the layout of the method stand in its code, and their slots exist. -/
theorem shows {commands : List Command} (areLocal : ∀ single ∈ commands, single.isLocal = true)
    (has : method.Has machine.active.position (.ofList commands)) :
    machine.Shows image commands ∧
      ∀ single ∈ commands, ∃ methods, single.Indexes machine.active.slots.size methods := by
  obtain ⟨index, isMethod, isCode⟩ := runs.code
  obtain ⟨found, isFound, fits, code⟩ := runs.compiles.compiled_at isCode
  cases isMethod.symm.trans isFound
  have line {index : Nat} {single : Command} (found : commands[index]? = some single) :
      (method.block.layout 0 0 0)[machine.active.position + index]? = some (.command single) :=
    has.commands index _ (by rw [List.getElem?_map, found]; rfl)
  refine ⟨fun index single found => ?_, fun single member => ?_⟩
  · obtain ⟨instruction, reached, encodes⟩ := code.exists_instruction (line found)
    have small := (code.indexes fits (line found)).mono
      (Nat.le_of_lt (UInt16.toNat_lt machine.active.method.slotCount))
    exact ⟨areLocal single (List.mem_of_getElem? found), ⟨_, small⟩, instruction, reached, encodes⟩
  · obtain ⟨index, found⟩ := List.mem_iff_getElem?.1 member
    exact ⟨_, (code.indexes fits (line found)).mono runs.roomy⟩

section

variable {commands : List Command} {world middle : World} (areLocal : ∀ single ∈ commands, single.isLocal = true)
  (has : method.Has machine.active.position (.ofList commands))

include areLocal has

/-- Commands that can be performed one after the other lead to the line behind them. -/
theorem leads {after : Array Value × Stack}
    (performed : (Command.performAll libraries commands (machine.active.slots, machine.stack)).inWorld world =
      (.ok after, middle)) :
    machine.Leads module world (.ofList commands) after middle := by
  obtain ⟨maxDepth, loaded⟩ := runs.loaded
  intro steps
  rw [Block.length_ofList, Module.run_commands loaded (runs.shows areLocal has).1 steps, Action.inWorld_bind, performed]

/-- A command that fails ends the run. -/
theorem fails {exception : Exception}
    (performed : (Command.performAll libraries commands (machine.active.slots, machine.stack)).inWorld world =
      (.error exception, world)) :
    machine.Fails module world (.ofList commands) exception := by
  obtain ⟨maxDepth, loaded⟩ := runs.loaded
  intro steps
  rw [Block.length_ofList, Module.run_commands loaded (runs.shows areLocal has).1 steps, Action.inWorld_bind, performed]

end

/-- The temporary slot of a step behind a field exists. -/
theorem temporary_lt {type : Ty} {name : String} {isIncrement : Bool} {temporary : Nat}
    (has : method.Has machine.active.position (.stepField type name isIncrement false temporary)) :
    temporary < machine.active.slots.size := by
  obtain ⟨methods, inside⟩ := (runs.shows (by simp [Block.change, Command.isLocal]) has).2 (.load temporary) (by simp)
  exact inside

section

variable {type : Ty} {old changed : Value} {isIncrement : Bool}
  (applies : (stepOperation isIncrement).apply old type.one.toValue = .ok changed)

include applies

/-- The code of a step of a variable changes it, and pushes its new or its old value. -/
theorem leads_stepSlot {slot : Nat} (found : machine.active.slots[slot]? = some old) {isFront : Bool}
    (has : method.Has machine.active.position (.stepSlot type slot isIncrement isFront)) (world : World) :
    machine.Leads module world (.stepSlot type slot isIncrement isFront)
      (machine.active.slots.setIfInBounds slot changed, (if isFront then changed else old) :: machine.stack) world := by
  refine runs.leads (by cases isFront <;> simp [Block.change, Command.isLocal]) has ?_
  rw [Command.performAll_stepSlot found applies]
  rfl

/-- The code of a step of a variable whose value is not needed changes the variable. -/
theorem leads_change {slot : Nat} (found : machine.active.slots[slot]? = some old)
    (has : method.Has machine.active.position (.ofList (.load slot :: Block.change type isIncrement ++ [.store slot])))
    (world : World) :
    machine.Leads module world (.ofList (.load slot :: Block.change type isIncrement ++ [.store slot]))
      (machine.active.slots.setIfInBounds slot changed, machine.stack) world := by
  refine runs.leads (by simp [Block.change, Command.isLocal]) has ?_
  rw [Command.performAll_change found applies]
  rfl

/-- The code of a step of a field changes it in the object on top, and puts its new or its old value in the place of
the object. No slot changes but the temporary one. -/
theorem leads_stepField {name className : String} {reference : Nat} {stack : Stack} {world : World}
    (isStack : machine.stack = .object className reference :: stack)
    (found : (world.store.fields reference).get? name = some old) {isFront : Bool} {temporary : Nat}
    (has : method.Has machine.active.position (.stepField type name isIncrement isFront temporary)) :
    ∃ slots : Array Value, (∀ slot ≠ temporary, slots[slot]? = machine.active.slots[slot]?) ∧
      machine.Leads module world (.stepField type name isIncrement isFront temporary)
        (slots, (if isFront then changed else old) :: stack) (world.setField reference name changed) := by
  cases isFront with
  | true =>
    refine ⟨machine.active.slots, fun _ _ => rfl, runs.leads (by simp [Block.change, Command.isLocal]) has ?_⟩
    rw [isStack]
    exact Command.inWorld_stepField found applies
  | false =>
    refine ⟨machine.active.slots.setIfInBounds temporary old,
      fun slot differs => Array.getElem?_setIfInBounds_ne differs.symm,
      runs.leads (by simp [Block.change, Command.isLocal]) has ?_⟩
    rw [isStack]
    exact Command.inWorld_stepField_back found applies (runs.temporary_lt has)

end

/-- The code of a step of a field fails without an object. -/
theorem fails_stepField {type : Ty} {isIncrement isFront : Bool} {name : String} {temporary : Nat} {stack : Stack}
    (isStack : machine.stack = .null :: stack)
    (has : method.Has machine.active.position (.stepField type name isIncrement isFront temporary)) (world : World) :
    machine.Fails module world (.stepField type name isIncrement isFront temporary) (.nullReference name) := by
  obtain ⟨rest, isBlock, areLocal⟩ := Block.exists_stepField type name isIncrement isFront temporary
  rw [isBlock] at has ⊢
  refine runs.fails areLocal has ?_
  rw [isStack, Command.inWorld_stepField_null]

/-- Where a step of a number keeps the number's type, or the number is one of 32 bits, its code changes the variable or
the field by one and pushes the new value in front and the old one behind; that of a variable's step whose value is not
needed pushes nothing. It fails only without an object that has the field. -/
theorem leads_step {held type : Ty} (widens : held.Widens type) (kept : type = held ∨ held = .int) {old : Value}
    (counts : held.counts old = true) (isIncrement isFront : Bool) (free : Nat) (world : World) :
    (∀ slot : Nat, machine.active.slots[slot]? = some old →
      (∀ code, code = (TypedNode.step (.slot slot) isIncrement isFront).block free type →
        method.Has machine.active.position code → machine.Leads module world code
          (machine.active.slots.setIfInBounds slot (old.changed isIncrement),
            (if isFront then old.changed isIncrement else old) :: machine.stack) world) ∧
      ∀ code span, code = (TypedExpr.mk (.step (.slot slot) isIncrement isFront) type span).effectBody free →
        method.Has machine.active.position code → machine.Leads module world code
          (machine.active.slots.setIfInBounds slot (old.changed isIncrement), machine.stack) world) ∧
    ∀ (object : TypedExpr) (name : String) (start : Nat) (stack : Stack),
      method.Has start ((TypedNode.step (.field object name) isIncrement isFront).block free type) →
      machine.active.position = start + (object.block free).length →
      ∃ code, (TypedNode.step (.field object name) isIncrement isFront).block free type = object.block free ++ code ∧
        (∀ className reference, machine.stack = .object className reference :: stack →
          (world.store.fields reference).get? name = some old →
          ∃ slots : Array Value, (∀ slot < free, slots[slot]? = machine.active.slots[slot]?) ∧
            machine.Leads module world code
              (slots, (if isFront then old.changed isIncrement else old) :: stack)
              (world.setField reference name (old.changed isIncrement))) ∧
        (machine.stack = .null :: stack → machine.Fails module world code (.nullReference name)) := by
  have applies : (stepOperation isIncrement).apply old type.one.toValue = .ok (old.changed isIncrement) :=
    (Ty.one_eq_iff (Ty.isNumeric_of_counts counts) widens).2 kept ▸ Ty.apply_one counts isIncrement
  refine ⟨fun slot found => ⟨?value, ?effect⟩, fun object name start stack has behind => ⟨_, rfl, ?object, ?null⟩⟩
  case value =>
    rintro code rfl has
    exact runs.leads_stepSlot applies found has world
  case effect =>
    rintro code span rfl has
    exact runs.leads_change applies found has world
  all_goals
    have last : method.Has machine.active.position
        (.stepField type name isIncrement isFront (free + object.temporaries)) := behind ▸ has.second
  case object =>
    intro className reference isStack found
    obtain ⟨slots, others, leads⟩ := runs.leads_stepField applies isStack found last
    exact ⟨slots, fun slot below => others slot (by omega), leads⟩
  case null => exact fun isStack => runs.fails_stepField isStack last world

/-- Where a step of a number of 64 bits or of a double is widened, its code fails: the constant that it adds is one of 32
bits. -/
theorem fails_step {held type : Ty} (widens : held.Widens type) (widened : ¬(type = held ∨ held = .int)) {old : Value}
    (counts : held.counts old = true) (isIncrement isFront : Bool) (free : Nat) (world : World) :
    ∃ defect,
      (∀ (slot : Nat) (span : Span) (code : Block), machine.active.slots[slot]? = some old →
        (code = (TypedNode.step (.slot slot) isIncrement isFront).block free type ∨
          code = (TypedExpr.mk (.step (.slot slot) isIncrement isFront) type span).effectBody free) →
        method.Has machine.active.position code → machine.Fails module world code (Fault.inWords world.store (.badImage defect))) ∧
      ∀ (name className : String) (reference temporary : Nat) (stack : Stack),
        machine.stack = .object className reference :: stack → (world.store.fields reference).get? name = some old →
        method.Has machine.active.position (.stepField type name isIncrement isFront temporary) →
        machine.Fails module world (.stepField type name isIncrement isFront temporary)
          (Fault.inWords world.store (.badImage defect)) := by
  obtain ⟨defect, refuses⟩ := Ty.apply_one_of_widened counts widens widened isIncrement
  refine ⟨defect, ?slot, ?field⟩
  case slot =>
    rintro slot span code found (rfl | rfl) has
    · refine runs.fails (by cases isFront <;> simp [Block.change, Command.isLocal]) has ?_
      exact Command.inWorld_stepSlot_error refuses found isFront
    · refine runs.fails (by simp [Block.change, Command.isLocal]) has ?_
      exact (Command.inWorld_performAll_cons (Command.inWorld_load found)).trans
        (Command.inWorld_change_error refuses [.store slot])
  case field =>
    intro name className reference temporary stack isStack found has
    cases isFront with
    | true =>
      refine runs.fails (by simp [Block.change, Command.isLocal]) has ?_
      rw [isStack]
      exact Command.inWorld_stepField_error refuses found
    | false =>
      refine runs.fails (by simp [Block.change, Command.isLocal]) has ?_
      rw [isStack]
      exact Command.inWorld_stepField_back_error refuses found (runs.temporary_lt has)

end Machine.Runs

/-- A class with one method, which counts its parameter up and gives back what it was. -/
def CompilationUnit.countingUp : CompilationUnit :=
  ⟨[], [.type (.mk ⟨0, 0⟩ "C" .none
    [⟨"M", { Modifiers.none with isStatic := true }, some (.basic ⟨0, 0⟩ .long),
      [⟨.value, .basic ⟨0, 0⟩ .long, "x", ⟨0, 0⟩⟩],
      [.giveBack ⟨0, 0⟩ (some (.step ⟨0, 0⟩ true false (.name ⟨0, 0⟩ "x")))], ⟨0, 0⟩⟩] [])]⟩

/-- The method that counts its parameter up. -/
def TypedMethod.countingUp : TypedMethod where
  name := "M"
  label := "C.M(long)"
  owner := 0
  isPublic := false
  parameters := [⟨"x", .value, .long⟩]
  result := .long
  slots := [⟨"x", .long, ⟨0, 0⟩, some .value⟩]
  body := [.giveBack ⟨0, 0⟩ (some (.mk (.step (.slot 0) true false) .long ⟨0, 0⟩))]
  span := ⟨0, 0⟩

/-- The compiled method that counts its parameter up and gives back what it was, as a value of a type. -/
def MethodImage.countingUp (result : String) : MethodImage :=
  ⟨"M", 0, false, true, ⟨[⟨"x", .value, TypeNames.long⟩], some result⟩, 1,
    [.load 0, .duplicate, .const 0, .operate .add, .store 0, .giveBack]⟩

/-- The image of the class, with the constant that is added. -/
def Image.countingUp (one : Constant) (result : String) : Image :=
  ⟨Image.currentVersion, "snippet", [one], [], [], [⟨"C", false, false, [0]⟩], [.countingUp result]⟩

theorem CompilationUnit.program_countingUp :
    (countingUp.check .empty).program.methods = [.countingUp] := by
  with_unfolding_all rfl

theorem CompilationUnit.toImage_countingUp :
    (countingUp.check .empty).program.toImage "snippet" = .ok (.countingUp (.long 1) TypeNames.long) := by
  with_unfolding_all rfl

theorem CompilationUnit.findings_countingUp : (countingUp.check .empty).findings = [] := by
  decide +kernel

/-- The method that counts its parameter up gives back what it was as a number of its own type. -/
theorem Machine.Runs.leads_step_countingUp :
    (Machine.start (.enter (.countingUp TypeNames.long) [.long 5])).Leads
      ⟨.countingUp (.long 1) TypeNames.long, [], 256⟩ .empty ((TypedNode.step (.slot 0) true false).block 1 .long)
      (#[.long 6], [.long 5]) .empty := by
  have noError : ∀ finding ∈ (CompilationUnit.countingUp.check .empty).findings, finding.isError = false := by
    rw [CompilationUnit.findings_countingUp]
    exact List.forall_mem_nil _
  have loaded : Module.load (.countingUp (.long 1) TypeNames.long) .empty 256 =
      .ok ⟨.countingUp (.long 1) TypeNames.long, [], 256⟩ := rfl
  have runs : (Machine.start (.enter (.countingUp TypeNames.long) [.long 5])).Runs
      (CompilationUnit.countingUp.check .empty).program .empty .empty (.countingUp (.long 1) TypeNames.long)
      ⟨.countingUp (.long 1) TypeNames.long, [], 256⟩ .countingUp :=
    ⟨CompilationUnit.compilesTo noError CompilationUnit.toImage_countingUp, ⟨256, loaded⟩,
      ⟨0, by rw [CompilationUnit.program_countingUp]; rfl, rfl⟩, Nat.le_refl 1⟩
  have widens : Ty.long.Widens .long := .inl rfl
  have counts : Ty.long.counts (.long 5) = true := rfl
  have stands : Assembly.Stands (TypedMethod.countingUp.block.layout 0 0 0) 0
      (((TypedNode.step (.slot 0) true false).block 1 .long).layout 0 0 0 ++ [.command .giveBack]) :=
    fun index line found => (congrArg _ (Nat.zero_add index)).trans found
  exact ((runs.leads_step widens (.inl rfl) counts true false 1 .empty).1 0 rfl).1 _ rfl ⟨0, 0, stands.left⟩

/-- The method that counts its parameter up and gives back what it was as a value of any type fails: the constant that
it adds is one of 32 bits. -/
theorem not_leads_step :
    (emit "class C \x7b static object M(long x) \x7b return x++; \x7d \x7d" .empty .default "snippet").image =
        some (.countingUp (.int 1) TypeNames.object) ∧
      Module.load (.countingUp (.int 1) TypeNames.object) .empty 256 =
        .ok ⟨.countingUp (.int 1) TypeNames.object, [], 256⟩ ∧
      (Module.invoke ⟨.countingUp (.int 1) TypeNames.object, [], 256⟩ 6 0 [.long 5]).run .empty =
        (some ⟨.error (.badImage (.badOperands "Add" "Long(5)" "Int(1)")), [.long 5]⟩, .empty) := by
  refine ⟨?_, rfl, ?_⟩
  · rw [emit_ofList]
    decide +kernel
  · with_unfolding_all rfl

end Snippet
