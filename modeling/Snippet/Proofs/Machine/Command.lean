import Snippet.Machine.Step
import Snippet.Proofs.Block.Bounds
import Snippet.Proofs.Block.Program

/-!
Steps of the machine in code that lays out a block. What a command does to slots and stack is said
without indices; the machine does the same at the instruction that stands for the command. Main
statements: one equation for the step at each kind of instruction.
-/

namespace Snippet

/-- The entries of a list that a step accepts have results at the same places. -/
theorem List.getElem?_of_mapM {α β ε : Type} {step : α → Except ε β} {entries : List α} {results : List β}
    {index : Nat} {entry : α} (done : entries.mapM step = .ok results) (found : entries[index]? = some entry) :
    ∃ result, step entry = .ok result ∧ results[index]? = some result := by
  induction entries generalizing results index with
  | nil => cases found
  | cons first rest ih =>
      rw [List.mapM_cons] at done
      cases head : step first with
      | error fault =>
        rw [head] at done
        cases done
      | ok one =>
        rw [head] at done
        cases tail : rest.mapM step with
        | error fault =>
          simp only [tail] at done
          cases done
        | ok others =>
          simp only [tail] at done
          cases done
          cases index with
          | zero =>
            rw [List.getElem?_cons_zero, Option.some.injEq] at found
            exact ⟨one, found ▸ head, rfl⟩
          | succ index =>
            rw [List.getElem?_cons_succ] at found ⊢
            exact ih tail found

namespace Action

/-- Steps without a world that follow each other do so as actions. -/
theorem lift_bind {α β : Type} (first : Except Fault α) (next : α → Except Fault β) :
    (liftM (first >>= next) : Action β) = liftM first >>= fun value => liftM (next value) := by
  cases first <;> rfl

theorem lift_ok {α : Type} (value : α) : (liftM (Except.ok value : Except Fault α) : Action α) = pure value :=
  rfl

theorem lift_pure {α : Type} (value : α) : (liftM (pure value : Except Fault α) : Action α) = pure value :=
  rfl

end Action

/-! ### What commands do -/

/-- Whether a command works on the slots and the stack of the running call. -/
def Command.isLocal : Command → Bool
  | .call _ | .giveBack | .giveBackNothing => false
  | _ => true

/-- The slots and the stack behind a local command. Others change nothing here. -/
def Command.perform (libraries : LibrarySet) (slots : Array Value) (stack : Stack) :
    Command → Action (Array Value × Stack)
  | .const value => return (slots, value.toValue :: stack)
  | .load slot =>
    match slots[slot]? with
    | some value => return (slots, value :: stack)
    | none => throw (.badImage (.noLocal slot))
  | .store slot => do
    let (value, stack) ← stack.pop
    if slots.size ≤ slot then throw (.badImage (.noLocal slot))
    return (slots.setIfInBounds slot value, stack)
  | .duplicate => do
    let (value, stack) ← stack.pop
    return (slots, value :: value :: stack)
  | .drop => do
    let (_, stack) ← stack.pop
    return (slots, stack)
  | .operate operation => do
    let (second, stack) ← stack.pop
    let (first, stack) ← stack.pop
    return (slots, (← operation.apply first second) :: stack)
  | .negate => do
    let (value, stack) ← stack.pop
    return (slots, (← value.negate) :: stack)
  | .not => do
    let (truth, stack) ← stack.popBool
    return (slots, .bool (!truth) :: stack)
  | .convert conversion => do
    let (value, stack) ← stack.pop
    return (slots, conversion.apply value :: stack)
  | .cast target => do
    let (value, stack) ← stack.pop
    return (slots, (← value.castTo target) :: stack)
  | .hostCall function =>
    match function.link libraries with
    | .ok (.function run arity hasResult) => do
      let (arguments, stack) ← stack.popMany arity
      let result ← run arguments
      return (slots, (if hasResult then some result else none).toList ++ stack)
    | _ => throw (.badImage (.notAFunction 0))
  | .builtin member => do
    let (arguments, stack) ← stack.popMany member.arity
    let (receiver, stack) ← stack.pop
    return (slots, (← member.apply receiver arguments).toList ++ stack)
  | .newList element => return (slots, (← Action.newList element #[]) :: stack)
  | .newObject type =>
    match linkType type libraries with
    | .ok (.type name fields) => return (slots, (← Action.newObject name fields) :: stack)
    | _ => throw (.badImage (.notAType 0))
  | .loadField name => do
    let (object, stack) ← stack.pop
    let reference ← Module.fieldOwner name object
    match ((← Action.store).fields reference).get? name with
    | some value => return (slots, value :: stack)
    | none => throw (.missingField name)
  | .storeField name => do
    let (value, stack) ← stack.pop
    let (object, stack) ← stack.pop
    let reference ← Module.fieldOwner name object
    let fields := (← Action.store).fields reference
    if (fields.get? name).isNone then throw (.missingField name)
    Action.modifyStore (·.setFields reference (fields.set name value))
    return (slots, value :: stack)
  | .call _ | .giveBack | .giveBackNothing => return (slots, stack)

/-- The machine behind a local command. -/
def Machine.resume (machine : Machine) (after : Array Value × Stack) : Machine :=
  { machine with
    active := { machine.active with position := machine.active.position + 1, slots := after.1 }
    stack := after.2 }

/-- The machine whose running call goes on at a position. -/
def Machine.moveTo (machine : Machine) (position : Nat) : Machine :=
  { machine with active := { machine.active with position } }

/-- A connected function is one of the libraries. -/
theorem FunctionImport.of_link {wanted : FunctionImport} {libraries : LibrarySet} {linked : LinkedImport}
    (isLinked : wanted.link libraries = .ok linked) :
    ∃ found : HostFunction, (∃ type, libraries.findType? wanted.typeName = some type ∧
        found ∈ type.overloads wanted.method ∧ HostFunction.fits found wanted = true) ∧
      linked = .function found.run found.parameters.length found.result.isSome := by
  unfold link at isLinked
  dsimp only at isLinked
  split at isLinked
  · next found isFound =>
    cases isLinked
    obtain ⟨type, isType, inType⟩ := Option.bind_eq_some_iff.1 isFound
    exact ⟨found, ⟨type, isType, List.mem_of_find?_eq_some inType, by simpa using List.find?_some inType⟩, rfl⟩
  · cases isLinked

/-- A connected type is a class of the libraries. -/
theorem linkType_of_ok {name : String} {libraries : LibrarySet} {linked : LinkedImport}
    (isLinked : linkType name libraries = .ok linked) :
    ∃ type : HostType, libraries.findType? name = some type ∧ type.kind = .data ∧
      linked = .type type.fullName
        (.ofPairs (type.fields.map fun field => (field.name, field.type.defaultValue))) := by
  unfold linkType at isLinked
  split at isLinked
  · next type isType =>
    split at isLinked
    · next isData =>
      cases isLinked
      exact ⟨type, isType, beq_iff_eq.1 isData, rfl⟩
    · cases isLinked
  · cases isLinked

namespace Module

/-- A loaded module keeps its image, connects its imports in order and allows at least one call. -/
theorem of_load {module : Module} {image : Image} {libraries : LibrarySet} {maxDepth : Nat}
    (loaded : load image libraries maxDepth = .ok module) :
    module.image = image ∧ image.imports.mapM (·.link libraries) = .ok module.imports ∧
      module.maxDepth = max maxDepth 1 ∧ image.fault? = none := by
  unfold load at loaded
  cases isFault : image.fault? with
  | some fault =>
      rw [isFault] at loaded
      cases loaded
  | none =>
      rw [isFault] at loaded
      cases linked : image.imports.mapM (·.link libraries) with
      | error fault =>
        simp only [linked] at loaded
        cases loaded
      | ok imports =>
        simp only [linked] at loaded
        cases loaded
        exact ⟨rfl, rfl, rfl, rfl⟩

/-- A method of a module is one of its image. -/
theorem getElem?_of_method {module : Module} {index : UInt32} {method : MethodImage}
    (found : module.method index = .ok method) : module.image.methods[index.toNat]? = some method := by
  unfold Module.method tableEntry at found
  split at found
  · next isFound =>
    cases found
    exact isFound
  · cases found

section

variable {module : Module} {image : Image} {libraries : LibrarySet} {maxDepth : Nat}
  (loaded : load image libraries maxDepth = .ok module)

include loaded

theorem constant_of_found {index : UInt32} {value : Constant}
    (found : image.constants[index.toNat]? = some value) : module.constant index = .ok value.toValue := by
  rw [constant, tableEntry, (of_load loaded).1, found]
  rfl

theorem string_of_found {index : UInt32} {name : String}
    (found : image.strings[index.toNat]? = some name) : module.string index = .ok name := by
  rw [string, tableEntry, (of_load loaded).1, found]

theorem imported_of_found {index : UInt32} {wanted : Import}
    (found : image.imports[index.toNat]? = some wanted) :
    ∃ linked, wanted.link libraries = .ok linked ∧ module.imported index = .ok linked := by
  obtain ⟨-, connected, -⟩ := of_load loaded
  obtain ⟨linked, isLinked, isImport⟩ := List.getElem?_of_mapM connected found
  exact ⟨linked, isLinked, by rw [imported, tableEntry, isImport]⟩

/-- At the instruction of a local command the machine does what the command does. -/
theorem step_command {machine : Machine} {instruction : Instruction} {single : Command} {methods : Nat}
    (reached : machine.active.method.code[machine.active.position]? = some instruction)
    (encodes : instruction.Encodes image (.command single)) (isLocal : single.isLocal = true)
    (small : single.Indexes 65536 methods) :
    module.step machine = (fun after => Progress.running (machine.resume after)) <$>
      single.perform libraries machine.active.slots machine.stack := by
  unfold step
  rw [reached]
  obtain ⟨⟨method, position, slots⟩, waiting, stack, depth, depth_eq⟩ := machine
  cases encodes with
  | const found =>
    simp only [execute.eq_def, onStack?.eq_def, constant_of_found loaded found]
    rfl
  | load index =>
    have same : (Emit.slot index).toNat = index := UInt16.toNat_ofNat_of_lt' small
    simp only [execute.eq_def, onStack?.eq_def, onFrame?.eq_def, same, Command.perform, Machine.advance]
    cases slots[index]? with
    | none => rfl
    | some value => rfl
  | store index =>
    have same : (Emit.slot index).toNat = index := UInt16.toNat_ofNat_of_lt' small
    cases stack with
    | nil => rfl
    | cons value rest =>
      simp only [execute.eq_def, onStack?.eq_def, onFrame?.eq_def, same, Command.perform, Machine.advance]
      by_cases outside : slots.size ≤ index
      · simp only [outside]
        rfl
      · simp only [outside]
        rfl
  | duplicate | drop | convert conversion | operate operation | negate | not =>
    simp only [execute.eq_def, onStack?.eq_def, Command.perform, Machine.advance, Action.lift_bind,
      Action.lift_pure, bind_assoc, map_bind, map_pure, pure_bind]
    rfl
  | cast found =>
    simp only [execute.eq_def, onStack?.eq_def, string_of_found loaded found, Command.perform, Machine.advance,
      Action.lift_bind, Action.lift_pure, bind_assoc, map_bind, map_pure, pure_bind]
    rfl
  | hostCall found =>
    obtain ⟨linked, isLinked, isImport⟩ := imported_of_found loaded found
    obtain ⟨function, -, rfl⟩ := FunctionImport.of_link isLinked
    have isLinked : FunctionImport.link _ libraries = _ := isLinked
    simp only [execute.eq_def, onStack?.eq_def, onFrame?.eq_def, onWorld?.eq_def, hostCall, Command.perform,
      Machine.advance, isLinked, isImport, Action.lift_ok, bind_assoc, pure_bind, map_bind, map_pure]
    rfl
  | builtin member =>
    simp only [execute.eq_def, onStack?.eq_def, onFrame?.eq_def, onWorld?.eq_def, callMember, Command.perform,
      Machine.advance, bind_assoc, map_bind, map_pure, pure_bind]
    rfl
  | newList found =>
    simp only [execute.eq_def, onStack?.eq_def, onFrame?.eq_def, onWorld?.eq_def, string_of_found loaded found]
    rfl
  | newObject found =>
    obtain ⟨linked, isLinked, isImport⟩ := imported_of_found loaded found
    obtain ⟨type, -, -, rfl⟩ := linkType_of_ok isLinked
    have isLinked : linkType _ libraries = _ := isLinked
    simp only [execute.eq_def, onStack?.eq_def, onFrame?.eq_def, onWorld?.eq_def, newObject, Command.perform,
      Machine.advance, isLinked, isImport, Action.lift_ok, bind_assoc, pure_bind, map_bind, map_pure]
    rfl
  | loadField found =>
    simp only [execute.eq_def, onStack?.eq_def, onFrame?.eq_def, onWorld?.eq_def, string_of_found loaded found,
      loadField, Command.perform, Machine.advance, Action.lift_ok, bind_assoc, pure_bind, map_bind]
    refine bind_congr fun popped => bind_congr fun reference => bind_congr fun store => ?_
    cases (store.fields reference).get? _ <;> rfl
  | storeField found =>
    simp only [execute.eq_def, onStack?.eq_def, onFrame?.eq_def, onWorld?.eq_def, string_of_found loaded found,
      storeField, Command.perform, Machine.advance, Action.lift_ok, bind_assoc, pure_bind, map_bind]
    refine bind_congr fun popped => bind_congr fun below => bind_congr fun reference =>
      bind_congr fun store => ?_
    cases (store.fields reference).get? _ <;> rfl
  | call | giveBack | giveBackNothing => cases isLocal

/-- At a call the machine enters the method with the arguments from the stack. -/
theorem step_call {machine : Machine} {instruction : Instruction} {method : Nat} {callee : MethodImage}
    (reached : machine.active.method.code[machine.active.position]? = some instruction)
    (encodes : instruction.Encodes image (.command (.call method))) (small : method < UInt32.size)
    (found : image.methods[method]? = some callee) :
    module.step machine =
      if module.maxDepth ≤ machine.depth then throw (.stackOverflow module.maxDepth)
      else do
        let (arguments, stack) ← machine.stack.popMany callee.signature.parameters.length
        return .running (machine.advance.enter (.enter callee arguments) stack) := by
  unfold step
  rw [reached]
  cases encodes
  have isMethod : module.method (.ofNat method) = .ok callee := by
    rw [Module.method, tableEntry, UInt32.toNat_ofNat_of_lt' small, (of_load loaded).1, found]
  simp only [execute.eq_def, call, isMethod]
  by_cases tooDeep : module.maxDepth ≤ machine.depth
  · have tooDeep' : module.maxDepth ≤ machine.advance.depth := tooDeep
    simp only [tooDeep, tooDeep', if_true]
    rfl
  · have deep : ¬module.maxDepth ≤ machine.advance.depth := tooDeep
    simp only [tooDeep, deep, if_false, Action.lift_bind, Action.lift_ok, bind_assoc, pure_bind,
      Action.lift_pure]
    rfl

end

section

variable {module : Module} {image : Image} {machine : Machine} {instruction : Instruction} {target : Nat}
  (reached : machine.active.method.code[machine.active.position]? = some instruction)

include reached

/-- A jump goes to its target. -/
theorem step_jump (encodes : instruction.Encodes image (.jump target)) (small : target < UInt32.size) :
    module.step machine = return .running (machine.moveTo target) := by
  have same : (Emit.position target).toNat = target := UInt32.toNat_ofNat_of_lt' small
  unfold step
  rw [reached]
  cases encodes
  simp only [execute.eq_def, onStack?.eq_def, onFrame?.eq_def, Machine.goto, Frame.goto, same]
  rfl

/-- A jump with a condition goes to its target or to the next instruction. -/
theorem step_jumpIf {truth : Bool} (encodes : instruction.Encodes image (.jumpIf truth target))
    (small : target < UInt32.size) :
    module.step machine = do
      let (found, stack) ← machine.stack.popBool
      return .running ({ machine with stack }.moveTo
        (if found = truth then target else machine.active.position + 1)) := by
  have same : (Emit.position target).toNat = target := UInt32.toNat_ofNat_of_lt' small
  unfold step
  rw [reached]
  cases encodes <;>
  · simp only [execute.eq_def, onStack?.eq_def, onFrame?.eq_def, Action.lift_bind, Action.lift_pure,
      bind_assoc, pure_bind]
    refine bind_congr fun popped => ?_
    obtain ⟨found, stack⟩ := popped
    cases found <;> simp [Machine.goto, Frame.goto, Machine.moveTo, Machine.advance, same]

/-- The end of a method with a result. -/
theorem step_giveBack (encodes : instruction.Encodes image (.command .giveBack)) :
    module.step machine = do
      let (result, stack) ← machine.stack.pop
      return leave (some result) { machine.advance with stack } := by
  unfold step
  rw [reached]
  cases encodes
  rfl

/-- The end of a method without a result. -/
theorem step_giveBackNothing (encodes : instruction.Encodes image (.command .giveBackNothing)) :
    module.step machine = return leave none machine.advance := by
  unfold step
  rw [reached]
  cases encodes
  rfl

end

end Module

end Snippet
