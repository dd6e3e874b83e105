import Snippet.Proofs.Machine.Action

/-!
The machine with its unchecked steps laid open: slots and arguments are reached without a look at their number, integers
are divided and lengths subtracted as a processor does it, and what these steps cannot do traps. The arguments of the
outermost call stand in the slots of its caller, and its end writes to them one after the other. Main statements: every
instruction but the two that end a call does what the machine does, and so do these where the slots they reach exist.
-/

namespace Snippet

/-- What a step without a check cannot do. -/
inductive Trap where
  /-- To read a slot that the call lacks. -/
  | noSlot (index : Nat)
  /-- To write to an argument that the caller lacks. -/
  | noArgument (index : Nat)
  /-- To divide an integer by zero. -/
  | zeroDivisor
  /-- To subtract a length from a smaller one. -/
  | belowZero
  /-- To add lengths whose sum does not fit into 32 bits. -/
  | tooLong
deriving DecidableEq, Repr

/-- Why the exposed machine stops before the end of the outermost call. -/
inductive Halt where
  | raised (exception : Exception)
  | trapped (trap : Trap)

/-- What lies outside the machine: the world and the argument slots of the caller. -/
structure Outside where
  world : World
  arguments : List Value

/-- A computation of the exposed machine. -/
abbrev Exposed (α : Type) := ExceptT Halt (StateM Outside) α

namespace Exposed

variable {α β : Type}

/-- The result of a computation, and what lies outside behind it. -/
def within (computation : Exposed α) (outside : Outside) : Except Halt α × Outside :=
  computation.run.run outside

theorem within_bind (first : Exposed α) (next : α → Exposed β) (outside : Outside) :
    (first >>= next).within outside =
      match first.within outside with
      | (.ok value, middle) => (next value).within middle
      | (.error halt, middle) => (.error halt, middle) := by
  show (ExceptT.bindCont next (first.within outside).1).run (first.within outside).2 = _
  rcases first.within outside with ⟨halt | value, middle⟩ <;> rfl

theorem within_bind_ok {first : Exposed α} {value : α} {outside middle : Outside}
    (done : first.within outside = (.ok value, middle)) (next : α → Exposed β) :
    (first >>= next).within outside = (next value).within middle := by
  rw [within_bind, done]

/-- What the exposed machine makes of the result of an action in a world, with the argument slots that the result
leaves; an exception leaves all as they are. -/
def settled (after : α → List Value) (arguments : List Value) :
    Except Exception α × World → Except Halt α × Outside
  | (.ok value, world) => (.ok value, ⟨world, after value⟩)
  | (.error exception, world) => (.error (.raised exception), ⟨world, arguments⟩)

/-- An action on the world, in which no argument slot takes part. -/
def act (action : Action α) : Exposed α := ExceptT.mk fun outside =>
  settled (fun _ => outside.arguments) outside.arguments (action.inWorld outside.world)

theorem within_act (action : Action α) (world : World) (arguments : List Value) :
    (act action).within ⟨world, arguments⟩ = settled (fun _ => arguments) arguments (action.inWorld world) := rfl

instance : MonadLift Action Exposed := ⟨act⟩

theorem act_bind (first : Action α) (next : α → Action β) : act (first >>= next) = act first >>= (act <| next ·) := by
  refine funext fun ⟨world, arguments⟩ => ?_
  show (act (first >>= next)).within ⟨world, arguments⟩ = (act first >>= (act <| next ·)).within ⟨world, arguments⟩
  rw [within_bind, within_act, within_act, Action.inWorld_bind]
  rcases first.inWorld world with ⟨exception | value, middle⟩ <;> rfl

theorem act_bind_pure (action : Action α) (change : α → β) :
    (act action >>= fun value => pure (change value) : Exposed β) = act (action >>= fun value => pure (change value)) :=
  (act_bind action fun value => pure (change value)).symm

/-- A step without a check. -/
def trap (cannot : Trap) : Exposed α := throw (.trapped cannot)

/-- An exception. -/
def raise (exception : Exception) : Exposed α := throw (.raised exception)

end Exposed

/-! ### Numbers and texts -/

namespace Arithmetic

/-- The quotient or the remainder of two integers. Behind the check of the divisor, zero traps. -/
def exposedDivision {α : Type} [BEq α] [OfNat α 0] (arithmetic : Arithmetic α) (number : α → Value)
    (compute : α → α → α) (first second : α) : Exposed Value := do
  if arithmetic.refuses second then Exposed.raise .divideByZero
  else if second == 0 then Exposed.trap .zeroDivisor
  else return number (compute first second)

end Arithmetic

/-- The result of an operation. Only integers are divided by what can trap. -/
def Operation.exposed (operation : Operation) (first second : Value) : Exposed Value :=
  match operation, first, second with
  | .divide, .int first, .int second => Arithmetic.int.exposedDivision .int Arithmetic.int.divide first second
  | .divide, .long first, .long second => Arithmetic.long.exposedDivision .long Arithmetic.long.divide first second
  | .remainder, .int first, .int second => Arithmetic.int.exposedDivision .int Arithmetic.int.remainder first second
  | .remainder, .long first, .long second =>
    Arithmetic.long.exposedDivision .long Arithmetic.long.remainder first second
  | operation, first, second => Exposed.act (operation.apply first second)

namespace Arithmetic

variable {α : Type} [BEq α] [OfNat α 0] {arithmetic : Arithmetic α}

theorem exposedDivision_eq (refuses : ∀ value, arithmetic.refuses value = (value == 0)) (number : α → Value)
    (compute : α → α → α) (first second : α) :
    arithmetic.exposedDivision number compute first second =
      Exposed.act
        (if arithmetic.refuses second then throw .divideByZero else pure (number (compute first second))) := by
  unfold exposedDivision
  rw [refuses]
  split <;> rfl

end Arithmetic

/-- No division traps: the check in front of it leaves no zero. -/
theorem Operation.exposed_eq (operation : Operation) (first second : Value) :
    operation.exposed first second = Exposed.act (operation.apply first second) := by
  have lift (exception : Exception) (value : Value) (refused : Bool) :
      (if refused then throw exception else pure value : Action Value) =
        liftM (if refused then .error exception else .ok value : Except Exception Value) := by
    cases refused <;> rfl
  unfold exposed
  split
  case h_5 => rfl
  all_goals
    rw [Arithmetic.exposedDivision_eq fun _ => rfl, lift]
    congr 1
    simp only [apply, onNumbers?, Arithmetic.result?]
    split <;> rfl

namespace BuiltinMember

/-- The difference of two lengths. -/
def lengthDifference (total part : Nat) : Exposed Nat :=
  if total < part then Exposed.trap .belowZero else return total - part

/-- The sum of two lengths. -/
def lengthSum (first second : Nat) : Exposed Nat :=
  if 4294967296 ≤ first + second then Exposed.trap .tooLong else return first + second

/-- The length of the part of a text from a start in it on, up to a count if one is given. -/
def partLength (length start : Nat) : Option Int → Exposed Nat
  | none => lengthDifference length start
  | some count => do
    if count < 0 then Exposed.raise (.argumentOutOfRange "length")
    else if length < (← lengthSum start count.toNat) then Exposed.raise (.argumentOutOfRange "length")
    else return count.toNat

/-- The characters from a start on, up to a count of them if one is given, by the arithmetic of lengths. -/
def exposedSubstring (text : String) (start : Int) (count : Option Int) : Exposed String := do
  if start < 0 ∨ text.toList.length < start.toNat then Exposed.raise (.argumentOutOfRange "startIndex")
  else
    let count ← partLength text.toList.length start.toNat count
    return String.ofList ((text.toList.drop start.toNat).take count)

/-- Calls a member on a value. Only parts of texts are cut out by what can trap. -/
def exposedApply (member : BuiltinMember) (receiver : Value) (arguments : List Value) : Exposed (Option Value) :=
  match member, receiver with
  | textSubstring, .text text => do
    return some (.text (← exposedSubstring text (← intArgument arguments 0 "startIndex") none))
  | textSubstringRange, .text text => do
    let start ← intArgument arguments 0 "startIndex"
    let count ← intArgument arguments 1 "length"
    return some (.text (← exposedSubstring text start (some count)))
  | member, receiver => Exposed.act (member.apply receiver arguments)

theorem lengthSum_eq {first second : Int} (small : first < 2147483648) (small' : second < 2147483648) :
    lengthSum first.toNat second.toNat = pure (first.toNat + second.toNat) :=
  if_neg (by omega)

/-- Lengths of 32 bits are neither subtracted from smaller ones nor too large for a sum. -/
theorem exposedSubstring_eq (text : String) {start : Int} (smallStart : start < 2147483648) {count : Option Int}
    (smallCount : ∀ number ∈ count, number < 2147483648) :
    exposedSubstring text start count = Exposed.act (substring text start count) := by
  unfold exposedSubstring substring
  dsimp only
  by_cases outside : start < 0 ∨ (text.toList.length : Int) < start
  · rw [if_pos outside, if_pos (by omega)]
    rfl
  · rw [if_neg outside, if_neg (by omega)]
    cases count with
    | none =>
      have enough : ¬ text.toList.length < start.toNat := by omega
      rw [partLength, lengthDifference, if_neg enough, pure_bind,
        List.take_of_length_le (Nat.le_of_eq List.length_drop)]
      rfl
    | some count =>
      dsimp only [partLength]
      rw [lengthSum_eq smallStart (smallCount count rfl), pure_bind]
      by_cases negative : count < 0
      · rw [if_pos negative, if_pos (.inl negative)]
        rfl
      · rw [if_neg negative]
        by_cases long : (text.toList.length : Int) < start + count
        · rw [if_pos (by omega), if_pos (.inr long)]
          rfl
        · rw [if_neg (by omega), if_neg (by omega)]
          rfl

theorem intArgument_lt {arguments : List Value} {index : Nat} {parameter : String} {number : Int}
    (isNumber : intArgument arguments index parameter = .ok number) : number < 2147483648 := by
  unfold intArgument at isNumber
  split at isNumber
  · cases isNumber
    exact Int32.toInt_lt _
  · cases isNumber

theorem exposedPart_eq (text : String) {start : Int} (smallStart : start < 2147483648) {count : Option Int}
    (smallCount : ∀ number ∈ count, number < 2147483648) :
    (exposedSubstring text start count >>= fun part => pure (some (.text part)) : Exposed (Option Value)) =
      Exposed.act (some <$> Action.ofExcept (substring text start count >>= fun part => pure (.text part))) := by
  rw [exposedSubstring_eq text smallStart smallCount]
  cases substring text start count <;> rfl

/-- No length goes below zero, nor above what 32 bits hold. -/
theorem exposedApply_eq (member : BuiltinMember) (receiver : Value) (arguments : List Value) :
    member.exposedApply receiver arguments = Exposed.act (member.apply receiver arguments) := by
  unfold exposedApply
  split
  · next text =>
    rw [show apply textSubstring (.text text) arguments = some <$> Action.ofExcept
      (intArgument arguments 0 "startIndex" >>= fun start =>
        substring text start none >>= fun part => pure (.text part)) from rfl]
    cases isStart : intArgument arguments 0 "startIndex" with
    | error exception => rfl
    | ok start => exact exposedPart_eq text (intArgument_lt isStart) nofun
  · next text =>
    rw [show apply textSubstringRange (.text text) arguments = some <$> Action.ofExcept
      (intArgument arguments 0 "startIndex" >>= fun start => intArgument arguments 1 "length" >>= fun count =>
        substring text start (some count) >>= fun part => pure (.text part)) from rfl]
    cases isStart : intArgument arguments 0 "startIndex" with
    | error exception => rfl
    | ok start =>
      cases isCount : intArgument arguments 1 "length" with
      | error exception => rfl
      | ok count =>
        refine exposedPart_eq text (intArgument_lt isStart) fun number isNumber => ?_
        cases isNumber
        exact intArgument_lt isCount
  · rfl

end BuiltinMember

/-! ### Slots and arguments -/

/-- Writes to an argument slot of the caller. -/
def Exposed.writeArgument (index : Nat) (value : Value) : Exposed PUnit := ExceptT.mk fun outside =>
  if index < outside.arguments.length then (.ok ⟨⟩, { outside with arguments := outside.arguments.set index value })
  else (.error (.trapped (.noArgument index)), outside)

namespace Frame

/-- Whether every parameter has a slot. -/
def Roomy (frame : Frame) : Prop := frame.method.signature.parameters.length ≤ frame.slots.size

/-- The positions of the parameters that are written back, in order. -/
def written (frame : Frame) : List Nat :=
  (frame.method.signature.parameters.zipIdx.filter (·.1.mode.writesBack)).map (·.2)

/-- The value in a slot. -/
def exposedSlot (frame : Frame) (index : Nat) : Exposed Value :=
  match frame.slots[index]? with
  | some value => return value
  | none => Exposed.trap (.noSlot index)

/-- The final values of the parameters that are written back. -/
def exposedFinals (frame : Frame) : Exposed (List Value) := frame.written.mapM frame.exposedSlot

/-- Writes the final values of parameters to the argument slots of the caller. -/
def writeBack (frame : Frame) : Exposed PUnit :=
  frame.written.forM fun index => do Exposed.writeArgument index (← frame.exposedSlot index)

variable {frame : Frame} {index : Nat}

theorem mem_written : index ∈ frame.written ↔
    ∃ parameter, frame.method.signature.parameters[index]? = some parameter ∧ parameter.mode.writesBack = true := by
  simp only [written, List.mem_map, List.mem_filter, Prod.exists, List.mem_zipIdx_iff_getElem?]
  constructor
  · rintro ⟨parameter, position, ⟨found, writes⟩, rfl⟩
    exact ⟨parameter, found, writes⟩
  · rintro ⟨parameter, found, writes⟩
    exact ⟨parameter, index, ⟨found, writes⟩, rfl⟩

theorem lt_of_mem_written (member : index ∈ frame.written) : index < frame.method.signature.parameters.length := by
  obtain ⟨parameter, found, -⟩ := mem_written.1 member
  exact (List.getElem?_eq_some_iff.1 found).1

theorem exposedSlot_eq (roomy : frame.Roomy) (member : index ∈ frame.written) :
    frame.exposedSlot index = pure (frame.slots.getD index .null) := by
  have inside : index < frame.slots.size := Nat.lt_of_lt_of_le (lt_of_mem_written member) roomy
  simp [exposedSlot, inside]

/-- Results that are all known without a step are known without a step. -/
theorem mapM_eq_pure {read : Nat → Exposed Value} {value : Nat → Value} {indexes : List Nat}
    (known : ∀ index ∈ indexes, read index = pure (value index)) : indexes.mapM read = pure (indexes.map value) := by
  induction indexes with
  | nil => rfl
  | cons first others ih =>
    rw [List.mapM_cons, known first List.mem_cons_self, pure_bind,
      ih fun index member => known index (List.mem_cons_of_mem first member), pure_bind, List.map_cons]

theorem exposedFinals_eq (roomy : frame.Roomy) : frame.exposedFinals = pure frame.finals := by
  rw [exposedFinals, mapM_eq_pure fun index => exposedSlot_eq roomy, written, List.map_map]
  rfl

/-- Writing to argument slots that exist, one after the other, changes these. -/
theorem within_forM {write : Nat → Exposed PUnit} {value : Nat → Value} {indexes : List Nat} {arguments : List Value}
    (writes : ∀ index ∈ indexes, write index = Exposed.writeArgument index (value index))
    (inside : ∀ index ∈ indexes, index < arguments.length) (world : World) :
    Exposed.within (indexes.forM write) ⟨world, arguments⟩ =
      (.ok ⟨⟩, ⟨world, indexes.foldl (fun arguments index => arguments.set index (value index)) arguments⟩) := by
  induction indexes generalizing arguments with
  | nil => rfl
  | cons first others ih =>
    have written : (write first).within ⟨world, arguments⟩ = (.ok ⟨⟩, ⟨world, arguments.set first (value first)⟩) := by
      rw [writes first List.mem_cons_self]
      exact if_pos (inside first List.mem_cons_self)
    show (write first >>= fun _ => others.forM write).within ⟨world, arguments⟩ = _
    rw [Exposed.within_bind_ok written, List.foldl_cons]
    refine ih (fun index member => writes index (List.mem_cons_of_mem first member)) fun index member => ?_
    rw [List.length_set]
    exact inside index (List.mem_cons_of_mem first member)

theorem getElem?_foldl_set (value : Nat → Value) (indexes : List Nat) (arguments : List Value) (index : Nat) :
    (indexes.foldl (fun arguments index => arguments.set index (value index)) arguments)[index]? =
      if index ∈ indexes then arguments[index]?.map fun _ => value index else arguments[index]? := by
  induction indexes generalizing arguments with
  | nil => rfl
  | cons first others ih =>
    rw [List.foldl_cons, ih, List.getElem?_set']
    by_cases same : first = index
    · subst same
      rw [if_pos rfl, if_pos List.mem_cons_self]
      cases arguments[first]? <;> split <;> rfl
    · simp [same, Ne.symm same]

theorem length_argumentsAfter {arguments : List Value}
    (fits : arguments.length = frame.method.signature.parameters.length) :
    (frame.argumentsAfter arguments).length = arguments.length := by
  simp [argumentsAfter, fits]

/-- What an argument slot holds behind the call. -/
theorem getElem?_argumentsAfter {arguments : List Value} {parameter : SignatureParameter}
    (found : frame.method.signature.parameters[index]? = some parameter) :
    (frame.argumentsAfter arguments)[index]? = arguments[index]?.map fun before =>
      if parameter.mode.writesBack then frame.slots.getD index .null else before := by
  rw [argumentsAfter, List.getElem?_map, List.getElem?_zipIdx, Option.map_map, Nat.zero_add]
  show Option.map _ (List.zipWith Prod.mk _ _)[index]? = _
  rw [List.getElem?_zipWith, found]
  cases arguments[index]? <;> rfl

/-- The end of the outermost call writes what the call leaves in its slots. -/
theorem within_writeBack (roomy : frame.Roomy) {arguments : List Value}
    (fits : arguments.length = frame.method.signature.parameters.length) (world : World) :
    frame.writeBack.within ⟨world, arguments⟩ = (.ok ⟨⟩, ⟨world, frame.argumentsAfter arguments⟩) := by
  have writes (index : Nat) (member : index ∈ frame.written) :
      (frame.exposedSlot index >>= Exposed.writeArgument index) =
        Exposed.writeArgument index (frame.slots.getD index .null) := by
    rw [exposedSlot_eq roomy member, pure_bind]
  rw [writeBack, within_forM writes fun index member => fits ▸ lt_of_mem_written member]
  congr 2
  refine List.ext_getElem? fun index => ?_
  rw [getElem?_foldl_set]
  cases found : frame.method.signature.parameters[index]? with
  | none =>
    have outside : frame.method.signature.parameters.length ≤ index := List.getElem?_eq_none_iff.1 found
    rw [if_neg fun member => Nat.not_lt.2 outside (lt_of_mem_written member), List.getElem?_eq_none (by omega),
      List.getElem?_eq_none (by rw [length_argumentsAfter fits]; omega)]
  | some parameter =>
    rw [getElem?_argumentsAfter found]
    cases writes : parameter.mode.writesBack with
    | true => rw [if_pos (mem_written.2 ⟨parameter, found, writes⟩)]; rfl
    | false =>
      have kept : index ∉ frame.written := by
        intro member
        obtain ⟨other, isOther, written⟩ := mem_written.1 member
        cases found.symm.trans isOther
        exact absurd written (Bool.eq_false_iff.1 writes)
      rw [if_neg kept]
      exact Option.map_id'.symm

end Frame

/-! ### Instructions and runs -/

namespace Module

/-- Ends the running call. The final values of its parameters go to the call that waits for it, or to the caller. -/
def exposedLeave (result : Option Value) (machine : Machine) : Exposed Progress :=
  match stillWaiting : machine.waiting with
  | [] => do
    machine.active.writeBack
    return .ended (result.getD .null) machine.active
  | caller :: waiting => do
    let finals ← machine.active.exposedFinals
    return .running ⟨caller, waiting, Stack.pushAll (result.toList ++ machine.stack) finals, machine.depth - 1,
      (congrArg Nat.pred machine.depth_eq).trans (congrArg List.length stillWaiting)⟩

/-- Replaces two values on the stack by the result of an operation. -/
def exposedOperate (operation : Operation) (stack : Stack) : Exposed Stack := do
  let (second, rest) ← stack.pop
  let (first, rest) ← rest.pop
  return (← operation.exposed first second) :: rest

/-- Calls a member of the value below the arguments. -/
def exposedMember (member : BuiltinMember) (machine : Machine) : Exposed Machine := do
  let (arguments, stack) ← machine.stack.popMany member.arity
  let (receiver, stack) ← stack.pop
  return { machine with stack }.pushOptional (← member.exposedApply receiver arguments)

/-- Carries out an instruction of a machine that is already in front of the next one. -/
def exposedExecute (module : Module) (instruction : Instruction) (machine : Machine) : Exposed Progress :=
  match instruction with
  | .operate operation => do return .running { machine with stack := ← exposedOperate operation machine.stack }
  | .builtin member => do return .running (← exposedMember member machine)
  | .giveBack => do
    let (result, stack) ← machine.stack.pop
    exposedLeave (some result) { machine with stack }
  | .giveBackNothing => exposedLeave none machine
  | instruction => module.execute instruction machine

/-- One step of the exposed machine. -/
def exposedStep (module : Module) (machine : Machine) : Exposed Progress :=
  match machine.active.method.code[machine.active.position]? with
  | some instruction => module.exposedExecute instruction machine.advance
  | none => Exposed.raise (.badImage .ranPastEnd)

/-- At most the given number of steps of the exposed machine; none if the outermost call has not ended then. -/
def exposedRun (module : Module) : Nat → Machine → Exposed (Option (Value × Frame))
  | 0, _ => return none
  | steps + 1, machine => do
    match ← module.exposedStep machine with
    | .ended result frame => return some (result, frame)
    | .running machine => module.exposedRun steps machine

/-- The call of a method with the argument slots of the caller, up to a number of steps. -/
def exposedCall (module : Module) (steps : Nat) (index : UInt32) : Exposed (Option (Value × Frame)) := do
  let method ← module.method index
  let arguments := (← getThe Outside).arguments
  let expected := method.signature.parameters.length
  if arguments.length != expected then Exposed.raise (.argumentCount expected arguments.length)
  else module.exposedRun steps (.start (.enter method arguments))

/-- Calls a method with the argument slots of the caller; none if it has not ended after the given number of steps. -/
def exposedInvoke (module : Module) (steps : Nat) (index : UInt32) :
    StateM Outside (Option (Except Halt Value)) := do
  match ← (module.exposedCall steps index).run with
  | .ok none => return none
  | .ok (some (result, _)) => return some (.ok result)
  | .error halt => return some (.error halt)

end Module

end Snippet
