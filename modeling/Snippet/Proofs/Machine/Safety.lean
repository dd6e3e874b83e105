import Snippet.Callable.Binding
import Snippet.Proofs.Machine.Exposed
import Snippet.Proofs.Value.Reporting

/-!
The exposed machine never traps: every call has a slot for each of its parameters, whatever code runs, and the outermost
call has one for each argument of the caller. So the exposed machine does what the machine does, and touches the
argument slots only at the end of a call that succeeds. Main statements: `Module.never_traps` and
`EntryPoint.invoke_allOrNothing`.
-/

namespace Snippet

/-! ### What a step does to the calls -/

namespace Machine

/-- The calls that have not ended, the innermost first. -/
def frames (machine : Machine) : List Frame := machine.active :: machine.waiting

/-- The call that came from outside. -/
def outermost (machine : Machine) : Frame := machine.waiting.getLastD machine.active

/-- Whether a machine runs the same calls as another one, with the same number of slots. -/
structure Stays (machine next : Machine) : Prop where
  method : next.active.method = machine.active.method
  size : next.active.slots.size = machine.active.slots.size
  waiting : next.waiting = machine.waiting

/-- What an instruction can do to the calls: it stays in them, begins another one with an argument for each parameter,
or ends the running one. -/
inductive Proceeds (machine next : Machine) : Prop where
  | stays (same : machine.Stays next)
  | enters {callee : MethodImage} {arguments : List Value}
      (fits : arguments.length = callee.signature.parameters.length)
      (active : next.active = .enter callee arguments) (waiting : next.waiting = machine.active :: machine.waiting)
  | leaves (waiting : machine.waiting = next.active :: next.waiting)

variable {machine next : Machine}

theorem stays_pushOptional (value : Option Value) (stack : Stack) :
    machine.Stays ({ machine with stack }.pushOptional value) := ⟨rfl, rfl, rfl⟩

end Machine

/-- Whether an instruction ends the running call. -/
def Instruction.endsCall : Instruction → Bool
  | .giveBack | .giveBackNothing => true
  | _ => false

/-- Whether an instruction neither begins nor ends a call. -/
def Instruction.staysInCall : Instruction → Bool
  | .call _ | .giveBack | .giveBackNothing => false
  | _ => true

theorem Stack.length_of_popMany {stack rest : Stack} {count : Nat} {values : List Value}
    (popped : stack.popMany count = .ok (values, rest)) : values.length = count := by
  unfold popMany at popped
  split at popped
  · cases popped
  · next enough =>
    cases popped
    rw [List.length_reverse]
    exact Nat.le_antisymm (List.length_take_le _ _) (Nat.not_lt.1 enough)

namespace Module

variable {module : Module} {machine : Machine} {instruction : Instruction}

theorem onFrame?_stays {action : Except Fault Machine} (isAction : onFrame? instruction machine = some action)
    {next : Machine} (done : action = .ok next) : machine.Stays next := by
  cases instruction with
  | load slot =>
    cases isAction
    split at done
    · cases done
      exact ⟨rfl, rfl, rfl⟩
    · cases done
  | store slot =>
    cases isAction
    generalize machine.stack.pop = popped at done
    rcases popped with exception | ⟨value, stack⟩
    · cases done
    · simp only [bind, Except.bind] at done
      split at done
      · cases done
      · cases done
        exact ⟨rfl, Array.size_setIfInBounds, rfl⟩
  | jump target =>
    cases isAction
    cases done
    exact ⟨rfl, rfl, rfl⟩
  | jumpIfFalse target | jumpIfTrue target =>
    cases isAction
    generalize machine.stack.popBool = popped at done
    rcases popped with exception | ⟨truth, stack⟩
    · cases done
    · cases truth <;> cases done <;> exact ⟨rfl, rfl, rfl⟩
  | _ => cases isAction

theorem onWorld?_stays {action : Action Machine} (isAction : module.onWorld? instruction machine = some action) :
    action.Gives machine.Stays := by
  open Snippet.Action in
  cases instruction with
  | hostCall index =>
    cases isAction
    refine gives_bind fun found => ?_
    cases found with
    | function run arity hasResult =>
      exact gives_bind fun _ => gives_bind fun _ => gives_pure (Machine.stays_pushOptional _ _)
    | type name fields => exact gives_throw _ _
  | builtin member =>
    cases isAction
    exact gives_bind fun _ => gives_bind fun _ => gives_bind fun _ => gives_pure (Machine.stays_pushOptional _ _)
  | newList element =>
    cases isAction
    exact gives_bind fun _ => gives_bind fun _ => gives_pure ⟨rfl, rfl, rfl⟩
  | newObject type =>
    cases isAction
    refine gives_bind fun found => ?_
    cases found with
    | function run arity hasResult => exact gives_throw _ _
    | type name fields => exact gives_bind fun _ => gives_pure ⟨rfl, rfl, rfl⟩
  | loadField name =>
    cases isAction
    refine gives_bind fun _ => gives_bind fun _ => gives_bind fun _ => gives_bind fun _ => ?_
    split
    · exact gives_pure ⟨rfl, rfl, rfl⟩
    · exact gives_throw _ _
  | storeField name =>
    cases isAction
    refine gives_bind fun _ => gives_bind fun _ => gives_bind fun _ => gives_bind fun _ => gives_bind fun _ => ?_
    dsimp only
    split
    · exact gives_bind fun _ => gives_bind fun _ => gives_pure ⟨rfl, rfl, rfl⟩
    · exact gives_bind fun _ => gives_pure ⟨rfl, rfl, rfl⟩
  | _ => cases isAction

theorem call_proceeds {index : UInt32} {next : Machine} (called : module.call index machine = .ok next) :
    machine.Proceeds next := by
  unfold call at called
  simp only [bind, Except.bind] at called
  split at called
  · cases called
  · generalize module.method index = found at called
    rcases found with exception | callee
    · cases called
    · dsimp only at called
      cases popped : machine.stack.popMany callee.signature.parameters.length with
      | error exception =>
        rw [popped] at called
        cases called
      | ok values =>
        rw [popped] at called
        cases called
        exact .enters (Stack.length_of_popMany popped) rfl rfl

/-- The end of a call leads to the call that waits for it, if there is one. -/
theorem leave_cases (result : Option Value) (machine : Machine) (stack : Stack) :
    (∃ next, leave result { machine with stack } = .running next ∧ machine.Proceeds next) ∨
      ∃ value, leave result { machine with stack } = .ended value machine.active ∧ machine.waiting = [] := by
  obtain ⟨active, waiting, values, depth, isDepth⟩ := machine
  cases waiting with
  | nil => exact .inr ⟨_, rfl, rfl⟩
  | cons caller waiting => exact .inl ⟨_, rfl, .leaves rfl⟩

/-- An instruction that neither begins nor ends a call leads to a machine that runs the same calls. -/
theorem execute_stays (module : Module) (stays : instruction.staysInCall = true) (machine : Machine) :
    (module.execute instruction machine).Gives fun progress =>
      ∃ next, progress = .running next ∧ machine.Stays next := by
  open Snippet.Action in
  cases instruction with
  | call | giveBack | giveBackNothing => cases stays
  | _ =>
    dsimp only [Module.execute]
    split
    · exact gives_bind fun _ => gives_pure ⟨_, rfl, ⟨rfl, rfl, rfl⟩⟩
    · next isAction =>
      exact (gives_lift fun _ => onFrame?_stays isAction).bind fun _ stays => gives_pure ⟨_, rfl, stays⟩
    · next isAction => exact (onWorld?_stays isAction).bind fun _ stays => gives_pure ⟨_, rfl, stays⟩
    · exact gives_pure ⟨_, rfl, ⟨rfl, rfl, rfl⟩⟩

/-- An instruction that ends no call leads to a machine. -/
theorem execute_runs (module : Module) (lasts : instruction.endsCall = false) (machine : Machine) :
    (module.execute instruction machine).Gives fun progress =>
      ∃ next, progress = .running next ∧ machine.Proceeds next := by
  open Snippet.Action in
  cases instruction with
  | call method => exact (gives_lift fun _ => call_proceeds).bind fun _ proceeds => gives_pure ⟨_, rfl, proceeds⟩
  | giveBack | giveBackNothing => cases lasts
  | _ =>
    intro world progress middle done
    obtain ⟨next, isNext, same⟩ := execute_stays module rfl machine done
    exact ⟨next, isNext, .stays same⟩

/-- An instruction leads to a machine, or ends the outermost call. -/
theorem execute_cases (module : Module) (instruction : Instruction) (machine : Machine) :
    (module.execute instruction machine).Gives fun progress =>
      (∃ next, progress = .running next ∧ machine.Proceeds next) ∨
        ∃ result, progress = .ended result machine.active ∧ machine.waiting = [] := by
  cases lasts : instruction.endsCall with
  | false =>
    intro world progress middle done
    exact .inl (execute_runs module lasts machine done)
  | true =>
    cases instruction with
    | giveBack => exact Action.gives_bind fun _ => Action.gives_pure (leave_cases _ machine _)
    | giveBackNothing => exact Action.gives_pure (leave_cases none machine machine.stack)
    | _ => cases lasts

end Module

/-! ### Calls with room for their parameters -/

namespace Machine

variable {machine next : Machine} {method : MethodImage}

/-- Whether a machine runs a call of a method from outside, and every call has a slot for each of its parameters. -/
structure Serves (machine : Machine) (method : MethodImage) : Prop where
  roomy : ∀ frame ∈ machine.frames, frame.Roomy
  outermost : machine.outermost.method = method

end Machine

theorem Frame.roomy_enter {callee : MethodImage} {arguments : List Value}
    (fits : arguments.length = callee.signature.parameters.length) : (Frame.enter callee arguments).Roomy := by
  show callee.signature.parameters.length ≤ (arguments.toArray ++ Array.replicate _ Value.null).size
  rw [Array.size_append, List.size_toArray, fits]
  exact Nat.le_add_right _ _

namespace Machine

variable {machine next : Machine} {method : MethodImage}

theorem serves_start {arguments : List Value} (fits : arguments.length = method.signature.parameters.length) :
    (start (.enter method arguments)).Serves method where
  roomy := by
    intro frame member
    cases List.mem_singleton.1 member
    exact Frame.roomy_enter fits
  outermost := rfl

/-- Whatever an instruction does, every call keeps a slot for each of its parameters. -/
theorem Serves.proceeds (serves : machine.Serves method) (proceeds : machine.Proceeds next) : next.Serves method := by
  have isActive : machine.active.Roomy := serves.roomy machine.active List.mem_cons_self
  have isWaiting (frame : Frame) (member : frame ∈ machine.waiting) : frame.Roomy :=
    serves.roomy frame (List.mem_cons_of_mem _ member)
  cases proceeds with
  | stays same =>
    refine ⟨fun frame member => ?_, ?_⟩
    · rcases List.mem_cons.1 member with rfl | member
      · rw [Frame.Roomy, same.method, same.size]
        exact isActive
      · exact isWaiting frame (same.waiting ▸ member)
    · rw [← serves.outermost, Machine.outermost, Machine.outermost, same.waiting]
      cases machine.waiting with
      | nil => exact same.method
      | cons caller waiting => rw [List.getLastD_cons, List.getLastD_cons]
  | enters fits active waiting =>
    refine ⟨fun frame member => ?_, ?_⟩
    · rcases List.mem_cons.1 member with rfl | member
      · rw [active]
        exact Frame.roomy_enter fits
      · rw [waiting] at member
        exact serves.roomy frame member
    · rw [← serves.outermost, Machine.outermost, waiting, List.getLastD_cons, Machine.outermost]
  | leaves waiting =>
    refine ⟨fun frame member => isWaiting frame (waiting ▸ member), ?_⟩
    rw [← serves.outermost, Machine.outermost, Machine.outermost, waiting, List.getLastD_cons]

theorem Serves.advance (serves : machine.Serves method) : machine.advance.Serves method :=
  serves.proceeds (.stays ⟨rfl, rfl, rfl⟩)

end Machine

/-! ### The exposed machine does what the machine does -/

/-- The argument slots of the caller behind a step of the outermost call: only its end writes to them. -/
def Progress.argumentsAfter (arguments : List Value) : Progress → List Value
  | .running _ => arguments
  | .ended _ last => last.argumentsAfter arguments

namespace Module

variable {module : Module} {machine : Machine} {method : MethodImage} {arguments : List Value}

theorem exposedOperate_eq (operation : Operation) (stack : Stack) :
    exposedOperate operation stack = Exposed.act (liftM (do
      let (second, rest) ← stack.pop
      let (first, rest) ← rest.pop
      return (← operation.apply first second) :: rest : Except Fault Stack)) := by
  unfold exposedOperate
  rcases stack with _ | ⟨second, _ | ⟨first, rest⟩⟩
  · rfl
  · rfl
  · show (operation.exposed first second >>= fun value => pure (value :: rest) : Exposed Stack) = _
    rw [Operation.exposed_eq]
    show _ = Exposed.act (liftM (operation.apply first second >>= fun value => pure (value :: rest)))
    cases operation.apply first second <;> rfl

theorem exposedMember_eq (member : BuiltinMember) (machine : Machine) :
    exposedMember member machine = Exposed.act (callMember member machine) := by
  unfold exposedMember callMember
  simp only [Exposed.act_bind, BuiltinMember.exposedApply_eq]
  rfl

/-- Every instruction that ends no call does what it does in the machine. -/
theorem exposedExecute_eq (module : Module) {instruction : Instruction} (lasts : instruction.endsCall = false)
    (machine : Machine) :
    module.exposedExecute instruction machine = Exposed.act (module.execute instruction machine) := by
  cases instruction with
  | operate operation =>
    show (exposedOperate operation machine.stack >>= fun stack => pure (Progress.running { machine with stack }) :
      Exposed Progress) = _
    rw [exposedOperate_eq]
    exact Exposed.act_bind_pure _ _
  | builtin member =>
    show (exposedMember member machine >>= fun next => pure (Progress.running next) : Exposed Progress) = _
    rw [exposedMember_eq]
    exact Exposed.act_bind_pure _ _
  | giveBack | giveBackNothing => cases lasts
  | _ => rfl

/-- The end of a call reaches only slots that exist. -/
theorem within_exposedLeave (serves : machine.Serves method)
    (fits : arguments.length = method.signature.parameters.length) (result : Option Value) (world : World) :
    (exposedLeave result machine).within ⟨world, arguments⟩ =
      (.ok (leave result machine), ⟨world, (leave result machine).argumentsAfter arguments⟩) := by
  have isActive : machine.active.Roomy := serves.roomy machine.active List.mem_cons_self
  obtain ⟨active, waiting, stack, depth, isDepth⟩ := machine
  cases waiting with
  | nil =>
    have isMethod : active.method = method := serves.outermost
    have written := Frame.within_writeBack isActive (fits.trans (isMethod ▸ rfl)) world
    exact Exposed.within_bind_ok written _
  | cons caller waiting =>
    show (active.exposedFinals >>= _).within _ = _
    rw [Frame.exposedFinals_eq isActive, pure_bind]
    rfl

/-- Every instruction of the exposed machine does what it does in the machine. -/
theorem within_exposedExecute (module : Module) (instruction : Instruction) (serves : machine.Serves method)
    (fits : arguments.length = method.signature.parameters.length) (world : World) :
    (module.exposedExecute instruction machine).within ⟨world, arguments⟩ =
      Exposed.settled (·.argumentsAfter arguments) arguments ((module.execute instruction machine).inWorld world) := by
  cases lasts : instruction.endsCall with
  | false =>
    rw [exposedExecute_eq module lasts]
    have runs := execute_runs module lasts machine
    rw [Exposed.within_act]
    rcases isResult : (module.execute instruction machine).inWorld world with ⟨exception | progress, middle⟩
    · rfl
    · obtain ⟨next, rfl, -⟩ := runs isResult
      rfl
  | true =>
    cases instruction with
    | giveBack =>
      unfold exposedExecute execute
      rcases isStack : machine.stack with _ | ⟨value, stack⟩
      · rfl
      · have popped : { machine with stack }.Serves method := ⟨serves.roomy, serves.outermost⟩
        exact within_exposedLeave popped fits (some value) world
    | giveBackNothing => exact within_exposedLeave serves fits none world
    | _ => cases lasts

/-- A step of the exposed machine is one of the machine, and writes to the argument slots only if it ends the outermost
call. -/
theorem within_exposedStep (module : Module) (serves : machine.Serves method)
    (fits : arguments.length = method.signature.parameters.length) (world : World) :
    (module.exposedStep machine).within ⟨world, arguments⟩ =
      Exposed.settled (·.argumentsAfter arguments) arguments ((module.step machine).inWorld world) := by
  unfold exposedStep step
  cases machine.active.method.code[machine.active.position]? with
  | none => rfl
  | some instruction => exact within_exposedExecute module instruction serves.advance fits world

/-- A step leaves each call with a slot for each of its parameters, and only the outermost call ends the run. -/
theorem step_cases (module : Module) (serves : machine.Serves method) :
    (module.step machine).Gives fun progress =>
      (∃ next, progress = .running next ∧ next.Serves method) ∨
        ∃ result, progress = .ended result machine.advance.active ∧ machine.waiting = [] := by
  unfold step
  split
  · next instruction _ =>
    intro world progress middle done
    rcases execute_cases module instruction machine.advance done with ⟨next, isNext, proceeds⟩ | ended
    · exact .inl ⟨next, isNext, serves.advance.proceeds proceeds⟩
    · exact .inr ended
  · exact Action.gives_throw _ _

/-- The argument slots of the caller behind a run that ends, or else as they are. -/
def argumentsBehind (arguments : List Value) : Option (Value × Frame) → List Value
  | some (_, last) => last.argumentsAfter arguments
  | none => arguments

/-- A run of the exposed machine is one of the machine, and writes to the argument slots only at its end. -/
theorem within_exposedRun (module : Module) (serves : machine.Serves method)
    (fits : arguments.length = method.signature.parameters.length) (steps : Nat) (world : World) :
    (module.exposedRun steps machine).within ⟨world, arguments⟩ =
      Exposed.settled (argumentsBehind arguments) arguments ((module.run steps machine).inWorld world) := by
  induction steps generalizing machine world with
  | zero => rfl
  | succ steps ih =>
    rw [exposedRun, run, Exposed.within_bind, within_exposedStep module serves fits, Action.inWorld_bind]
    rcases stepped : (module.step machine).inWorld world with ⟨exception | progress, middle⟩
    · rfl
    · rcases step_cases module serves stepped with ⟨next, rfl, serves⟩ | ⟨result, rfl, -⟩
      · exact ih serves middle
      · rfl

theorem within_exposedCall (module : Module) (steps : Nat) (index : UInt32) (arguments : List Value) (world : World) :
    (module.exposedCall steps index).within ⟨world, arguments⟩ =
      Exposed.settled (argumentsBehind arguments) arguments
        ((module.callFromOutside steps index arguments).inWorld world) := by
  unfold exposedCall callFromOutside
  cases module.method index with
  | error exception => rfl
  | ok method =>
    show (if (arguments.length != method.signature.parameters.length) = true then Exposed.raise _
      else module.exposedRun steps (.start (.enter method arguments))).within ⟨world, arguments⟩ =
        Exposed.settled _ _ ((if (arguments.length != method.signature.parameters.length) = true then throw _
          else module.run steps (.start (.enter method arguments))).inWorld world)
    by_cases fits : arguments.length = method.signature.parameters.length
    · have equal : ¬ (arguments.length != method.signature.parameters.length) = true := by simpa using fits
      rw [if_neg equal, if_neg equal]
      exact within_exposedRun module (Machine.serves_start fits) fits steps world
    · have unequal : (arguments.length != method.signature.parameters.length) = true := by simpa using fits
      rw [if_pos unequal, if_pos unequal]
      rfl

/-- A call in the exposed machine gives its caller what the call in the machine gives. -/
theorem run_exposedInvoke (module : Module) (steps : Nat) (index : UInt32) (arguments : List Value) (world : World) :
    (module.exposedInvoke steps index).run ⟨world, arguments⟩ =
      let (outcome, world) := (module.invoke steps index arguments).run world
      (outcome.map (·.result.mapError .raised), ⟨world, (outcome.map (·.arguments)).getD arguments⟩) := by
  have called : (module.exposedCall steps index).run.run ⟨world, arguments⟩ = _ :=
    within_exposedCall module steps index arguments world
  have isCall : (module.callFromOutside steps index arguments).run.run world =
    (module.callFromOutside steps index arguments).inWorld world := rfl
  rw [exposedInvoke, invoke, StateT.run_bind, StateT.run_bind, called, isCall]
  rcases (module.callFromOutside steps index arguments).inWorld world with
    ⟨exception | _ | ⟨result, last⟩, behind⟩ <;> rfl

end Module

/-! ### Safety -/

/-- A method that sets its first parameter, which is passed by reference, to the second one. -/
def MethodImage.copying : MethodImage :=
  ⟨"M", 0, true, true, ⟨[⟨"x", .ref, TypeNames.int⟩, ⟨"y", .value, TypeNames.int⟩], none⟩, 2,
    [.load 1, .store 0, .giveBackNothing]⟩

namespace Module

/-- The machines to which the exposed machine comes in a call of a method, with what lies outside there. -/
inductive Reaches (module : Module) (index : UInt32) (outside : Outside) : Machine → Outside → Prop where
  | start {method : MethodImage} (found : module.method index = .ok method)
      (fits : outside.arguments.length = method.signature.parameters.length) :
    Reaches module index outside (.start (.enter method outside.arguments)) outside
  | step {machine next : Machine} {here there : Outside} (reached : Reaches module index outside machine here)
      (stepped : (module.exposedStep machine).within here = (.ok (.running next), there)) :
    Reaches module index outside next there

variable {module : Module} {index : UInt32} {outside here there : Outside} {machine : Machine}

/-- The module of one class with the method that copies a parameter. -/
def copying : Module where
  image :=
    { formatVersion := Image.currentVersion
      moduleName := "snippet"
      constants := []
      strings := []
      imports := []
      classes := [⟨"C", true, true, [0]⟩]
      methods := [.copying] }
  imports := []
  maxDepth := 1

/-- Wherever a call comes, every call has room for its parameters, and the argument slots are as they were. -/
theorem Reaches.keeps (reached : module.Reaches index outside machine here) :
    ∃ method, module.method index = .ok method ∧ machine.Serves method ∧ here.arguments = outside.arguments ∧
      outside.arguments.length = method.signature.parameters.length := by
  induction reached with
  | start found fits => exact ⟨_, found, Machine.serves_start fits, rfl, fits⟩
  | @step machine next here there _ stepped ih =>
    obtain ⟨method, found, serves, same, fits⟩ := ih
    obtain ⟨world, arguments⟩ := here
    cases same
    rw [within_exposedStep module serves fits] at stepped
    rcases isResult : (module.step machine).inWorld world with ⟨exception | progress, middle⟩
    all_goals
      rw [isResult] at stepped
      cases stepped
    rcases step_cases module serves isResult with ⟨next', isNext, serves⟩ | ⟨result, isEnd, -⟩
    · cases isNext
      exact ⟨method, found, serves, rfl, fits⟩
    · cases isEnd

/-- No image makes the exposed machine trap: every step leads on, ends the outermost call or raises an exception, in
every call there is a slot for each parameter, and the caller is given what the machine gives it. The operands in the
wording of an exception come to an end, with no more contents within each other than there are lists and objects. -/
theorem never_traps (module : Module) (index : UInt32) (outside : Outside) :
    (∀ steps, (module.exposedInvoke steps index).run outside =
      let (outcome, world) := (module.invoke steps index outside.arguments).run outside.world
      (outcome.map (·.result.mapError .raised), ⟨world, (outcome.map (·.arguments)).getD outside.arguments⟩)) ∧
    (∀ machine here, module.Reaches index outside machine here →
      (∀ frame ∈ machine.frames, frame.method.signature.parameters.length ≤ frame.slots.size) ∧
      ((∃ next there, (module.exposedStep machine).within here = (.ok (.running next), there)) ∨
        (∃ result last there, (module.exposedStep machine).within here = (.ok (.ended result last), there)) ∨
        ∃ exception there, (module.exposedStep machine).within here = (.error (.raised exception), there))) ∧
    ∀ (store : Store) (operand : Value),
      operand.reportWithin? store (store.lists.size + store.objects.size) = some (operand.report store) := by
  refine ⟨fun steps => module.run_exposedInvoke steps index outside.arguments outside.world, ?_,
    fun store operand => operand.reportWithin?_eq store⟩
  intro machine ⟨world, arguments⟩ reached
  obtain ⟨method, -, serves, same, fits⟩ := reached.keeps
  refine ⟨serves.roomy, ?_⟩
  cases same
  rw [within_exposedStep module serves fits]
  rcases (module.step machine).inWorld world with ⟨exception | next | ⟨result, last⟩, middle⟩
  · exact .inr (.inr ⟨_, _, rfl⟩)
  · exact .inl ⟨_, _, rfl⟩
  · exact .inr (.inl ⟨_, _, _, rfl⟩)

/-- The first step of a call of the method that copies a parameter. -/
theorem copying_never_traps :
    (copying.exposedInvoke 3 0).run ⟨.empty, [.int 1, .int 2]⟩ = (some (.ok .null), ⟨.empty, [.int 2, .int 2]⟩) ∧
      ∀ method ∈ copying.image.methods, 2 ≤ (Frame.enter method [.int 1, .int 2]).slots.size := by
  have safe := copying.never_traps 0 ⟨.empty, [.int 1, .int 2]⟩
  refine ⟨safe.1 3, fun method member => ?_⟩
  cases List.mem_singleton.1 member
  exact (safe.2.1 _ _ (.start rfl rfl)).1 _ List.mem_cons_self

end Module

/-- A method that makes an empty list and then as many lists as a constant says, of which each holds the one before it
twice, and negates the last one. -/
def MethodImage.doubling : MethodImage :=
  ⟨"M", 0, true, true, ⟨[], some TypeNames.object⟩, 2,
    [.newList 0, .store 0, .const 0, .store 1,
      .load 1, .const 1, .operate .less, .jumpIfFalse 21,
      .newList 0, .duplicate, .load 0, .builtin .listAdd, .duplicate, .load 0, .builtin .listAdd, .store 0,
      .load 1, .const 2, .operate .add, .store 1, .jump 4,
      .load 0, .negate, .giveBack]⟩

/-- The image of one class with the method that doubles lists. -/
def Image.doubling (count : Nat) : Image where
  formatVersion := Image.currentVersion
  moduleName := "snippet"
  constants := [.int 0, .int (.ofNat count), .int 1]
  strings := [TypeNames.object]
  imports := []
  classes := [⟨"C", true, true, [0]⟩]
  methods := [.doubling]

namespace Module

/-- The module of one class with the method that doubles lists. -/
def doubling (count : Nat) : Module := ⟨.doubling count, [], Module.defaultMaxDepth⟩

/-- The call of the method that doubles lists at a position of its code. -/
def doublingAt (position : Nat) (slots : Array Value) (stack : Stack) : Machine :=
  { Machine.start ⟨.doubling, position, slots⟩ with stack }

variable {count : Nat} {counter : Int32} {list other : Value} {reference : Nat} {store : Store} {printed : String}

theorem run_doubling_test (steps : Nat) :
    ((doubling count).run (steps + 3) (doublingAt 4 #[list, .int counter] [])).inWorld ⟨store, printed⟩ =
      ((doubling count).run steps (doublingAt 7 #[list, .int counter] [.bool (decide (counter < .ofNat count))])).inWorld
        ⟨store, printed⟩ := rfl

theorem run_doubling_newList (steps : Nat) :
    ((doubling count).run (steps + 2) (doublingAt 7 #[list, other] [.bool true])).inWorld ⟨store, printed⟩ =
      ((doubling count).run steps (doublingAt 9 #[list, other] [.list TypeNames.object store.lists.size])).inWorld
        ⟨(store.newList TypeNames.object #[]).2, printed⟩ := rfl

theorem run_doubling_add {position : Nat} (isAdd : position = 9 ∨ position = 12) (steps : Nat) :
    ((doubling count).run (steps + 3) (doublingAt position #[list, other] [.list TypeNames.object reference])).inWorld
        ⟨store, printed⟩ =
      ((doubling count).run steps (doublingAt (position + 3) #[list, other]
        [.list TypeNames.object reference])).inWorld
        ⟨store.setItems reference ((store.items reference).push list), printed⟩ := by
  obtain rfl | rfl := isAdd <;> rfl

theorem run_doubling_count (steps : Nat) :
    ((doubling count).run (steps + 6) (doublingAt 15 #[list, .int counter] [other])).inWorld ⟨store, printed⟩ =
      ((doubling count).run steps (doublingAt 4 #[other, .int (counter + 1)] [])).inWorld ⟨store, printed⟩ := rfl

/-- A round of the loop pairs the list with itself. -/
theorem run_doubling_round (isFurther : counter < .ofNat count) (steps : Nat) :
    ((doubling count).run (steps + 17) (doublingAt 4 #[list, .int counter] [])).inWorld ⟨store, printed⟩ =
      ((doubling count).run steps
        (doublingAt 4 #[.list TypeNames.object store.lists.size, .int (counter + 1)] [])).inWorld
        ⟨{ store with lists := store.lists.push #[list, list] }, printed⟩ := by
  rw [run_doubling_test (steps + 14), decide_eq_true isFurther, run_doubling_newList (steps + 12),
    run_doubling_add (.inl rfl) (steps + 9), run_doubling_add (.inr rfl) (steps + 6), run_doubling_count steps]
  rw [Store.items_newList, Store.setItems_newList, Store.items_newList, Store.setItems_newList]
  rfl

/-- Before the loop there is one list, and each round adds one. -/
theorem run_doubling_rounds (small : count < 2 ^ 31) {rounds : Nat} (within : rounds ≤ count) (steps : Nat) :
    ((doubling count).run (steps + 17 * rounds)
        (doublingAt 4 #[.list TypeNames.object 0, .int 0] [])).inWorld ⟨.doubled TypeNames.object 0, ""⟩ =
      ((doubling count).run steps
        (doublingAt 4 #[.list TypeNames.object rounds, .int (.ofNat rounds)] [])).inWorld
        ⟨.doubled TypeNames.object rounds, ""⟩ := by
  induction rounds generalizing steps with
  | zero => rfl
  | succ rounds inductionHypothesis =>
    have isFurther : Int32.ofNat rounds < .ofNat count := by
      rw [Int32.lt_iff_toInt_lt, Int32.toInt_ofNat_of_lt (by omega), Int32.toInt_ofNat_of_lt small]
      omega
    have next : Int32.ofNat rounds + 1 = .ofNat (rounds + 1) := (Int32.ofNat_add ..).symm
    rw [show steps + 17 * (rounds + 1) = steps + 17 + 17 * rounds by omega,
      inductionHypothesis (Nat.le_of_succ_le within), run_doubling_round isFurther, Store.size_lists_doubled, next]
    rfl

/-- A call of the method that doubles lists ends with the refusal of the last one. -/
theorem invoke_doubling (small : count < 2 ^ 31) :
    ((doubling count).invoke (10 + 17 * count) 0 []).run .empty =
      (some ⟨.error (.badImage (.notANumber
        ((Value.list TypeNames.object count).report (.doubled TypeNames.object count)))), []⟩,
        ⟨.doubled TypeNames.object count, ""⟩) := by
  have begins (steps : Nat) : ((doubling count).callFromOutside (steps + 4) 0 []).inWorld .empty =
      ((doubling count).run steps (doublingAt 4 #[.list TypeNames.object 0, .int 0] [])).inWorld
        ⟨.doubled TypeNames.object 0, ""⟩ := rfl
  have isLast : ¬ Int32.ofNat count < .ofNat count := Int32.lt_irrefl
  have called : ((doubling count).callFromOutside (10 + 17 * count) 0 []).inWorld .empty =
      (.error (.badImage (.notANumber
        ((Value.list TypeNames.object count).report (.doubled TypeNames.object count)))),
        ⟨.doubled TypeNames.object count, ""⟩) := by
    rw [show 10 + 17 * count = 6 + 17 * count + 4 by omega, begins, run_doubling_rounds small (Nat.le_refl _),
      run_doubling_test 3, decide_eq_false isLast]
    rfl
  have isCall : ((doubling count).callFromOutside (10 + 17 * count) 0 []).run.run .empty = _ := called
  rw [invoke, StateT.run_bind, isCall]
  rfl

end Module

/-- A loaded image of a few instructions, and a call of its method that ends with an exception whose wording has more
characters than there are 64-bit numbers. -/
theorem Module.exists_long_message :
    Module.load (.doubling 64) .empty Module.defaultMaxDepth = .ok (.doubling 64) ∧
      ∃ exception world, ((doubling 64).invoke (10 + 17 * 64) 0 []).run .empty = (some ⟨.error exception, []⟩, world) ∧
        2 ^ 64 ≤ exception.message.length := by
  have ends := invoke_doubling (show 64 < 2 ^ 31 by decide)
  have reported := Store.pow_le_length_report_doubled TypeNames.object 64
  have wording (text : String) : text.length ≤ (Exception.message (.badImage (.notANumber text))).length := by
    show _ ≤ ("invalid module image: " ++ ("cannot negate " ++ text)).length
    rw [String.length_append, String.length_append]
    omega
  exact ⟨rfl, _, _, ends, Nat.le_trans reported (wording _)⟩

/-! ### The argument slots of the caller -/

namespace Module

variable {module : Module} {index : UInt32} {outside here there : Outside} {machine : Machine}

/-- A run that ends does so with a step of a machine to which it comes. -/
theorem Reaches.ends (reached : module.Reaches index outside machine here) {steps : Nat} {result : Value} {last : Frame}
    (ran : (module.exposedRun steps machine).within here = (.ok (some (result, last)), there)) :
    ∃ machine here, module.Reaches index outside machine here ∧
      (module.exposedStep machine).within here = (.ok (.ended result last), there) := by
  induction steps generalizing machine here with
  | zero => cases ran
  | succ steps ih =>
    rw [exposedRun, Exposed.within_bind] at ran
    rcases stepped : (module.exposedStep machine).within here with ⟨halt | next | ⟨result, last⟩, middle⟩
    all_goals rw [stepped] at ran
    · cases ran
    · exact ih (reached.step stepped) ran
    · cases ran
      exact ⟨machine, here, reached, stepped⟩

/-- A call that succeeds ends with a step of a machine in which only the call from outside runs. -/
theorem exists_last_step {steps : Nat} {arguments : List Value} {world world' : World} {result : Value} {last : Frame}
    (called : (module.callFromOutside steps index arguments).inWorld world = (.ok (some (result, last)), world')) :
    ∃ machine here, module.Reaches index ⟨world, arguments⟩ machine here ∧ machine.waiting = [] ∧
      last = machine.advance.active ∧ last.Roomy ∧ module.method index = .ok machine.active.method ∧
      arguments.length = machine.active.method.signature.parameters.length ∧
      (module.exposedStep machine).within here =
        (.ok (.ended result last), ⟨world', last.argumentsAfter arguments⟩) := by
  unfold callFromOutside at called
  obtain ⟨method, middle, isMethod, rest⟩ := Action.of_bind_eq_ok called
  obtain ⟨found, rfl⟩ := Action.of_lift_eq_ok isMethod
  dsimp only at rest
  split at rest
  · cases rest
  · next equal =>
    have fits : arguments.length = method.signature.parameters.length := by simpa using equal
    have ran : (module.exposedRun steps (.start (.enter method arguments))).within ⟨middle, arguments⟩ =
        (.ok (some (result, last)), ⟨world', last.argumentsAfter arguments⟩) := by
      rw [within_exposedRun module (Machine.serves_start fits) fits]
      exact congrArg (Exposed.settled (argumentsBehind arguments) arguments) rest
    have begins : module.Reaches index ⟨middle, arguments⟩ (.start (.enter method arguments)) ⟨middle, arguments⟩ :=
      .start found fits
    obtain ⟨machine, ⟨here, same⟩, reached, stepped⟩ := begins.ends ran
    obtain ⟨method', found', serves, rfl, fits⟩ := reached.keeps
    have settled := stepped
    rw [within_exposedStep module serves fits] at settled
    rcases isResult : (module.step machine).inWorld here with ⟨exception | progress, behind⟩
    all_goals
      rw [isResult] at settled
      cases settled
    rcases step_cases module serves isResult with ⟨next, isNext, -⟩ | ⟨value, isEnd, isOuter⟩
    · cases isNext
    · cases isEnd
      have isMethod : machine.active.method = method' := by
        rw [← serves.outermost, Machine.outermost, isOuter]
        rfl
      exact ⟨machine, ⟨here, _⟩, reached, isOuter, rfl, serves.advance.roomy _ List.mem_cons_self,
        isMethod ▸ found', isMethod ▸ fits, stepped⟩

end Module

/-- The entry point of the method that copies a parameter. -/
def EntryPoint.copying : EntryPoint where
  space := ""
  className := "C"
  methodName := "M"
  module := .copying
  index := 0
  signature := MethodImage.copying.signature

/-- A call touches the argument slots of its caller all or nothing. They are as they were until the last step of the
call from outside, and stay so if an exception is raised wherever it may be; a call that succeeds leaves in the slots of
the parameters that are written back what these hold in the last step, and changes no other slot. -/
theorem EntryPoint.invoke_allOrNothing (entry : EntryPoint) (arguments : List Value) (world : World) :
    (∀ machine here, entry.module.Reaches entry.index ⟨world, arguments⟩ machine here → here.arguments = arguments) ∧
    ∀ steps outcome behind, (entry.invoke steps arguments).run world = (some outcome, behind) →
      (entry.module.exposedInvoke steps entry.index).run ⟨world, arguments⟩ =
        (some (outcome.result.mapError .raised), ⟨behind, outcome.arguments⟩) ∧
      match outcome.result with
      | .error _ => outcome.arguments = arguments
      | .ok result =>
        ∃ machine here, entry.module.Reaches entry.index ⟨world, arguments⟩ machine here ∧ machine.waiting = [] ∧
          entry.module.method entry.index = .ok machine.active.method ∧
          (entry.module.exposedStep machine).within here =
            (.ok (.ended result machine.advance.active), ⟨behind, outcome.arguments⟩) ∧
          outcome.arguments.length = arguments.length ∧
          ∀ (position : Nat) (parameter : SignatureParameter),
            machine.active.method.signature.parameters[position]? = some parameter →
              outcome.arguments[position]? =
                if parameter.mode.writesBack then machine.active.slots[position]? else arguments[position]? := by
  refine ⟨fun machine here reached => reached.keeps.choose_spec.2.2.1, fun steps outcome behind invoked => ?_⟩
  have agrees := entry.module.run_exposedInvoke steps entry.index arguments world
  rw [show entry.module.invoke steps entry.index arguments = entry.invoke steps arguments from rfl, invoked] at agrees
  refine ⟨agrees, ?_⟩
  have isCall : (entry.module.callFromOutside steps entry.index arguments).run.run world =
    (entry.module.callFromOutside steps entry.index arguments).inWorld world := rfl
  rw [invoke, Module.invoke, StateT.run_bind, isCall] at invoked
  rcases called : (entry.module.callFromOutside steps entry.index arguments).inWorld world with
    ⟨exception | _ | ⟨result, last⟩, middle⟩
  all_goals
    rw [called] at invoked
    cases invoked
  · rfl
  · obtain ⟨machine, here, reached, isOuter, rfl, roomy, found, fits, stepped⟩ := Module.exists_last_step called
    refine ⟨machine, here, reached, isOuter, found, stepped, Frame.length_argumentsAfter fits, ?_⟩
    intro position parameter isParameter
    have inside : position < machine.active.method.signature.parameters.length :=
      (List.getElem?_eq_some_iff.1 isParameter).1
    have isArgument : position < arguments.length := fits ▸ inside
    have isSlot : position < machine.active.slots.size := Nat.lt_of_lt_of_le inside roomy
    have isLast : machine.advance.active.method.signature.parameters[position]? = some parameter := isParameter
    rw [Frame.getElem?_argumentsAfter isLast, List.getElem?_eq_getElem isArgument, Array.getElem?_eq_getElem isSlot]
    cases parameter.mode.writesBack with
    | false => rfl
    | true =>
      show some (machine.active.slots.getD position .null) = _
      rw [Array.getD_eq_getD_getElem?, Array.getElem?_eq_getElem isSlot]
      rfl

/-- The call of a method that sets its first parameter, which is passed by reference, to the second one. -/
theorem EntryPoint.invoke_copying :
    (copying.module.exposedInvoke 3 0).run ⟨.empty, [.int 1, .int 2]⟩ =
        (some (.ok .null), ⟨.empty, [.int 2, .int 2]⟩) ∧
      ∃ machine here, copying.module.Reaches 0 ⟨.empty, [.int 1, .int 2]⟩ machine here ∧ machine.waiting = [] ∧
        machine.active.slots[0]? = some (.int 2) := by
  obtain ⟨agrees, machine, here, reached, isOuter, found, -, -, behind⟩ :=
    (copying.invoke_allOrNothing [.int 1, .int 2] .empty).2 3 ⟨.ok .null, [.int 2, .int 2]⟩ .empty rfl
  have isMethod : MethodImage.copying = machine.active.method := Except.ok.inj found
  exact ⟨agrees, machine, here, reached, isOuter, (behind 0 ⟨"x", .ref, TypeNames.int⟩ (isMethod ▸ rfl)).symm⟩

end Snippet
