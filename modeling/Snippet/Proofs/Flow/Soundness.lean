import Snippet.Proofs.Flow.Statement
import Snippet.Proofs.Machine.Moves

/-!
Definite assignment holds in every run: in a method in which nothing is found, no variable is loaded
before the call has stored to it, control does not run past the end, and every `out` parameter has
been stored to where the call ends.
-/

namespace Snippet

/-- Whether nothing is in the slot when its method is entered: only arguments that are passed in are. -/
def Slot.startsEmpty (slot : Slot) : Bool := slot.mode.all (· == .out)

/-- Whether what is known at a point is true in a call: control gets there, slots that start empty and
are not lacked have been stored to, and a constant lies on the stack. -/
structure FlowPoint.Holds (point : FlowPoint) (slots : List Slot) (stored : List Nat) (stack : Stack) : Prop where
  reached : point.reached.isSome
  stored : ∀ (index : Nat) (slot : Slot), slots[index]? = some slot → slot.startsEmpty = true →
    point.reached.lacks index = false → index ∈ stored
  constant : ∀ truth : Bool, point.constant = some truth → stack.head? = some (.bool truth)

namespace FlowPoint.Holds

variable {point other before after : FlowPoint} {slots : List Slot} {stored : List Nat} {stack : Stack}

theorem mono (holds : point.Holds slots stored stack) (entails : point.Entails other) :
    other.Holds slots stored stack := by
  obtain ⟨reaches, constant⟩ := entails holds.reached
  obtain ⟨known, lacks⟩ := reaches holds.reached
  refine ⟨known, fun index slot found isEmpty assigned => ?_, fun truth isConstant => ?_⟩
  · refine holds.stored index slot found isEmpty ?_
    cases lack : point.reached.lacks index with
    | false => rfl
    | true =>
      rw [lacks index lack] at assigned
      cases assigned
  · rcases constant with isNone | same
    · rw [isNone] at isConstant
      cases isConstant
    · exact holds.constant truth (same ▸ isConstant)

theorem forget (holds : point.Holds slots stored stack) (other : Stack) :
    (plain point.reached).Holds slots stored other := ⟨holds.reached, holds.stored, nofun⟩

theorem entry (slots : List Slot) (stack : Stack) :
    (plain (.entry slots)).Holds slots [] stack := by
  refine ⟨rfl, fun index slot found isEmpty assigned => ?_, nofun⟩
  have lacked : Reached.lacks (.entry slots) index = true := by
    rw [Reached.entry, Reached.lacks_some, Array.getD_eq_getD_getElem?]
    cases mode : slot.mode with
    | none => simp [found, mode]
    | some passed => cases passed <;> simp_all [Slot.startsEmpty]
  change Reached.lacks (.entry slots) index = false at assigned
  rw [lacked] at assigned
  cases assigned

/-- A store makes its slot a stored one. -/
theorem store (holds : point.Holds slots stored stack) (slot : Nat) (other : Stack) :
    (plain (point.reached.assign slot)).Holds slots (slot :: stored) other := by
  refine ⟨(Reached.isSome_assign _ slot).trans holds.reached, fun index entry found isEmpty assigned => ?_, nofun⟩
  change (point.reached.assign slot).lacks index = false at assigned
  rw [Reached.lacks_assign, Bool.and_eq_false_iff] at assigned
  rcases assigned with assigned | same
  · exact List.mem_cons_of_mem slot (holds.stored index entry found isEmpty assigned)
  · rw [decide_eq_false_iff_not, not_not] at same
    exact same ▸ List.mem_cons_self ..

/-- A test finds what a constant on the stack is. -/
theorem test {truth : Bool} (holds : before.Holds slots stored stack) (tests : before.Test truth after)
    {rest : Stack} (popped : stack.popBool = .ok (truth, rest)) : after.Holds slots stored rest := by
  refine (holds.forget rest).mono (tests fun isConstant => ?_)
  have onTop := holds.constant _ isConstant
  cases stack with
  | nil => cases onTop
  | cons top below =>
      rw [List.head?_cons, Option.some.injEq] at onTop
      rw [onTop] at popped
      injection popped with same
      injection same with same
      cases truth <;> cases same

/-- A local command leads to what is known behind it. -/
theorem command {libraries : LibrarySet} {single : Command} {locals : Array Value}
    {result : Array Value × Stack} {world world' : World} (holds : before.Holds slots stored stack)
    (changes : before.After slots single after) (isLocal : single.isLocal = true)
    (performed : (single.perform libraries locals stack).inWorld world = (.ok result, world')) :
    after.Holds slots (single.noted stored) result.2 := by
  cases single with
  | const value =>
      cases changes
      cases performed
      refine ⟨holds.reached, holds.stored, fun truth isConstant => ?_⟩
      cases value <;> cases isConstant
      rfl
  | load slot =>
      obtain ⟨-, rfl⟩ := changes
      exact holds.forget _
  | store slot =>
      cases changes
      exact holds.store slot _
  | call | giveBack | giveBackNothing => cases isLocal
  | _ =>
      cases changes
      exact holds.forget _

end FlowPoint.Holds

/-- Whether nothing found in a method is an error of the flow analysis. -/
def TypedMethod.IsFlowClean (method : TypedMethod) : Prop :=
  ∀ finding ∈ method.flowFindings, finding.isError = false

/-- Whether a frame belongs to a method of the program and follows a plan of it, if the method is
clean. -/
structure Frame.Follows (program : TypedProgram) (image : Image) (call : CallRecord) (frame : Frame)
    (stack : Stack) : Prop where
  code : image.methods[call.method]? = some frame.method
  plan : ∀ method : TypedMethod, program.methods[call.method]? = some method → method.IsFlowClean →
    ∃ plan : Nat → FlowPoint,
      (∀ position : Nat, method.block.length ≤ position → plan position = .plain none) ∧
      EachAt ((Analysis.flow method.slots).Follows plan) 0 (method.block.layout 0 0 0) ∧
      (plan frame.position).Holds method.slots call.stored stack

namespace Frame.Follows

variable {program : TypedProgram} {image : Image}

/-- A call that is entered follows a plan of its method. -/
theorem enter {index : Nat} {callee : MethodImage} (found : image.methods[index]? = some callee) (arguments : List Value) (stack : Stack) :
    (Frame.enter callee arguments).Follows program image ⟨index, []⟩ stack := by
  refine ⟨found, fun method _ clean => ?_⟩
  obtain ⟨plan, enters, ends, follows, -⟩ := method.flow_plan clean
  exact ⟨plan, ends, follows, (FlowPoint.Holds.entry method.slots stack).mono enters⟩

/-- A frame that goes on follows its plan if the plan does so from one position to the other. -/
theorem move {frame other : Frame} {call : CallRecord} {stored : List Nat} {stack stack' : Stack}
    (follows : frame.Follows program image call stack) (same : other.method = frame.method)
    (leads : ∀ (method : TypedMethod) (plan : Nat → FlowPoint), program.methods[call.method]? = some method →
      EachAt ((Analysis.flow method.slots).Follows plan) 0 (method.block.layout 0 0 0) →
      (plan frame.position).Holds method.slots call.stored stack →
      (plan other.position).Holds method.slots stored stack') :
    other.Follows program image { call with stored } stack' := by
  refine ⟨same ▸ follows.code, fun method isMethod clean => ?_⟩
  obtain ⟨plan, ends, obeys, holds⟩ := follows.plan method isMethod clean
  exact ⟨plan, ends, obeys, leads method plan isMethod obeys holds⟩

end Frame.Follows

/-- Whether all calls of a watched machine follow plans. Waiting calls do so whatever is on the stack. -/
structure Watched.Follows (program : TypedProgram) (image : Image) (watched : Watched) : Prop where
  active : watched.machine.active.Follows program image watched.active watched.machine.stack
  waiting : List.Forall₂ (fun frame call => ∀ stack : Stack, frame.Follows program image call stack)
    watched.machine.waiting watched.waiting

namespace Watched.Follows

variable {program : TypedProgram} {checked libraries : LibrarySet} {image : Image}

theorem start {index : Nat} {entry : MethodImage} (found : image.methods[index]? = some entry)
    (arguments : List Value) : (Watched.start index entry arguments).Follows program image :=
  ⟨.enter found arguments [], .nil⟩

/-- The call that waits for one that ends goes on with its plan. -/
theorem leave {watched : Watched} {single : Command} (ends : single = .giveBack ∨ single = .giveBackNothing)
    {instruction : Instruction} (encodes : instruction.Encodes image (.command single))
    (waiting : List.Forall₂ (fun frame call => ∀ stack : Stack, frame.Follows program image call stack)
      watched.machine.waiting watched.waiting)
    {result : Option Value} {ended machine : Machine} (leaves : Module.leave result ended = .running machine)
    (same : ended.waiting = watched.machine.waiting) : (watched.next instruction machine).Follows program image := by
  obtain ⟨caller, others, isWaiting, isActive, isOthers, -⟩ := Module.of_leave leaves
  rw [← same, isWaiting] at waiting
  obtain ⟨call, calls, follows, rest, isCalls⟩ := List.forall₂_cons_left_iff.1 waiting
  rw [Watched.next_leave encodes ends isCalls]
  exact ⟨isActive ▸ follows machine.stack, isOthers ▸ rest⟩

/-- A step leads from plans to plans. -/
theorem step (compiles : program.CompilesTo checked image) {module : Module} {maxDepth : Nat}
    (loaded : Module.load image libraries maxDepth = .ok module) {watched : Watched} {machine : Machine}
    {world world' : World} {instruction : Instruction} (follows : watched.Follows program image)
    (reached : watched.instruction? = some instruction)
    (stepped : (module.step watched.machine).inWorld world = (.ok (.running machine), world')) :
    (watched.next instruction machine).Follows program image := by
  obtain ⟨active, waiting⟩ := follows
  obtain ⟨method, isMethod, fits, code⟩ := compiles.compiled_at active.code
  obtain ⟨line, isLine, encodes, moves⟩ := compiles.moves_of_step loaded isMethod active.code reached stepped
  have atLine {other : TypedMethod} {plan : Nat → FlowPoint}
      (isOther : program.methods[watched.active.method]? = some other)
      (obeys : EachAt ((Analysis.flow other.slots).Follows plan) 0 (other.block.layout 0 0 0)) :
      (Analysis.flow other.slots).Follows plan watched.machine.active.position line := by
    cases isMethod.symm.trans isOther
    simpa using obeys.of_getElem? isLine
  cases moves with
  | command isLocal performed =>
    have small := (code.indexes fits isLine).mono
      (Nat.le_of_lt (UInt16.toNat_lt watched.machine.active.method.slotCount))
    rw [Watched.next_command encodes isLocal small]
    refine ⟨active.move rfl fun other plan isOther obeys holds => ?_, waiting⟩
    obtain ⟨after, changes, entails⟩ := atLine isOther obeys
    exact (holds.command changes isLocal performed).mono entails
  | call found popped =>
    rw [Watched.next_call encodes (Nat.lt_of_lt_of_le (code.indexes fits isLine) compiles.count)]
    refine ⟨.enter found _ _, .cons (fun stack => ?_) waiting⟩
    refine active.move rfl fun other plan isOther obeys holds => ?_
    obtain ⟨after, rfl, entails⟩ := atLine isOther obeys
    exact (holds.forget stack).mono entails
  | giveBack popped leaves => exact leave (.inl rfl) encodes waiting leaves rfl
  | giveBackNothing leaves => exact leave (.inr rfl) encodes waiting leaves rfl
  | jump target =>
    rw [Watched.next_jump encodes rfl]
    exact ⟨active.move rfl fun other plan isOther obeys holds => holds.mono (atLine isOther obeys), waiting⟩
  | @jumpIf truth found target _ popped =>
    rw [Watched.next_jump encodes rfl]
    refine ⟨active.move rfl fun other plan isOther obeys holds => ?_, waiting⟩
    obtain ⟨⟨jumped, tests, entails⟩, passed, tests', entails'⟩ := atLine isOther obeys
    by_cases same : found = truth
    · rw [if_pos same]
      exact (holds.test tests (same ▸ popped)).mono entails
    · rw [if_neg same]
      have isOpposite : found = !truth := by cases found <;> cases truth <;> first | rfl | exact absurd rfl same
      exact (holds.test tests' (isOpposite ▸ popped)).mono entails'

/-- Runs lead from plans to plans. -/
theorem run (compiles : program.CompilesTo checked image) {module : Module} {maxDepth : Nat}
    (loaded : Module.load image libraries maxDepth = .ok module) {first last : Watched} {world world' : World}
    (watches : module.Watches first world last world') (follows : first.Follows program image) :
    last.Follows program image := by
  induction watches with
  | start => exact follows
  | step _ reached stepped ih => exact ih.step compiles loaded reached stepped

end Watched.Follows

/-- What definite assignment means for the running call of a machine, as a call of a method: control
has not run past the end; a variable or an `out` parameter that is loaded next has been stored to in
this call; and where the call ends, so has every `out` parameter. -/
structure Watched.IsAssigned (watched : Watched) (method : TypedMethod) : Prop where
  inside : watched.instruction?.isSome
  loads : ∀ slot : UInt16, watched.instruction? = some (.load slot) →
    ∀ declared : Slot, method.slots[slot.toNat]? = some declared →
      declared.mode = none ∨ declared.mode = some .out → slot.toNat ∈ watched.active.stored
  ends : watched.instruction? = some .giveBack ∨ watched.instruction? = some .giveBackNothing →
    ∀ (index : Nat) (declared : Slot), method.slots[index]? = some declared →
      declared.mode = some .out → index ∈ watched.active.stored

/-- A call that follows its plan is assigned as the flow analysis says. -/
theorem Frame.Follows.hasAssigned {program : TypedProgram} {checked : LibrarySet} {image : Image}
    (compiles : program.CompilesTo checked image) {watched : Watched}
    (follows : watched.machine.active.Follows program image watched.active watched.machine.stack)
    {method : TypedMethod} (isMethod : program.methods[watched.active.method]? = some method)
    (clean : method.IsFlowClean) : watched.IsAssigned method := by
  obtain ⟨found, isFound, fits, code⟩ := compiles.compiled_at follows.code
  cases isMethod.symm.trans isFound
  obtain ⟨plan, ends, obeys, holds⟩ := follows.plan method isMethod clean
  have lineOf {instruction : Instruction} (reached : watched.instruction? = some instruction) :
      ∃ line, instruction.Encodes image line ∧
        (∀ slot : Nat, line = .command (.load slot) → slot < 65536) ∧
        (Analysis.flow method.slots).Follows plan watched.machine.active.position line := by
    obtain ⟨line, isLine, encodes⟩ := code.exists_line reached
    refine ⟨line, encodes, fun slot isLoad => ?_, by simpa using obeys.of_getElem? isLine⟩
    have bound := code.indexes fits (isLoad ▸ isLine)
    exact Nat.lt_trans bound (UInt16.toNat_lt _)
  refine ⟨?_, fun slot reached declared isDeclared isEmpty => ?_, fun reached index declared isDeclared isOut => ?_⟩
  · cases reached : watched.instruction? with
    | some instruction => rfl
    | none =>
      have behind := List.getElem?_eq_none_iff.1 reached
      rw [code.length_code] at behind
      have isReached := holds.reached
      rw [ends _ behind] at isReached
      cases isReached
  · obtain ⟨line, encodes, small, atLine⟩ := lineOf reached
    cases encodes with
    | load loaded =>
      have same : (Emit.slot loaded).toNat = loaded := UInt16.toNat_ofNat_of_lt' (small loaded rfl)
      obtain ⟨after, ⟨assigned, -⟩, -⟩ := atLine
      rw [same] at isDeclared ⊢
      refine holds.stored loaded declared isDeclared ?_ assigned
      rcases isEmpty with isLocal | isOut
      · rw [Slot.startsEmpty, isLocal]
        rfl
      · rw [Slot.startsEmpty, isOut]
        rfl
  · have assigns : (plan watched.machine.active.position).reached.AssignsOut method.slots := by
      rcases reached with reached | reached <;>
      · obtain ⟨line, encodes, -, atLine⟩ := lineOf reached
        cases encodes
        obtain ⟨after, ⟨assigns, -⟩, -⟩ := atLine
        exact assigns
    refine holds.stored index declared isDeclared ?_ (assigns index declared isDeclared isOut)
    rw [Slot.startsEmpty, isOut]
    rfl

/-- Definite assignment holds in every run of a compiled source text, for every call of a method in
which the flow analysis finds no error. -/
theorem Module.Watches.isAssigned {unit : CompilationUnit} {references libraries : LibrarySet}
    (noError : ∀ finding ∈ (unit.check references).findings, finding.isError = false) {moduleName : String}
    {image : Image} (done : (unit.check references).program.toImage moduleName = .ok image)
    {module : Module} {maxDepth : Nat} (loaded : Module.load image libraries maxDepth = .ok module)
    {index : Nat} {entry : MethodImage} (isEntry : image.methods[index]? = some entry)
    {arguments : List Value} {world world' : World} {watched : Watched}
    (watches : module.Watches (.start index entry arguments) world watched world') {method : TypedMethod}
    (isMethod : (unit.check references).program.methods[watched.active.method]? = some method)
    (clean : ∀ finding ∈ method.flowFindings, finding.isError = false) : watched.IsAssigned method := by
  have compiles := CompilationUnit.compilesTo noError done
  have follows := Watched.Follows.run compiles loaded watches (.start isEntry arguments)
  exact follows.active.hasAssigned compiles isMethod clean

/-- In front of its third instruction, which loads its variable, a method has stored to it. -/
theorem Module.Watches.isAssigned_givingVariable :
    ∃ (module : Module) (entry : MethodImage) (watched : Watched) (method : TypedMethod),
      Module.load .givingVariable .empty 1 = .ok module ∧
      module.Watches (.start 0 entry []) .empty watched .empty ∧
      watched.instruction? = some (.load 0) ∧ watched.active.stored = [0] ∧ watched.IsAssigned method := by
  have noError : ∀ finding ∈ (CompilationUnit.givingVariable.check .empty).findings,
      finding.isError = false := by
    rw [CompilationUnit.findings_givingVariable]
    nofun
  have compiles := CompilationUnit.compilesTo noError CompilationUnit.toImage_givingVariable
  obtain ⟨method, isMethod, -⟩ := compiles.compiled_at (show Image.givingVariable.methods[0]? = some _ from rfl)
  have clean : method.flowFindings = [] := by
    have isClean : ((CompilationUnit.givingVariable.check .empty).program.methods[0]?.map
        fun method => method.flowFindings.isEmpty) = some true := by decide +kernel
    rw [isMethod, Option.map_some, Option.some.injEq, List.isEmpty_iff] at isClean
    exact isClean
  have isLoaded : Module.load .givingVariable .empty 1 = .ok ⟨.givingVariable, [], 1⟩ := rfl
  have first : Module.Watches ⟨.givingVariable, [], 1⟩ (.start 0 .givingVariable []) .empty _ .empty :=
    .step .start rfl rfl
  have watches := first.step rfl rfl
  refine ⟨_, _, _, method, isLoaded, watches, rfl, rfl, ?_⟩
  exact Module.Watches.isAssigned noError CompilationUnit.toImage_givingVariable isLoaded rfl watches isMethod
    fun finding found => by rw [clean] at found; cases found

end Snippet
