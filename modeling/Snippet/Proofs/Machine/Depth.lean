import Snippet.Proofs.Machine.Safety
import Snippet.Proofs.Passing.Running

/-!
The limit on nested calls. No more calls than it are ever open, and only a call that it refuses depends on it: a run in
which it refuses none is the same under every larger limit. Main statement: `Module.load_deeper`.
-/

namespace Snippet

/-! ### How many calls are open -/

namespace Machine

variable {machine next : Machine}

/-- The running call and those that wait for it are as many as are nested. -/
theorem length_frames (machine : Machine) : machine.frames.length = machine.depth := machine.depth_eq.symm

theorem Stays.length_frames (same : machine.Stays next) : next.frames.length = machine.frames.length := by
  rw [frames, frames, List.length_cons, List.length_cons, same.waiting]

/-- An instruction opens one call at most. -/
theorem Proceeds.length_frames_le (proceeds : machine.Proceeds next) :
    next.frames.length ≤ machine.frames.length + 1 := by
  cases proceeds with
  | stays same => exact same.length_frames ▸ Nat.le_succ _
  | enters _ _ waiting => exact Nat.le_of_eq (congrArg (List.length · + 1) waiting)
  | leaves waiting =>
    have closed : machine.frames.length = next.frames.length + 1 := congrArg (List.length · + 1) waiting
    omega

end Machine

namespace Module

variable {module : Module} {machine : Machine} {world : World} {more : Nat}

/-- A call that is not refused leaves no more calls open than the limit allows. -/
theorem call_frames {index : UInt32} {next : Machine} (called : module.call index machine = .ok next) :
    next.frames.length ≤ module.maxDepth := by
  have isSmall : machine.frames.length < module.maxDepth := by
    by_contra tooDeep
    rw [machine.length_frames] at tooDeep
    rw [call, if_pos (Nat.not_lt.1 tooDeep)] at called
    cases called
  exact Nat.le_trans (call_proceeds called).length_frames_le isSmall

/-- The end of a call closes it. -/
theorem leave_frames {result : Option Value} {next : Machine} (leaves : leave result machine = .running next) :
    machine.frames.length = next.frames.length + 1 := by
  obtain ⟨caller, waiting, isWaiting, rfl, rfl, -⟩ := of_leave leaves
  exact congrArg (List.length · + 1) isWaiting

/-- An instruction leaves no more calls open than the limit allows. -/
theorem execute_frames (fits : machine.frames.length ≤ module.maxDepth) (instruction : Instruction) :
    (module.execute instruction machine).Gives fun progress =>
      ∀ next, progress = .running next → next.frames.length ≤ module.maxDepth := by
  open Snippet.Action in
  cases stays : instruction.staysInCall with
  | true =>
    intro world progress middle done next isNext
    obtain ⟨_, rfl, same⟩ := execute_stays module stays machine done
    cases isNext
    exact same.length_frames ▸ fits
  | false =>
    have left {result : Option Value} {stack : Stack} {next : Machine}
        (leaves : leave result { machine with stack } = .running next) : next.frames.length ≤ module.maxDepth :=
      Nat.le_of_succ_le (Nat.le_trans (Nat.le_of_eq (leave_frames leaves).symm) fits)
    cases instruction with
    | call index =>
      refine (gives_lift fun _ => call_frames).bind fun _ known => gives_pure ?_
      rintro _ ⟨⟩
      exact known
    | giveBack => exact gives_bind fun _ => gives_pure fun _ leaves => left leaves
    | giveBackNothing => exact gives_pure fun _ leaves => left leaves
    | _ => cases stays

/-- A step leaves no more calls open than the limit allows. -/
theorem step_frames (fits : machine.frames.length ≤ module.maxDepth) :
    (module.step machine).Gives fun progress =>
      ∀ next, progress = .running next → next.frames.length ≤ module.maxDepth := by
  have advanced : machine.advance.frames.length ≤ module.maxDepth := fits
  unfold step
  split
  · exact execute_frames advanced _
  · exact Action.gives_throw _ _

/-- The machine after a number of steps, with the world there; none if the run has ended before. -/
def after (module : Module) : Nat → Machine → World → Option (Machine × World)
  | 0, machine, world => some (machine, world)
  | steps + 1, machine, world =>
    match (module.step machine).inWorld world with
    | (.ok (.running next), world) => module.after steps next world
    | _ => none

/-- A run never has more calls open than the limit allows. -/
theorem after_frames {steps : Nat} {next : Machine} {there : World} (fits : machine.frames.length ≤ module.maxDepth)
    (reached : module.after steps machine world = some (next, there)) : next.frames.length ≤ module.maxDepth := by
  induction steps generalizing machine world with
  | zero =>
    cases reached
    exact fits
  | succ steps ih =>
    unfold after at reached
    split at reached
    · next middle stepped => exact ih (step_frames fits stepped _ rfl) reached
    · cases reached

/-! ### What the limit decides -/

/-- Whether the next instruction is a call that is refused because too many calls are nested. -/
def refuses (module : Module) (machine : Machine) : Bool :=
  match machine.active.method.code[machine.active.position]? with
  | some (.call _) => module.maxDepth ≤ machine.depth
  | _ => false

/-- The module with another limit on nested calls. -/
def withDepth (module : Module) (maxDepth : Nat) : Module := { module with maxDepth }

/-- A call that is not refused is the same under a larger limit. -/
theorem call_withDepth {index : UInt32} (isSmall : machine.depth < module.maxDepth)
    (deeper : module.maxDepth ≤ more) :
    (module.withDepth more).call index machine = module.call index machine := by
  have isSmaller : machine.depth < (module.withDepth more).maxDepth := Nat.lt_of_lt_of_le isSmall deeper
  rw [call, call, if_neg (Nat.not_le.2 isSmall), if_neg (Nat.not_le.2 isSmaller)]
  rfl

/-- A step that is not a refused call is the same under a larger limit. -/
theorem step_withDepth (allows : module.refuses machine = false) (deeper : module.maxDepth ≤ more) :
    (module.withDepth more).step machine = module.step machine := by
  unfold step
  unfold refuses at allows
  cases reached : machine.active.method.code[machine.active.position]? with
  | none => rfl
  | some instruction =>
    rw [reached] at allows
    cases instruction with
    | call index =>
      have isSmall : machine.advance.depth < module.maxDepth := Nat.not_le.1 (of_decide_eq_false allows)
      show (liftM ((module.withDepth more).call index machine.advance) >>= _ : Action Progress) = _
      rw [call_withDepth isSmall deeper]
      rfl
    -- No other instruction reads the limit.
    | _ => rfl

/-- Whether a run comes to no call that is refused. -/
def NeverRefuses (module : Module) (machine : Machine) (world : World) : Prop :=
  ∀ ⦃steps : Nat⦄ ⦃next : Machine⦄ ⦃there : World⦄,
    module.after steps machine world = some (next, there) → module.refuses next = false

theorem NeverRefuses.first (never : module.NeverRefuses machine world) : module.refuses machine = false :=
  @never 0 machine world rfl

theorem NeverRefuses.behind (never : module.NeverRefuses machine world) {next : Machine} {middle : World}
    (stepped : (module.step machine).inWorld world = (.ok (.running next), middle)) :
    module.NeverRefuses next middle := by
  intro steps later there reached
  refine @never (steps + 1) later there ?_
  rw [after, stepped]
  exact reached

/-- A run that comes to no refused call is the same under a larger limit. -/
theorem run_withDepth (never : module.NeverRefuses machine world) (deeper : module.maxDepth ≤ more) (steps : Nat) :
    ((module.withDepth more).run steps machine).inWorld world = (module.run steps machine).inWorld world := by
  induction steps generalizing machine world with
  | zero => rfl
  | succ steps ih =>
    rw [run, run, step_withDepth never.first deeper, Action.inWorld_bind, Action.inWorld_bind]
    rcases stepped : (module.step machine).inWorld world with ⟨_ | next | _, middle⟩
    · rfl
    · exact ih (never.behind stepped)
    · rfl

/-- A run that comes to no refused call makes the same calls of the host under a larger limit. -/
theorem hostCalls_withDepth (never : module.NeverRefuses machine world) (deeper : module.maxDepth ≤ more)
    (steps : Nat) :
    (module.withDepth more).hostCalls steps machine world = module.hostCalls steps machine world := by
  induction steps generalizing machine world with
  | zero => rfl
  | succ steps ih =>
    rw [hostCalls, hostCalls, step_withDepth never.first deeper]
    refine congrArg ((module.hostCall? machine world).toList ++ ·) ?_
    rcases stepped : (module.step machine).inWorld world with ⟨_ | next | _, middle⟩
    · rfl
    · exact ih (never.behind stepped)
    · rfl

/-! ### Runs that end -/

/-- A run that has ended takes no more steps. -/
theorem run_of_ended {steps enough : Nat} {result : Except Exception (Value × Frame)} {behind : World}
    (ended : (module.run steps machine).inWorld world = (result.map some, behind)) (isEnough : steps ≤ enough) :
    (module.run enough machine).inWorld world = (result.map some, behind) ∧
      module.hostCalls enough machine world = module.hostCalls steps machine world := by
  induction steps generalizing machine world enough with
  | zero => cases result <;> cases ended
  | succ steps ih =>
    obtain ⟨enough, rfl⟩ : ∃ fewer, enough = fewer + 1 := ⟨enough - 1, by omega⟩
    rw [run, Action.inWorld_bind] at ended ⊢
    rw [hostCalls, hostCalls]
    rcases stepped : (module.step machine).inWorld world with ⟨_ | next | _, middle⟩
    · rw [stepped] at ended
      exact ⟨ended, rfl⟩
    · rw [stepped] at ended
      obtain ⟨same, sameCalls⟩ := ih ended (Nat.le_of_succ_le_succ isEnough)
      exact ⟨same, congrArg _ sameCalls⟩
    · rw [stepped] at ended
      exact ⟨ended, rfl⟩

/-! ### Calls from outside -/

/-- The machine with which a call from outside begins; none if there is no such method with a parameter for each
argument. -/
def first? (module : Module) (index : UInt32) (arguments : List Value) : Option Machine :=
  match module.method index with
  | .ok method =>
    if arguments.length = method.signature.parameters.length then some (.start (.enter method arguments)) else none
  | .error _ => none

variable {index : UInt32} {arguments : List Value}

theorem frames_first {first : Machine} (isFirst : module.first? index arguments = some first) :
    first.frames.length = 1 := by
  unfold first? at isFirst
  split at isFirst
  · split_ifs at isFirst
    cases isFirst
    rfl
  · cases isFirst

/-- A call from outside that begins is a run. -/
theorem callFromOutside_eq {first : Machine} (isFirst : module.first? index arguments = some first) (steps : Nat) :
    module.callFromOutside steps index arguments = module.run steps first := by
  unfold first? at isFirst
  unfold callFromOutside
  split at isFirst
  · next method found =>
    split_ifs at isFirst with fits
    cases isFirst
    rw [found]
    show (if (arguments.length != method.signature.parameters.length) = true then _ else _) = _
    rw [if_neg (by rw [bne_iff_ne, not_not]; exact fits)]
  · cases isFirst

/-- A call from outside that does not begin fails, whatever the limit and the number of steps. -/
theorem callFromOutside_withDepth (none : module.first? index arguments = none) (steps enough : Nat) :
    (module.withDepth more).callFromOutside enough index arguments =
      module.callFromOutside steps index arguments := by
  have sameMethod : (module.withDepth more).method index = module.method index := rfl
  unfold first? at none
  unfold callFromOutside
  rw [sameMethod]
  split at none
  · next method found =>
    split_ifs at none with fits
    rw [found]
    show (if (arguments.length != method.signature.parameters.length) = true then _ else _) =
      (if (arguments.length != method.signature.parameters.length) = true then _ else _)
    rw [if_pos (bne_iff_ne.2 fits), if_pos (bne_iff_ne.2 fits)]
    rfl
  · next exception found =>
    rw [found]
    rfl

/-- What a call from outside leaves to its caller depends only on what comes of it inside. -/
theorem invoke_congr {other : Module} {steps enough : Nat}
    (same : (other.callFromOutside enough index arguments).inWorld world =
      (module.callFromOutside steps index arguments).inWorld world) :
    (other.invoke enough index arguments).run world = (module.invoke steps index arguments).run world := by
  have sameRun : (other.callFromOutside enough index arguments).run.run world =
      (module.callFromOutside steps index arguments).run.run world := same
  rw [invoke, invoke, StateT.run_bind, StateT.run_bind, sameRun]

/-- A call from outside with an outcome has ended inside. -/
theorem exists_of_invoke {steps : Nat} {outcome : CallOutcome} {behind : World}
    (invoked : (module.invoke steps index arguments).run world = (some outcome, behind)) :
    ∃ (result : Except Exception (Value × Frame)) (final : World),
      (module.callFromOutside steps index arguments).inWorld world = (result.map some, final) := by
  have isCall : (module.callFromOutside steps index arguments).run.run world =
      (module.callFromOutside steps index arguments).inWorld world := rfl
  rw [invoke, StateT.run_bind, isCall] at invoked
  rcases called : (module.callFromOutside steps index arguments).inWorld world with ⟨exception | _ | last, final⟩
  · exact ⟨.error exception, final, rfl⟩
  · rw [called] at invoked
    cases invoked
  · exact ⟨.ok last, final, rfl⟩

/-- An image is loaded with any limit if it is with one. -/
theorem load_withDepth {image : Image} {libraries : LibrarySet} {limit : Nat}
    (loaded : load image libraries limit = .ok module) (more : Nat) :
    load image libraries more = .ok (module.withDepth (max more 1)) := by
  obtain ⟨rfl, linked, -, sound⟩ := of_load loaded
  rw [load, sound]
  show (module.image.imports.mapM (·.link libraries) >>= _ : Except LoadFault Module) = _
  rw [linked]
  rfl

/-- A call from outside never has more calls open than the limit on them allows, which is at least one. If it ends
and comes to no call that is refused, then under every larger limit it has the same outcome, leaves the same lists,
objects and output, and makes the same calls of the host. -/
theorem load_deeper {image : Image} {libraries : LibrarySet} {limit : Nat}
    (loaded : load image libraries limit = .ok module) (index : UInt32) (arguments : List Value) (world : World) :
    (∀ first, module.first? index arguments = some first →
        ∀ steps machine there, module.after steps first world = some (machine, there) →
          machine.frames.length ≤ max limit 1) ∧
      ∀ more, limit ≤ more → ∃ deeper, load image libraries more = .ok deeper ∧
        ∀ steps outcome behind, (module.invoke steps index arguments).run world = (some outcome, behind) →
          (∀ first, module.first? index arguments = some first → module.NeverRefuses first world) →
          ∀ enough, steps ≤ enough →
            (deeper.invoke enough index arguments).run world = (some outcome, behind) ∧
            ∀ first, module.first? index arguments = some first →
              deeper.first? index arguments = some first ∧
              deeper.hostCalls enough first world = module.hostCalls steps first world := by
  obtain ⟨-, -, isLimit, -⟩ := of_load loaded
  refine ⟨fun first isFirst steps machine there reached => ?_, fun more isMore => ?_⟩
  · rw [← isLimit]
    have fits : first.frames.length ≤ module.maxDepth := by
      rw [frames_first isFirst, isLimit]
      exact Nat.le_max_right limit 1
    exact after_frames fits reached
  · refine ⟨_, load_withDepth loaded more, fun steps outcome behind invoked never enough isEnough => ?_⟩
    have isDeeper : module.maxDepth ≤ max more 1 := by omega
    rw [← invoked]
    cases isFirst : module.first? index arguments with
    | none => exact ⟨invoke_congr (congrArg (·.inWorld world) (callFromOutside_withDepth isFirst ..)), nofun⟩
    | some first =>
      have sameFirst : (module.withDepth (max more 1)).first? index arguments = some first := isFirst
      obtain ⟨result, final, ended⟩ := exists_of_invoke invoked
      rw [callFromOutside_eq isFirst] at ended
      obtain ⟨same, sameCalls⟩ := run_of_ended ended isEnough
      refine ⟨invoke_congr ?_, ?_⟩
      · rw [callFromOutside_eq sameFirst, callFromOutside_eq isFirst, run_withDepth (never first isFirst) isDeeper,
          same, ended]
      · rintro _ ⟨⟩
        exact ⟨sameFirst, (hostCalls_withDepth (never first isFirst) isDeeper enough).trans sameCalls⟩

end Module

/-- An image of a method that calls another one and gives its result back. -/
def Image.nesting : Image :=
  ⟨Image.currentVersion, "snippet", [.int 7], [], [], [⟨"C", false, false, [0, 1]⟩],
    [⟨"Outer", 0, false, true, ⟨[], some TypeNames.int⟩, 0, [.call 1, .giveBack]⟩,
      ⟨"Inner", 0, false, true, ⟨[], some TypeNames.int⟩, 0, [.const 0, .giveBack]⟩]⟩

/-- Two nested calls give the same under the limits two and nine. -/
theorem Module.load_deeper_nesting :
    ∃ deeper, load .nesting .empty 9 = .ok deeper ∧
      (deeper.invoke 100 0 []).run .empty = (some ⟨.ok (.int 7), []⟩, .empty) := by
  have loaded : load .nesting .empty 2 = .ok ⟨.nesting, [], 2⟩ := rfl
  have invoked : (invoke ⟨.nesting, [], 2⟩ 4 0 []).run .empty = (some ⟨.ok (.int 7), []⟩, .empty) := rfl
  obtain ⟨-, raise⟩ := load_deeper loaded 0 [] .empty
  obtain ⟨deeper, isDeeper, keeps⟩ := raise 9 (by decide)
  refine ⟨deeper, isDeeper, (keeps 4 _ _ invoked ?_ 100 (by decide)).1⟩
  rintro _ ⟨⟩ (_ | _ | _ | _ | steps) machine there reached <;> cases reached <;> rfl

end Snippet
