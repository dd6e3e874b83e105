import Mathlib.Data.List.Forall2
import Snippet.Callable.Binding

/-!
What a call that is rejected for its arguments leaves behind. Arguments are checked in order, and the slot of an `out`
parameter is set on the way; so the slots are those that were given, but for the `out` slots in front of the first
argument that does not fit. Main statement: `BoundCallable.invoke_eq_argument_iff`.
-/

namespace Snippet

namespace ShapeParameter

/-- Whether the check of arguments goes on behind an argument in the slot of the parameter. -/
def passes (parameter : ShapeParameter) (argument : Value) : Bool :=
  parameter.mode == .out || parameter.type.accepts argument

/-- The slot of the parameter once the check has passed an argument in it. -/
def passedSlot (parameter : ShapeParameter) (argument : Value) : Value :=
  if parameter.mode == .out then parameter.type.defaultValue else argument

end ShapeParameter

/-- Arguments that a shape rejects, with the fault that is reported and the slots that are left: their number is wrong,
or one of them does not fit behind others that the check has passed. -/
inductive CallableShape.Rejects (shape : CallableShape) : List Value → ArgumentFault → List Value → Prop
  | count {arguments : List Value} (differs : arguments.length ≠ shape.arity) :
      Rejects shape arguments (.count shape.arity arguments.length) arguments
  | type {front behind : List ShapeParameter} {parameter : ShapeParameter} {passed rest : List Value}
      {argument : Value} {name : String} (split : shape.parameters = front ++ parameter :: behind)
      (fits : List.Forall₂ (fun parameter argument => parameter.passes argument = true) front passed)
      (differs : parameter.passes argument = false) (sized : rest.length = behind.length)
      (named : parameter.type.requireName = .ok name) :
      Rejects shape (passed ++ argument :: rest) (.type (front.length + 1) name argument.typeNameOrNull)
        (List.zipWith ShapeParameter.passedSlot front passed ++ argument :: rest)

/-- A class with a method that sets its first parameter, which is `out`, to the second one. -/
def Module.copyingOut : Module where
  image :=
    { formatVersion := Image.currentVersion
      moduleName := "snippet"
      constants := []
      strings := []
      imports := []
      classes := [⟨"C", true, true, [0]⟩]
      methods := [⟨"M", 0, true, true, ⟨[⟨"x", .out, TypeNames.int⟩, ⟨"y", .value, TypeNames.int⟩], none⟩, 2,
        [.load 1, .store 0, .giveBackNothing]⟩] }
  imports := []
  maxDepth := 256

namespace BoundCallable

/-- The failure for an argument that does not fit: the one that names both types, or that of a type without a name. -/
def misfit (position : Nat) (parameter : ShapeParameter) (argument : Value) : Failure :=
  match parameter.type.requireName with
  | .ok name => .argument (.type position name argument.typeNameOrNull)
  | .error failure => failure

/-- A slot whose argument passes is left behind, and the check goes on. -/
theorem fillSlots_passes {parameter : ShapeParameter} {argument : Value} (passes : parameter.passes argument = true)
    (position : Nat) (parameters : List ShapeParameter) (arguments : List Value) :
    fillSlots position (parameter :: parameters) (argument :: arguments) =
      (parameter.passedSlot argument :: (fillSlots (position + 1) parameters arguments).1,
        (fillSlots (position + 1) parameters arguments).2) := by
  rw [fillSlots, ShapeParameter.passedSlot]
  cases isOut : parameter.mode == .out with
  | true => rfl
  | false =>
    have accepts : parameter.type.accepts argument = true := by simpa [ShapeParameter.passes, isOut] using passes
    rw [accepts]
    rfl

/-- The check ends in front of the first argument that does not pass, and leaves it and all behind it. -/
theorem fillSlots_differs {parameter : ShapeParameter} {argument : Value} (differs : parameter.passes argument = false)
    (position : Nat) (parameters : List ShapeParameter) (arguments : List Value) :
    fillSlots position (parameter :: parameters) (argument :: arguments) =
      (argument :: arguments, some (misfit position parameter argument)) := by
  obtain ⟨isOut, accepts⟩ : (parameter.mode == .out) = false ∧ parameter.type.accepts argument = false := by
    simpa [ShapeParameter.passes] using differs
  rw [fillSlots, isOut, accepts]
  rfl

/-- A fault of the check is that of the first argument that does not pass, and the slots in front of it are those that
the check has left. -/
theorem fillSlots_eq_fault_iff (position : Nat) (parameters : List ShapeParameter) (arguments slots : List Value)
    (fault : Failure) :
    fillSlots position parameters arguments = (slots, some fault) ↔
      ∃ front parameter behind passed argument rest,
        parameters = front ++ parameter :: behind ∧ arguments = passed ++ argument :: rest ∧
        List.Forall₂ (fun parameter argument => parameter.passes argument = true) front passed ∧
        parameter.passes argument = false ∧
        slots = List.zipWith ShapeParameter.passedSlot front passed ++ argument :: rest ∧
        fault = misfit (position + front.length) parameter argument := by
  constructor
  · intro filled
    induction parameters generalizing position arguments slots with
    | nil => cases filled
    | cons parameter parameters ih =>
      cases arguments with
      | nil => cases filled
      | cons argument arguments =>
        cases passes : parameter.passes argument with
        | true =>
          rcases isRest : fillSlots (position + 1) parameters arguments with ⟨left, found⟩
          rw [fillSlots_passes passes, isRest] at filled
          cases filled
          obtain ⟨front, first, behind, passed, wrong, rest, rfl, rfl, fits, differs, rfl, rfl⟩ :=
            ih (position + 1) arguments left isRest
          refine ⟨parameter :: front, first, behind, argument :: passed, wrong, rest, rfl, rfl, .cons passes fits,
            differs, rfl, ?_⟩
          rw [List.length_cons, Nat.add_assoc, Nat.add_comm 1]
        | false =>
          rw [fillSlots_differs passes] at filled
          cases filled
          exact ⟨[], parameter, parameters, [], argument, arguments, rfl, rfl, .nil, passes, rfl, rfl⟩
  · rintro ⟨front, parameter, behind, passed, argument, rest, rfl, rfl, fits, differs, rfl, rfl⟩
    induction fits generalizing position with
    | nil => exact fillSlots_differs differs position behind rest
    | cons passes _ ih =>
      rw [List.cons_append, List.cons_append, fillSlots_passes passes, ih, List.length_cons, Nat.add_assoc,
        Nat.add_comm 1]
      rfl

/-- A misfit is reported as a fault of an argument only with the name of the parameter's type. -/
theorem misfit_eq_argument_iff {position : Nat} {parameter : ShapeParameter} {argument : Value}
    {fault : ArgumentFault} :
    misfit position parameter argument = .argument fault ↔
      ∃ name, parameter.type.requireName = .ok name ∧ fault = .type position name argument.typeNameOrNull := by
  unfold misfit TypeDesc.requireName
  cases parameter.type.nameOrOpen with
  | ok name => simp [eq_comm]
  | error name => simp

/-- A call with the wrong number of arguments checks none of them. -/
theorem invoke_of_count {callable : BoundCallable} {arguments : List Value}
    (differs : arguments.length ≠ callable.shape.arity) (steps : Nat) (world : World) :
    (callable.invoke steps arguments).run world =
      (some ⟨.error (.argument (.count callable.shape.arity arguments.length)), arguments⟩, world) := by
  unfold invoke
  dsimp only
  rw [if_pos (bne_iff_ne.2 differs)]
  rfl

/-- A call with the right number of arguments gives the fault of the check, and does nothing else. -/
theorem invoke_of_fault {callable : BoundCallable} {arguments slots : List Value} {fault : Failure}
    (fits : arguments.length = callable.shape.arity)
    (isFault : fillSlots 1 callable.shape.parameters arguments = (slots, some fault)) (steps : Nat) (world : World) :
    (callable.invoke steps arguments).run world = (some ⟨.error fault, slots⟩, world) := by
  have isRight : ¬(arguments.length != callable.shape.arity) = true := by simpa using fits
  unfold invoke
  dsimp only
  rw [if_neg isRight, isFault]
  rfl

/-- A call with the right number of arguments is rejected for them only by the check: a run fails with an exception. -/
theorem fault_of_invoke {callable : BoundCallable} {steps : Nat} {arguments slots : List Value}
    {fault : ArgumentFault} {world after : World} (fits : arguments.length = callable.shape.arity)
    (rejected : (callable.invoke steps arguments).run world = (some ⟨.error (.argument fault), slots⟩, after)) :
    after = world ∧ fillSlots 1 callable.shape.parameters arguments = (slots, some (.argument fault)) := by
  rcases isFilled : fillSlots 1 callable.shape.parameters arguments with ⟨left, _ | found⟩
  · have isRight : ¬(arguments.length != callable.shape.arity) = true := by simpa using fits
    unfold invoke at rejected
    dsimp only at rejected
    rw [if_neg isRight, isFilled] at rejected
    rcases isCall : (callable.entry.invoke steps left).run world with ⟨_ | ⟨_ | _, _⟩, behind⟩
    all_goals
      rw [StateT.run_bind, isCall] at rejected
      cases rejected
  · rw [invoke_of_fault fits isFilled] at rejected
    cases rejected
    exact ⟨rfl, rfl⟩

/-- A call is rejected for its arguments exactly if their number is wrong or one of them does not fit. It changes
nothing in the world then, and the slots are those that were given, but for the `out` slots in front of the argument
that does not fit. -/
theorem invoke_eq_argument_iff (callable : BoundCallable) (steps : Nat) (arguments slots : List Value)
    (fault : ArgumentFault) (world after : World) :
    (callable.invoke steps arguments).run world = (some ⟨.error (.argument fault), slots⟩, after) ↔
      after = world ∧ callable.shape.Rejects arguments fault slots := by
  constructor
  · intro rejected
    by_cases fits : arguments.length = callable.shape.arity
    · obtain ⟨same, isFault⟩ := fault_of_invoke fits rejected
      obtain ⟨front, parameter, behind, passed, argument, rest, split, rfl, passes, differs, rfl, isMisfit⟩ :=
        (fillSlots_eq_fault_iff ..).1 isFault
      obtain ⟨name, named, rfl⟩ := misfit_eq_argument_iff.1 isMisfit.symm
      have sized : rest.length = behind.length := by
        rw [CallableShape.arity, split, List.length_append, List.length_append, passes.length_eq] at fits
        simpa using fits
      refine ⟨same, ?_⟩
      rw [Nat.add_comm]
      exact .type split passes differs sized named
    · rw [invoke_of_count fits] at rejected
      cases rejected
      exact ⟨rfl, .count fits⟩
  · rintro ⟨rfl, rejects⟩
    cases rejects with
    | count differs => exact invoke_of_count differs steps after
    | @type front behind parameter passed rest argument name split passes differs sized named =>
      have fits : (passed ++ argument :: rest).length = callable.shape.arity := by
        rw [CallableShape.arity, split, List.length_append, List.length_append, passes.length_eq, List.length_cons,
          List.length_cons, sized]
      have isMisfit : misfit (1 + front.length) parameter argument =
          .argument (.type (front.length + 1) name argument.typeNameOrNull) :=
        misfit_eq_argument_iff.2 ⟨name, named, by rw [Nat.add_comm]⟩
      have isFault := (fillSlots_eq_fault_iff 1 callable.shape.parameters (passed ++ argument :: rest) _ _).2
        ⟨front, parameter, behind, passed, argument, rest, split, rfl, passes, differs, rfl, rfl⟩
      exact invoke_of_fault fits (isMisfit ▸ isFault) steps after

/-- A rejected call may leave other slots than it was given: here the second argument does not fit, and the slot in
front of it, of an `out` parameter, is already set. -/
theorem not_invoke_keeps_slots :
    ∃ entry callable,
      Module.copyingOut.resolve "" "C" "M" = .ok entry ∧
      entry.bind ⟨[⟨.out, .int⟩, ⟨.value, .int⟩], none⟩ = .ok callable ∧
      (callable.invoke 3 [.text "x", .text "y"]).run .empty =
        (some ⟨.error (.argument (.type 2 TypeNames.int TypeNames.string)), [.int 0, .text "y"]⟩, .empty) ∧
      [.int 0, .text "y"] ≠ [Value.text "x", .text "y"] := by
  refine ⟨_, _, rfl, rfl, rfl, ?_⟩
  simp

end BoundCallable

end Snippet
