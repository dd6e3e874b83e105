import Snippet.Proofs.Emit.Characters
import Snippet.Proofs.Machine.Exposed
import Snippet.Proofs.Passing.Calls
import Snippet.Proofs.Passing.Unfolding

/-!
Copying in and out is passing by reference where nothing is aliased: a call from outside of compiled code that gives a
result is an evaluation in which `ref`, `out` and `in` parameters denote the variables of the caller. Main statement:
`emit_passesByReference`.
-/

namespace Snippet

/-- A call from outside that gives a result is a run of the machine, with an argument for each parameter. -/
theorem Module.of_callFromOutside {module : Module} {steps : Nat} {index : UInt32} {arguments : List Value}
    {world final : World} {result : Value} {last : Frame}
    (called : (module.callFromOutside steps index arguments).inWorld world = (.ok (some (result, last)), final)) :
    ∃ entry, module.method index = .ok entry ∧ module.image.methods[index.toNat]? = some entry ∧
      arguments.length = entry.signature.parameters.length ∧
      (module.run steps (.start (.enter entry arguments))).inWorld world = (.ok (some (result, last)), final) := by
  unfold callFromOutside at called
  obtain ⟨entry, middle, isMethod, rest⟩ := Action.of_bind_eq_ok called
  obtain ⟨found, rfl⟩ := Action.of_lift_eq_ok isMethod
  dsimp only at rest
  split at rest
  · cases rest
  · next equal =>
    exact ⟨entry, found, getElem?_of_method found, by simpa using equal, rest⟩

/-! ### Calls from outside -/

/-- What a call from outside hands over: every argument, as a variable of the caller unless it is passed by value. -/
def TypedMethod.handedFromOutside (method : TypedMethod) (arguments : List Value) : List Handed :=
  (method.parameters.zip arguments).zipIdx.map fun ((parameter, argument), number) =>
    ⟨if parameter.mode = .value then .value argument else .cell number, argument⟩

namespace TypedMethod

variable {method : TypedMethod} {arguments : List Value}

theorem getElem?_handedFromOutside {position : Nat} {parameter : TypedParameter} {argument : Value}
    (isParameter : method.parameters[position]? = some parameter) (isArgument : arguments[position]? = some argument) :
    (method.handedFromOutside arguments)[position]? =
      some ⟨if parameter.mode = .value then .value argument else .cell position, argument⟩ := by
  have isPair : (method.parameters.zip arguments)[position]? = some (parameter, argument) :=
    List.getElem?_zip_eq_some.2 ⟨isParameter, isArgument⟩
  rw [handedFromOutside, List.getElem?_map, List.getElem?_zipIdx, isPair, Nat.zero_add]
  rfl

theorem of_getElem?_handedFromOutside {position : Nat} {one : Handed}
    (found : (method.handedFromOutside arguments)[position]? = some one) :
    ∃ parameter argument, method.parameters[position]? = some parameter ∧ arguments[position]? = some argument ∧
      one = ⟨if parameter.mode = .value then .value argument else .cell position, argument⟩ := by
  rw [handedFromOutside, List.getElem?_map, List.getElem?_zipIdx, Nat.zero_add, Option.map_map] at found
  obtain ⟨⟨parameter, argument⟩, isPair, rfl⟩ := Option.map_eq_some_iff.1 found
  obtain ⟨isParameter, isArgument⟩ := List.getElem?_zip_eq_some.1 isPair
  exact ⟨parameter, argument, isParameter, isArgument, rfl⟩

/-- A cell that a call from outside hands over is that of its own argument. -/
theorem eq_of_handedFromOutside {position cell : Nat} {value : Value}
    (found : (method.handedFromOutside arguments)[position]? = some ⟨.cell cell, value⟩) :
    cell = position ∧ ∃ parameter, method.parameters[position]? = some parameter ∧ parameter.mode ≠ .value := by
  obtain ⟨parameter, argument, isParameter, -, isOne⟩ := of_getElem?_handedFromOutside found
  by_cases isValue : parameter.mode = .value
  · rw [if_pos isValue] at isOne
    cases isOne
  · rw [if_neg isValue] at isOne
    cases isOne
    exact ⟨rfl, parameter, isParameter, isValue⟩

variable (fits : arguments.length = method.parameters.length)

include fits

theorem values_handedFromOutside : (method.handedFromOutside arguments).map (·.value) = arguments := by
  rw [handedFromOutside, List.map_map]
  have isSecond : (fun pair : (TypedParameter × Value) × Nat => pair.1.2) = Prod.snd ∘ Prod.fst := rfl
  show List.map (fun pair : (TypedParameter × Value) × Nat => pair.1.2) _ = arguments
  rw [isSecond, ← List.map_map, List.zipIdx_map_fst, List.map_snd_zip (Nat.le_of_eq fits)]

/-- A method receives what a call from outside hands over. -/
theorem receives_handedFromOutside : method.Receives (method.handedFromOutside arguments) arguments.toArray where
  length := by simp [handedFromOutside, fits]
  suits := by
    intro position parameter one isParameter found
    obtain ⟨_, argument, isParameter', isArgument, rfl⟩ := of_getElem?_handedFromOutside found
    cases isParameter.symm.trans isParameter'
    by_cases isValue : parameter.mode = .value
    · rw [if_pos isValue]
      exact .value (by rw [isValue]; rfl)
    · rw [if_neg isValue]
      refine .cell isValue ?_ fun _ => ?_
      · rw [List.size_toArray]
        exact (List.getElem?_eq_some_iff.1 isArgument).1
      · rw [List.getElem?_toArray, isArgument]
  apart := by
    intro first second cell value value' parameter isFirst isSecond isOther
    obtain ⟨rfl, -⟩ := eq_of_handedFromOutside isFirst
    obtain ⟨isSame, -⟩ := eq_of_handedFromOutside isSecond
    exact absurd isSame isOther

/-- Behind a call from outside the variables of the caller hold what is copied out. -/
theorem take_cells_eq {assigned : Nat → Prop} {left : Leaving} {world : World} {after : Situation} {last : Frame}
    (isMethod : last.method.signature = method.signature) (isSlots : last.slots = left.slots)
    (shows : left.Shows method assigned (method.handedFromOutside arguments) [] ⟨arguments.toArray, world, []⟩ after) :
    after.cells.toList.take arguments.length = last.argumentsAfter arguments := by
  have grows := shows.grows
  rw [List.size_toArray] at grows
  have fits' : arguments.length = last.method.signature.parameters.length := by
    rw [isMethod, signature, List.length_map, fits]
  refine List.ext_getElem? fun position => ?_
  by_cases inside : position < arguments.length
  · have isParameter := List.getElem?_eq_getElem (fits ▸ inside)
    have isArgument := List.getElem?_eq_getElem inside
    generalize method.parameters[position] = parameter at isParameter
    generalize arguments[position] = argument at isArgument
    have isSignature : last.method.signature.parameters[position]? =
        some ⟨parameter.name, parameter.mode, parameter.type.fullName⟩ := by
      rw [isMethod, signature, List.getElem?_map, isParameter]
      rfl
    rw [Frame.getElem?_argumentsAfter isSignature, isArgument, List.getElem?_take, if_pos inside,
      Array.getElem?_toList, isSlots, Option.map_some]
    have found := getElem?_handedFromOutside isParameter isArgument
    cases writesBack : parameter.mode.writesBack with
    | true =>
      have notValue : parameter.mode ≠ .value := fun isValue => by rw [isValue] at writesBack; cases writesBack
      rw [if_neg notValue] at found
      have isFinal := shows.finals found isParameter writesBack
      rw [Array.getElem?_eq_getElem (Nat.lt_of_lt_of_le inside grows)] at isFinal ⊢
      rw [if_pos rfl, Array.getD_eq_getD_getElem?, ← isFinal]
      rfl
    | false =>
      rw [if_neg Bool.noConfusion, shows.spares (by rwa [List.size_toArray])]
      · rw [List.getElem?_toArray, isArgument]
      · intro other value parameter' found' isParameter'
        obtain ⟨rfl, _, isParameter'', notValue⟩ := eq_of_handedFromOutside found'
        cases isParameter'.symm.trans isParameter''
        cases isParameter.symm.trans isParameter'
        left
        cases isMode : parameter.mode with
        | input => rfl
        | value => exact absurd isMode notValue
        | ref | out =>
          rw [isMode] at writesBack
          cases writesBack
  · rw [List.getElem?_eq_none (by rw [List.length_take]; omega),
      List.getElem?_eq_none (by rw [Frame.length_argumentsAfter fits']; omega)]

end TypedMethod

/-! ### Compiled programs -/

/-- The calls of the host in a call from outside, in order. -/
def Module.hostCallsFromOutside (module : Module) (steps : Nat) (index : UInt32) (arguments : List Value)
    (world : World) : List HostCall :=
  match module.method index with
  | .ok method => module.hostCalls steps (.start (.enter method arguments)) world
  | .error _ => []

/-- A call from outside of a program in whose calls nothing is aliased is one by reference. -/
theorem TypedProgram.LoadsTo.invoke_eq {program : TypedProgram} {references libraries : LibrarySet} {image : Image}
    {module : Module} (loads : program.LoadsTo references libraries image module) (apart : program.PassesApart)
    {steps : Nat} {index : UInt32} {arguments : List Value} {world final : World} {result : Value} {last : Frame}
    (called : (module.callFromOutside steps index arguments).inWorld world = (.ok (some (result, last)), final))
    {most : Nat} (enough : steps < most) :
    program.invoke libraries most index.toNat arguments world = some ⟨result, last.argumentsAfter arguments, final,
      module.hostCallsFromOutside steps index arguments world⟩ := by
  obtain ⟨entry, isEntry, found, count, ran⟩ := Module.of_callFromOutside called
  obtain ⟨maxDepth, loaded⟩ := loads.loaded
  obtain ⟨isImage, -⟩ := Module.of_load loaded
  rw [isImage] at found
  obtain ⟨method, isMethod, fits, code⟩ := loads.compiles.compiled_at found
  have countMethod : arguments.length = method.parameters.length := by
    rw [count, code.signature, TypedMethod.signature, List.length_map]
  obtain ⟨most, rfl⟩ : ∃ fewer, most = fewer + 1 := ⟨most - 1, by omega⟩
  let running : Running := ⟨index.toNat, method, entry, [], []⟩
  have isOf : running.Of program image := ⟨isMethod, found⟩
  have starts : Machine.start (.enter entry arguments) =
      running.machine 0 ⟨method.start arguments, [], [], world, []⟩ := by
    refine Machine.eq_of ?_ rfl rfl
    show Frame.enter entry arguments = _
    rw [Frame.enter, code.slotCount]
    rfl
  have goes : running.Goes program image module
      ⟨result, last, final, module.hostCalls steps (.start (.enter entry arguments)) world⟩ steps 0
      ⟨method.start arguments, [], [], world, []⟩ := by
    refine ⟨?_, _, starts ▸ Module.ends_of_run ran, rfl⟩
    have follows : (Watched.mk (.start (.enter entry arguments)) ⟨index.toNat, []⟩ []).Follows program image :=
      .start found arguments
    rw [starts] at follows
    exact follows
  obtain ⟨value, after, rest, isLeft, -, isResult, isSlots, isLast, isFinal, areCalls⟩ :=
    Running.Unfolds.whole loads isOf (isOf.unfolds loads (Nat.le_of_lt_succ enough) method.block) (Nat.le_refl steps)
      goes
  have receives := TypedMethod.receives_handedFromOutside countMethod
  rw [← TypedMethod.values_handedFromOutside countMethod] at isLeft
  have refers : (program.run libraries (most + 1)).Refers program.methods program.Assigns
      (program.call libraries (most + 1)) := (run_refers loads.compiles.fits apart (most + 1)).2
  rcases @refers _ _ _ [] ⟨arguments.toArray, world, []⟩ _ isMethod receives isLeft with
    isLow | ⟨behind, evaluates, shows⟩
  · exact absurd isLow (Nat.not_lt_zero _)
  · have cells := TypedMethod.take_cells_eq countMethod (isLast ▸ code.signature) isSlots shows
    have isWorld : behind.world = final := shows.world.trans isFinal.symm
    have isCalls : behind.calls = module.hostCallsFromOutside steps index arguments world := by
      rw [Module.hostCallsFromOutside, isEntry]
      exact shows.calls.trans areCalls.symm
    rw [TypedMethod.handedFromOutside, List.map_map] at evaluates
    rw [invoke, isMethod]
    refine (congrArg (Option.bind · _) evaluates).trans ?_
    rw [← cells, ← isWorld, ← isCalls]
    exact congrArg (fun result => some (ReferenceOutcome.mk result _ _ _)) isResult.symm

/-- Copying in and out is passing by reference where nothing is aliased. Wherever a program that is compiled from a
source text is called, a call that gives a result gives the one that it gives if `ref`, `out` and `in` parameters denote
the variables of the caller; the variables of the caller, all lists and objects behind it, and the calls of the host on
the way are the same. -/
theorem emit_passesByReference {source moduleName : String} {references : LibrarySet} {policy : WarningPolicy}
    {image : Image} (emitted : (emit source references policy moduleName).image = some image) {unit : CompilationUnit}
    (isUnit : CompilationUnit.ofSource source = .ok unit) (apart : (unit.check references).program.PassesApart)
    {libraries : LibrarySet} {maxDepth : Nat} {module : Module}
    (loaded : Module.load image libraries maxDepth = .ok module) {steps : Nat} {index : UInt32}
    {arguments after : List Value} {world final : World} {result : Value}
    (invoked : (module.invoke steps index arguments).run world = (some ⟨.ok result, after⟩, final)) {most : Nat}
    (enough : steps < most) :
    (unit.check references).program.invoke libraries most index.toNat arguments world =
      some ⟨result, after, final, module.hostCallsFromOutside steps index arguments world⟩ := by
  obtain ⟨_, isUnit', noError, noFlowError, done⟩ := exists_unit_of_emit emitted
  cases isUnit.symm.trans isUnit'
  have loads := CompilationUnit.loadsTo noError noFlowError done loaded
  have isCall : (module.callFromOutside steps index arguments).run.run world =
      (module.callFromOutside steps index arguments).inWorld world := rfl
  rw [Module.invoke, StateT.run_bind, isCall] at invoked
  rcases called : (module.callFromOutside steps index arguments).inWorld world with
    ⟨exception | _ | ⟨found, last⟩, behind⟩
  all_goals
    rw [called] at invoked
    cases invoked
  exact loads.invoke_eq apart called enough

/-- A source text in which a method passes its parameter on by reference, and then reads it. -/
def passingOn : String :=
  "class C { static int S(ref int x) { x = x + 1; return x; } static int M(ref int a) { return S(ref a) + a; } }"

/-- The image of the text in which a method passes its parameter on. -/
def Image.passingOn : Image :=
  ⟨Image.currentVersion, "snippet", [.int 1], [], [], [⟨"C", false, false, [0, 1]⟩],
    [⟨"S", 0, false, true, ⟨[⟨"x", .ref, TypeNames.int⟩], some TypeNames.int⟩, 1,
        [.load 0, .const 0, .operate .add, .store 0, .load 0, .giveBack]⟩,
      ⟨"M", 0, false, true, ⟨[⟨"a", .ref, TypeNames.int⟩], some TypeNames.int⟩, 1,
        [.load 0, .call 0, .store 0, .load 0, .operate .add, .giveBack]⟩]⟩

/-- The sum of a variable that a call changes and of the result of the call. -/
theorem emit_passesByReference_passingOn : ∃ unit, CompilationUnit.ofSource passingOn = .ok unit ∧
    (unit.check .empty).program.PassesApart ∧
    (unit.check .empty).program.invoke .empty 13 1 [.int 5] .empty = some ⟨.int 12, [.int 6], .empty, []⟩ := by
  have emitted : (emit passingOn .empty .default "snippet").image = some .passingOn := by
    rw [passingOn, emit_ofList]
    decide +kernel
  have once : (CompilationUnit.ofSource passingOn).toOption.any
      (fun unit => decide (unit.check .empty).program.PassesOnce) = true := by
    rw [passingOn, CompilationUnit.ofSource_ofList]
    decide +kernel
  have loaded : Module.load .passingOn .empty 256 = .ok ⟨.passingOn, [], 256⟩ := rfl
  have invoked : (Module.invoke ⟨.passingOn, [], 256⟩ 12 1 [.int 5]).run .empty =
      (some ⟨.ok (.int 12), [.int 6]⟩, .empty) := rfl
  obtain ⟨unit, isUnit, -⟩ := exists_unit_of_emit emitted
  rw [isUnit] at once
  have apart := TypedProgram.PassesOnce.passesApart (of_decide_eq_true once)
  exact ⟨unit, isUnit, apart, emit_passesByReference emitted isUnit apart loaded invoked (by decide)⟩

end Snippet
