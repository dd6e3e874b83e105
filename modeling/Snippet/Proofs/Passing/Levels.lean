import Snippet.Proofs.Passing.Unfolding
import Snippet.Proofs.Stack.Expression
import Snippet.Proofs.Typing.Member

/-!
How high the stack stands behind a run of code: never higher than the types say. Where an operand has no value it stands
lower, and everything behind stays too low. Main statement: `TypedExpr.rises`.
-/

namespace Snippet

/-! ### Commands -/

namespace Stack

theorem pop_gives (stack : Stack) :
    (liftM stack.pop : Action (Value × Stack)).Gives fun popped => popped.2.length + 1 = stack.length :=
  Action.gives_lift fun popped done => by
    cases stack with
    | nil => cases done
    | cons value rest =>
      cases done
      rfl

theorem popBool_gives (stack : Stack) :
    (liftM stack.popBool : Action (Bool × Stack)).Gives fun popped => popped.2.length + 1 = stack.length :=
  Action.gives_lift fun popped done => by
    cases stack with
    | nil => cases done
    | cons value rest =>
      cases value with
      | bool truth =>
        cases done
        rfl
      | _ => cases done

theorem length_popMany (stack : Stack) {count : Nat} {popped : List Value × Stack}
    (done : stack.popMany count = .ok popped) : popped.2.length + count = stack.length := by
  unfold popMany at done
  split at done
  · cases done
  · next enough =>
    cases done
    rw [List.length_take] at enough
    rw [List.length_drop]
    omega

theorem popMany_gives (stack : Stack) (count : Nat) :
    (liftM (stack.popMany count) : Action (List Value × Stack)).Gives fun popped =>
      popped.2.length + count = stack.length :=
  Action.gives_lift fun _ => stack.length_popMany

end Stack

/-- A member without a result gives none. -/
theorem BuiltinMember.apply_gives (member : BuiltinMember) (receiver : Value) (arguments : List Value) :
    (member.apply receiver arguments).Gives fun result =>
      result.toList.length ≤ if member.hasResult then 1 else 0 := by
  cases hasResult : member.hasResult with
  | true =>
    intro world result after _
    cases result with
    | none => exact Nat.zero_le 1
    | some value => exact Nat.le_refl 1
  | false =>
    have isList : member = .listAdd ∨ member = .listClear := by
      cases member <;> first | exact .inl rfl | exact .inr rfl | cases hasResult
    rcases isList with rfl | rfl
    all_goals
      cases receiver with
      | list => exact Action.gives_bind fun _ => Action.gives_pure (Nat.le_refl 0)
      | _ => exact Action.gives_throw _ _

namespace Command

/-- How much higher the stack stands behind a local command. -/
def rise : Command → Int
  | const _ | load _ | duplicate | newList _ | newObject _ => 1
  | store _ | drop | operate _ | storeField _ => -1
  | hostCall function => (function.result.toList.length : Int) - function.parameters.length
  | builtin member => (if member.hasResult then 1 else 0) - (member.arity + 1)
  | _ => 0

/-- How much higher the stack stands behind local commands. -/
def riseOfAll : List Command → Int
  | [] => 0
  | first :: rest => first.rise + riseOfAll rest

/-- Whether a command leaves all slots as they are. -/
def keepsSlots : Command → Bool
  | store _ => false
  | _ => true

/-- A local command leaves the stack as high as it says, or lower. Only a store changes a slot. -/
theorem perform_gives (single : Command) (isLocal : single.isLocal = true) (libraries : LibrarySet)
    (slots : Array Value) (stack : Stack) :
    (single.perform libraries slots stack).Gives fun after =>
      (after.2.length : Int) ≤ stack.length + single.rise ∧ (single.keepsSlots = true → after.1 = slots) := by
  open Snippet.Action in
  cases single with
  | const value => exact gives_pure ⟨by simp [rise], fun _ => rfl⟩
  | load slot =>
    rw [perform]
    split
    · exact gives_pure ⟨by simp [rise], fun _ => rfl⟩
    · exact gives_throw _ _
  | store slot =>
    refine (Stack.pop_gives stack).bind fun popped isPopped => ?_
    dsimp only
    split
    · exact gives_throw _ _
    · refine gives_pure ⟨?_, fun isKept => by cases isKept⟩
      simp only [rise]
      omega
  | duplicate =>
    refine (Stack.pop_gives stack).bind fun popped isPopped => gives_pure ⟨?_, fun _ => rfl⟩
    simp only [rise, List.length_cons]
    omega
  | drop =>
    refine (Stack.pop_gives stack).bind fun popped isPopped => gives_pure ⟨?_, fun _ => rfl⟩
    simp only [rise]
    omega
  | operate operation =>
    refine (Stack.pop_gives stack).bind fun popped isPopped => ?_
    refine (Stack.pop_gives popped.2).bind fun popped' isPopped' => gives_bind fun value =>
      gives_pure ⟨?_, fun _ => rfl⟩
    simp only [rise, List.length_cons]
    omega
  | negate | cast =>
    refine (Stack.pop_gives stack).bind fun popped isPopped => gives_bind fun value => gives_pure ⟨?_, fun _ => rfl⟩
    simp only [rise, List.length_cons]
    omega
  | not =>
    refine (Stack.popBool_gives stack).bind fun popped isPopped => gives_pure ⟨?_, fun _ => rfl⟩
    simp only [rise, List.length_cons]
    omega
  | convert conversion =>
    refine (Stack.pop_gives stack).bind fun popped isPopped => gives_pure ⟨?_, fun _ => rfl⟩
    simp only [rise, List.length_cons]
    omega
  | hostCall function =>
    rw [perform]
    split
    · next run arity hasResult isLinked =>
      obtain ⟨found, ⟨-, -, -, fits⟩, isFunction⟩ := FunctionImport.of_link isLinked
      cases isFunction
      obtain ⟨areNames, sameResult⟩ := HostFunction.fits_iff.1 fits
      have pushed (value : Value) : (if found.result.isSome then some value else none).toList.length =
          function.result.toList.length := by
        have sameCount := congrArg Option.isSome sameResult
        rw [Option.isSome_map, Option.isSome_map] at sameCount
        rw [Option.length_toList, Option.length_toList, sameCount]
        cases function.result.isSome <;> rfl
      refine (Stack.popMany_gives stack _).bind fun popped isPopped => gives_bind fun value =>
        gives_pure ⟨?_, fun _ => rfl⟩
      rw [Candidate.length_of_mapM_fullName? areNames] at isPopped
      simp only [rise, List.length_append, pushed]
      omega
    · exact gives_throw _ _
  | builtin member =>
    refine (Stack.popMany_gives stack _).bind fun popped isPopped => ?_
    refine (Stack.pop_gives popped.2).bind fun popped' isPopped' => ?_
    refine (member.apply_gives popped'.1 popped.1).bind fun result isResult => gives_pure ⟨?_, fun _ => rfl⟩
    cases hasResult : member.hasResult with
    | true =>
      rw [hasResult, if_pos rfl] at isResult
      simp only [rise, hasResult, List.length_append, if_pos]
      omega
    | false =>
      rw [hasResult, if_neg Bool.false_ne_true] at isResult
      simp only [rise, hasResult, List.length_append, Bool.false_eq_true, if_false]
      omega
  | newList element => exact gives_bind fun value => gives_pure ⟨by simp [rise], fun _ => rfl⟩
  | newObject type =>
    rw [perform]
    split
    · exact gives_bind fun value => gives_pure ⟨by simp [rise], fun _ => rfl⟩
    · exact gives_throw _ _
  | loadField name =>
    refine (Stack.pop_gives stack).bind fun popped isPopped => gives_bind fun reference => gives_bind fun store => ?_
    split
    · refine gives_pure ⟨?_, fun _ => rfl⟩
      simp only [rise, List.length_cons]
      omega
    · exact gives_throw _ _
  | storeField name =>
    refine (Stack.pop_gives stack).bind fun popped isPopped => ?_
    refine (Stack.pop_gives popped.2).bind fun popped' isPopped' => gives_bind fun reference =>
      gives_bind fun store => ?_
    dsimp only
    split
    · exact gives_throw _ _
    · refine gives_bind fun _ => gives_pure ⟨?_, fun _ => rfl⟩
      simp only [rise, List.length_cons]
      omega
  | call | giveBack | giveBackNothing => cases isLocal

/-- A local command goes on normally. What is loaded has a value. -/
theorem of_run {single : Command} (isLocal : single.isLocal = true) {site : Site} {activation : Activation}
    {result : Completion × Activation} (ran : single.run site activation = some result) :
    ∃ after, single.runLocal site activation = some after ∧ result = (.next, after) ∧
      ∀ slot : Nat, single = .load slot → site.lacks activation.stored slot = false := by
  have ofMap (done : (single.runLocal site activation).map (Completion.next, ·) = some result) :
      ∃ after, single.runLocal site activation = some after ∧ result = (.next, after) := by
    obtain ⟨after, isAfter, rfl⟩ := Option.map_eq_some_iff.1 done
    exact ⟨after, isAfter, rfl⟩
  cases single with
  | load slot =>
    rw [run] at ran
    split at ran
    · cases ran
    · next hasValue =>
      obtain ⟨after, isAfter, isResult⟩ := ofMap ran
      refine ⟨after, isAfter, isResult, fun other isSlot => ?_⟩
      cases isSlot
      exact Bool.eq_false_iff.2 hasValue
  | call | giveBack | giveBackNothing => cases isLocal
  | _ =>
    obtain ⟨after, isAfter, isResult⟩ := ofMap ran
    exact ⟨after, isAfter, isResult, fun _ isLoad => by cases isLoad⟩

/-- A local command leaves the stack as high as it says, or lower. Only a store is noted. -/
theorem of_runLocal {single : Command} (isLocal : single.isLocal = true) {site : Site}
    {activation after : Activation} (ran : single.runLocal site activation = some after) :
    (after.stack.length : Int) ≤ activation.stack.length + single.rise ∧
      (single.keepsSlots = true → after.slots = activation.slots ∧ after.stored = activation.stored) := by
  unfold runLocal at ran
  split at ran
  · next slots stack world performed =>
    cases ran
    obtain ⟨height, areSlots⟩ := single.perform_gives isLocal _ _ _ performed
    refine ⟨height, fun isKept => ⟨areSlots isKept, ?_⟩⟩
    cases single <;> first | rfl | cases isKept
  · cases ran

end Command

/-! ### Blocks -/

/-- The final values of a method are as many as its parameters that are written back. -/
theorem TypedMethod.length_finals (method : TypedMethod) (slots : Array Value) :
    (method.finals slots).length = (method.parameters.filter (·.mode.writesBack)).length := by
  have positions (parameters : List SignatureParameter) (start : Nat) :
      ((parameters.zipIdx start).filter (·.1.mode.writesBack)).length =
        (parameters.filter (·.mode.writesBack)).length := by
    induction parameters generalizing start with
    | nil => rfl
    | cons first rest ih =>
        rw [List.zipIdx_cons, List.filter_cons, List.filter_cons]
        split
        · exact congrArg (· + 1) (ih _)
        · exact ih _
  rw [finals, List.length_map, positions, signature, List.filter_map, List.length_map]
  rfl

/-- A call of a method takes its arguments off the stack. -/
theorem Site.of_runCall {site : Site} {index : Nat} {activation after : Activation}
    (ran : site.runCall index activation = some after) :
    ∃ method arguments stack left, site.methods[index]? = some method ∧
      activation.stack.popMany method.parameters.length = .ok (arguments, stack) ∧
      site.call index arguments stack activation.world activation.calls = some left ∧
      after = { activation with
        stack := Stack.pushAll (left.result.toList ++ left.stack) (method.finals left.slots)
        world := left.world, calls := left.calls } := by
  obtain ⟨method, found, ran⟩ := Option.bind_eq_some_iff.1 ran
  obtain ⟨⟨arguments, stack⟩, popped, ran⟩ := Option.bind_eq_some_iff.1 ran
  obtain ⟨left, called, ran⟩ := Option.bind_eq_some_iff.1 ran
  refine ⟨method, arguments, stack, left, found, ?_, called, (Option.some.inj ran).symm⟩
  cases isPopped : activation.stack.popMany method.parameters.length with
  | error exception =>
    rw [isPopped] at popped
    cases popped
  | ok result =>
    rw [isPopped] at popped
    cases popped
    rfl

namespace Calling

/-- Whether calls leave no more on the stack than their results, and have a result if their method has one. -/
def Levels (calling : Calling) (methods : List TypedMethod) : Prop :=
  ∀ ⦃index method arguments stack world calls left⦄, methods[index]? = some method →
    calling index arguments stack world calls = some left →
    left.stack.length ≤ stack.length ∧ left.result.toList.length = method.result.pushed.length

end Calling

namespace Block

variable (site : Site) (most : Nat)

/-- Whether a block goes on normally, with the stack at most so much higher. -/
def Rises (block : Block) (rise : Int) : Prop :=
  ∀ ⦃activation result⦄, block.run site most activation = some result →
    result.1 = .next ∧ (result.2.stack.length : Int) ≤ activation.stack.length + rise

variable {site most} {first second body : Block} {rise more : Int}

namespace Rises

theorem weaken (rises : first.Rises site most rise) (isLess : rise ≤ more) : first.Rises site most more := by
  intro activation result ran
  obtain ⟨isNext, height⟩ := rises ran
  exact ⟨isNext, by omega⟩

theorem append (head : first.Rises site most rise) (tail : second.Rises site most more) :
    (first ++ second).Rises site most (rise + more) := by
  intro activation result ran
  obtain ⟨middle, first, second⟩ := Activation.of_follow_next (fun _ ran => (head ran).1) ran
  have height := (head first).2
  obtain ⟨isNext, height'⟩ := tail second
  dsimp only at height
  exact ⟨isNext, by omega⟩

theorem empty : Block.empty.Rises site most 0 := by
  intro activation result ran
  cases ran
  exact ⟨rfl, by simp⟩

theorem scope (extent : Extent) (inner : body.Rises site most rise) : (scope extent body).Rises site most rise :=
  fun _ _ ran => inner ran

theorem command {single : Command} (isLocal : single.isLocal = true) :
    (Block.command single).Rises site most single.rise := by
  intro activation result ran
  obtain ⟨after, isAfter, rfl, -⟩ := Command.of_run isLocal ran
  exact ⟨rfl, (Command.of_runLocal isLocal isAfter).1⟩

theorem ofList {commands : List Command} (areLocal : ∀ single ∈ commands, single.isLocal = true) :
    (Block.ofList commands).Rises site most (Command.riseOfAll commands) := by
  induction commands with
  | nil => exact .empty
  | cons first rest ih =>
      rw [List.forall_mem_cons] at areLocal
      exact (command areLocal.1).append (ih areLocal.2)

/-- A test takes a truth value off the stack. -/
theorem popTruth_stack {activation after : Activation} {truth : Bool}
    (popped : activation.popTruth = some (truth, after)) : after.stack.length + 1 = activation.stack.length := by
  unfold Activation.popTruth at popped
  split at popped
  · next isStack =>
    cases popped
    rw [isStack]
    rfl
  · cases popped

theorem guard (truth : Bool) (inner : body.Rises site most 0) : (guard truth body).Rises site most (-1) := by
  intro activation result ran
  rw [Block.run] at ran
  split at ran
  · cases ran
  · next found after popped =>
    have height := popTruth_stack popped
    split at ran
    · obtain ⟨isNext, height'⟩ := inner ran
      exact ⟨isNext, by omega⟩
    · cases ran
      exact ⟨rfl, by dsimp only; omega⟩

theorem choose (onTrue : first.Rises site most rise) (onFalse : second.Rises site most rise) :
    (choose first second).Rises site most (rise - 1) := by
  intro activation result ran
  rw [Block.run] at ran
  split at ran
  · cases ran
  · next popped =>
    have height := popTruth_stack popped
    obtain ⟨isNext, height'⟩ := onTrue ran
    exact ⟨isNext, by omega⟩
  · next popped =>
    have height := popTruth_stack popped
    obtain ⟨isNext, height'⟩ := onFalse ran
    exact ⟨isNext, by omega⟩

/-- The final values of a call leave the stack. -/
theorem writeBack (passed : List TypedArgument) :
    (Block.writeBack passed).Rises site most (-(Emit.writtenSlots passed).length) := by
  have stores (slots : List Nat) : (Block.ofList (slots.map .store)).Rises site most (-slots.length) := by
    induction slots with
    | nil => exact .empty
    | cons first rest ih =>
        refine Rises.weaken (append (command rfl) ih) ?_
        rw [Command.rise, List.length_cons]
        omega
  have written := stores (Emit.writtenSlots passed).reverse
  rwa [List.length_reverse] at written

/-- A step of a field puts its value in the place of the object. -/
theorem stepField (type : Ty) (name : String) (isIncrement isFront : Bool) (temporary : Nat) :
    (Block.stepField type name isIncrement isFront temporary).Rises site most 0 := by
  cases isFront with
  | true =>
    refine Rises.ofList ?_
    simp [Command.isLocal, Block.change]
  | false =>
    refine Rises.ofList ?_
    simp [Command.isLocal, Block.change]

/-- A call takes its arguments off the stack, and leaves its result and the final values there. -/
theorem call (levels : site.call.Levels site.methods) {index : Nat} {method : TypedMethod}
    (found : site.methods[index]? = some method) :
    (Block.command (.call index)).Rises site most
      (method.result.pushed.length + (method.parameters.filter (·.mode.writesBack)).length -
        method.parameters.length) := by
  intro activation result ran
  obtain ⟨after, called, rfl⟩ := Option.map_eq_some_iff.1 ran
  obtain ⟨_, arguments, stack, left, isMethod, popped, isLeft, rfl⟩ := Site.of_runCall called
  cases found.symm.trans isMethod
  obtain ⟨height, isResult⟩ := levels found isLeft
  have height' := activation.stack.length_popMany popped
  dsimp only at height'
  refine ⟨rfl, ?_⟩
  dsimp only
  rw [Stack.pushAll, List.length_append, List.length_reverse, List.length_append, method.length_finals]
  omega

end Rises

end Block

/-! ### Expressions -/

/-- Calls of what has a result are one value, others none. -/
theorem Ty.length_pushed_congr {type other : Ty} (same : type = .void ↔ other = .void) :
    type.pushed.length = other.pushed.length := by
  rw [Ty.pushed, Ty.pushed, apply_ite List.length, apply_ite List.length, if_congr same rfl rfl]
  rfl

theorem FunctionImport.length_result {function : FunctionImport} {type : Ty}
    (same : type = .void ↔ function.result = none) : function.result.toList.length = type.pushed.length := by
  rw [Ty.pushed, apply_ite List.length, if_congr same rfl rfl]
  cases function.result <;> rfl

theorem BuiltinMember.length_result {member : BuiltinMember} {type : Ty}
    (same : type = .void ↔ member.hasResult = false) :
    (if member.hasResult then 1 else 0) = (type.pushed.length : Int) := by
  rw [Ty.pushed, apply_ite List.length, if_congr same rfl rfl]
  cases member.hasResult <;> rfl

theorem TypedArgument.AllFit.length_eq {typing : Typing} {parameters : List TypedParameter}
    {passed : List TypedArgument} (fits : TypedArgument.AllFit typing parameters passed) :
    passed.length = parameters.length := by
  induction passed generalizing parameters with
  | nil =>
      cases parameters with
      | nil => rfl
      | cons => cases fits
  | cons first rest ih =>
      obtain ⟨mode, value⟩ := first
      cases parameters with
      | nil => cases fits
      | cons parameter parameters => exact congrArg (· + 1) (ih fits.2.2.2.2)

/-- As many slots are written behind a call as there are parameters that are written back. -/
theorem TypedArgument.AllFit.length_written {typing : Typing} {parameters : List TypedParameter}
    {passed : List TypedArgument} (fits : TypedArgument.AllFit typing parameters passed) :
    (Emit.writtenSlots passed).length = (parameters.filter (·.mode.writesBack)).length := by
  have checks : typing.Checks False := ⟨nofun, nofun⟩
  rw [(fits.stores checks).length_eq, List.length_map]

namespace Block.Rises

variable {site : Site} {most : Nat} {block : Block} {type : Ty} {rise : Int}

/-- An operand is at most one value. -/
theorem operand (rises : block.Rises site most type.pushed.length) : block.Rises site most 1 := by
  refine rises.weaken ?_
  unfold Ty.pushed
  split
  · exact Int.zero_le_ofNat 1
  · exact Int.le_refl 1

/-- What leaves at most one value leaves at most that of a type that has one. -/
theorem ofOperand (rises : block.Rises site most rise) (hasValue : type ≠ .void) (isLess : rise ≤ 1) :
    block.Rises site most type.pushed.length := by
  rw [Ty.pushed_of_ne_void hasValue]
  exact rises.weaken isLess

end Block.Rises

section

variable {site : Site} {most : Nat} {typing : Typing} (sameMethods : typing.methods = site.methods.map (·.methodType))
  (calls : site.call.Levels site.methods)

-- Some theorems of the mutual inductions use the assumptions only through the others.
set_option linter.unusedSectionVars false

include sameMethods calls

mutual

/-- The code of an expression leaves at most its value. -/
theorem TypedExpr.rises (value : TypedExpr) (free : Nat) (fits : value.Fits typing) :
    (value.block free).Rises site most value.type.pushed.length := by
  match value with
  | .mk node type _ => exact (node.rises free type fits).scope _

theorem TypedNode.rises (node : TypedNode) (free : Nat) (type : Ty) (fits : node.Fits typing type) :
    (node.block free type).Rises site most type.pushed.length := by
  match node with
  | .const _ | .slot _ | .newList _ | .newObject _ => exact .ofOperand (.command rfl) fits.1 (Int.le_refl 1)
  | .field object name =>
    obtain ⟨hasValue, objectFits, -⟩ := fits
    exact .ofOperand ((object.rises free objectFits).operand.append (.command rfl)) hasValue (Int.le_refl 1)
  | .assign (.slot index) value =>
    obtain ⟨hasValue, valueFits, -⟩ := fits
    refine .ofOperand ((value.rises free valueFits).operand.append (.ofList ?_)) hasValue (Int.le_refl 1)
    simp [Command.isLocal]
  | .assign (.field object name) value =>
    obtain ⟨hasValue, valueFits, shown, ⟨objectFits, -⟩, -⟩ := fits
    exact .ofOperand (((object.rises _ objectFits).operand.append (value.rises _ valueFits).operand).append
      (.command rfl)) hasValue (Int.le_refl 1)
  | .update (.slot index) operation value =>
    obtain ⟨hasValue, valueFits, -⟩ := fits
    refine .ofOperand (((Block.Rises.command rfl).append (value.rises free valueFits).operand).append (.ofList ?_))
      hasValue (Int.le_refl 1)
    simp [Command.isLocal]
  | .update (.field object name) operation value =>
    obtain ⟨hasValue, valueFits, shown, ⟨objectFits, -⟩, -⟩ := fits
    refine .ofOperand ((((object.rises _ objectFits).operand.append (.ofList ?_)).append
      (value.rises _ valueFits).operand).append (.ofList ?_)) hasValue (Int.le_refl 1)
    · simp [Command.isLocal]
    · simp [Command.isLocal]
  | .step (.slot index) isIncrement isFront =>
    refine .ofOperand (.ofList ?_) fits.1 ?_
    · cases isFront <;> simp [Command.isLocal, Block.change]
    · cases isFront <;> exact Int.le_refl 1
  | .step (.field object name) isIncrement isFront =>
    obtain ⟨hasValue, shown, ⟨objectFits, -⟩, -⟩ := fits
    exact .ofOperand ((object.rises _ objectFits).operand.append (.stepField type name isIncrement isFront _)) hasValue
      (Int.le_refl 1)
  | .binary operation left right =>
    obtain ⟨hasValue, leftFits, rightFits, -⟩ := fits
    exact .ofOperand (((left.rises _ leftFits).operand.append (right.rises _ rightFits).operand).append (.command rfl))
      hasValue (Int.le_refl 1)
  | .logical isAnd left right =>
    obtain ⟨hasValue, leftFits, rightFits, -⟩ := fits
    have drops : (Block.command .drop).Rises site most (-1) := .command rfl
    have right := drops.append (right.rises (free + left.temporaries) rightFits).operand
    exact .ofOperand (((left.rises _ leftFits).operand.append (.command rfl)).append (.guard isAnd right)) hasValue
      (Int.le_refl 1)
  | .not operand | .negate operand =>
    obtain ⟨hasValue, operandFits, -⟩ := fits
    exact .ofOperand ((operand.rises _ operandFits).operand.append (.command rfl)) hasValue (Int.le_refl 1)
  | .conditional condition thenValue elseValue =>
    obtain ⟨hasValue, testFits, thenFits, elseFits, -⟩ := fits
    exact .ofOperand ((condition.rises _ testFits).operand.append
      (.choose (thenValue.rises _ thenFits).operand (elseValue.rises _ elseFits).operand)) hasValue (Int.le_refl 1)
  | .convert (.numeric conversion) operand =>
    obtain ⟨hasValue, operandFits, -⟩ := fits
    exact .ofOperand ((operand.rises _ operandFits).operand.append (.command rfl)) hasValue (Int.le_refl 1)
  | .convert (.cast target) operand =>
    obtain ⟨hasValue, operandFits, -⟩ := fits
    exact .ofOperand ((operand.rises _ operandFits).operand.append (.command rfl)) hasValue (Int.le_refl 1)
  | .call index passed =>
    obtain ⟨signature, found, gives, passedFit, -⟩ := fits
    rw [sameMethods, List.getElem?_map] at found
    obtain ⟨method, isMethod, rfl⟩ := Option.map_eq_some_iff.1 found
    refine (((TypedArgument.rises_all passed method.parameters free passedFit).append (.call calls isMethod)).append
      (.writeBack passed)).weaken ?_
    have count := passedFit.length_eq
    have written := passedFit.length_written
    have sameHeight := Ty.length_pushed_congr gives
    rw [show method.methodType.parameters = method.parameters from rfl] at count written
    rw [show method.methodType.result = method.result from rfl] at sameHeight
    omega
  | .hostCall function passed =>
    obtain ⟨count, gives, passedFit, -⟩ := fits
    refine ((TypedExpr.rises_all passed free passedFit).append (.command rfl)).weaken ?_
    rw [Command.rise, FunctionImport.length_result gives, count]
    omega
  | .builtin member receiver passed =>
    obtain ⟨receiverFits, count, gives, passedFit, -⟩ := fits
    refine (((receiver.rises _ receiverFits).operand.append (TypedExpr.rises_all passed _ passedFit)).append
      (.command rfl)).weaken ?_
    have height := BuiltinMember.length_result gives
    rw [Command.rise, count]
    omega

/-- The code of expressions leaves at most a value for each of them. -/
theorem TypedExpr.rises_all (values : List TypedExpr) (free : Nat) (fits : TypedExpr.AllFit typing values) :
    (TypedExpr.blockOfAll free values).Rises site most values.length := by
  match values with
  | [] => exact .empty
  | first :: rest =>
    refine ((first.rises free fits.1).operand.append (TypedExpr.rises_all rest _ fits.2)).weaken ?_
    rw [List.length_cons]
    omega

/-- The code of the arguments of a call leaves at most a value for each of them. -/
theorem TypedArgument.rises_all (passed : List TypedArgument) (parameters : List TypedParameter) (free : Nat)
    (fits : TypedArgument.AllFit typing parameters passed) :
    (TypedArgument.blockOfAll free passed).Rises site most passed.length := by
  match passed, parameters with
  | [], [] => exact .empty
  | [], _ :: _ | .mk _ _ :: _, [] => cases fits
  | .mk mode value :: others, parameter :: parameters =>
    obtain ⟨-, valueFits, -, -, othersFit⟩ := fits
    have tail (free : Nat) := TypedArgument.rises_all others parameters free othersFit
    have isLess : 1 + (others.length : Int) ≤ (TypedArgument.mk mode value :: others).length := by
      rw [List.length_cons]
      omega
    unfold TypedArgument.blockOfAll
    split
    · next isEmpty => cases isEmpty
    · next isArgument =>
      cases isArgument
      exact ((Block.Rises.command rfl).append (tail _)).weaken isLess
    · next isArgument =>
      cases isArgument
      exact ((value.rises free valueFits).operand.append (tail _)).weaken isLess

end

/-- The code of an expression that is evaluated for its effect leaves nothing. -/
theorem TypedExpr.effectBody_rises (value : TypedExpr) (free : Nat) (fits : value.Fits typing) :
    (value.effectBody free).Rises site most 0 := by
  have rises : (value.block free).Rises site most value.type.pushed.length :=
    value.rises sameMethods calls free fits
  unfold effectBody
  split
  · next index assigned _ _ =>
    obtain ⟨-, assignedFits, -⟩ := fits
    exact (assigned.rises sameMethods calls free assignedFits).operand.append (.command rfl)
  · next index operation changed _ _ =>
    obtain ⟨-, changedFits, -⟩ := fits
    refine ((Block.Rises.command rfl).append (changed.rises sameMethods calls free changedFits).operand).append
      (.ofList ?_)
    simp [Command.isLocal]
  · refine .ofList ?_
    simp [Command.isLocal, Block.change]
  · split
    · next isVoid =>
      rw [isVoid] at rises
      exact rises
    · exact rises.operand.append (.command rfl)

/-- The code of expressions that are evaluated for their effects leaves nothing. -/
theorem TypedExpr.effectBlockOfAll_rises (values : List TypedExpr) (free : Nat)
    (fits : TypedExpr.AllFit typing values) : (TypedExpr.effectBlockOfAll free values).Rises site most 0 := by
  induction values generalizing free with
  | nil => exact .empty
  | cons first rest ih =>
      exact ((first.effectBody_rises sameMethods calls free fits.1).scope _).append (ih _ fits.2)

end

end Snippet
