import Snippet.Proofs.Block.Program
import Snippet.Proofs.Stack.Expression

/-!
The operands on the stack, derived for statements and methods: a statement starts and ends with none, and a method
has a plan of the operands at its positions. From the plan come the heights: how many operands a method has on the
stack at each of its positions. Main statement: the code of a method whose operands all have values has heights that
every instruction agrees with.
-/

namespace Snippet

/-- What the derivation needs of an expression that is used as an operand. -/
def TypedExpr.Pushes (checked : Prop) (typing : Typing) (value : TypedExpr) : Prop :=
  value.type ≠ .void ∧ value.Every (TypedNode.Stacks checked typing)

/-- What the derivation needs of the body of a method. -/
def TypedMethod.Stacks (checked : Prop) (typing : Typing) (method : TypedMethod) : Prop :=
  TypedStmt.EveryOfAll (·.Every (TypedNode.Stacks checked typing)) (·.Pushes checked typing) method.body

namespace Stack

/-- Whether a block leads from no operands to no operands, in loops whose rounds do as well. -/
def Clears (checked : Prop) (typing : Typing) (block : Block) : Prop :=
  (Analysis.stack checked typing).Derives (.plain []) (.plain []) (.plain []) block (.plain [])

variable {checked : Prop} {typing : Typing} {block first second : Block}

theorem Runs.clears (runs : Runs checked typing (.plain []) block (.plain [])) : Clears checked typing block :=
  runs _ _

namespace Clears

theorem append (head : Clears checked typing first) (tail : Clears checked typing second) :
    Clears checked typing (first ++ second) := Analysis.Derives.append head tail

theorem statement (inner : Clears checked typing block) : Clears checked typing (.scope .statement block) :=
  .scope ⟨rfl, rfl⟩ inner

end Clears

/-- The code of a condition leaves a truth value. -/
theorem runs_condition (checks : typing.Checks checked) {condition : TypedExpr} {free : Nat}
    (known : typing.slots.length ≤ free) (fits : condition.Fits typing) (pushes : condition.Pushes checked typing) :
    Runs checked typing (.plain []) (condition.block free) (.plain [condition.type]) :=
  (condition.stack_runs checks free known fits pushes.2 []).operand pushes.1

end Stack

namespace TypedExpr

variable {checked : Prop} {typing : Typing}

/-- An expression that is evaluated for its effect leaves nothing. -/
theorem effectBody_clears (checks : typing.Checks checked) (value : TypedExpr) (free : Nat)
    (known : typing.slots.length ≤ free) (fits : value.Fits typing)
    (every : value.Every (TypedNode.Stacks checked typing)) :
    Stack.Clears checked typing (value.effectBody free) := by
  refine Stack.Runs.clears ?_
  unfold effectBody
  split
  · next index assigned _ _ =>
    obtain ⟨-, assignedFits, shown, ⟨slot, found, -, rfl⟩, typed⟩ := fits
    obtain ⟨⟨⟨-, isValue⟩, -⟩, -, assignedEvery⟩ := every
    have pushed := (assigned.stack_runs checks free known assignedFits assignedEvery []).operand isValue
    exact pushed.append (.command (.store fun known => ⟨slot, found, (typed (checks.strict known)).1⟩))
  · next index operation changed _ _ =>
    obtain ⟨-, changedFits, shown, ⟨slot, found, -, rfl⟩, typed⟩ := fits
    obtain ⟨⟨⟨-, isValue⟩, -⟩, -, changedEvery⟩ := every
    have load : StackPoint.After checked typing (.plain []) (.load index) (.plain [slot.type]) :=
      .load fun _ => ⟨slot, found, .refl _⟩
    have pushed := (changed.stack_runs checks free known changedFits changedEvery [slot.type]).operand isValue
    have operate : StackPoint.After checked typing (.plain [changed.type, slot.type]) (.operate operation)
        (.plain [slot.type]) := by
      refine .operate fun known => ?_
      obtain ⟨result, takes, widens, -⟩ := typed (checks.strict known)
      exact ⟨result, takes, widens⟩
    exact ((Stack.Runs.command load).append pushed).append
      (.cons operate (.cons (.store fun _ => ⟨slot, found, .refl _⟩) (.empty _)))
  · next index isIncrement _ type _ =>
    obtain ⟨-, shown, ⟨slot, found, -, rfl⟩, typed⟩ := fits
    obtain ⟨⟨-, stores⟩, -⟩ := every
    have one : StackPoint.After checked typing (.plain [slot.type]) (.const type.one)
        (.plain [slot.type, slot.type]) := .const fun known => stores known slot found
    have operate : StackPoint.After checked typing (.plain [slot.type, slot.type])
        (.operate (stepOperation isIncrement)) (.plain [slot.type]) :=
      .operate fun known => ⟨slot.type, .step isIncrement (typed (checks.strict known)).1, .refl _⟩
    exact .cons (.load fun _ => ⟨slot, found, .refl _⟩) (.cons one (.cons operate
      (.cons (.store fun _ => ⟨slot, found, .refl _⟩) (.empty _))))
  · have pushed := value.stack_runs checks free known fits every []
    split
    · next isVoid =>
      rwa [isVoid] at pushed
    · next hasValue => exact (pushed.operand hasValue).append (.command .drop)

theorem effectBlockOfAll_clears (checks : typing.Checks checked) (values : List TypedExpr) (free : Nat)
    (known : typing.slots.length ≤ free) (fits : TypedExpr.AllFit typing values)
    (every : ∀ value ∈ values, value.Every (TypedNode.Stacks checked typing)) :
    Stack.Clears checked typing (effectBlockOfAll free values) := by
  induction values generalizing free with
  | nil => exact .empty
  | cons first rest ih =>
      rw [List.forall_mem_cons] at every
      exact (first.effectBody_clears checks free known fits.1 every.1).statement.append
        (ih (free + first.temporaries) (by omega) fits.2 every.2)

end TypedExpr

mutual

/-- A statement starts and ends with no operands. -/
theorem TypedStmt.stack_clears {checked : Prop} {typing : Typing} {isNested : Bool}
    (checks : typing.Checks checked) (statement : TypedStmt) (free : Nat) (known : typing.slots.length ≤ free)
    (fits : statement.Fits typing isNested)
    (every : statement.Every (·.Every (TypedNode.Stacks checked typing)) (·.Pushes checked typing)) :
    Stack.Clears checked typing (statement.body free) := by
  match statement with
  | .block body => exact TypedStmt.stack_clears_all checks body free known fits every
  | .evaluate value => exact value.effectBody_clears checks free known fits every
  | .giveBack _ none => exact .command (.giveBackNothing fits)
  | .giveBack _ (some value) =>
    obtain ⟨hasResult, valueFits, widens⟩ := fits
    have pushed := (value.stack_runs checks free known valueFits every.2 []).operand every.1
    exact (pushed.append (.command (.giveBack hasResult fun known => widens (checks.strict known)))).clears
  | .branch condition thenBranch none =>
    obtain ⟨testFits, isBool, thenFits⟩ := fits
    have tested := Stack.runs_condition checks known testFits every.1
    have inner := thenBranch.stack_clears checks (free + condition.temporaries) (by omega) thenFits every.2
    have isBool (known : checked) : condition.type = .bool := isBool (checks.strict known)
    exact Analysis.Derives.append (tested _ _)
      (.guard ⟨_, _, rfl, isBool, .refl _⟩ ⟨_, _, rfl, isBool, .refl _⟩ inner.statement)
  | .branch condition thenBranch (some elseBranch) =>
    obtain ⟨testFits, isBool, thenFits, elseFits⟩ := fits
    obtain ⟨pushes, thenEvery, elseEvery⟩ := every
    have tested := Stack.runs_condition checks known testFits pushes
    have onTrue := thenBranch.stack_clears checks (free + condition.temporaries) (by omega) thenFits thenEvery
    have onFalse := elseBranch.stack_clears checks (free + condition.temporaries + thenBranch.temporaries)
      (by omega) elseFits elseEvery
    have isBool (known : checked) : condition.type = .bool := isBool (checks.strict known)
    exact Analysis.Derives.append (tested _ _) (.choose ⟨_, _, rfl, isBool, .refl _⟩ ⟨_, _, rfl, isBool, .refl _⟩
      onTrue.statement onFalse.statement)
  | .whileLoop condition body =>
    obtain ⟨testFits, isBool, bodyFits⟩ := fits
    have tested := Stack.runs_condition checks known testFits every.1
    have inner := body.stack_clears checks (free + condition.temporaries) (by omega) bodyFits every.2
    have isBool (known : checked) : condition.type = .bool := isBool (checks.strict known)
    exact .loop (tested _ _) (fun _ => ⟨⟨_, _, rfl, isBool, .refl _⟩, ⟨_, _, rfl, isBool, .refl _⟩⟩) nofun
      inner.statement .empty
  | .forLoop start condition steps body =>
    obtain ⟨startFits, testFits, stepsFit, bodyFits⟩ := fits
    obtain ⟨startEvery, testPushes, stepsEvery, bodyEvery⟩ := every
    have starts := TypedStmt.stack_clears_all checks start free known startFits startEvery
    have inner := body.stack_clears checks (free + TypedStmt.temporariesOfAll start +
      TypedExpr.optionalTemporaries condition) (by omega) bodyFits bodyEvery
    have advances := TypedExpr.effectBlockOfAll_clears checks steps (free + TypedStmt.temporariesOfAll start +
      TypedExpr.optionalTemporaries condition + body.temporaries) (by omega) stepsFit stepsEvery
    refine .append starts ?_
    cases condition with
    | none => exact .loop .empty nofun (fun _ => .refl _) inner.statement advances
    | some test =>
      have knownTest : typing.slots.length ≤ free + TypedStmt.temporariesOfAll start := by omega
      have tested := Stack.runs_condition checks knownTest (testFits test rfl).1 (testPushes test rfl)
      have isBool (known : checked) : test.type = .bool := (testFits test rfl).2 (checks.strict known)
      exact .loop (tested _ _) (fun _ => ⟨⟨_, _, rfl, isBool, .refl _⟩, ⟨_, _, rfl, isBool, .refl _⟩⟩) nofun
        inner.statement advances
  | .leaveLoop => exact .leaveLoop
  | .nextRound => exact .nextRound

theorem TypedStmt.stack_clears_all {checked : Prop} {typing : Typing} {isNested : Bool}
    (checks : typing.Checks checked) (statements : List TypedStmt) (free : Nat)
    (known : typing.slots.length ≤ free) (fits : TypedStmt.AllFit typing isNested statements)
    (every : TypedStmt.EveryOfAll (·.Every (TypedNode.Stacks checked typing)) (·.Pushes checked typing)
      statements) :
    Stack.Clears checked typing (TypedStmt.blockOfAll free statements) := by
  match statements with
  | [] => exact .empty
  | first :: rest =>
    exact (first.stack_clears checks free known fits.1 every.1).statement.append
      (TypedStmt.stack_clears_all checks rest (free + first.temporaries) (by omega) fits.2 every.2)

end

/-- A method has a plan of the operands at its positions, with none in front of it and behind it. -/
theorem TypedMethod.stack_plan {checked : Prop} {program : TypedProgram} {libraries : LibrarySet}
    {method : TypedMethod} (fits : program.MethodFits libraries method) (isClosed : checked → libraries.Closed)
    (operands : method.Stacks checked (program.typing libraries method)) :
    ∃ plan : Nat → StackPoint, (StackPoint.plain []).Entails checked (plan 0) ∧
      (∀ position : Nat, method.block.length ≤ position → plan position = .plain []) ∧
      (Analysis.stack checked (program.typing libraries method)).Obeys plan 0 0 0 method.block := by
  have checks : (program.typing libraries method).Checks checked :=
    ⟨isClosed, fun known slot member => (fits.slots slot member).2 (isClosed known)⟩
  have body := TypedStmt.stack_clears_all checks method.body method.slots.length (Nat.le_refl _) fits.body operands
  have clears : Stack.Clears checked (program.typing libraries method) method.block := by
    unfold TypedMethod.block
    dsimp only
    split
    · next isVoid => exact body.append (.command (.giveBackNothing isVoid))
    · exact body
  exact Analysis.Derives.plan clears (.refl _) (.refl _)

/-- Without checks of types it is enough that every operand has a value. -/
theorem TypedMethod.ValuesOnly.toStacks {method : TypedMethod} (valuesOnly : method.ValuesOnly) (typing : Typing) :
    method.Stacks False typing := by
  have everywhere (value : TypedExpr) (every : value.ValuesOnly) :
      value.Every (TypedNode.Stacks False typing) :=
    every.combine (fun _ _ haveValues _ => ⟨haveValues, False.elim⟩) value every
  exact TypedStmt.everyOfAll_combine (fun value every _ => everywhere value every)
    (fun value isOperand _ => ⟨isOperand.1, everywhere value isOperand.2⟩) method.body valuesOnly valuesOnly

namespace Instruction

/-- The number of operands that an instruction takes off the stack. -/
def takes (image : Image) : Instruction → Nat
  | const _ | load _ | newList _ | newObject _ | jump _ | giveBackNothing => 0
  | store _ | duplicate | drop | negate | not | convert _ | cast _ | jumpIfFalse _ | jumpIfTrue _ |
    loadField _ | giveBack => 1
  | operate _ | storeField _ => 2
  | call method => image.methods[method.toNat]?.elim 0 (·.signature.parameters.length)
  | hostCall function =>
    match image.imports[function.toNat]? with
    | some (.function wanted) => wanted.parameters.length
    | _ => 0
  | builtin member => member.arity + 1

/-- The number of operands that an instruction puts on the stack. A call puts its result there, if it
has one, and a final value for each parameter that is written back. -/
def gives (image : Image) : Instruction → Nat
  | store _ | drop | jump _ | jumpIfFalse _ | jumpIfTrue _ | giveBack | giveBackNothing => 0
  | const _ | load _ | operate _ | negate | not | convert _ | cast _ | newList _ | newObject _ | loadField _ |
    storeField _ => 1
  | duplicate => 2
  | call method => image.methods[method.toNat]?.elim 0 fun callee =>
    callee.signature.result.toList.length + (callee.signature.parameters.filter (·.mode.writesBack)).length
  | hostCall function =>
    match image.imports[function.toNat]? with
    | some (.function wanted) => wanted.result.toList.length
    | _ => 0
  | builtin member => if member.hasResult then 1 else 0

/-- The positions that control may reach behind an instruction in the same call. -/
def leadsTo (position : Nat) : Instruction → List Nat
  | jump target => [target.toNat]
  | jumpIfFalse target | jumpIfTrue target => [target.toNat, position + 1]
  | giveBack | giveBackNothing => []
  | _ => [position + 1]

end Instruction

/-- Whether numbers of operands are the ones that code has at its positions: none at the start, enough
for every instruction, the same ones on every way to a position, and at the end of a call just its
result. -/
structure MethodImage.HasHeights (compiled : MethodImage) (image : Image) (heights : Nat → Nat) : Prop where
  start : heights 0 = 0
  enough : ∀ (position : Nat) (instruction : Instruction), compiled.code[position]? = some instruction →
    instruction.takes image ≤ heights position
  agrees : ∀ (position next : Nat) (instruction : Instruction), compiled.code[position]? = some instruction →
    next ∈ instruction.leadsTo position →
      heights next + instruction.takes image = heights position + instruction.gives image
  giveBack : ∀ position : Nat, compiled.code[position]? = some .giveBack → heights position = 1
  giveBackNothing : ∀ position : Nat, compiled.code[position]? = some .giveBackNothing → heights position = 0

/-- Whether a part of the source has no operands around it, if it is a statement, and leaves one more
exactly if it has a value, if it is an expression. -/
def Extent.HasHeights (heights : Nat → Nat) (first last : Nat) : Extent → Prop
  | .statement => heights first = 0 ∧ heights last = 0
  | .value type => heights last = heights first + if type = .void then 0 else 1

theorem Ty.length_pushed (type : Ty) : type.pushed.length = if type = .void then 0 else 1 := by
  unfold pushed
  split <;> rfl

/-- A method of an image is called as its callers know it. -/
theorem MethodImage.Compiles.length_results {compiled : MethodImage} {image : Image} {method : TypedMethod}
    (compiles : compiled.Compiles image method) :
    compiled.signature.parameters.length = method.methodType.parameters.length ∧
      compiled.signature.result.toList.length = method.methodType.result.pushed.length ∧
      (compiled.signature.parameters.filter (·.mode.writesBack)).length = method.methodType.written.length := by
  rw [compiles.signature]
  refine ⟨List.length_map _, ?_, ?_⟩
  · simp only [TypedMethod.signature, TypedMethod.methodType, Ty.length_pushed]
    cases method.result <;> rfl
  · simp only [TypedMethod.signature, TypedMethod.methodType, MethodType.written, List.filter_map, List.length_map]
    rfl

section

variable {checked : Prop} {program : TypedProgram} {libraries : LibrarySet} {image : Image} {method : TypedMethod}

/-- What is known behind a command has as many operands as the instruction for it leaves. -/
theorem StackPoint.After.heights (compiles : program.CompilesTo libraries image) {before after : StackPoint}
    {single : Command} (changes : before.After checked (program.typing libraries method) single after)
    {instruction : Instruction} (encodes : instruction.Encodes image (.command single)) :
    instruction.takes image ≤ before.operands.length ∧ ∀ position : Nat,
      ∀ next ∈ instruction.leadsTo position, next = position + 1 ∧
        after.operands.length + instruction.takes image =
          before.operands.length + instruction.gives image := by
  have behind {position next : Nat} (leads : next ∈ [position + 1]) : next = position + 1 := List.mem_singleton.1 leads
  cases changes with
  | const | load | loadSaved | newList | newObject =>
      cases encodes
      exact ⟨Nat.zero_le _, fun _ _ leads => ⟨behind leads, rfl⟩⟩
  | store | save | drop =>
      cases encodes
      exact ⟨Nat.le_add_left .., fun _ _ leads => ⟨behind leads, rfl⟩⟩
  | duplicate | negate | not | convert | cast | loadField =>
      cases encodes
      exact ⟨Nat.le_add_left .., fun _ _ leads => ⟨behind leads, rfl⟩⟩
  | operate | storeField =>
      cases encodes
      exact ⟨Nat.le_add_left .., fun _ _ leads => ⟨behind leads, rfl⟩⟩
  | @call rest passed saved index signature found fits =>
      cases encodes
      have isMapped : (program.methods.map (·.methodType))[index]? = some signature := found
      rw [List.getElem?_map, Option.map_eq_some_iff] at isMapped
      obtain ⟨callee, isCallee, rfl⟩ := isMapped
      obtain ⟨compiled, isCompiled, -, code⟩ := compiles.exists_compiled isCallee
      obtain ⟨parameters, result, written⟩ := code.length_results
      have count := fits.length_eq
      simp only [Instruction.takes, Instruction.gives, compiles.toNat_ofNat isCallee, isCompiled, Option.elim_some,
        List.length_append, List.length_reverse, parameters, result, written]
      exact ⟨by omega, fun _ _ leads => ⟨behind leads, by omega⟩⟩
  | @hostCall rest passed saved type function count gives fits =>
      cases encodes with
      | hostCall isImport =>
        have pushed : type.pushed.length = function.result.toList.length := by
          rw [Ty.length_pushed]
          cases result : function.result with
          | none => exact if_pos (gives.2 result)
          | some name =>
            refine if_neg fun isVoid => ?_
            rw [gives.1 isVoid] at result
            cases result
        simp only [Instruction.takes, Instruction.gives, isImport, List.length_append, List.length_reverse, count,
          pushed]
        exact ⟨by omega, fun _ _ leads => ⟨behind leads, by omega⟩⟩
  | @builtin rest passed saved receiver type member count gives fits =>
      cases encodes
      have pushed : type.pushed.length = if member.hasResult then 1 else 0 := by
        rw [Ty.length_pushed]
        cases result : member.hasResult with
        | false => exact if_pos (gives.2 result)
        | true =>
          refine if_neg fun isVoid => ?_
          rw [gives.1 isVoid] at result
          cases result
      simp only [Instruction.takes, Instruction.gives, List.length_append, List.length_reverse, List.length_cons,
        count, pushed]
      exact ⟨by omega, fun _ _ leads => ⟨behind leads, by omega⟩⟩
  | giveBack =>
      cases encodes
      exact ⟨Nat.le_refl _, nofun⟩
  | giveBackNothing =>
      cases encodes
      exact ⟨Nat.le_refl _, nofun⟩

/-- What is known behind a test has one operand less. -/
theorem StackPoint.Test.length {before jumped later : StackPoint} (tests : before.Test checked jumped)
    (entails : jumped.Entails checked later) : later.operands.length + 1 = before.operands.length := by
  obtain ⟨type, rest, same, -, popped⟩ := tests
  rw [same, List.length_cons, ← entails.length, ← popped.length]

/-- Where an instruction follows a plan of operands, their numbers agree with it. -/
theorem Analysis.Follows.heights (compiles : program.CompilesTo libraries image) {plan : Nat → StackPoint}
    {position : Nat} {line : Assembly}
    (follows : (Analysis.stack checked (program.typing libraries method)).Follows plan position line)
    {instruction : Instruction} (encodes : instruction.Encodes image line)
    (small : ∀ target : Nat, line.target? = some target → target < UInt32.size) :
    instruction.takes image ≤ (plan position).operands.length ∧ ∀ next ∈ instruction.leadsTo position,
      (plan next).operands.length + instruction.takes image =
        (plan position).operands.length + instruction.gives image := by
  cases line with
  | command single =>
      obtain ⟨after, changes, entails⟩ := follows
      obtain ⟨enough, agrees⟩ := changes.heights compiles encodes
      refine ⟨enough, fun next leads => ?_⟩
      obtain ⟨rfl, same⟩ := agrees position next leads
      rw [← entails.length, same]
  | jump target =>
      cases encodes
      refine ⟨Nat.zero_le _, fun next leads => ?_⟩
      have isTarget : next = (Emit.position target).toNat := List.mem_singleton.1 leads
      rw [Emit.position, UInt32.toNat_ofNat_of_lt' (small target rfl)] at isTarget
      exact isTarget ▸ (follows.length).symm
  | jumpIf truth target =>
      obtain ⟨⟨jumped, tests, entails⟩, passed, tests', entails'⟩ := follows
      have atTarget := StackPoint.Test.length tests entails
      have behind := StackPoint.Test.length tests' entails'
      have isTarget : (Emit.position target).toNat = target := UInt32.toNat_ofNat_of_lt' (small target rfl)
      cases encodes <;>
      · refine ⟨?_, fun next leads => ?_⟩
        · rw [← behind]
          exact Nat.le_add_left ..
        · simp only [Instruction.leadsTo.eq_def, List.mem_cons, List.not_mem_nil, or_false, isTarget] at leads
          rcases leads with rfl | rfl
          · exact atTarget
          · exact behind

/-- The numbers of operands in a plan are those that the code has. -/
theorem MethodImage.Compiles.hasHeights (compiles : program.CompilesTo libraries image)
    {compiled : MethodImage} (code : compiled.Compiles image method) {plan : Nat → StackPoint}
    (enters : (StackPoint.plain []).Entails checked (plan 0))
    (obeys : (Analysis.stack checked (program.typing libraries method)).Obeys plan 0 0 0 method.block) :
    compiled.HasHeights image (fun position => (plan position).operands.length) ∧
      ∀ part ∈ method.block.extents 0,
        part.1.HasHeights (fun position => (plan position).operands.length) part.2.1 part.2.2 := by
  have heights {position : Nat} {instruction : Instruction}
      (found : compiled.code[position]? = some instruction) :
      ∃ line, instruction.Encodes image line ∧
        (∀ target : Nat, line.target? = some target → target < UInt32.size) ∧
        (Analysis.stack checked (program.typing libraries method)).Follows plan position line := by
    obtain ⟨line, isLine, encodes⟩ := code.exists_line found
    exact ⟨line, encodes, fun target jumps => code.target_lt isLine jumps,
      by simpa using obeys.1.of_getElem? isLine⟩
  refine ⟨⟨enters.length.symm, ?_, ?_, ?_, ?_⟩, fun part member => ?_⟩
  · intro position instruction found
    obtain ⟨line, encodes, small, follows⟩ := heights found
    exact (follows.heights compiles encodes small).1
  · intro position next instruction found leads
    obtain ⟨line, encodes, small, follows⟩ := heights found
    exact (follows.heights compiles encodes small).2 next leads
  · intro position found
    obtain ⟨line, encodes, small, follows⟩ := heights found
    cases encodes
    obtain ⟨after, changes, -⟩ := follows
    generalize plan position = before at changes
    cases changes
    rfl
  · intro position found
    obtain ⟨line, encodes, small, follows⟩ := heights found
    cases encodes
    obtain ⟨after, changes, -⟩ := follows
    generalize plan position = before at changes
    cases changes
    rfl
  · have spans := obeys.2 part member
    obtain ⟨extent, first, last⟩ := part
    cases extent with
    | statement => exact spans
    | value type =>
      rw [Extent.HasHeights, ← Ty.length_pushed]
      exact spans

end

end Snippet
