import Mathlib.Algebra.GroupWithZero.Nat
import Snippet.Proofs.Block.Program

/-!
The size of what is compiled: every constant, string and import is needed by an instruction of its
own. Main statement: a program whose slots and instructions can be counted in 16 and 32 bits is compiled.
-/

namespace Snippet

/-- The number of entries of all pools. -/
def EmitState.entries (state : EmitState) : Nat :=
  state.constants.entries.size + state.strings.entries.size + state.imports.entries.size

theorem Pool.size_intern_le {α : Type} [DecidableEq α] (pool : Pool α) (entry : α) :
    (pool.intern entry).2.entries.size ≤ pool.entries.size + 1 := by
  unfold intern
  split
  · exact Nat.le_add_right _ 1
  · exact Nat.le_of_eq (Array.size_push entry)

namespace Emit

/-- Whether a step of the compiler adds at most as many entries as its result accounts for, if some
have been accounted for that it may still add. -/
def Costs {α : Type} (credit : Nat) (action : Emit α) (cost : α → Nat) : Prop :=
  ∀ before : EmitState, (action.run before).2.entries + credit ≤ before.entries + cost (action.run before).1

namespace Costs

variable {α β : Type} {credit : Nat}

theorem pure {value : α} {cost : α → Nat} (enough : credit ≤ cost value) :
    Costs credit (pure value) cost := fun _ => Nat.add_le_add_left enough _

/-- What the first step accounts for counts in front of the second one. -/
theorem bind {first : Emit α} {next : α → Emit β} {cost : α → Nat} {total : β → Nat}
    (head : Costs 0 first cost) (tail : ∀ value : α, Costs (credit + cost value) (next value) total) :
    Costs credit (first >>= next) total := by
  intro before
  have one := head before
  have other := tail (first.run before).1 (first.run before).2
  show ((next (first.run before).1).run (first.run before).2).2.entries + credit ≤
    before.entries + total ((next (first.run before).1).run (first.run before).2).1
  omega

end Costs

theorem constant_costs (value : Constant) : Costs 0 (constant value) fun _ => 1 := by
  intro before
  have grown := Pool.size_intern_le before.constants value
  show (before.constants.intern value).2.entries.size + before.strings.entries.size + before.imports.entries.size + 0 ≤
    before.constants.entries.size + before.strings.entries.size + before.imports.entries.size + 1
  omega

theorem string_costs (value : String) : Costs 0 (string value) fun _ => 1 := by
  intro before
  have grown := Pool.size_intern_le before.strings value
  show before.constants.entries.size + (before.strings.intern value).2.entries.size + before.imports.entries.size + 0 ≤
    before.constants.entries.size + before.strings.entries.size + before.imports.entries.size + 1
  omega

theorem imported_costs (value : Import) : Costs 0 (imported value) fun _ => 1 := by
  intro before
  have grown := Pool.size_intern_le before.imports value
  show before.constants.entries.size + before.strings.entries.size + (before.imports.intern value).2.entries.size + 0 ≤
    before.constants.entries.size + before.strings.entries.size + before.imports.entries.size + 1
  omega

theorem temporary_costs : Costs 0 temporary fun _ => 0 := fun _ => Nat.le_refl _

mutual

/-- The code of an expression needs at most one entry for each instruction. -/
theorem expression_costs (value : TypedExpr) (start : Nat) : Costs 0 (expression start value) List.length := by
  match value with
  | .mk content type _ =>
    rw [expression]
    exact node_costs content start type

theorem node_costs (content : TypedNode) (start : Nat) (type : Ty) :
    Costs 0 (node start type content) List.length := by
  match content with
  | .const value =>
    rw [node]
    exact .bind (constant_costs value) fun _ => .pure (by simp)
  | .slot index =>
    rw [node]
    exact .pure (Nat.zero_le _)
  | .field object name =>
    rw [node]
    refine .bind (expression_costs object start) fun _ => .bind (string_costs name) fun _ => .pure ?_
    simp
  | .assign (.slot index) value =>
    rw [node]
    exact .bind (expression_costs value start) fun _ => .pure (by simp)
  | .assign (.field object name) value =>
    rw [node]
    refine .bind (expression_costs object start) fun _ => .bind (expression_costs value _) fun _ =>
      .bind (string_costs name) fun _ => .pure ?_
    simp [Nat.add_assoc]
  | .update (.slot index) operation value =>
    rw [node]
    refine .bind (expression_costs value _) fun _ => .pure ?_
    simp
    omega
  | .update (.field object name) operation value =>
    rw [node]
    refine .bind (string_costs name) fun _ => .bind (expression_costs object start) fun _ =>
      .bind (expression_costs value _) fun _ => .pure ?_
    simp
    omega
  | .step (.slot index) isIncrement isFront =>
    rw [node]
    refine .bind (constant_costs type.one) fun _ => .pure ?_
    simp
  | .step (.field object name) isIncrement isFront =>
    rw [node]
    refine .bind (string_costs name) fun _ => .bind (expression_costs object start) fun _ => ?_
    dsimp only
    split
    · refine .bind (constant_costs type.one) fun _ => .pure ?_
      simp
      omega
    · refine .bind temporary_costs fun _ => .bind (constant_costs type.one) fun _ => .pure ?_
      simp
      omega
  | .binary operation left right =>
    rw [node]
    refine .bind (expression_costs left start) fun _ => .bind (expression_costs right _) fun _ => .pure ?_
    simp
  | .logical isAnd left right =>
    rw [node]
    refine .bind (expression_costs left start) fun _ => .bind (expression_costs right _) fun _ => .pure ?_
    simp
    omega
  | .not operand | .negate operand | .convert (.numeric conversion) operand =>
    rw [node]
    exact .bind (expression_costs operand start) fun _ => .pure (by simp)
  | .conditional condition thenValue elseValue =>
    rw [node]
    refine .bind (expression_costs condition start) fun _ => .bind (expression_costs thenValue _) fun _ =>
      .bind (expression_costs elseValue _) fun _ => .pure ?_
    simp
    omega
  | .convert (.cast target) operand =>
    rw [node]
    refine .bind (expression_costs operand start) fun _ => .bind (string_costs target) fun _ => .pure ?_
    simp
  | .call method passed =>
    rw [node]
    refine .bind (arguments_costs passed start) fun _ => .pure ?_
    simp
  | .hostCall function passed =>
    rw [node]
    refine .bind (expressions_costs passed start) fun _ => .bind (imported_costs _) fun _ => .pure ?_
    simp
  | .builtin member receiver passed =>
    rw [node]
    refine .bind (expression_costs receiver start) fun _ => .bind (expressions_costs passed _) fun _ => .pure ?_
    simp
  | .newList element =>
    rw [node]
    exact .bind (string_costs element) fun _ => .pure (by simp)
  | .newObject type =>
    rw [node]
    exact .bind (imported_costs _) fun _ => .pure (by simp)

theorem expressions_costs (values : List TypedExpr) (start : Nat) :
    Costs 0 (expressions start values) List.length := by
  match values with
  | [] =>
    rw [expressions]
    exact .pure (Nat.zero_le _)
  | first :: rest =>
    rw [expressions]
    refine .bind (expression_costs first start) fun _ => .bind (expressions_costs rest _) fun _ => .pure ?_
    simp

theorem arguments_costs (passed : List TypedArgument) (start : Nat) :
    Costs 0 (arguments start passed) List.length := by
  match passed with
  | [] =>
    rw [arguments]
    exact .pure (Nat.zero_le _)
  | .mk mode value :: rest =>
    unfold arguments
    split
    · next isEmpty => cases isEmpty
    · next isArgument =>
      cases isArgument
      refine .bind (constant_costs _) fun _ => .bind (arguments_costs rest _) fun _ => .pure ?_
      simp [Nat.add_comm 1]
    · next isArgument =>
      cases isArgument
      refine .bind (expression_costs value start) fun _ => .bind (arguments_costs rest _) fun _ => .pure ?_
      simp

end

theorem effect_costs (value : TypedExpr) (start : Nat) : Costs 0 (effect start value) List.length := by
  unfold effect
  split
  · next assigned _ _ => exact .bind (expression_costs assigned start) fun _ => .pure (by simp)
  · next changed _ _ =>
    refine .bind (expression_costs changed _) fun _ => .pure ?_
    simp
    omega
  · exact .bind (constant_costs _) fun _ => .pure (by simp)
  · refine .bind (expression_costs value start) fun _ => .pure ?_
    split
    · simp
    · simp

theorem effects_costs (values : List TypedExpr) (start : Nat) : Costs 0 (effects start values) List.length := by
  induction values generalizing start with
  | nil => exact .pure (Nat.zero_le _)
  | cons first rest ih =>
      refine .bind (effect_costs first start) fun _ => .bind (ih _) fun _ => .pure ?_
      simp

theorem optionalTest_costs (condition : Option TypedExpr) (start : Nat) :
    Costs 0 (optionalTest start condition) exitTestLength := by
  cases condition with
  | none => exact .pure (Nat.zero_le _)
  | some test =>
      refine .bind (expression_costs test start) fun _ => .pure ?_
      simp [exitTestLength]

theorem length_exitTest (test : Option (List Instruction)) (done : Nat) :
    (exitTest test done).length = exitTestLength test := by
  cases test <;> simp [exitTest, exitTestLength, ready]

mutual

/-- The code of a statement needs at most one entry for each instruction. -/
theorem statement_costs (source : TypedStmt) (start : Nat) : Costs 0 (statement start source) List.length := by
  match source with
  | .block body =>
    rw [statement]
    exact statements_costs body start
  | .evaluate value =>
    rw [statement]
    refine .bind (effect_costs value start) fun _ => .pure ?_
    simp [ready]
  | .giveBack _ none =>
    rw [statement]
    exact .pure (Nat.zero_le _)
  | .giveBack _ (some value) =>
    rw [statement]
    refine .bind (expression_costs value start) fun _ => .pure ?_
    simp [ready]
  | .branch condition thenBranch none =>
    rw [statement]
    refine .bind (expression_costs condition start) fun _ => .bind (statement_costs thenBranch _) fun _ => .pure ?_
    simp [ready]
  | .branch condition thenBranch (some elseBranch) =>
    rw [statement]
    refine .bind (expression_costs condition start) fun _ => .bind (statement_costs thenBranch _) fun _ =>
      .bind (statement_costs elseBranch _) fun _ => .pure ?_
    simp [ready]
    omega
  | .whileLoop condition body =>
    rw [statement]
    refine .bind (expression_costs condition start) fun _ => .bind (statement_costs body _) fun _ => .pure ?_
    simp [ready]
    omega
  | .forLoop first condition steps body =>
    rw [statement]
    refine .bind (statements_costs first start) fun _ => .bind (optionalTest_costs condition _) fun _ =>
      .bind (statement_costs body _) fun _ => .bind (effects_costs steps _) fun _ => .pure ?_
    simp [ready, length_exitTest]
    omega
  | .leaveLoop | .nextRound =>
    rw [statement]
    exact .pure (Nat.zero_le _)

theorem statements_costs (sources : List TypedStmt) (start : Nat) :
    Costs 0 (statements start sources) List.length := by
  match sources with
  | [] =>
    rw [statements]
    exact .pure (Nat.zero_le _)
  | first :: rest =>
    rw [statements]
    refine .bind (statement_costs first start) fun _ => .bind (statements_costs rest _) fun _ => .pure ?_
    simp

end

theorem methodCode_costs (method : TypedMethod) : Costs 0 (methodCode method) List.length := by
  refine .bind (statements_costs method.body 0) fun _ => .pure ?_
  split <;> simp

/-- The code of a method is as long as its block. -/
theorem length_methodCode (method : TypedMethod) (before : EmitState) (slots : before.slots = method.slots.length) :
    ((methodCode method).run before).1.length = method.block.length := by
  have empty : (⟨0, "", [], [], [], [], []⟩ : Image).IsAddressable := ⟨Nat.zero_le _, Nat.zero_le _, Nat.zero_le _⟩
  have body := (emitted_statements empty method.body 0 before).length
  rw [slots] at body
  simp only [methodCode, TypedMethod.block, StateT.run_bind]
  show (if method.result == .void then _ else _ : List Instruction).length = _
  by_cases isVoid : method.result = .void
  · rw [if_pos (beq_iff_eq.2 isVoid), if_pos isVoid, List.length_append, List.length_map, body]
    rfl
  · rw [if_neg (by simpa using isVoid), if_neg isVoid, List.length_map, body]

/-- The temporaries of a method take slots behind its variables. -/
theorem slots_methodCode (method : TypedMethod) (before : EmitState) (slots : before.slots = method.slots.length) :
    ((methodCode method).run before).2.slots = method.slots.length + method.temporaries := by
  have empty : (⟨0, "", [], [], [], [], []⟩ : Image).IsAddressable := ⟨Nat.zero_le _, Nat.zero_le _, Nat.zero_le _⟩
  exact (emitted_method empty method before slots).1

end Emit

/-- The number of instructions of methods. -/
def TypedMethod.lengthOfAll (methods : List TypedMethod) : Nat := (methods.map (·.block.length)).sum

namespace TypedMethod

/-- A method whose slots and instructions can be counted is compiled. -/
theorem exists_toImage (method : TypedMethod) (state : EmitState)
    (slots : method.slots.length + method.temporaries < 65536)
    (entries : state.entries + method.block.length < UInt32.size) :
    ∃ compiled after, method.toImage.run state = .ok (compiled, after) ∧
      after.entries ≤ state.entries + method.block.length := by
  have costs := Emit.methodCode_costs method { state with slots := method.slots.length }
  have length := Emit.length_methodCode method { state with slots := method.slots.length } rfl
  have count := Emit.slots_methodCode method { state with slots := method.slots.length } rfl
  rw [length] at costs
  rw [toImage_run]
  generalize (Emit.methodCode method).run { state with slots := method.slots.length } = result at *
  have total : result.2.entries ≤ state.entries + method.block.length := costs
  have fits : result.2.excess? result.1 = none := by
    unfold EmitState.entries at total entries
    unfold EmitState.excess?
    rw [length, count]
    dsimp only
    rw [if_neg (by omega), if_neg (by omega), if_neg (by omega), if_neg (by omega), if_neg (by omega)]
  simp only [fits]
  exact ⟨_, _, rfl, total⟩

theorem exists_mapM_toImage (methods : List TypedMethod) (state : EmitState)
    (slots : ∀ method ∈ methods, method.slots.length + method.temporaries < 65536)
    (entries : state.entries + lengthOfAll methods < UInt32.size) :
    ∃ compiled after, (methods.mapM toImage).run state = .ok (compiled, after) := by
  induction methods generalizing state with
  | nil => exact ⟨[], state, rfl⟩
  | cons first rest ih =>
      rw [List.forall_mem_cons] at slots
      rw [lengthOfAll, List.map_cons, List.sum_cons] at entries
      obtain ⟨one, middle, firstDone, grown⟩ := first.exists_toImage state slots.1 (by omega)
      obtain ⟨others, after, restDone⟩ := ih middle slots.2 (by rw [lengthOfAll]; omega)
      refine ⟨one :: others, after, ?_⟩
      rw [List.mapM_cons, StateT.run_bind, firstDone]
      show ((rest.mapM toImage) >>= fun others => pure (one :: others)).run middle = _
      rw [StateT.run_bind, restDone]
      rfl

end TypedMethod

/-- A program whose slots and instructions can be counted is compiled. -/
theorem TypedProgram.exists_toImage (program : TypedProgram) (moduleName : String)
    (slots : ∀ method ∈ program.methods, method.slots.length + method.temporaries < 65536)
    (short : TypedMethod.lengthOfAll program.methods < UInt32.size) :
    ∃ image, program.toImage moduleName = .ok image := by
  have entries : EmitState.empty.entries + TypedMethod.lengthOfAll program.methods < UInt32.size := by
    rw [show EmitState.empty.entries = 0 from rfl]
    omega
  obtain ⟨compiled, after, done⟩ := TypedMethod.exists_mapM_toImage program.methods .empty slots entries
  unfold toImage
  rw [done]
  exact ⟨_, rfl⟩

end Snippet
