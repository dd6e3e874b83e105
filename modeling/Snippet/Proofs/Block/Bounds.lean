import Snippet.Proofs.Block.Tree
import Snippet.Proofs.Typing.Judgement

/-!
Indices and targets of laid out code. Jumps stay inside of the code that they belong to; what a
typed tree keeps of its promises bounds the slots and methods of its block, and keeps its stores
away from `in` parameters.
-/

namespace Snippet

/-- The target of an instruction that jumps. -/
def Assembly.target? : Assembly → Option Nat
  | .command _ => none
  | .jump target | .jumpIf _ target => some target

/-- Whether slots and methods lie below the given numbers. -/
def Command.Indexes (slots methods : Nat) : Command → Prop
  | .load slot | .store slot => slot < slots
  | .call method => method < methods
  | _ => True

theorem Command.Indexes.mono {slots more methods : Nat} {single : Command}
    (indexes : single.Indexes slots methods) (enough : slots ≤ more) : single.Indexes more methods := by
  cases single with
  | load slot | store slot => exact Nat.lt_of_lt_of_le indexes enough
  | _ => exact indexes

namespace Block

/-- Whether every command of a block has a property. -/
def All (property : Command → Prop) : Block → Prop
  | empty | leaveLoop | nextRound => True
  | command single => property single
  | append first second => first.All property ∧ second.All property
  | guard _ body | scope _ body => body.All property
  | choose thenBlock elseBlock => thenBlock.All property ∧ elseBlock.All property
  | loop _ _ test body advance =>
    test.All property ∧ body.All property ∧ advance.All property

variable {property : Command → Prop}

@[simp] theorem all_ofList (commands : List Command) :
    (ofList commands).All property ↔ ∀ single ∈ commands, property single := by
  induction commands with
  | nil => simp [ofList, All]
  | cons first rest ih => simp [ofList, All, ih]

/-- A command in the layout of a block is one of the block. -/
theorem All.of_mem_layout {block : Block} {start done round : Nat} {single : Command}
    (each : block.All property) (member : .command single ∈ block.layout start done round) :
    property single := by
  induction block generalizing start done round with
  | empty => cases member
  | command other =>
      cases List.mem_singleton.1 member
      exact each
  | append first second first_ih second_ih =>
      exact (List.mem_append.1 member).elim (first_ih each.1) (second_ih each.2)
  | guard truth body ih =>
      rcases List.mem_cons.1 member with isTest | inBody
      · cases isTest
      · exact ih each inBody
  | choose thenBlock elseBlock then_ih else_ih =>
      simp only [layout, List.mem_append, List.mem_cons, reduceCtorEq, false_or] at member
      exact member.elim (then_ih each.1) (else_ih each.2)
  | loop isGuarded isDirect test body advance test_ih body_ih advance_ih =>
      have noTest (target : Nat) :
          .command single ∉ (if isGuarded then [Assembly.jumpIf false target] else []) := by
        cases isGuarded <;> simp
      simp only [layout, List.mem_append, List.mem_singleton, reduceCtorEq, or_false, noTest] at member
      obtain ⟨inTest, inBody, inAdvance⟩ := each
      rcases member with (member | member) | member
      · exact test_ih inTest member
      · exact body_ih inBody member
      · exact advance_ih inAdvance member
  | leaveLoop | nextRound =>
      cases List.mem_singleton.1 member
  | scope extent body ih => exact ih each member

/-- A jump goes to the end of the loop around the block, to its next round, or into the block or
right behind it. -/
theorem target_of_mem_layout {block : Block} {start done round target : Nat} {line : Assembly}
    (member : line ∈ block.layout start done round) (jumps : line.target? = some target) :
    target = done ∨ target = round ∨ start ≤ target ∧ target ≤ start + block.length := by
  induction block generalizing start done round with
  | empty => cases member
  | command other =>
      rw [List.mem_singleton.1 member] at jumps
      cases jumps
  | append first second first_ih second_ih =>
      simp only [length]
      rcases List.mem_append.1 member with inFirst | inSecond
      · have inside := first_ih inFirst
        omega
      · have inside := second_ih inSecond
        omega
  | guard truth body ih =>
      simp only [length]
      rcases List.mem_cons.1 member with isTest | inBody
      · rw [isTest, Assembly.target?, Option.some.injEq] at jumps
        omega
      · have inside := ih inBody
        omega
  | choose thenBlock elseBlock then_ih else_ih =>
      simp only [layout, List.cons_append, List.mem_append, List.mem_cons] at member
      simp only [length]
      rcases member with isTest | inThen | isExit | inElse
      · rw [isTest, Assembly.target?, Option.some.injEq] at jumps
        omega
      · have inside := then_ih inThen
        omega
      · rw [isExit, Assembly.target?, Option.some.injEq] at jumps
        omega
      · have inside := else_ih inElse
        omega
  | loop isGuarded isDirect test body advance test_ih body_ih advance_ih =>
      simp only [layout, List.mem_append, List.mem_singleton] at member
      simp only [length]
      rcases member with (((inTest | isTest) | inBody) | inAdvance) | isJump
      · have inside := test_ih inTest
        omega
      · cases isGuarded with
        | true =>
          rw [List.mem_singleton.1 isTest, Assembly.target?, Option.some.injEq] at jumps
          simp only [if_true] at jumps ⊢
          omega
        | false => cases isTest
      · have inside := body_ih inBody
        cases isDirect <;> simp only [Bool.false_eq_true, if_false, if_true] at inside <;> omega
      · have inside := advance_ih inAdvance
        omega
      · rw [isJump, Assembly.target?, Option.some.injEq] at jumps
        omega
  | leaveLoop =>
      rw [List.mem_singleton.1 member, Assembly.target?, Option.some.injEq] at jumps
      exact .inl jumps.symm
  | nextRound =>
      rw [List.mem_singleton.1 member, Assembly.target?, Option.some.injEq] at jumps
      exact .inr (.inl jumps.symm)
  | scope extent body ih => exact ih member

end Block

/-! ### Blocks of typed trees -/

/-- Whether a command can stand in code of a method with a number of slots: slots and methods exist, and nothing is
stored to an `in` parameter. -/
def Typing.Allows (typing : Typing) (limit : Nat) : Command → Prop
  | .load slot => slot < limit
  | .store slot => slot < limit ∧ ∀ held, typing.slots[slot]? = some held → held.mode ≠ some .input
  | .call method => method < typing.methods.length
  | _ => True

theorem Typing.Allows.indexes {typing : Typing} {limit : Nat} {single : Command}
    (allowed : typing.Allows limit single) : single.Indexes limit typing.methods.length := by
  cases single with
  | store slot => exact allowed.1
  | _ => exact allowed

/-- A slot behind those of the variables is no parameter. -/
theorem Typing.allows_temporary {typing : Typing} {limit temporary : Nat} (behind : typing.slots.length ≤ temporary)
    (inside : temporary < limit) : typing.Allows limit (.store temporary) := by
  refine ⟨inside, fun held found => ?_⟩
  rw [List.getElem?_eq_none behind] at found
  cases found

/-- What is stored to a variable that can be assigned to is stored to no `in` parameter. -/
theorem Place.Shows.allows {typing : Typing} {limit index : Nat} {shown : Ty}
    (shows : (Place.slot index).Shows typing shown) (enough : typing.slots.length ≤ limit) :
    typing.Allows limit (.store index) := by
  obtain ⟨slot, found, isSettable, -⟩ := shows
  refine ⟨Nat.lt_of_lt_of_le (List.getElem?_eq_some_iff.1 found).1 enough, fun held isHeld => ?_⟩
  cases found.symm.trans isHeld
  exact isSettable

/-- What a call writes back can be assigned to. -/
theorem TypedArgument.AllFit.exists_shows {typing : Typing} {parameters : List TypedParameter}
    {passed : List TypedArgument} (fits : TypedArgument.AllFit typing parameters passed) :
    ∀ index ∈ Emit.writtenSlots passed, ∃ shown, (Place.slot index).Shows typing shown := by
  induction passed generalizing parameters with
  | nil => nofun
  | cons first rest ih =>
      obtain ⟨mode, value⟩ := first
      cases parameters with
      | nil => cases fits
      | cons parameter parameters =>
        obtain ⟨-, -, -, written, others⟩ := fits
        have settable (writesBack : mode.writesBack = true) {index : Nat} (isSlot : value.node = .slot index) :
            ∃ shown, (Place.slot index).Shows typing shown := by
          obtain ⟨found, slot, isFound, has, isSettable, -⟩ := written writesBack
          rw [isFound, TypedNode.slot.injEq] at isSlot
          exact ⟨slot.type, slot, isSlot ▸ has, isSettable, rfl⟩
        intro index member
        simp only [Emit.writtenSlots, List.filterMap_cons] at member
        split at member
        · exact ih others index member
        · next found isWritten =>
          rcases List.mem_cons.1 member with rfl | inRest
          · have isWrittenBack : mode.writesBack = true ∧ value.node = .slot index := by
              split at isWritten
              · next isArgument =>
                cases isArgument
                cases isWritten
                exact ⟨rfl, rfl⟩
              · next isArgument =>
                cases isArgument
                cases isWritten
                exact ⟨rfl, rfl⟩
              · cases isWritten
            exact settable isWrittenBack.1 isWrittenBack.2
          · exact ih others index inRest

section

variable {typing : Typing} {limit : Nat}

/-- Steps of a variable that can be assigned to are allowed. -/
theorem Block.stepSlot_allowed {type : Ty} {index : Nat} {isIncrement isFront : Bool}
    (allowed : typing.Allows limit (.store index)) :
    (Block.stepSlot type index isIncrement isFront).All (typing.Allows limit) := by
  cases isFront <;> exact ⟨allowed.1, trivial, trivial, trivial, allowed, trivial⟩

/-- Steps of a field store to no slot but their temporary. -/
theorem Block.stepField_allowed {type : Ty} {name : String} {isIncrement isFront : Bool} {temporary : Nat}
    (behind : typing.slots.length ≤ temporary) (inside : isFront = false → temporary < limit) :
    (Block.stepField type name isIncrement isFront temporary).All (typing.Allows limit) := by
  cases isFront with
  | true => exact ⟨trivial, trivial, trivial, trivial, trivial, trivial⟩
  | false =>
    have stored := Typing.allows_temporary behind (inside rfl)
    exact ⟨trivial, trivial, stored, stored.1, trivial, trivial, trivial, trivial, stored.1, trivial⟩

theorem Block.writeBack_allowed {parameters : List TypedParameter} {passed : List TypedArgument}
    (fits : TypedArgument.AllFit typing parameters passed) (enough : typing.slots.length ≤ limit) :
    (Block.writeBack passed).All (typing.Allows limit) := by
  simp only [writeBack, all_ofList, List.mem_map, List.mem_reverse, forall_exists_index, and_imp,
    forall_apply_eq_imp_iff₂]
  intro index member
  obtain ⟨shown, shows⟩ := fits.exists_shows index member
  exact shows.allows enough

end

mutual

/-- The block of an expression that keeps its promises is allowed. -/
theorem TypedExpr.block_allowed {typing : Typing} {free limit : Nat} (value : TypedExpr)
    (fits : value.Fits typing) (known : typing.slots.length ≤ free)
    (enough : free + value.temporaries ≤ limit) :
    (value.block free).All (typing.Allows limit) := by
  match value with
  | .mk node type span => exact node.block_allowed type fits known enough

/-- The block of a node that keeps its promises is allowed. -/
theorem TypedNode.block_allowed {typing : Typing} {free limit : Nat} (node : TypedNode) (type : Ty)
    (fits : node.Fits typing type) (known : typing.slots.length ≤ free)
    (enough : free + node.temporaries ≤ limit) :
    (node.block free type).All (typing.Allows limit) := by
  match node with
  | .const value | .newList name | .newObject name => trivial
  | .slot index =>
    obtain ⟨-, slot, found, -⟩ := fits
    have inside := (List.getElem?_eq_some_iff.1 found).1
    exact Nat.lt_of_lt_of_le inside (by omega)
  | .field object name =>
    exact ⟨object.block_allowed fits.2.1 known enough, trivial⟩
  | .assign (.slot index) value =>
    obtain ⟨-, fits, shown, shows, -⟩ := fits
    rw [TypedNode.temporaries, Place.temporaries] at enough
    refine ⟨value.block_allowed fits known (by omega), ?_⟩
    exact ⟨trivial, shows.allows (by omega), trivial⟩
  | .assign (.field object name) value =>
    obtain ⟨-, fits, shown, ⟨objectFits, -⟩, -⟩ := fits
    rw [TypedNode.temporaries, Place.temporaries] at enough
    exact ⟨⟨object.block_allowed objectFits known (by omega),
      value.block_allowed fits (by omega) (by omega)⟩, trivial⟩
  | .update (.slot index) operation value =>
    obtain ⟨-, fits, shown, shows, -⟩ := fits
    rw [TypedNode.temporaries, Place.temporaries] at enough
    have stored : typing.Allows limit (.store index) := shows.allows (by omega)
    exact ⟨⟨stored.1, value.block_allowed fits known (by omega)⟩, trivial, trivial, stored, trivial⟩
  | .update (.field object name) operation value =>
    obtain ⟨-, fits, shown, ⟨objectFits, -⟩, -⟩ := fits
    rw [TypedNode.temporaries, Place.temporaries] at enough
    exact ⟨⟨⟨object.block_allowed objectFits known (by omega), trivial, trivial, trivial⟩,
      value.block_allowed fits (by omega) (by omega)⟩, trivial, trivial, trivial⟩
  | .step (.slot index) isIncrement isFront =>
    obtain ⟨-, shown, shows, -⟩ := fits
    exact Block.stepSlot_allowed (shows.allows (by omega))
  | .step (.field object name) isIncrement isFront =>
    obtain ⟨-, shown, ⟨objectFits, -⟩, -⟩ := fits
    rw [TypedNode.temporaries] at enough
    refine ⟨object.block_allowed objectFits known (by omega), Block.stepField_allowed (by omega) fun isBehind => ?_⟩
    rw [isBehind] at enough
    simp only [Bool.false_eq_true, if_false] at enough
    omega
  | .binary operation left right =>
    obtain ⟨-, leftFits, rightFits, -⟩ := fits
    rw [TypedNode.temporaries] at enough
    exact ⟨⟨left.block_allowed leftFits known (by omega),
      right.block_allowed rightFits (by omega) (by omega)⟩, trivial⟩
  | .logical isAnd left right =>
    obtain ⟨-, leftFits, rightFits, -⟩ := fits
    rw [TypedNode.temporaries] at enough
    exact ⟨⟨left.block_allowed leftFits known (by omega), trivial⟩, trivial,
      right.block_allowed rightFits (by omega) (by omega)⟩
  | .not operand | .negate operand | .convert (.numeric _) operand | .convert (.cast _) operand =>
    exact ⟨operand.block_allowed fits.2.1 known enough, trivial⟩
  | .conditional condition thenValue elseValue =>
    obtain ⟨-, testFits, thenFits, elseFits, -⟩ := fits
    rw [TypedNode.temporaries] at enough
    exact ⟨condition.block_allowed testFits known (by omega),
      thenValue.block_allowed thenFits (by omega) (by omega),
      elseValue.block_allowed elseFits (by omega) (by omega)⟩
  | .call method passed =>
    obtain ⟨signature, found, -, passedFit, -⟩ := fits
    exact ⟨⟨TypedArgument.blockOfAll_allowed passed passedFit known enough,
      (List.getElem?_eq_some_iff.1 found).1⟩, Block.writeBack_allowed passedFit (by omega)⟩
  | .hostCall function passed =>
    exact ⟨TypedExpr.blockOfAll_allowed passed fits.2.2.1 known enough, trivial⟩
  | .builtin member receiver passed =>
    obtain ⟨receiverFits, -, -, passedFit, -⟩ := fits
    rw [TypedNode.temporaries] at enough
    exact ⟨⟨receiver.block_allowed receiverFits known (by omega),
      TypedExpr.blockOfAll_allowed passed passedFit (by omega) (by omega)⟩, trivial⟩

/-- The block of expressions that keep their promises is allowed. -/
theorem TypedExpr.blockOfAll_allowed {typing : Typing} {free limit : Nat} (values : List TypedExpr)
    (fits : TypedExpr.AllFit typing values) (known : typing.slots.length ≤ free)
    (enough : free + TypedExpr.temporariesOfAll values ≤ limit) :
    (TypedExpr.blockOfAll free values).All (typing.Allows limit) := by
  match values with
  | [] => trivial
  | first :: rest =>
    rw [TypedExpr.temporariesOfAll] at enough
    exact ⟨first.block_allowed fits.1 known (by omega),
      TypedExpr.blockOfAll_allowed rest fits.2 (by omega) (by omega)⟩

/-- The block of arguments that fit is allowed. -/
theorem TypedArgument.blockOfAll_allowed {typing : Typing} {free limit : Nat}
    {parameters : List TypedParameter} (passed : List TypedArgument)
    (fits : TypedArgument.AllFit typing parameters passed) (known : typing.slots.length ≤ free)
    (enough : free + TypedArgument.temporariesOfAll passed ≤ limit) :
    (TypedArgument.blockOfAll free passed).All (typing.Allows limit) := by
  match passed, parameters with
  | [], _ => trivial
  | .mk mode value :: rest, [] => cases fits
  | .mk mode value :: rest, parameter :: parameters =>
    obtain ⟨-, valueFits, -, -, others⟩ := fits
    rw [TypedArgument.temporariesOfAll] at enough
    unfold TypedArgument.blockOfAll
    split
    · next isEmpty => cases isEmpty
    · next isArgument =>
      cases isArgument
      exact ⟨trivial, TypedArgument.blockOfAll_allowed rest others known (by omega)⟩
    · next isArgument =>
      cases isArgument
      exact ⟨value.block_allowed valueFits known (by omega),
        TypedArgument.blockOfAll_allowed rest others (Nat.le_add_right_of_le known) (by omega)⟩

end

section

variable {typing : Typing} {free limit : Nat}

/-- An expression that stands as a statement is allowed. -/
theorem TypedExpr.effectBody_allowed (value : TypedExpr) (fits : value.Fits typing)
    (known : typing.slots.length ≤ free) (enough : free + value.temporaries ≤ limit) :
    (value.effectBody free).All (typing.Allows limit) := by
  unfold effectBody
  split
  · next index assigned _ _ =>
    obtain ⟨-, assignedFits, shown, shows, -⟩ := fits
    rw [TypedExpr.temporaries, TypedNode.temporaries, Place.temporaries] at enough
    exact ⟨assigned.block_allowed assignedFits known (by omega), shows.allows (by omega)⟩
  · next index operation changed _ _ =>
    obtain ⟨-, changedFits, shown, shows, -⟩ := fits
    rw [TypedExpr.temporaries, TypedNode.temporaries, Place.temporaries] at enough
    have stored : typing.Allows limit (.store index) := shows.allows (by omega)
    exact ⟨⟨stored.1, changed.block_allowed changedFits known (by omega)⟩, trivial, stored, trivial⟩
  · next index isIncrement _ type _ =>
    obtain ⟨-, shown, shows, -⟩ := fits
    have stored : typing.Allows limit (.store index) := shows.allows (by omega)
    exact ⟨stored.1, trivial, trivial, stored, trivial⟩
  · have pushed := value.block_allowed fits known enough
    split
    · exact pushed
    · exact ⟨pushed, trivial⟩

theorem TypedExpr.effectBlockOfAll_allowed (values : List TypedExpr) (fits : TypedExpr.AllFit typing values)
    (known : typing.slots.length ≤ free) (enough : free + TypedExpr.temporariesOfAll values ≤ limit) :
    (TypedExpr.effectBlockOfAll free values).All (typing.Allows limit) := by
  induction values generalizing free with
  | nil => trivial
  | cons first rest ih =>
      rw [temporariesOfAll] at enough
      exact ⟨first.effectBody_allowed fits.1 known (by omega), ih fits.2 (by omega) (by omega)⟩

theorem TypedExpr.optionalBlock_allowed (condition : Option TypedExpr)
    (fits : ∀ test ∈ condition, test.Fits typing) (known : typing.slots.length ≤ free)
    (enough : free + TypedExpr.optionalTemporaries condition ≤ limit) :
    (TypedExpr.optionalBlock free condition).All (typing.Allows limit) := by
  cases condition with
  | none => trivial
  | some test => exact test.block_allowed (fits test rfl) known enough

end

mutual

/-- The block of a statement that keeps its promises is allowed. -/
theorem TypedStmt.body_allowed {typing : Typing} {free limit : Nat} {isNested : Bool}
    (statement : TypedStmt) (fits : statement.Fits typing isNested) (known : typing.slots.length ≤ free)
    (enough : free + statement.temporaries ≤ limit) :
    (statement.body free).All (typing.Allows limit) := by
  match statement with
  | .block body => exact TypedStmt.blockOfAll_allowed body fits known enough
  | .evaluate value => exact value.effectBody_allowed fits known enough
  | .giveBack _ none | .leaveLoop | .nextRound => trivial
  | .giveBack _ (some value) => exact ⟨value.block_allowed fits.2.1 known enough, trivial⟩
  | .branch condition thenBranch none =>
    rw [TypedStmt.temporaries] at enough
    exact ⟨condition.block_allowed fits.1 known (by omega),
      thenBranch.body_allowed fits.2.2 (by omega) (by omega)⟩
  | .branch condition thenBranch (some elseBranch) =>
    rw [TypedStmt.temporaries] at enough
    exact ⟨condition.block_allowed fits.1 known (by omega),
      thenBranch.body_allowed fits.2.2.1 (by omega) (by omega),
      elseBranch.body_allowed fits.2.2.2 (by omega) (by omega)⟩
  | .whileLoop condition body =>
    rw [TypedStmt.temporaries] at enough
    exact ⟨condition.block_allowed fits.1 known (by omega),
      body.body_allowed fits.2.2 (by omega) (by omega), trivial⟩
  | .forLoop start condition steps body =>
    obtain ⟨startFits, testFits, stepsFit, bodyFits⟩ := fits
    rw [TypedStmt.temporaries] at enough
    exact ⟨TypedStmt.blockOfAll_allowed start startFits known (by omega),
      TypedExpr.optionalBlock_allowed condition (fun test isTest => (testFits test isTest).1)
        (by omega) (by omega),
      body.body_allowed bodyFits (by omega) (by omega),
      TypedExpr.effectBlockOfAll_allowed steps stepsFit (by omega) (by omega)⟩

/-- The block of statements that keep their promises is allowed. -/
theorem TypedStmt.blockOfAll_allowed {typing : Typing} {free limit : Nat} {isNested : Bool}
    (statements : List TypedStmt) (fits : TypedStmt.AllFit typing isNested statements)
    (known : typing.slots.length ≤ free)
    (enough : free + TypedStmt.temporariesOfAll statements ≤ limit) :
    (TypedStmt.blockOfAll free statements).All (typing.Allows limit) := by
  match statements with
  | [] => trivial
  | first :: rest =>
    rw [TypedStmt.temporariesOfAll] at enough
    exact ⟨first.body_allowed fits.1 known (by omega),
      TypedStmt.blockOfAll_allowed rest fits.2 (by omega) (by omega)⟩

end

/-- The block of a method that keeps its promises uses slots of its frame and methods of the program, and stores to no
`in` parameter. -/
theorem TypedProgram.MethodFits.block_allowed {program : TypedProgram} {libraries : LibrarySet}
    {method : TypedMethod} (fits : program.MethodFits libraries method) :
    method.block.All ((program.typing libraries method).Allows (method.slots.length + method.temporaries)) := by
  have body := TypedStmt.blockOfAll_allowed method.body fits.body (Nat.le_refl method.slots.length)
    (Nat.le_refl (method.slots.length + method.temporaries))
  unfold TypedMethod.block
  dsimp only
  split
  · exact ⟨body, trivial⟩
  · exact body

end Snippet
