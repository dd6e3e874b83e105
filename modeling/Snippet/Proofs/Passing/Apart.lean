import Snippet.Proofs.Passing.Evaluation
import Snippet.Proofs.Stack.Values

/-!
Programs in whose calls nothing is aliased: which slots the code of a program assigns, its own and through calls, and
calls that keep apart what they pass by reference. Main statements: `TypedProgram.covers_assigns`, and
`TypedProgram.PassesOnce.passesApart`, a check.
-/

namespace Snippet

/-- How an argument is passed. -/
def TypedArgument.mode : TypedArgument → PassMode
  | .mk mode _ => mode

/-- Whether a node by itself does not assign a slot, if calls assign the given parameters of methods. -/
def TypedNode.Leaves (assigned : Nat → Nat → Prop) (slot : Nat) : TypedNode → Prop
  | .assign (.slot index) _ | .update (.slot index) _ _ | .step (.slot index) _ _ => index ≠ slot
  | .call method passed => ∀ (position : Nat) (argument : TypedArgument), passed[position]? = some argument →
      argument.mode.writesBack = true → argument.reference? = some slot → ¬assigned method position
  | _ => True

/-- Whether an expression does not assign a slot. -/
def TypedExpr.Leaves (assigned : Nat → Nat → Prop) (slot : Nat) (value : TypedExpr) : Prop :=
  value.Every fun node _ => node.Leaves assigned slot

/-- Whether the body of a method does not assign a slot. -/
def TypedMethod.Leaves (assigned : Nat → Nat → Prop) (slot : Nat) (method : TypedMethod) : Prop :=
  TypedStmt.EveryOfAll (·.Leaves assigned slot) (·.Leaves assigned slot) method.body

/-- Whether slots of methods are all those that the code assigns. -/
def TypedProgram.Covers (program : TypedProgram) (assigned : Nat → Nat → Prop) : Prop :=
  ∀ (index slot : Nat) (method : TypedMethod), program.methods[index]? = some method → ¬assigned index slot →
    method.Leaves assigned slot

/-- Whether a method may assign one of its slots, by itself or through calls. -/
def TypedProgram.Assigns (program : TypedProgram) (index slot : Nat) : Prop :=
  ∀ assigned : Nat → Nat → Prop, program.Covers assigned → assigned index slot

/-- Whether a node, if it is a call, passes no slot to two parameters of which one is written back, and assigns in no
argument what it passes by reference. -/
def TypedNode.PassesApart (assigned : Nat → Nat → Prop) : TypedNode → Prop
  | .call _ passed =>
    (∀ (i j slot : Nat) (first second : TypedArgument), passed[i]? = some first → passed[j]? = some second → i ≠ j →
      first.reference? = some slot → second.reference? = some slot → first.mode.writesBack = false) ∧
    ∀ argument ∈ passed, ∀ slot : Nat, argument.reference? = some slot →
      ∀ other ∈ passed, other.value.Leaves assigned slot
  | _ => True

/-- Whether all calls in an expression keep apart what they pass by reference. -/
def TypedExpr.PassesApart (assigned : Nat → Nat → Prop) (value : TypedExpr) : Prop :=
  value.Every fun node _ => node.PassesApart assigned

/-- Whether nothing is aliased in the calls of a program. -/
def TypedProgram.PassesApart (program : TypedProgram) : Prop :=
  ∀ method ∈ program.methods,
    TypedStmt.EveryOfAll (·.PassesApart program.Assigns) (·.PassesApart program.Assigns) method.body

/-- A node that leaves a slot alone does so if calls assign fewer parameters. -/
theorem TypedNode.Leaves.mono {more fewer : Nat → Nat → Prop}
    (implies : ∀ index slot : Nat, fewer index slot → more index slot) {node : TypedNode} {slot : Nat}
    (leaves : node.Leaves more slot) : node.Leaves fewer slot := by
  unfold Leaves at leaves ⊢
  split
  · exact leaves
  · exact leaves
  · exact leaves
  · intro position argument found isWritten isSlot assigns
    exact leaves position argument found isWritten isSlot (implies _ _ assigns)
  · trivial

/-- The slots that a program may assign are all those that its code assigns. -/
theorem TypedProgram.covers_assigns (program : TypedProgram) : program.Covers program.Assigns := by
  intro index slot method found notAssigned
  simp only [Assigns, not_forall] at notAssigned
  obtain ⟨assigned, covers, isOther⟩ := notAssigned
  have implies (other position : Nat) (assigns : program.Assigns other position) : assigned other position :=
    assigns assigned covers
  have leaves := covers index slot method found isOther
  have mono (value : TypedExpr) (leaves : value.Leaves assigned slot) (_ : value.Leaves assigned slot) :
      value.Leaves program.Assigns slot :=
    .combine (fun _ _ leaves _ => leaves.mono implies) value leaves leaves
  exact TypedStmt.everyOfAll_combine mono mono method.body leaves leaves

/-! ### A check -/

section

variable {property : TypedNode → Ty → Prop} [holds : ∀ (node : TypedNode) (type : Ty), Decidable (property node type)]

mutual

instance TypedExpr.decidableEvery : (value : TypedExpr) → Decidable (value.Every property)
  | .mk node type _ => @instDecidableAnd _ _ (holds node type) node.decidableEvery

instance TypedNode.decidableEvery : (node : TypedNode) → Decidable (node.Every property)
  | .const _ | .slot _ | .newList _ | .newObject _ => isTrue trivial
  | .field object _ => object.decidableEvery
  | .assign place value | .update place _ value =>
    @instDecidableAnd _ _ place.decidableEvery value.decidableEvery
  | .step place _ _ => place.decidableEvery
  | .binary _ left right | .logical _ left right => @instDecidableAnd _ _ left.decidableEvery right.decidableEvery
  | .not operand | .negate operand | .convert _ operand => operand.decidableEvery
  | .conditional condition thenValue elseValue =>
    @instDecidableAnd _ _ condition.decidableEvery
      (@instDecidableAnd _ _ thenValue.decidableEvery elseValue.decidableEvery)
  | .call _ passed => TypedArgument.decidableEveryOfAll passed
  | .hostCall _ passed => TypedExpr.decidableEveryOfAll passed
  | .builtin _ receiver passed =>
    @instDecidableAnd _ _ receiver.decidableEvery (TypedExpr.decidableEveryOfAll passed)

instance Place.decidableEvery : (place : Place) → Decidable (place.Every property)
  | .slot _ => isTrue trivial
  | .field object _ => object.decidableEvery

instance TypedExpr.decidableEveryOfAll : (values : List TypedExpr) → Decidable (TypedExpr.EveryOfAll property values)
  | [] => isTrue trivial
  | first :: rest => @instDecidableAnd _ _ first.decidableEvery (TypedExpr.decidableEveryOfAll rest)

instance TypedArgument.decidableEveryOfAll :
    (passed : List TypedArgument) → Decidable (TypedArgument.EveryOfAll property passed)
  | [] => isTrue trivial
  | .mk _ value :: rest => @instDecidableAnd _ _ value.decidableEvery (TypedArgument.decidableEveryOfAll rest)

end

end

section

variable {effect operand : TypedExpr → Prop} [effects : ∀ value : TypedExpr, Decidable (effect value)]
  [operands : ∀ value : TypedExpr, Decidable (operand value)]

mutual

instance TypedStmt.decidableEvery : (statement : TypedStmt) → Decidable (statement.Every effect operand)
  | .block body => TypedStmt.decidableEveryOfAll body
  | .evaluate value => effects value
  | .giveBack _ none | .leaveLoop | .nextRound => isTrue trivial
  | .giveBack _ (some value) => operands value
  | .branch condition thenBranch none => @instDecidableAnd _ _ (operands condition) thenBranch.decidableEvery
  | .branch condition thenBranch (some elseBranch) =>
    @instDecidableAnd _ _ (operands condition)
      (@instDecidableAnd _ _ thenBranch.decidableEvery elseBranch.decidableEvery)
  | .whileLoop condition body => @instDecidableAnd _ _ (operands condition) body.decidableEvery
  | .forLoop start condition steps body =>
    @instDecidableAnd _ _ (TypedStmt.decidableEveryOfAll start)
      (@instDecidableAnd _ _ (inferInstanceAs (Decidable (∀ test ∈ condition, operand test)))
        (@instDecidableAnd _ _ (inferInstanceAs (Decidable (∀ step ∈ steps, effect step))) body.decidableEvery))

instance TypedStmt.decidableEveryOfAll :
    (statements : List TypedStmt) → Decidable (TypedStmt.EveryOfAll effect operand statements)
  | [] => isTrue trivial
  | first :: rest => @instDecidableAnd _ _ first.decidableEvery (TypedStmt.decidableEveryOfAll rest)

end

end

/-- Whether an argument is a variable or a constant. -/
def TypedArgument.IsPlain : TypedArgument → Bool
  | .mk _ (.mk (.slot _) _ _) | .mk _ (.mk (.const _) _ _) => true
  | _ => false

/-- Whether a node, if it is a call, passes no variable by reference twice, and otherwise only variables and constants
if it passes one by reference. -/
def TypedNode.PassesOnce : TypedNode → Prop
  | .call _ passed =>
    (passed.filterMap TypedArgument.reference?).Nodup ∧
      (passed.filterMap TypedArgument.reference? = [] ∨ ∀ argument ∈ passed, argument.IsPlain = true)
  | _ => True

instance (node : TypedNode) : Decidable node.PassesOnce :=
  match node with
  | .call _ _ => inferInstanceAs (Decidable (_ ∧ _))
  | .const _ | .slot _ | .field _ _ | .assign _ _ | .update _ _ _ | .step _ _ _ | .binary _ _ _ | .logical _ _ _
  | .not _ | .negate _ | .conditional _ _ _ | .convert _ _ | .hostCall _ _ | .builtin _ _ _ | .newList _
  | .newObject _ => isTrue trivial

/-- Whether every call in a program passes no variable by reference twice. -/
def TypedProgram.PassesOnce (program : TypedProgram) : Prop :=
  ∀ method ∈ program.methods, TypedStmt.EveryOfAll (·.Every fun node _ => node.PassesOnce)
    (·.Every fun node _ => node.PassesOnce) method.body

instance (program : TypedProgram) : Decidable program.PassesOnce :=
  inferInstanceAs (Decidable (∀ method ∈ program.methods, TypedStmt.EveryOfAll (·.Every fun node _ => node.PassesOnce)
    (·.Every fun node _ => node.PassesOnce) method.body))

/-- What is plain assigns nothing. -/
theorem TypedArgument.leaves_of_isPlain {argument : TypedArgument} (plain : argument.IsPlain = true)
    (assigned : Nat → Nat → Prop) (slot : Nat) : argument.value.Leaves assigned slot := by
  unfold IsPlain at plain
  split at plain
  · exact ⟨trivial, trivial⟩
  · exact ⟨trivial, trivial⟩
  · cases plain

theorem TypedNode.PassesOnce.passesApart {node : TypedNode} (once : node.PassesOnce) (assigned : Nat → Nat → Prop) :
    node.PassesApart assigned := by
  cases node with
  | call method passed =>
    obtain ⟨distinct, plain⟩ := once
    have differ {i j slot : Nat} {first second : TypedArgument} (isLess : i < j) (isFirst : passed[i]? = some first)
        (isSecond : passed[j]? = some second) (isSlot : first.reference? = some slot)
        (isSlot' : second.reference? = some slot) : False := by
      obtain ⟨inside, rfl⟩ := List.getElem?_eq_some_iff.1 isFirst
      obtain ⟨inside', rfl⟩ := List.getElem?_eq_some_iff.1 isSecond
      have differs := List.pairwise_iff_getElem.1 (List.pairwise_filterMap.1 distinct) i j inside inside' isLess
      exact differs slot isSlot slot isSlot' rfl
    refine ⟨fun i j slot first second isFirst isSecond isOther isSlot isSlot' => ?_,
      fun argument member slot isSlot other isArgument => ?_⟩
    · rcases Nat.lt_or_gt_of_ne isOther with isLess | isLess
      · exact (differ isLess isFirst isSecond isSlot isSlot').elim
      · exact (differ isLess isSecond isFirst isSlot' isSlot).elim
    · have isReference : slot ∈ passed.filterMap TypedArgument.reference? :=
        List.mem_filterMap.2 ⟨argument, member, isSlot⟩
      rcases plain with isEmpty | plain
      · rw [isEmpty] at isReference
        cases isReference
      · exact TypedArgument.leaves_of_isPlain (plain other isArgument) assigned slot
  | _ => trivial

/-- In the calls of a program that passes no variable by reference twice nothing is aliased. -/
theorem TypedProgram.PassesOnce.passesApart {program : TypedProgram} (once : program.PassesOnce) :
    program.PassesApart := by
  have apart (value : TypedExpr) (once : value.Every fun node _ => node.PassesOnce)
      (_ : value.Every fun node _ => node.PassesOnce) : value.PassesApart program.Assigns :=
    .combine (fun _ _ once _ => once.passesApart program.Assigns) value once once
  intro method member
  exact TypedStmt.everyOfAll_combine apart apart method.body (once method member) (once method member)

end Snippet
