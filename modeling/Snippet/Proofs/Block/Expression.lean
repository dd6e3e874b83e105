import Snippet.Proofs.Block.Encoding

/-!
The code of an expression lays out its block.
-/

namespace Snippet.Emit

section

variable {image : Image}

theorem constant_grows (value : Constant) (before : EmitState)
    (within : ((constant value).run before).2.Within image) : before.Within image :=
  ⟨Pool.within_of_intern within.constants, within.strings, within.imports⟩

theorem string_grows (value : String) (before : EmitState)
    (within : ((string value).run before).2.Within image) : before.Within image :=
  ⟨within.constants, Pool.within_of_intern within.strings, within.imports⟩

theorem imported_grows (value : Import) (before : EmitState)
    (within : ((imported value).run before).2.Within image) : before.Within image :=
  ⟨within.constants, within.strings, Pool.within_of_intern within.imports⟩

variable (addressable : image.IsAddressable)

include addressable

theorem constant_found (value : Constant) (before : EmitState)
    (within : ((constant value).run before).2.Within image) :
    image.constants[((constant value).run before).1.toNat]? = some value :=
  Pool.getElem?_of_intern within.constants addressable.constants

theorem string_found (value : String) (before : EmitState)
    (within : ((string value).run before).2.Within image) :
    image.strings[((string value).run before).1.toNat]? = some value :=
  Pool.getElem?_of_intern within.strings addressable.strings

theorem imported_found (value : Import) (before : EmitState)
    (within : ((imported value).run before).2.Within image) :
    image.imports[((imported value).run before).1.toNat]? = some value :=
  Pool.getElem?_of_intern within.imports addressable.imports

/-- A command with a name is laid out when its name is needed for the first time. -/
theorem emitted_string (instruction : UInt32 → Instruction) (single : Command) (name : String)
    (encodes : ∀ index : UInt32, image.strings[index.toNat]? = some name →
      (instruction index).Encodes image (.command single)) (before : EmitState) (start : Nat) :
    Emitted .plain image before start 0 (.command single)
      ([instruction ((string name).run before).1], ((string name).run before).2) :=
  .behind (string_grows name before) rfl
    (.command fun within => encodes _ (string_found addressable name before within))

/-- A command with an import is laid out when the import is needed for the first time. -/
theorem emitted_import (instruction : UInt32 → Instruction) (single : Command) (wanted : Import)
    (encodes : ∀ index : UInt32, image.imports[index.toNat]? = some wanted →
      (instruction index).Encodes image (.command single)) (before : EmitState) (start : Nat) :
    Emitted .plain image before start 0 (.command single)
      ([instruction ((imported wanted).run before).1], ((imported wanted).run before).2) :=
  .behind (imported_grows wanted before) rfl
    (.command fun within => encodes _ (imported_found addressable wanted before within))

/-- A constant is laid out when it is needed for the first time. -/
theorem emitted_constant (value : Constant) (before : EmitState) (start : Nat) :
    Emitted .plain image before start 0 (.command (.const value))
      ([.const ((constant value).run before).1], ((constant value).run before).2) :=
  .behind (constant_grows value before) rfl
    (.command fun within => .const (constant_found addressable value before within))

omit addressable in
/-- The stores behind a call are laid out. -/
theorem emitted_writeBack (passed : List TypedArgument) (before : EmitState) (start : Nat) :
    Emitted .plain image before start 0 (.writeBack passed) (writeBack passed, before) := by
  refine .commands (fun _ => ?_) (by simp [writeBack])
  rw [writeBack, List.map_map, List.forall₂_map_left_iff, List.forall₂_map_right_iff]
  exact List.forall₂_same.2 fun index _ => .store index

/-- A step of a variable is laid out. -/
theorem emitted_stepSlot (start : Nat) (type : Ty) (index : Nat) (isIncrement isFront : Bool)
    (before : EmitState) :
    Emitted .plain image before start 0 (.stepSlot type index isIncrement isFront)
      ((node start type (.step (.slot index) isIncrement isFront)).run before) := by
  simp only [node]
  refine .behind (constant_grows type.one before) rfl (.commands (fun within => ?_) ?_)
  · have one := Instruction.Encodes.const (constant_found addressable type.one before within)
    have operate : Instruction.Encodes image _ _ := .operate (stepOperation isIncrement)
    cases isFront with
    | true =>
      exact .cons (.load index) (.cons one (.cons operate (.cons .duplicate (.cons (.store index) .nil))))
    | false =>
      exact .cons (.load index) (.cons .duplicate (.cons one (.cons operate (.cons (.store index) .nil))))
  · cases isFront <;> rfl

omit addressable in
/-- A new temporary changes no table. -/
theorem temporary_grows (before : EmitState) (within : (temporary.run before).2.Within image) :
    before.Within image :=
  ⟨within.constants, within.strings, within.imports⟩

/-- A step of a field of an object is laid out, with a temporary for the old value if that is the
result. -/
theorem emitted_stepField (start : Nat) (type : Ty) (object : TypedExpr) (name : String)
    (isIncrement isFront : Bool) (before : EmitState)
    (owner : ∀ before : EmitState, Emitted .plain image before start object.temporaries
      (object.block before.slots) ((expression start object).run before)) :
    Emitted .plain image before start
      (TypedNode.step (.field object name) isIncrement isFront).temporaries
      ((TypedNode.step (.field object name) isIncrement isFront).block before.slots type)
      ((node start type (.step (.field object name) isIncrement isFront)).run before) := by
  have field := string_found addressable name before
  have operate : Instruction.Encodes image _ _ := .operate (stepOperation isIncrement)
  have opened := owner ((string name).run before).2
  simp only [node, TypedNode.block, TypedNode.temporaries]
  cases isFront with
  | true =>
    refine .behind (string_grows name before) rfl (.recoded (.append opened rfl
      (.behind (constant_grows type.one _) rfl (.commands (fun within => ?_) rfl)))
      (List.append_assoc _ _ _))
    have one := Instruction.Encodes.const (constant_found addressable type.one _ within)
    have name := field (opened.grows (constant_grows type.one _ within))
    exact .cons .duplicate (.cons (.loadField name) (.cons one (.cons operate
      (.cons (.storeField name) .nil))))
  | false =>
    let reached : EmitState := ((expression start object).run ((string name).run before).2).2
    have taken : reached.slots = before.slots + object.temporaries := opened.slots
    have grows (within : ((constant type.one).run (temporary.run reached).2).2.Within image) :
        reached.Within image := temporary_grows _ (constant_grows type.one _ within)
    refine .behind (string_grows name before) rfl (.recoded (.append opened rfl
      ⟨rfl, rfl, grows, fun within done round => ?_⟩) (List.append_assoc _ _ _))
    have one := Instruction.Encodes.const (constant_found addressable type.one _ within)
    have name := field (opened.grows (grows within))
    simp only [Block.stepField, Bool.false_eq_true, if_false, Block.layout_ofList]
    rw [← taken]
    exact .cons .duplicate (.cons (.loadField name) (.cons (.store _) (.cons (.load _) (.cons one
      (.cons operate (.cons (.storeField name) (.cons .drop (.cons (.load _) .nil))))))))

end

section

variable {image : Image}

mutual

/-- The code of an expression lays out its block. -/
theorem emitted_expression (addressable : image.IsAddressable) (value : TypedExpr) (start : Nat) (before : EmitState) :
    Emitted .plain image before start value.temporaries (value.block before.slots)
      ((expression start value).run before) :=
  match value with
  | .mk content type _ => .scope (.value type) (emitted_node addressable content start type before)

/-- The code of a node lays out its block. -/
theorem emitted_node (addressable : image.IsAddressable) (content : TypedNode) (start : Nat) (type : Ty) (before : EmitState) :
    Emitted .plain image before start content.temporaries (content.block before.slots type)
      ((node start type content).run before) := by
  match content with
  | .const value =>
    simp only [node]
    exact emitted_constant addressable value before start
  | .slot index =>
    simp only [node]
    exact .command fun _ => .load index
  | .field object name =>
    simp only [node]
    exact .append (emitted_expression addressable object start before) rfl
      (emitted_string addressable .loadField _ name (fun _ => .loadField) _ _)
  | .assign (.slot index) value =>
    simp only [node]
    have stored := emitted_expression addressable value start before
    simp only [TypedNode.temporaries, Place.temporaries, Nat.zero_add]
    exact .append stored rfl (.commands (fun _ => .cons .duplicate (.cons (.store index) .nil)) rfl)
  | .assign (.field object name) value =>
    simp only [node, TypedNode.temporaries, Place.temporaries]
    have owner := emitted_expression addressable object start before
    have assigned := emitted_expression addressable value (start + ((expression start object).run before).1.length)
      ((expression start object).run before).2
    rw [owner.slots] at assigned
    exact .followed (.append owner rfl assigned)
      (emitted_string addressable .storeField _ name (fun _ => .storeField) _ _)
  | .update (.slot index) operation value =>
    simp only [node, TypedNode.temporaries, Place.temporaries]
    have loaded : Emitted .plain image before start 0 (.command (.load index))
      ([.load (slot index)], before) := .command fun _ => .load index
    have right := emitted_expression addressable value (start + 1) before
    refine .followed (.append loaded rfl right) (.commands (fun _ => ?_) rfl)
    exact .cons (.operate operation) (.cons .duplicate (.cons (.store index) .nil))
  | .update (.field object name) operation value =>
    simp only [node, TypedNode.temporaries, Place.temporaries]
    have field := string_found addressable name before
    have owner := emitted_expression addressable object start ((string name).run before).2
    let reached : EmitState := ((expression start object).run ((string name).run before).2).2
    have taken : reached.slots = before.slots + object.temporaries := owner.slots
    have right := emitted_expression addressable value
      (start + ((expression start object).run ((string name).run before).2).1.length + 2) reached
    rw [taken] at right
    refine .behind (string_grows name before) rfl
      (.followed (.append (.followed owner (.commands (fun within => ?_) rfl)) ?_ right)
        (.commands (fun within => ?_) rfl))
    · exact .cons .duplicate (.cons (.loadField (field (owner.grows within))) .nil)
    · rw [List.length_append, ← Nat.add_assoc]
      rfl
    · exact .cons (.operate operation)
        (.cons (.storeField (field (owner.grows (right.grows within)))) .nil)
  | .step (.slot index) isIncrement isFront =>
    exact emitted_stepSlot addressable start type index isIncrement isFront before
  | .step (.field object name) isIncrement isFront =>
    exact emitted_stepField addressable start type object name isIncrement isFront before
      (emitted_expression addressable object start)
  | .binary operation left right =>
    simp only [node]
    have first := emitted_expression addressable left start before
    have second := emitted_expression addressable right (start + ((expression start left).run before).1.length)
      ((expression start left).run before).2
    rw [first.slots] at second
    exact .followed (.append first rfl second) (.command fun _ => .operate operation)
  | .logical isAnd left right =>
    simp only [node]
    have first := emitted_expression addressable left start before
    have second := emitted_expression addressable right
      (start + ((expression start left).run before).1.length + 3)
      ((expression start left).run before).2
    rw [first.slots] at second
    exact .shortcut isAnd first second
  | .not operand =>
    simp only [node]
    exact .followed (emitted_expression addressable operand start before) (.command fun _ => .not)
  | .negate operand =>
    simp only [node]
    exact .followed (emitted_expression addressable operand start before) (.command fun _ => .negate)
  | .conditional condition thenValue elseValue =>
    simp only [node]
    let tested := (expression start condition).run before
    let chosen := (expression (start + tested.1.length + 1) thenValue).run tested.2
    have test := emitted_expression addressable condition start before
    have first := emitted_expression addressable thenValue (start + tested.1.length + 1) tested.2
    have second := emitted_expression addressable elseValue
      (start + tested.1.length + 1 + chosen.1.length + 1) chosen.2
    rw [first.slots, test.slots] at second
    rw [test.slots] at first
    exact .choice test first second
  | .convert (.numeric conversion) operand =>
    simp only [node]
    exact .followed (emitted_expression addressable operand start before) (.command fun _ => .convert conversion)
  | .convert (.cast target) operand =>
    simp only [node]
    exact .followed (emitted_expression addressable operand start before)
      (emitted_string addressable .cast _ target (fun _ => .cast) _ _)
  | .call method passed =>
    simp only [node]
    exact .followed
      (.followed (emitted_arguments addressable passed start before) (.command fun _ => .call method))
      (emitted_writeBack passed _ _)
  | .hostCall function passed =>
    simp only [node]
    exact .append (emitted_expressions addressable passed start before) rfl
      (emitted_import addressable .hostCall _ (.function function) (fun _ => .hostCall) _ _)
  | .builtin member receiver passed =>
    simp only [node]
    have owner := emitted_expression addressable receiver start before
    have pushed := emitted_expressions addressable passed
      (start + ((expression start receiver).run before).1.length)
      ((expression start receiver).run before).2
    rw [owner.slots] at pushed
    exact .followed (.append owner rfl pushed) (.command fun _ => .builtin member)
  | .newList element =>
    simp only [node]
    exact emitted_string addressable .newList _ element (fun _ => .newList) before start
  | .newObject type =>
    simp only [node]
    exact emitted_import addressable .newObject _ (.type type) (fun _ => .newObject) before start

/-- The code of expressions lays out their block. -/
theorem emitted_expressions (addressable : image.IsAddressable) (values : List TypedExpr) (start : Nat) (before : EmitState) :
    Emitted .plain image before start (TypedExpr.temporariesOfAll values)
      (TypedExpr.blockOfAll before.slots values) ((expressions start values).run before) := by
  match values with
  | [] => exact .empty
  | first :: rest =>
    have head := emitted_expression addressable first start before
    have tail := emitted_expressions addressable rest (start + ((expression start first).run before).1.length)
      ((expression start first).run before).2
    rw [head.slots] at tail
    simp only [expressions]
    exact .append head rfl tail

/-- The code of the arguments of a call lays out their block. -/
theorem emitted_arguments (addressable : image.IsAddressable) (passed : List TypedArgument) (start : Nat) (before : EmitState) :
    Emitted .plain image before start (TypedArgument.temporariesOfAll passed)
      (TypedArgument.blockOfAll before.slots passed) ((arguments start passed).run before) := by
  match passed with
  | [] => exact .empty
  | .mk mode value :: rest =>
    by_cases passedOut : ∃ index type span, mode = .out ∧ value = .mk (.slot index) type span
    · obtain ⟨index, type, span, rfl, rfl⟩ := passedOut
      have head := emitted_constant addressable type.defaultConstant before start
      have tail := emitted_arguments addressable rest (start + 1) ((constant type.defaultConstant).run before).2
      simp only [arguments, TypedArgument.blockOfAll, TypedArgument.temporariesOfAll]
      exact .append head rfl tail
    · have head := emitted_expression addressable value start before
      have tail := emitted_arguments addressable rest (start + ((expression start value).run before).1.length)
        ((expression start value).run before).2
      rw [head.slots] at tail
      rw [arguments, TypedArgument.blockOfAll]
      · exact .append head rfl tail
      all_goals
        intro index type span isOut isSlot
        exact passedOut ⟨index, type, span, isOut, isSlot⟩

end

end

end Snippet.Emit
