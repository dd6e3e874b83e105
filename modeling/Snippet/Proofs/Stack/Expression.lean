import Snippet.Proofs.Stack.Analysis

/-!
The operands on the stack, derived for expressions: the code of an expression leaves its value on top
of what was there, or nothing if it has none.
-/

namespace Snippet

/-- Whether what a node stores belongs to where it is stored: a field gets values of its own type, and
numbers are changed by a one of their own type. -/
def TypedNode.StoresFit (typing : Typing) (node : TypedNode) (type : Ty) : Prop :=
  match node with
  | .assign (.field object name) value =>
    ∀ held, typing.libraries.HasField object.type name held → value.type.Widens held
  | .update (.field object name) operation value =>
    ∀ held, typing.libraries.HasField object.type name held →
      ∃ result, operation.Takes held value.type result ∧ result.Widens held
  | .step (.slot index) _ _ => ∀ slot, typing.slots[index]? = some slot → slot.type.AdmitsConstant type.one
  | .step (.field object name) _ _ =>
    ∀ held, typing.libraries.HasField object.type name held → held.AdmitsConstant type.one
  | _ => True

/-- What the derivation needs of a node: its operands have values, and in a checked analysis what it
stores belongs to where it is stored. -/
def TypedNode.Stacks (checked : Prop) (typing : Typing) (node : TypedNode) (type : Ty) : Prop :=
  node.OperandsHaveValues ∧ (checked → node.StoresFit typing type)

/-- What a checked analysis relies on: types fit, variables have existing types. -/
structure Typing.Checks (typing : Typing) (checked : Prop) : Prop where
  strict : checked → typing.Strict
  slots : checked → ∀ slot ∈ typing.slots, slot.type.Defined typing.libraries

theorem Ty.pushed_of_ne_void {type : Ty} (hasValue : type ≠ .void) : type.pushed = [type] := if_neg hasValue

/-- A step is an operation on two numbers of one type. -/
theorem Operation.Takes.step {type : Ty} (isIncrement : Bool) (isNumber : type.isNumeric = true) :
    (stepOperation isIncrement).Takes type type type := by
  cases isIncrement with
  | true => exact .arithmetic isNumber (by decide)
  | false => exact .arithmetic isNumber (by decide)

/-- What is left of a narrower type is left of a wider one. -/
theorem Ty.forall₂_pushed {checked : Prop} {source target : Ty} (sameVoid : source = .void ↔ target = .void)
    (widens : checked → source.Widens target) :
    List.Forall₂ (fun source target => checked → Ty.Widens source target) source.pushed target.pushed := by
  unfold Ty.pushed
  by_cases isVoid : source = .void
  · rw [if_pos isVoid, if_pos (sameVoid.1 isVoid)]
    exact .nil
  · rw [if_neg isVoid, if_neg fun targetVoid => isVoid (sameVoid.2 targetVoid)]
    exact .cons widens .nil

/-- The final value of an argument that is written back goes to its slot. -/
theorem Emit.writtenSlots_of_writesBack {mode : PassMode} {value : TypedExpr} {others : List TypedArgument}
    {index : Nat} (writesBack : mode.writesBack = true) (isSlot : value.node = .slot index) :
    writtenSlots (.mk mode value :: others) = index :: writtenSlots others := by
  obtain ⟨node, type, span⟩ := value
  obtain rfl : node = .slot index := isSlot
  cases mode with
  | value | input => cases writesBack
  | ref | out => rfl

theorem Emit.writtenSlots_of_not_writesBack {mode : PassMode} {value : TypedExpr} {others : List TypedArgument}
    (isKept : mode.writesBack = false) : writtenSlots (.mk mode value :: others) = writtenSlots others := by
  cases mode with
  | value | input => rfl
  | ref | out => cases isKept

/-- The final values of a call belong to the slots that they are written to. -/
theorem TypedArgument.AllFit.stores {checked : Prop} {typing : Typing} (checks : typing.Checks checked)
    {parameters : List TypedParameter} {passed : List TypedArgument}
    (fits : TypedArgument.AllFit typing parameters passed) :
    List.Forall₂ (fun index (type : Ty) => checked →
        ∃ slot, typing.slots[index]? = some slot ∧ type.Widens slot.type) (Emit.writtenSlots passed)
      ((parameters.filter (·.mode.writesBack)).map (·.type)) := by
  induction passed generalizing parameters with
  | nil =>
      cases parameters with
      | nil => exact .nil
      | cons => cases fits
  | cons first others ih =>
      obtain ⟨mode, value⟩ := first
      cases parameters with
      | nil => cases fits
      | cons parameter parameters =>
        obtain ⟨rfl, -, -, writes, othersFit⟩ := fits
        have tail := ih othersFit
        cases writesBack : parameter.mode.writesBack with
        | true =>
          obtain ⟨index, slot, isSlot, found, -, typed⟩ := writes writesBack
          rw [Emit.writtenSlots_of_writesBack writesBack isSlot, List.filter_cons, if_pos writesBack, List.map_cons]
          exact .cons (fun known => ⟨slot, found, (typed (checks.strict known)).2 ▸ .refl _⟩) tail
        | false =>
          rw [Emit.writtenSlots_of_not_writesBack writesBack, List.filter_cons, if_neg (by simp [writesBack])]
          exact tail

/-- A type that exists if the analysis is checked. -/
theorem Ty.exists_of_checked {checked : Prop} {property : Ty → Prop} (found : checked → ∃ type, property type) :
    ∃ type, checked → property type := by
  by_cases known : checked
  · obtain ⟨type, holds⟩ := found known
    exact ⟨type, fun _ => holds⟩
  · exact ⟨.error, fun isChecked => absurd isChecked known⟩

/-- Only a number's own type is narrower than it. -/
theorem Ty.Widens.eq_of_isNumeric {source target : Ty} (widens : source.Widens target)
    (isNumber : target.isNumeric = true) : source = target := by
  rcases widens with same | ⟨-, isReference⟩ | ⟨rfl, -⟩
  · exact same
  · rw [target.isReference_of_isNumeric isNumber] at isReference
    cases isReference
  · cases isNumber

namespace Stack

/-- Whether a block leads from operands to operands, in every loop. -/
def Runs (checked : Prop) (typing : Typing) (before : StackPoint) (block : Block) (after : StackPoint) : Prop :=
  ∀ done round : StackPoint, (Analysis.stack checked typing).Derives done round before block after

namespace Runs

variable {checked : Prop} {typing : Typing} {before middle after : StackPoint} {block first second : Block}

theorem append (head : Runs checked typing before first middle) (tail : Runs checked typing middle second after) :
    Runs checked typing before (first ++ second) after :=
  fun done round => .append (head done round) (tail done round)

theorem empty (point : StackPoint) : Runs checked typing point .empty point := fun _ _ => .empty

theorem command {single : Command} (changes : before.After checked typing single after) :
    Runs checked typing before (.command single) after := fun _ _ => .command changes

/-- The first of some commands, and the others behind it. -/
theorem cons {single : Command} {rest : List Command} (changes : before.After checked typing single middle)
    (tail : Runs checked typing middle (.ofList rest) after) :
    Runs checked typing before (.ofList (single :: rest)) after := append (command changes) tail

theorem scope {extent : Extent} (runs : Runs checked typing before block after)
    (spans : StackPoint.Spans extent before after) : Runs checked typing before (.scope extent block) after :=
  fun done round => .scope spans (runs done round)

/-- Both ways behind a test lead to the same operands: past the body of a guard and through it. -/
theorem guard {type : Ty} {rest : List Ty} {truth : Bool} (isBool : checked → type = .bool)
    (inner : Runs checked typing (.plain rest) block (.plain rest)) :
    Runs checked typing (.plain (type :: rest)) (.guard truth block) (.plain rest) :=
  fun done round => .guard ⟨type, rest, rfl, isBool, .refl _⟩ ⟨type, rest, rfl, isBool, .refl _⟩ (inner done round)

theorem choose {type : Ty} {rest : List Ty} (isBool : checked → type = .bool)
    (onTrue : Runs checked typing (.plain rest) first after)
    (onFalse : Runs checked typing (.plain rest) second after) :
    Runs checked typing (.plain (type :: rest)) (.choose first second) after :=
  fun done round => .choose ⟨type, rest, rfl, isBool, .refl _⟩ ⟨type, rest, rfl, isBool, .refl _⟩
    (onTrue done round) (onFalse done round)

/-- Operands may be known by wider types, and a temporary may be forgotten. -/
theorem weaken {wider : List Ty} (runs : Runs checked typing before block after)
    (widen : List.Forall₂ (fun source target => checked → Ty.Widens source target) after.operands wider) :
    Runs checked typing before block (.plain wider) :=
  fun done round => .weaken (.refl _) (runs done round) ⟨widen, .inl rfl⟩

/-- The top operand may be known by a wider type. -/
theorem widen {type wider : Ty} {rest : List Ty} {saved : Option (Nat × Ty)}
    (runs : Runs checked typing before block ⟨type :: rest, saved⟩) (widens : checked → type.Widens wider) :
    Runs checked typing before block (.plain (wider :: rest)) :=
  runs.weaken (.cons widens (List.forall₂_same.2 fun type _ _ => .refl type))

/-- An expression with a value leaves one operand. -/
theorem operand {type : Ty} {rest : List Ty} (runs : Runs checked typing before block (.plain (type.pushed ++ rest)))
    (hasValue : type ≠ .void) : Runs checked typing before block (.plain (type :: rest)) := by
  rwa [Ty.pushed_of_ne_void hasValue] at runs

/-- One operand is left by an expression with a value. -/
theorem ofOperand {type : Ty} {rest : List Ty} (runs : Runs checked typing before block (.plain (type :: rest)))
    (hasValue : type ≠ .void) : Runs checked typing before block (.plain (type.pushed ++ rest)) := by
  rwa [Ty.pushed_of_ne_void hasValue]

end Runs

variable {checked : Prop} {typing : Typing} {rest : List Ty}

/-- Final values that fit the slots they are written to leave the stack. -/
theorem runs_writeBack {passed : List TypedArgument} {written : List Ty}
    (fits : List.Forall₂ (fun index (type : Ty) => checked →
      ∃ slot, typing.slots[index]? = some slot ∧ type.Widens slot.type) (Emit.writtenSlots passed) written)
    (rest : List Ty) :
    Runs checked typing (.plain (written.reverse ++ rest)) (.writeBack passed) (.plain rest) := by
  have reversed := List.rel_reverse fits
  unfold Block.writeBack
  generalize (Emit.writtenSlots passed).reverse = slots at reversed ⊢
  generalize written.reverse = types at reversed ⊢
  induction reversed with
  | nil => exact .empty _
  | cons stores _ ih => exact .cons (.store stores) ih

/-- A step of a variable leaves its old or its new value. -/
theorem runs_stepSlot {slot : Slot} {index : Nat} {type : Ty} {isIncrement isFront : Bool}
    (found : typing.slots[index]? = some slot)
    (fits : checked → slot.type.isNumeric = true ∧ slot.type.Widens type ∧ slot.type.AdmitsConstant type.one) :
    Runs checked typing (.plain rest) (.stepSlot type index isIncrement isFront) (.plain (type :: rest)) := by
  have load (operands : List Ty) : StackPoint.After checked typing (.plain operands) (.load index)
      (.plain (slot.type :: operands)) := .load fun _ => ⟨slot, found, .refl _⟩
  have store (operands : List Ty) : StackPoint.After checked typing (.plain (slot.type :: operands)) (.store index)
      (.plain operands) := .store fun _ => ⟨slot, found, .refl _⟩
  have one (operands : List Ty) : StackPoint.After checked typing (.plain operands) (.const type.one)
      (.plain (slot.type :: operands)) := .const fun known => (fits known).2.2
  have operate (operands : List Ty) : StackPoint.After checked typing
      (.plain (slot.type :: slot.type :: operands)) (.operate (stepOperation isIncrement))
      (.plain (slot.type :: operands)) :=
    .operate fun known => ⟨slot.type, .step isIncrement (fits known).1, .refl _⟩
  refine .widen (?_ : Runs checked typing _ _ (.plain (slot.type :: rest))) fun known => (fits known).2.1
  cases isFront with
  | true => exact .cons (load _) (.cons (one _) (.cons (operate _) (.cons .duplicate (.cons (store _) (.empty _)))))
  | false => exact .cons (load _) (.cons .duplicate (.cons (one _) (.cons (operate _) (.cons (store _) (.empty _)))))

/-- Behind its object a step of a field leaves the field's old or new value. The old one waits in a
temporary. -/
theorem runs_stepField {owner type : Ty} {name : String} {isIncrement isFront : Bool} {temporary : Nat}
    (isTemporary : typing.slots.length ≤ temporary)
    (fits : checked → ∃ held, typing.libraries.HasField owner name held ∧ held.isNumeric = true ∧
      held.Widens type ∧ held.AdmitsConstant type.one) :
    Runs checked typing (.plain (owner :: rest)) (.stepField type name isIncrement isFront temporary)
      (.plain (type :: rest)) := by
  obtain ⟨held, fits⟩ := Ty.exists_of_checked fits
  have loadField (operands : List Ty) : StackPoint.After checked typing (.plain (owner :: operands))
      (.loadField name) (.plain (held :: operands)) := .loadField fun known => ⟨held, (fits known).1, .refl _⟩
  have one (operands : List Ty) (saved : Option (Nat × Ty)) : StackPoint.After checked typing ⟨operands, saved⟩
      (.const type.one) ⟨held :: operands, saved⟩ := .const fun known => (fits known).2.2.2
  have operate (operands : List Ty) (saved : Option (Nat × Ty)) : StackPoint.After checked typing
      ⟨held :: held :: operands, saved⟩ (.operate (stepOperation isIncrement)) ⟨held :: operands, saved⟩ :=
    .operate fun known => ⟨held, .step isIncrement (fits known).2.1, .refl _⟩
  have storeField (operands : List Ty) (saved : Option (Nat × Ty)) : StackPoint.After checked typing
      ⟨held :: owner :: operands, saved⟩ (.storeField name) ⟨held :: operands, saved⟩ :=
    .storeField fun known => ⟨held, (fits known).1, .refl _, .refl _⟩
  cases isFront with
  | true =>
    refine .widen (?_ : Runs checked typing _ _ (.plain (held :: rest))) fun known => (fits known).2.2.1
    exact .cons .duplicate (.cons (loadField _) (.cons (one _ _) (.cons (operate _ _)
      (.cons (storeField _ _) (.empty _)))))
  | false =>
    refine .widen (?_ : Runs checked typing _ _ ⟨held :: rest, some (temporary, held)⟩)
      fun known => (fits known).2.2.1
    exact .cons .duplicate (.cons (loadField _) (.cons (.save isTemporary) (.cons .loadSaved
      (.cons (one _ _) (.cons (operate _ _) (.cons (storeField _ _) (.cons .drop
        (.cons .loadSaved (.empty _)))))))))

section

variable {owner operand other type : Ty} {object block first second : Block}

/-- An assignment to a variable, behind its value. -/
theorem runs_assignSlot {slot : Slot} {index : Nat} (found : typing.slots[index]? = some slot)
    (pushed : Runs checked typing (.plain rest) block (.plain (operand :: rest)))
    (fits : checked → operand.Widens slot.type ∧ slot.type.Widens type) :
    Runs checked typing (.plain rest) (block ++ .ofList [.duplicate, .store index]) (.plain (type :: rest)) := by
  have store : StackPoint.After checked typing (.plain (operand :: operand :: rest)) (.store index)
      (.plain (operand :: rest)) := .store fun known => ⟨slot, found, (fits known).1⟩
  exact .widen (pushed.append (.cons .duplicate (.cons store (.empty _)))) fun known =>
    (fits known).1.trans (fits known).2

/-- An assignment to a variable with an operator: the old value stands below the other operand. -/
theorem runs_updateSlot {slot : Slot} {index : Nat} {operation : Operation} (found : typing.slots[index]? = some slot)
    (pushed : Runs checked typing (.plain (slot.type :: rest)) block (.plain (operand :: slot.type :: rest)))
    (fits : checked → ∃ result, operation.Takes slot.type operand result ∧ result.Widens slot.type ∧
      slot.type.Widens type) :
    Runs checked typing (.plain rest) (.command (.load index) ++ block ++
      .ofList [.operate operation, .duplicate, .store index]) (.plain (type :: rest)) := by
  have load : StackPoint.After checked typing (.plain rest) (.load index) (.plain (slot.type :: rest)) :=
    .load fun _ => ⟨slot, found, .refl _⟩
  have operate : StackPoint.After checked typing (.plain (operand :: slot.type :: rest)) (.operate operation)
      (.plain (slot.type :: rest)) := by
    refine .operate fun known => ?_
    obtain ⟨result, takes, widens, -⟩ := fits known
    exact ⟨result, takes, widens⟩
  have store : StackPoint.After checked typing (.plain (slot.type :: slot.type :: rest)) (.store index)
      (.plain (slot.type :: rest)) := .store fun _ => ⟨slot, found, .refl _⟩
  refine .widen (((Runs.command load).append pushed).append (.cons operate (.cons .duplicate (.cons store (.empty _)))))
    fun known => ?_
  obtain ⟨-, -, -, widens⟩ := fits known
  exact widens

/-- An assignment to a field with an operator: the object and the old value stand below the other operand. -/
theorem runs_updateField {name : String} {held : Ty} {operation : Operation}
    (has : checked → typing.libraries.HasField owner name held ∧ held.Widens type)
    (objects : Runs checked typing (.plain rest) object (.plain (owner :: rest)))
    (pushed : Runs checked typing (.plain (held :: owner :: rest)) block (.plain (operand :: held :: owner :: rest)))
    (takes : checked → ∃ result, operation.Takes held operand result ∧ result.Widens held) :
    Runs checked typing (.plain rest) (object ++ .ofList [.duplicate, .loadField name] ++ block ++
      .ofList [.operate operation, .storeField name]) (.plain (type :: rest)) := by
  have loadField : StackPoint.After checked typing (.plain (owner :: owner :: rest)) (.loadField name)
      (.plain (held :: owner :: rest)) := .loadField fun known => ⟨held, (has known).1, .refl _⟩
  have storeField : StackPoint.After checked typing (.plain (held :: owner :: rest)) (.storeField name)
      (.plain (held :: rest)) := .storeField fun known => ⟨held, (has known).1, .refl _, .refl _⟩
  exact .widen (((objects.append (.cons .duplicate (.cons loadField (.empty _)))).append pushed).append
    (.cons (.operate takes) (.cons storeField (.empty _)))) fun known => (has known).2

/-- Of two truth values the first one stays unless the second one is evaluated in its place. -/
theorem runs_logical {isAnd : Bool} (firsts : Runs checked typing (.plain rest) first (.plain (operand :: rest)))
    (seconds : Runs checked typing (.plain rest) second (.plain (other :: rest)))
    (fits : checked → operand = .bool ∧ other = .bool ∧ Ty.bool.Widens type) :
    Runs checked typing (.plain rest) (first ++ .command .duplicate ++ .guard isAnd (.command .drop ++ second))
      (.plain (type :: rest)) := by
  have joined : Runs checked typing (.plain (operand :: rest)) (.command .drop ++ second) (.plain (operand :: rest)) := by
    refine .widen ((Runs.command .drop).append seconds) fun known => ?_
    rw [(fits known).1, (fits known).2.1]
    exact .refl _
  refine .widen ((firsts.append (.command .duplicate)).append (.guard (fun known => (fits known).1) joined))
    fun known => ?_
  rw [(fits known).1]
  exact (fits known).2.2

/-- Of two operands the condition chooses one. -/
theorem runs_conditional {test : Ty} (tests : Runs checked typing (.plain rest) object (.plain (test :: rest)))
    (firsts : Runs checked typing (.plain rest) first (.plain (operand :: rest)))
    (seconds : Runs checked typing (.plain rest) second (.plain (other :: rest)))
    (fits : checked → test = .bool ∧ operand.Widens type ∧ other.Widens type) :
    Runs checked typing (.plain rest) (object ++ .choose first second) (.plain (type :: rest)) :=
  tests.append (.choose (fun known => (fits known).1) (.widen firsts fun known => (fits known).2.1)
    (.widen seconds fun known => (fits known).2.2))

/-- A call of a method, behind its arguments: the final values go to their slots. -/
theorem runs_call (checks : typing.Checks checked) {method : Nat} {signature : MethodType} {passed : List TypedArgument}
    {types : List Ty} (found : typing.methods[method]? = some signature)
    (passedFit : TypedArgument.AllFit typing signature.parameters passed)
    (pushed : Runs checked typing (.plain rest) block (.plain (types.reverse ++ rest)))
    (widen : List.Forall₂ (fun source (parameter : TypedParameter) => checked → source.Widens parameter.type) types
      signature.parameters)
    (gives : signature.result = .void ↔ type = .void) (typed : checked → signature.result.Widens type) :
    Runs checked typing (.plain rest) (block ++ .command (.call method) ++ .writeBack passed)
      (.plain (type.pushed ++ rest)) := by
  have called := pushed.append (.command (.call found widen))
  have written := called.append (runs_writeBack (passedFit.stores checks) (signature.result.pushed ++ rest))
  exact written.weaken (List.rel_append (Ty.forall₂_pushed gives typed) (List.forall₂_same.2 fun type _ _ =>
    .refl type))

end

end Stack

mutual

/-- The code of an expression leaves its value, if it has one. -/
theorem TypedExpr.stack_runs {checked : Prop} {typing : Typing} (checks : typing.Checks checked)
    (value : TypedExpr) (free : Nat) (known : typing.slots.length ≤ free) (fits : value.Fits typing)
    (every : value.Every (TypedNode.Stacks checked typing)) (rest : List Ty) :
    Stack.Runs checked typing (.plain rest) (value.block free) (.plain (value.type.pushed ++ rest)) := by
  match value with
  | .mk node type span =>
    refine (node.stack_runs checks type free known fits every rest).scope ?_
    show (type.pushed ++ rest).length = rest.length + type.pushed.length
    rw [List.length_append, Nat.add_comm]

/-- The code of a node leaves its value, if it has one. -/
theorem TypedNode.stack_runs {checked : Prop} {typing : Typing} (checks : typing.Checks checked)
    (node : TypedNode) (type : Ty) (free : Nat) (known : typing.slots.length ≤ free)
    (fits : node.Fits typing type)
    (every : TypedNode.Stacks checked typing node type ∧ node.Every (TypedNode.Stacks checked typing))
    (rest : List Ty) :
    Stack.Runs checked typing (.plain rest) (node.block free type) (.plain (type.pushed ++ rest)) := by
  match node with
  | .const value =>
    obtain ⟨hasValue, admits⟩ := fits
    exact .ofOperand (.command (.const fun known => admits (checks.strict known))) hasValue
  | .slot index =>
    obtain ⟨hasValue, slot, found, widens⟩ := fits
    exact .ofOperand (.command (.load fun known => ⟨slot, found, widens (checks.strict known)⟩)) hasValue
  | .field object name =>
    obtain ⟨hasValue, objectFits, has⟩ := fits
    obtain ⟨⟨objectValue, -⟩, objectEvery⟩ := every
    have pushed := (object.stack_runs checks free known objectFits objectEvery rest).operand objectValue
    exact .ofOperand (pushed.append (.command (.loadField fun known => has (checks.strict known)))) hasValue
  | .assign (.slot index) value =>
    obtain ⟨hasValue, valueFits, shown, ⟨slot, found, -, rfl⟩, typed⟩ := fits
    obtain ⟨⟨⟨-, isValue⟩, -⟩, -, valueEvery⟩ := every
    have pushed := (value.stack_runs checks free known valueFits valueEvery rest).operand isValue
    exact .ofOperand (Stack.runs_assignSlot found pushed fun known => typed (checks.strict known)) hasValue
  | .assign (.field object name) value =>
    obtain ⟨hasValue, valueFits, shown, ⟨objectFits, has⟩, typed⟩ := fits
    obtain ⟨⟨⟨objectValue, isValue⟩, stores⟩, objectEvery, valueEvery⟩ := every
    have owner := (object.stack_runs checks free known objectFits objectEvery rest).operand objectValue
    have pushed := (value.stack_runs checks (free + object.temporaries) (by omega) valueFits valueEvery
      (object.type :: rest)).operand isValue
    refine .ofOperand ((owner.append pushed).append (.command (.storeField fun known => ?_))) hasValue
    obtain ⟨held, isHeld, -⟩ := has (checks.strict known)
    obtain ⟨narrower, wider⟩ := typed (checks.strict known)
    exact ⟨held, isHeld, stores known held isHeld, narrower.trans wider⟩
  | .update (.slot index) operation value =>
    obtain ⟨hasValue, valueFits, shown, ⟨slot, found, -, rfl⟩, typed⟩ := fits
    obtain ⟨⟨⟨-, isValue⟩, -⟩, -, valueEvery⟩ := every
    have pushed := (value.stack_runs checks free known valueFits valueEvery (slot.type :: rest)).operand isValue
    exact .ofOperand (Stack.runs_updateSlot found pushed fun known => typed (checks.strict known)) hasValue
  | .update (.field object name) operation value =>
    obtain ⟨hasValue, valueFits, shown, ⟨objectFits, has⟩, typed⟩ := fits
    obtain ⟨⟨⟨objectValue, isValue⟩, stores⟩, objectEvery, valueEvery⟩ := every
    obtain ⟨held, isHeld⟩ := Ty.exists_of_checked fun known => has (checks.strict known)
    have owner := (object.stack_runs checks free known objectFits objectEvery rest).operand objectValue
    have pushed := (value.stack_runs checks (free + object.temporaries) (by omega) valueFits valueEvery
      (held :: object.type :: rest)).operand isValue
    refine .ofOperand (Stack.runs_updateField (fun known => ⟨(isHeld known).1, ?_⟩) owner pushed fun known =>
      stores known held (isHeld known).1) hasValue
    obtain ⟨-, -, -, widens⟩ := typed (checks.strict known)
    exact (isHeld known).2.trans widens
  | .step (.slot index) isIncrement isFront =>
    obtain ⟨hasValue, shown, ⟨slot, found, -, rfl⟩, typed⟩ := fits
    obtain ⟨⟨-, stores⟩, -⟩ := every
    refine .ofOperand (Stack.runs_stepSlot found fun known => ?_) hasValue
    obtain ⟨isNumber, widens⟩ := typed (checks.strict known)
    exact ⟨isNumber, widens, stores known slot found⟩
  | .step (.field object name) isIncrement isFront =>
    obtain ⟨hasValue, shown, ⟨objectFits, has⟩, typed⟩ := fits
    obtain ⟨⟨objectValue, stores⟩, objectEvery⟩ := every
    have owner := (object.stack_runs checks free known objectFits objectEvery rest).operand objectValue
    refine .ofOperand (owner.append (Stack.runs_stepField (by omega) fun known => ?_)) hasValue
    obtain ⟨held, isHeld, narrower⟩ := has (checks.strict known)
    obtain ⟨isNumber, widens⟩ := typed (checks.strict known)
    have same := narrower.eq_of_isNumeric isNumber
    exact ⟨held, isHeld, same ▸ isNumber, narrower.trans widens, stores known held isHeld⟩
  | .binary operation left right =>
    obtain ⟨hasValue, leftFits, rightFits, typed⟩ := fits
    obtain ⟨⟨⟨leftValue, rightValue⟩, -⟩, leftEvery, rightEvery⟩ := every
    have first := (left.stack_runs checks free known leftFits leftEvery rest).operand leftValue
    have second := (right.stack_runs checks (free + left.temporaries) (by omega) rightFits rightEvery
      (left.type :: rest)).operand rightValue
    exact .ofOperand ((first.append second).append
      (.command (.operate fun known => typed (checks.strict known)))) hasValue
  | .logical isAnd left right =>
    obtain ⟨hasValue, leftFits, rightFits, typed⟩ := fits
    obtain ⟨⟨⟨leftValue, rightValue⟩, -⟩, leftEvery, rightEvery⟩ := every
    have first := (left.stack_runs checks free known leftFits leftEvery rest).operand leftValue
    have second := (right.stack_runs checks (free + left.temporaries) (by omega) rightFits rightEvery
      rest).operand rightValue
    exact .ofOperand (Stack.runs_logical first second fun known => typed (checks.strict known)) hasValue
  | .not operand =>
    obtain ⟨hasValue, operandFits, typed⟩ := fits
    obtain ⟨⟨isValue, -⟩, operandEvery⟩ := every
    have pushed := (operand.stack_runs checks free known operandFits operandEvery rest).operand isValue
    exact .ofOperand (pushed.append (.command (.not fun known => typed (checks.strict known)))) hasValue
  | .negate operand =>
    obtain ⟨hasValue, operandFits, typed⟩ := fits
    obtain ⟨⟨isValue, -⟩, operandEvery⟩ := every
    have pushed := (operand.stack_runs checks free known operandFits operandEvery rest).operand isValue
    exact .ofOperand (pushed.append (.command (.negate fun known => typed (checks.strict known)))) hasValue
  | .conditional condition thenValue elseValue =>
    obtain ⟨hasValue, testFits, thenFits, elseFits, typed⟩ := fits
    obtain ⟨⟨⟨testValue, isThen, isElse⟩, -⟩, testEvery, thenEvery, elseEvery⟩ := every
    have tested := (condition.stack_runs checks free known testFits testEvery rest).operand testValue
    have onTrue := (thenValue.stack_runs checks (free + condition.temporaries) (by omega) thenFits thenEvery
      rest).operand isThen
    have onFalse := (elseValue.stack_runs checks (free + condition.temporaries + thenValue.temporaries) (by omega)
      elseFits elseEvery rest).operand isElse
    exact .ofOperand (Stack.runs_conditional tested onTrue onFalse fun known => typed (checks.strict known)) hasValue
  | .convert (.numeric conversion) operand =>
    obtain ⟨hasValue, operandFits, typed⟩ := fits
    obtain ⟨⟨isValue, -⟩, operandEvery⟩ := every
    have pushed := (operand.stack_runs checks free known operandFits operandEvery rest).operand isValue
    exact .ofOperand (pushed.append (.command (.convert fun known => typed (checks.strict known)))) hasValue
  | .convert (.cast target) operand =>
    obtain ⟨hasValue, operandFits, typed⟩ := fits
    obtain ⟨⟨isValue, -⟩, operandEvery⟩ := every
    have pushed := (operand.stack_runs checks free known operandFits operandEvery rest).operand isValue
    exact .ofOperand (pushed.append (.command (.cast fun known => (typed (checks.strict known)).2))) hasValue
  | .call method passed =>
    obtain ⟨signature, found, gives, passedFit, typed⟩ := fits
    obtain ⟨⟨haveValues, -⟩, passedEvery⟩ := every
    obtain ⟨types, pushed, widen⟩ := TypedArgument.stack_runs_all checks passed signature.parameters free known
      passedFit passedEvery haveValues rest
    exact Stack.runs_call checks found passedFit pushed widen gives.symm fun known => typed (checks.strict known)
  | .hostCall function passed =>
    obtain ⟨count, gives, passedFit, -, typed⟩ := fits
    obtain ⟨⟨haveValues, -⟩, passedEvery⟩ := every
    have pushed := TypedExpr.stack_runs_all checks passed free known passedFit passedEvery haveValues rest
    exact pushed.append (.command (.hostCall (by rw [List.length_map, count]) gives
      fun known => typed (checks.strict known)))
  | .builtin member receiver passed =>
    obtain ⟨receiverFits, count, gives, passedFit, typed⟩ := fits
    obtain ⟨⟨⟨receiverValue, haveValues⟩, -⟩, receiverEvery, passedEvery⟩ := every
    have owner := (receiver.stack_runs checks free known receiverFits receiverEvery rest).operand receiverValue
    have pushed := TypedExpr.stack_runs_all checks passed (free + receiver.temporaries) (by omega) passedFit
      passedEvery haveValues (receiver.type :: rest)
    exact (owner.append pushed).append (.command (.builtin (by rw [List.length_map, count]) gives
      fun known => typed (checks.strict known)))
  | .newList name =>
    obtain ⟨hasValue, isList⟩ := fits
    exact .ofOperand (.command (.newList fun known => isList (checks.strict known))) hasValue
  | .newObject name =>
    obtain ⟨hasValue, -, isData⟩ := fits
    exact .ofOperand (.command (.newObject fun known => isData (checks.strict known))) hasValue

/-- The code of expressions leaves their values, the last one on top. -/
theorem TypedExpr.stack_runs_all {checked : Prop} {typing : Typing} (checks : typing.Checks checked)
    (values : List TypedExpr) (free : Nat) (known : typing.slots.length ≤ free)
    (fits : TypedExpr.AllFit typing values) (every : TypedExpr.EveryOfAll (TypedNode.Stacks checked typing) values)
    (haveValues : ∀ value ∈ values, value.type ≠ .void) (rest : List Ty) :
    Stack.Runs checked typing (.plain rest) (TypedExpr.blockOfAll free values)
      (.plain ((values.map (·.type)).reverse ++ rest)) := by
  match values with
  | [] => exact .empty _
  | first :: others =>
    have head := (first.stack_runs checks free known fits.1 every.1 rest).operand
      (haveValues first (List.mem_cons_self ..))
    have tail := TypedExpr.stack_runs_all checks others (free + first.temporaries) (by omega) fits.2 every.2
      (fun value member => haveValues value (List.mem_cons_of_mem first member)) (first.type :: rest)
    rw [List.map_cons, List.reverse_cons, List.append_assoc]
    exact head.append tail

/-- The code of the arguments of a call leaves values of the parameters' types, the last one on top. -/
theorem TypedArgument.stack_runs_all {checked : Prop} {typing : Typing} (checks : typing.Checks checked)
    (passed : List TypedArgument) (parameters : List TypedParameter) (free : Nat)
    (known : typing.slots.length ≤ free) (fits : TypedArgument.AllFit typing parameters passed)
    (every : TypedArgument.EveryOfAll (TypedNode.Stacks checked typing) passed)
    (haveValues : ∀ argument ∈ passed, argument.value.type ≠ .void) (rest : List Ty) :
    ∃ types, Stack.Runs checked typing (.plain rest) (TypedArgument.blockOfAll free passed)
        (.plain (types.reverse ++ rest)) ∧
      List.Forall₂ (fun source (parameter : TypedParameter) => checked → source.Widens parameter.type)
        types parameters := by
  match passed, parameters with
  | [], [] => exact ⟨[], .empty _, .nil⟩
  | [], _ :: _ | .mk _ _ :: _, [] => cases fits
  | .mk mode value :: others, parameter :: parameters =>
    obtain ⟨-, valueFits, typed, writes, othersFit⟩ := fits
    unfold TypedArgument.blockOfAll
    split
    · next isEmpty => cases isEmpty
    · next index type span _ isArgument =>
      cases isArgument
      obtain ⟨types, tail, widen⟩ := TypedArgument.stack_runs_all checks others parameters free known othersFit
        every.2 (fun argument member => haveValues argument (List.mem_cons_of_mem _ member)) (type :: rest)
      obtain ⟨_, slot, -, found, -, typed⟩ := writes rfl
      have head : StackPoint.After checked typing (.plain rest) (.const type.defaultConstant)
          (.plain (type :: rest)) := by
        refine .const fun known => ?_
        obtain ⟨isParameter, isSlotType⟩ := typed (checks.strict known)
        have defined := checks.slots known slot (List.mem_of_getElem? found)
        rw [isSlotType, ← isParameter] at defined
        exact defined.admits_default
      refine ⟨type :: types, ?_, .cons (fun known => (typed (checks.strict known)).1 ▸ .refl _) widen⟩
      rw [List.reverse_cons, List.append_assoc]
      exact (Stack.Runs.command head).append tail
    · next isArgument =>
      cases isArgument
      have head := (value.stack_runs checks free known valueFits every.1 rest).operand
        (haveValues _ (List.mem_cons_self ..))
      obtain ⟨types, tail, widen⟩ := TypedArgument.stack_runs_all checks others parameters
        (free + value.temporaries) (by omega) othersFit every.2
        (fun argument member => haveValues argument (List.mem_cons_of_mem _ member)) (value.type :: rest)
      refine ⟨value.type :: types, ?_, .cons (fun known => (typed (checks.strict known)).2) widen⟩
      rw [List.reverse_cons, List.append_assoc]
      exact head.append tail

end

end Snippet
