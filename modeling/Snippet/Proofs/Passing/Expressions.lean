import Snippet.Proofs.Passing.Handing

/-!
Expressions beside the evaluation by reference: every run of the code of an expression is an evaluation of it, with its
value on the stack. Main statement: `TypedExpr.traces`.
-/

namespace Snippet

namespace Setting

variable {setting : Setting} {kept : Nat → Prop} {α β : Type}

/-! ### Sequences of commands -/

section

variable {slot : Nat} (isApart : setting.IsApart) (exists_slot : slot < setting.site.slots.length)
  (notKept : ¬kept slot)
  (notInput : ¬setting.site.IsInput slot)

include isApart exists_slot notKept notInput

/-- The value that is assigned to a variable stays on the stack. -/
theorem Takes.keepAndStore (value : Value) :
    setting.Takes kept [value] (.ofList [.duplicate, .store slot])
      (Evaluation.write setting.frame slot value >>= fun _ => pure (some value)) Option.toList :=
  (Takes.duplicate value).silently
    (((Takes.store isApart exists_slot notKept notInput value).under [value]).bind fun _ =>
      .empty [value] (some value) rfl)

/-- A number that is changed by one is stored, with its new or its old value on the stack. -/
theorem Takes.stepSlot (type : Ty) (isIncrement isFront : Bool) :
    setting.Takes kept [] (.stepSlot type slot isIncrement isFront)
      (Evaluation.read setting.frame slot >>= fun old =>
        Evaluation.act ((stepOperation isIncrement).apply old type.one.toValue) >>= fun changed =>
          Evaluation.write setting.frame slot changed >>= fun _ =>
            pure (if isFront then some changed else some old))
      Option.toList := by
  cases isFront with
  | true =>
    exact (Takes.load isApart exists_slot).bind fun old => ((Takes.const type.one).under [old]).bind fun one =>
      (Takes.operate _ old one).bind fun changed => .keepAndStore isApart exists_slot notKept notInput changed
  | false =>
    exact (Takes.load isApart exists_slot).bind fun old => (Takes.duplicate old).silently <|
      ((Takes.const type.one).under [old, old]).bind fun one =>
        ((Takes.operate _ old one).under [old]).bind fun changed =>
        ((Takes.store isApart exists_slot notKept notInput changed).under [old]).bind fun _ =>
          .empty [old] (some old) rfl

end

/-- A field of an object is changed by one, with its new or its old value on the stack. -/
theorem Takes.stepField (type : Ty) (name : String) (isIncrement isFront : Bool) {temporary : Nat}
    (isOutside : setting.frame.length ≤ temporary) (owner : Value) :
    setting.Takes kept [owner] (.stepField type name isIncrement isFront temporary)
      (Evaluation.act (Action.getField name owner) >>= fun old =>
        Evaluation.act ((stepOperation isIncrement).apply old type.one.toValue) >>= fun changed =>
          Evaluation.act (Action.setField name owner changed) >>= fun _ =>
            pure (if isFront then some changed else some old))
      Option.toList := by
  cases isFront with
  | true =>
    exact (Takes.duplicate owner).silently <| ((Takes.loadField name owner).under [owner]).bind fun old =>
      ((Takes.const type.one).under [old, owner]).bind fun one =>
        ((Takes.operate _ old one).under [owner]).bind fun changed =>
        (Takes.storeField name owner changed).bind fun _ => .empty [changed] (some changed) rfl
  | false =>
    have areKept : ∀ single ∈ Block.change type isIncrement ++ [.storeField name, .drop],
        single.isLocal = true ∧ single.keepsSlots = true := by
      simp [Block.change, Command.isLocal, Command.keepsSlots]
    refine (Takes.duplicate owner).silently <| ((Takes.loadField name owner).under [owner]).bind fun old => ?_
    have inner : setting.Takes kept (old :: [owner])
        (.ofList (Block.change type isIncrement ++ [.storeField name, .drop]))
        (Evaluation.act ((stepOperation isIncrement).apply old type.one.toValue) >>= fun changed =>
          Evaluation.act (Action.setField name owner changed)) fun _ => [] :=
      ((Takes.const type.one).under [old, owner]).bind fun one =>
        ((Takes.operate _ old one).under [owner]).bind fun changed =>
        (Takes.storeField name owner changed).followed fun _ => (Takes.drop changed).silently (.empty [] PUnit.unit rfl)
    have recalled : setting.Takes kept (old :: [owner]) _ (_ >>= fun _ => pure (some old)) Option.toList :=
      (inner.recalled isOutside areKept).mapped (fun _ => some old) fun _ => rfl
    rw [bind_assoc] at recalled
    exact recalled

/-! ### Arguments -/

/-- What is handed over stays as it is while slots are kept. -/
theorem Hands.later (isApart : setting.IsApart) {first : TypedArgument}
    {before after : Situation} {one : Handed}
    (keeps : ∀ slot, first.reference? = some slot → kept slot)
    (inside : ∀ ⦃slot cell : Nat⦄, setting.frame[slot]? = some cell → cell < before.cells.size)
    (spares : setting.Spares kept before after) (hands : setting.Hands before.cells first one) :
    setting.Hands after.cells first one := by
  cases hands with
  | value notSlot => exact .value notSlot
  | @cell slot cell value isSlot denotes holds =>
    refine .cell isSlot denotes fun notOut =>
      (spares.same (inside denotes) fun other denotes' => ?_).trans (holds notOut)
    by_cases isSame : other = slot
    · exact .inl (isSame ▸ keeps slot isSlot)
    · exact .inr (isApart.apart denotes' denotes isSame)

namespace HandsAll

variable {first : TypedArgument} {rest : List TypedArgument} {head tail : Block} {step : Evaluation Value}
  {others : Evaluation (List Passed)}

theorem nil : setting.HandsAll kept .empty [] (pure []) := by
  intro activation situation result mirrors ran
  cases ran
  exact ⟨rfl, .inr ⟨[], situation, rfl, mirrors, rfl, .refl situation, .nil⟩⟩

/-- An argument that is passed by value. -/
theorem consValue (isValue : first.reference? = none)
    (one : setting.Traces kept [] head step (fun value => [value]) 1)
    (rises : tail.Rises setting.site setting.most rest.length) (more : setting.HandsAll kept tail rest others) :
    setting.HandsAll kept (head ++ tail) (first :: rest)
      (step >>= fun value => others >>= fun passed => pure (.value value :: passed)) := by
  intro activation situation result mirrors ran
  have isStack : activation.stack = [] ++ activation.stack := rfl
  obtain ⟨middle, ranHead, ranTail⟩ := Activation.of_follow_next (fun _ ran => (one isStack mirrors ran).1) ran
  obtain ⟨isNext, height⟩ := rises ranTail
  refine ⟨isNext, ?_⟩
  obtain ⟨-, isLow | ⟨value, before, leads⟩⟩ := one isStack mirrors ranHead
  · left
    rw [List.length_cons]
    dsimp only at isLow height
    omega
  · obtain ⟨-, isLow | ⟨handed, after, passes, mirrors', isStack, spares, hands⟩⟩ := more leads.mirrors ranTail
    · left
      rw [leads.stack] at isLow
      simp only [List.length_append, List.length_cons, List.length_nil] at isLow ⊢
      omega
    · refine .inr ⟨⟨.value value, value⟩ :: handed, after, ?_, mirrors', ?_, leads.spares.trans spares,
        .cons (.value isValue) hands⟩
      · exact (Evaluation.bind_of leads.evaluates).trans (Evaluation.bind_of passes)
      · rw [isStack, leads.stack, List.map_cons, List.reverse_cons, List.append_assoc]

/-- An argument that is passed by reference. Its cell has the value that is pushed, unless it is passed as `out`. -/
theorem consCell (isApart : setting.IsApart) {slot : Nat} (isSlot : first.reference? = some slot)
    (exists_slot : slot < setting.site.slots.length) (isKept : kept slot)
    (one : setting.Takes kept [] head step fun value => [value])
    (reads : ∀ ⦃situation value after⦄, step situation = some (value, after) → after = situation ∧
      (first.mode ≠ .out → ∀ cell, setting.frame[slot]? = some cell → situation.cells[cell]? = some value))
    (rises : tail.Rises setting.site setting.most rest.length) (more : setting.HandsAll kept tail rest others) :
    setting.HandsAll kept (head ++ tail) (first :: rest)
      (Evaluation.given setting.frame[slot]? >>= fun cell => others >>= fun passed => pure (.cell cell :: passed)) := by
  intro activation situation result mirrors ran
  have isStack : activation.stack = [] ++ activation.stack := rfl
  obtain ⟨middle, ranHead, ranTail⟩ := Activation.of_follow_next (fun _ ran => (one isStack mirrors ran).1) ran
  obtain ⟨isNext, height⟩ := rises ranTail
  refine ⟨isNext, ?_⟩
  obtain ⟨-, value, before, leads⟩ := one isStack mirrors ranHead
  obtain ⟨rfl, holds⟩ := reads leads.evaluates
  obtain ⟨cell, denotes⟩ := isApart.exists_cell exists_slot
  obtain ⟨-, isLow | ⟨handed, after, passes, mirrors', isStack, spares, hands⟩⟩ := more leads.mirrors ranTail
  · left
    rw [leads.stack] at isLow
    simp only [List.length_append, List.length_cons, List.length_nil] at isLow ⊢
    omega
  · have isCell : Evaluation.given setting.frame[slot]? before = some (cell, before) := by
      rw [denotes]
      rfl
    have hands' : setting.Hands before.cells first ⟨.cell cell, value⟩ :=
      .cell isSlot denotes fun notOut => holds notOut cell denotes
    have keeps (other : Nat) (isOther : first.reference? = some other) : kept other := by
      cases isSlot.symm.trans isOther
      exact isKept
    refine .inr ⟨⟨.cell cell, value⟩ :: handed, after, ?_, mirrors', ?_, spares,
      .cons (hands'.later isApart keeps leads.mirrors.inside spares) hands⟩
    · exact (Evaluation.bind_of isCell).trans (Evaluation.bind_of passes)
    · rw [isStack, leads.stack, List.map_cons, List.reverse_cons, List.append_assoc]

end HandsAll

/-! ### Expressions -/

/-- Whether the code of a setting is that of a body with a typing, and its calls are calls by reference. -/
structure Suits (setting : Setting) (typing : Typing) (assigned : Nat → Nat → Prop)
    (call : Nat → List Passed → Evaluation (Option Value)) : Prop where
  isApart : setting.IsApart
  slots : typing.slots = setting.site.slots
  methods : typing.methods = setting.site.methods.map (·.methodType)
  levels : setting.site.call.Levels setting.site.methods
  refers : setting.site.call.Refers setting.site.methods assigned call

theorem Traces.one {type : Ty} (hasValue : type ≠ .void) {popped : List Value} {block : Block} {step : Evaluation α}
    {values : α → List Value} (traces : setting.Traces kept popped block step values 1) :
    setting.Traces kept popped block step values type.pushed.length := by
  rw [Ty.pushed_of_ne_void hasValue]
  exact traces

theorem Traces.valueOf {type : Ty} {popped : List Value} {block : Block} {value : Evaluation (Option Value)}
    (traces : setting.Traces kept popped block value Option.toList type.pushed.length) :
    setting.Traces kept popped block (Evaluation.operand value) (fun value => [value]) 1 := by
  refine traces.operand ?_
  unfold Ty.pushed
  split
  · exact Nat.zero_le 1
  · exact Nat.le_refl 1

/-! ### Nodes, over the code of the expressions in them -/

section

variable {object head tail : Block} {owner first second : Evaluation Value}

section

variable {slot : Nat} (isApart : setting.IsApart) (exists_slot : slot < setting.site.slots.length)
  (notKept : ¬kept slot) (notInput : ¬setting.site.IsInput slot)

include isApart exists_slot notKept notInput

/-- An assignment to a variable, behind its value. -/
theorem Traces.assignSlot (values : setting.Traces kept [] head first (fun value => [value]) 1) :
    setting.Traces kept [] (head ++ .ofList [.duplicate, .store slot])
      (do
        let assigned ← first
        Evaluation.write setting.frame slot assigned
        return some assigned)
      Option.toList 1 := by
  refine values.bind (.ofList ?_) (Int.le_refl 1) fun assigned =>
    (Takes.keepAndStore isApart exists_slot notKept notInput assigned).traces 1
  simp [Command.isLocal]

/-- An assignment to a variable with an operator: the old value stands below the other operand. -/
theorem Traces.updateSlot (operation : Operation)
    (values : setting.Traces kept [] head first (fun value => [value]) 1) :
    setting.Traces kept [] (.command (.load slot) ++ head ++ .ofList [.operate operation, .duplicate, .store slot])
      (do
        let old ← Evaluation.read setting.frame slot
        let right ← first
        let changed ← Evaluation.act (operation.apply old right)
        Evaluation.write setting.frame slot changed
        return some changed)
      Option.toList 1 := by
  refine .regroup ((Takes.load isApart exists_slot).bindTraces fun old =>
    (values.under [old]).bind (.ofList ?_) (Int.le_refl 1) fun right =>
      ((Takes.operate operation old right).bind fun changed =>
        .keepAndStore isApart exists_slot notKept notInput changed).traces 1)
  simp [Command.isLocal]

end

/-- An assignment to a field: the object stands below the value. -/
theorem Traces.assignField (name : String)
    (owners : setting.Traces kept [] object owner (fun value => [value]) 1)
    (rises : head.Rises setting.site setting.most 1)
    (values : setting.Traces kept [] head first (fun value => [value]) 1) :
    setting.Traces kept [] (object ++ head ++ .command (.storeField name))
      (do
        let owner ← owner
        let assigned ← first
        Evaluation.act (Action.setField name owner assigned)
        return some assigned)
      Option.toList 1 :=
  .regroup (owners.bind (rises.append (.command rfl)) (Int.le_refl 1) fun owner =>
    (values.under [owner]).bind (.command rfl) (Int.le_refl 1) fun assigned =>
      ((Takes.storeField name owner assigned).mapped (fun _ => some assigned) fun _ => rfl).traces 1)

/-- An assignment to a field with an operator: the object and the old value stand below the other operand. -/
theorem Traces.updateField (name : String) (operation : Operation)
    (owners : setting.Traces kept [] object owner (fun value => [value]) 1)
    (rises : head.Rises setting.site setting.most 1)
    (values : setting.Traces kept [] head first (fun value => [value]) 1) :
    setting.Traces kept [] (object ++ .ofList [.duplicate, .loadField name] ++ head ++
        .ofList [.operate operation, .storeField name])
      (do
        let owner ← owner
        let old ← Evaluation.act (Action.getField name owner)
        let right ← first
        let changed ← Evaluation.act (operation.apply old right)
        Evaluation.act (Action.setField name owner changed)
        return some changed)
      Option.toList 1 := by
  have loads (owner : Value) : setting.Takes kept [owner] (.ofList [.duplicate, .loadField name])
      (Evaluation.act (Action.getField name owner)) fun old => [old, owner] :=
    (Takes.duplicate owner).silently (((Takes.loadField name owner).under [owner]).followed
      fun old => .empty [old, owner] PUnit.unit rfl)
  have stores (owner old right : Value) : setting.Takes kept [right, old, owner]
      (.ofList [.operate operation, .storeField name])
      (do
        let changed ← Evaluation.act (operation.apply old right)
        Evaluation.act (Action.setField name owner changed)
        return some changed)
      Option.toList :=
    ((Takes.operate operation old right).under [owner]).bind fun changed =>
      (Takes.storeField name owner changed).bind fun _ => .empty [changed] (some changed) rfl
  refine .regroup (.regroup (owners.bind ((Block.Rises.ofList ?_).append (rises.append (.ofList ?_))) (Int.le_refl 1)
    fun owner => (loads owner).bindTraces fun old => (values.under [old, owner]).bind (.ofList ?_) (Int.le_refl 1)
      fun right => (stores owner old right).traces 1))
  all_goals simp [Command.isLocal]

/-- An operator between two operands. -/
theorem Traces.binary (operation : Operation) (firsts : setting.Traces kept [] head first (fun value => [value]) 1)
    (rises : tail.Rises setting.site setting.most 1)
    (seconds : setting.Traces kept [] tail second (fun value => [value]) 1) :
    setting.Traces kept [] (head ++ tail ++ .command (.operate operation))
      (do
        let first ← first
        let second ← second
        return some (← Evaluation.act (operation.apply first second)))
      Option.toList 1 :=
  .regroup (firsts.bind (rises.append (.command rfl)) (Int.le_refl 1) fun first =>
    (seconds.under [first]).bind (.command rfl) (Int.le_refl 1) fun second =>
      ((Takes.operate operation first second).traces 1).value)

/-- Of two truth values the second one is evaluated only if the first one does not decide. -/
theorem Traces.logical (isAnd : Bool) (firsts : setting.Traces kept [] head first (fun value => [value]) 1)
    (rises : tail.Rises setting.site setting.most 1)
    (seconds : setting.Traces kept [] tail second (fun value => [value]) 1) :
    setting.Traces kept [] (head ++ .command .duplicate ++ .guard isAnd (.command .drop ++ tail))
      (do
        let first ← first
        if (← Evaluation.given first.truth?) = isAnd then return some (← second) else return some first)
      Option.toList 1 := by
  have drops : (Block.command .drop).Rises setting.site setting.most (-1) := .command rfl
  exact .regroup (firsts.bind ((Block.Rises.command rfl).append (.guard isAnd (drops.append rises))) (Int.le_refl 1)
    fun first => (Takes.duplicate first).silentlyTraces (.guard isAnd rfl
      ((Takes.drop first).silentlyTraces seconds.value)))

/-- Of two operands the condition chooses one. -/
theorem Traces.conditional (tests : setting.Traces kept [] object owner (fun value => [value]) 1)
    (thenRises : head.Rises setting.site setting.most 1)
    (thens : setting.Traces kept [] head first (fun value => [value]) 1)
    (elseRises : tail.Rises setting.site setting.most 1)
    (elses : setting.Traces kept [] tail second (fun value => [value]) 1) :
    setting.Traces kept [] (object ++ .choose head tail)
      (do
        if ← Evaluation.given (← owner).truth? then return some (← first) else return some (← second))
      Option.toList 1 :=
  tests.bind (.choose thenRises elseRises) (Int.le_refl 1) fun _ => .choose thens.value elses.value

variable {arguments : Evaluation (List Value)} {type : Ty}

/-- A call of a host function, behind its arguments. -/
theorem Traces.hostCall {function : FunctionImport} (gives : type = .void ↔ function.result = none)
    (counts : ∀ ⦃situation results after⦄, arguments situation = some (results, after) →
      results.length = function.parameters.length)
    (values : setting.Traces kept [] head arguments List.reverse function.parameters.length) :
    setting.Traces kept [] (head ++ .command (.hostCall function))
      (arguments >>= fun arguments => Evaluation.callHost setting.site.libraries function arguments) Option.toList
      type.pushed.length := by
  refine values.bindKnown counts (.command rfl) ?_ fun arguments isCount => (Takes.hostCall function isCount).traces _
  rw [Command.rise, FunctionImport.length_result gives]
  omega

/-- A call of a built-in member: the receiver stands below the arguments. -/
theorem Traces.builtin {member : BuiltinMember} (gives : type = .void ↔ member.hasResult = false)
    (owners : setting.Traces kept [] object owner (fun value => [value]) 1)
    (rises : head.Rises setting.site setting.most member.arity)
    (counts : ∀ ⦃situation results after⦄, arguments situation = some (results, after) → results.length = member.arity)
    (values : setting.Traces kept [] head arguments List.reverse member.arity) :
    setting.Traces kept [] (object ++ head ++ .command (.builtin member))
      (do
        let owner ← owner
        let arguments ← arguments
        Evaluation.act (member.apply owner arguments))
      Option.toList type.pushed.length := by
  have height := BuiltinMember.length_result gives
  refine .regroup (owners.bind (rises.append (.command rfl)) ?_ fun owner => (values.under [owner]).bindKnown counts
    (.command rfl) ?_ fun arguments isCount => (Takes.builtin member owner isCount).traces _)
  · rw [Command.rise]
    omega
  · rw [Command.rise, List.length_singleton]
    omega

end

end Setting

section

variable {setting : Setting} {typing : Typing} {assigned : Nat → Nat → Prop}
  {call : Nat → List Passed → Evaluation (Option Value)} (suits : setting.Suits typing assigned call)

-- Some theorems of the mutual inductions use the assumptions only through the others.
set_option linter.unusedSectionVars false

include suits

theorem Place.Shows.exists_slot {shown : Ty} {slot : Nat} (shows : (Place.slot slot).Shows typing shown) :
    slot < setting.site.slots.length ∧ ¬setting.site.IsInput slot := by
  obtain ⟨declared, found, notInput, -⟩ := shows
  rw [suits.slots] at found
  refine ⟨(List.getElem?_eq_some_iff.1 found).1, fun ⟨declared', found', isInput⟩ => ?_⟩
  cases found.symm.trans found'
  exact notInput isInput

/-- The code of an operand leaves at most its value. -/
theorem TypedExpr.operand_rises (value : TypedExpr) (free : Nat) (fits : value.Fits typing) :
    (value.block free).Rises setting.site setting.most 1 :=
  (value.rises suits.methods suits.levels free fits).operand

omit suits in
/-- As many values are evaluated as there are expressions. -/
theorem TypedExpr.length_of_evaluateAll {around : Surroundings} {frame : List Nat} {values : List TypedExpr}
    {situation after : Situation} {results : List Value}
    (evaluates : TypedExpr.evaluateAll around frame values situation = some (results, after)) :
    results.length = values.length := by
  induction values generalizing situation results with
  | nil =>
      cases evaluates
      rfl
  | cons first rest ih =>
      obtain ⟨value, middle, -, evaluates⟩ := Evaluation.exists_of_bind evaluates
      obtain ⟨others, last, evaluatesRest, isPure⟩ := Evaluation.exists_of_bind evaluates
      cases isPure
      exact congrArg (· + 1) (ih evaluatesRest)

omit suits in
/-- What holds of all expressions in the arguments of a call holds of those in each of them. -/
theorem TypedArgument.EveryOfAll.of_mem {property : TypedNode → Ty → Prop} {passed : List TypedArgument}
    (every : TypedArgument.EveryOfAll property passed) : ∀ argument ∈ passed, argument.value.Every property := by
  induction passed with
  | nil => exact fun _ member => nomatch member
  | cons first rest ih =>
      obtain ⟨mode, value⟩ := first
      exact List.forall_mem_cons.2 ⟨every.1, ih every.2⟩

omit suits in
theorem TypedArgument.exists_slot {mode : PassMode} {value : TypedExpr} {index : Nat}
    (isReference : (TypedArgument.mk mode value).reference? = some index) :
    ∃ type span, value = .mk (.slot index) type span := by
  obtain ⟨node, type, span⟩ := value
  cases mode with
  | value => cases isReference
  | _ =>
    cases node <;> cases isReference
    exact ⟨type, span, rfl⟩

omit suits in
/-- An argument that is no variable passed by reference is pushed as a value. -/
theorem TypedArgument.blockOfAll_of_value {free : Nat} {mode : PassMode} {value : TypedExpr}
    {others : List TypedArgument} (isValue : (TypedArgument.mk mode value).reference? = none) :
    TypedArgument.blockOfAll free (.mk mode value :: others) =
      value.block free ++ TypedArgument.blockOfAll (free + value.temporaries) others := by
  conv => lhs; unfold blockOfAll
  split
  · next isEmpty => cases isEmpty
  · next isArgument =>
    cases isArgument
    cases isValue
  · next isArgument =>
    cases isArgument
    rfl

mutual

/-- Every run of the code of an expression is an evaluation of it. -/
theorem TypedExpr.traces (value : TypedExpr) (free : Nat) (isBehind : setting.frame.length ≤ free) {kept : Nat → Prop}
    (fits : value.Fits typing) (apart : value.PassesApart assigned)
    (leaves : ∀ slot, kept slot → value.Leaves assigned slot) :
    setting.Traces kept [] (value.block free) (value.evaluate ⟨setting.site.libraries, call⟩ setting.frame)
      Option.toList value.type.pushed.length := by
  match value with
  | .mk node type _ => exact (node.traces free isBehind type fits apart leaves).scope _

theorem TypedNode.traces (node : TypedNode) (free : Nat) (isBehind : setting.frame.length ≤ free) (type : Ty)
    {kept : Nat → Prop} (fits : node.Fits typing type)
    (apart : node.PassesApart assigned ∧ node.Every fun node _ => node.PassesApart assigned)
    (leaves : ∀ slot, kept slot → node.Leaves assigned slot ∧ node.Every fun node _ => node.Leaves assigned slot) :
    setting.Traces kept [] (node.block free type)
      (node.evaluate ⟨setting.site.libraries, call⟩ setting.frame type) Option.toList type.pushed.length := by
  match node with
  | .const value => exact .one fits.1 ((Setting.Takes.const value).traces 1).value
  | .slot index =>
    obtain ⟨hasValue, slot, found, -⟩ := fits
    rw [suits.slots] at found
    exact .one hasValue ((Setting.Takes.load suits.isApart (List.getElem?_eq_some_iff.1 found).1).traces 1).value
  | .field object name =>
    obtain ⟨hasValue, objectFits, -⟩ := fits
    have owners := (object.traces free isBehind objectFits apart.2 fun slot isKept => (leaves slot isKept).2).valueOf
    exact .one hasValue (owners.bind (.command rfl) (Int.le_refl 1) fun owner =>
      ((Setting.Takes.loadField name owner).traces 1).value)
  | .assign (.slot index) value =>
    obtain ⟨hasValue, valueFits, shown, shows, -⟩ := fits
    obtain ⟨inside, notInput⟩ := shows.exists_slot suits
    have notKept (isKept : kept index) : False := (leaves index isKept).1 rfl
    have values := (value.traces free isBehind valueFits apart.2.2 fun slot isKept => (leaves slot isKept).2.2).valueOf
    exact .one hasValue (.assignSlot suits.isApart inside notKept notInput values)
  | .assign (.field object name) value =>
    obtain ⟨hasValue, valueFits, shown, ⟨objectFits, -⟩, -⟩ := fits
    have owners := (object.traces free isBehind objectFits apart.2.1 fun slot isKept =>
      (leaves slot isKept).2.1).valueOf
    have values := (value.traces (free + object.temporaries) (Nat.le_add_right_of_le isBehind) valueFits apart.2.2
      fun slot isKept => (leaves slot isKept).2.2).valueOf
    exact .one hasValue (.assignField name owners (value.operand_rises suits _ valueFits) values)
  | .update (.slot index) operation value =>
    obtain ⟨hasValue, valueFits, shown, shows, -⟩ := fits
    obtain ⟨inside, notInput⟩ := shows.exists_slot suits
    have notKept (isKept : kept index) : False := (leaves index isKept).1 rfl
    have values := (value.traces free isBehind valueFits apart.2.2 fun slot isKept => (leaves slot isKept).2.2).valueOf
    exact .one hasValue (.updateSlot suits.isApart inside notKept notInput operation values)
  | .update (.field object name) operation value =>
    obtain ⟨hasValue, valueFits, shown, ⟨objectFits, -⟩, -⟩ := fits
    have owners := (object.traces free isBehind objectFits apart.2.1 fun slot isKept =>
      (leaves slot isKept).2.1).valueOf
    have values := (value.traces (free + object.temporaries) (Nat.le_add_right_of_le isBehind) valueFits apart.2.2
      fun slot isKept => (leaves slot isKept).2.2).valueOf
    exact .one hasValue (.updateField name operation owners (value.operand_rises suits _ valueFits) values)
  | .step (.slot index) isIncrement isFront =>
    obtain ⟨hasValue, shown, shows, -⟩ := fits
    obtain ⟨inside, notInput⟩ := shows.exists_slot suits
    have notKept (isKept : kept index) : False := (leaves index isKept).1 rfl
    exact .one hasValue
      ((Setting.Takes.stepSlot suits.isApart inside notKept notInput type isIncrement isFront).traces 1)
  | .step (.field object name) isIncrement isFront =>
    obtain ⟨hasValue, shown, ⟨objectFits, -⟩, -⟩ := fits
    have owners := (object.traces free isBehind objectFits apart.2 fun slot isKept => (leaves slot isKept).2).valueOf
    exact .one hasValue (owners.bind (.stepField type name isIncrement isFront _) (Int.le_refl 1) fun owner =>
      (Setting.Takes.stepField type name isIncrement isFront (Nat.le_add_right_of_le isBehind) owner).traces 1)
  | .binary operation left right =>
    obtain ⟨hasValue, leftFits, rightFits, -⟩ := fits
    have firsts := (left.traces free isBehind leftFits apart.2.1 fun slot isKept => (leaves slot isKept).2.1).valueOf
    have seconds := (right.traces (free + left.temporaries) (Nat.le_add_right_of_le isBehind) rightFits apart.2.2
      fun slot isKept => (leaves slot isKept).2.2).valueOf
    exact .one hasValue (.binary operation firsts (right.operand_rises suits _ rightFits) seconds)
  | .logical isAnd left right =>
    obtain ⟨hasValue, leftFits, rightFits, -⟩ := fits
    have firsts := (left.traces free isBehind leftFits apart.2.1 fun slot isKept => (leaves slot isKept).2.1).valueOf
    have seconds := (right.traces (free + left.temporaries) (Nat.le_add_right_of_le isBehind) rightFits apart.2.2
      fun slot isKept => (leaves slot isKept).2.2).valueOf
    exact .one hasValue (.logical isAnd firsts (right.operand_rises suits _ rightFits) seconds)
  | .not operand =>
    obtain ⟨hasValue, operandFits, -⟩ := fits
    have values := (operand.traces free isBehind operandFits apart.2 fun slot isKept => (leaves slot isKept).2).valueOf
    exact .one hasValue (values.bind (.command rfl) (Int.le_refl 1) fun value => (Setting.Takes.not value).traces 1)
  | .negate operand =>
    obtain ⟨hasValue, operandFits, -⟩ := fits
    have values := (operand.traces free isBehind operandFits apart.2 fun slot isKept => (leaves slot isKept).2).valueOf
    exact .one hasValue (values.bind (.command rfl) (Int.le_refl 1) fun value =>
      ((Setting.Takes.negate value).traces 1).value)
  | .conditional condition thenValue elseValue =>
    obtain ⟨hasValue, testFits, thenFits, elseFits, -⟩ := fits
    have thenIsBehind := Nat.le_add_right_of_le (k := condition.temporaries) isBehind
    have tests := (condition.traces free isBehind testFits apart.2.1 fun slot isKept =>
      (leaves slot isKept).2.1).valueOf
    have thens := (thenValue.traces (free + condition.temporaries) thenIsBehind thenFits apart.2.2.1
      fun slot isKept => (leaves slot isKept).2.2.1).valueOf
    have elses := (elseValue.traces (free + condition.temporaries + thenValue.temporaries)
      (Nat.le_add_right_of_le thenIsBehind) elseFits apart.2.2.2 fun slot isKept => (leaves slot isKept).2.2.2).valueOf
    exact .one hasValue (.conditional tests (thenValue.operand_rises suits _ thenFits) thens
      (elseValue.operand_rises suits _ elseFits) elses)
  | .convert (.numeric conversion) operand =>
    obtain ⟨hasValue, operandFits, -⟩ := fits
    have values := (operand.traces free isBehind operandFits apart.2 fun slot isKept => (leaves slot isKept).2).valueOf
    exact .one hasValue (values.bind (.command rfl) (Int.le_refl 1) fun value =>
      ((Setting.Takes.convert conversion value).traces 1).value)
  | .convert (.cast target) operand =>
    obtain ⟨hasValue, operandFits, -⟩ := fits
    have values := (operand.traces free isBehind operandFits apart.2 fun slot isKept => (leaves slot isKept).2).valueOf
    exact .one hasValue (values.bind (.command rfl) (Int.le_refl 1) fun value =>
      ((Setting.Takes.cast target value).traces 1).value)
  | .newList element => exact .one fits.1 ((Setting.Takes.newList element).traces 1).value
  | .newObject name => exact .one fits.1 ((Setting.Takes.newObject name).traces 1).value
  | .call index passed =>
    obtain ⟨signature, found, gives, passedFit, -⟩ := fits
    rw [suits.methods, List.getElem?_map] at found
    obtain ⟨method, isMethod, rfl⟩ := Option.map_eq_some_iff.1 found
    rw [Ty.length_pushed_congr gives]
    let more (slot : Nat) : Prop := ∀ argument ∈ passed, argument.value.Leaves assigned slot
    have hands : setting.HandsAll more _ passed _ :=
      TypedArgument.hands_all passed method.parameters free isBehind passedFit apart.2
        (fun argument member slot isMore => isMore argument member)
        fun argument member slot isSlot => apart.1.2 argument member slot isSlot
    exact .call suits.isApart suits.slots suits.refers suits.levels isMethod passedFit apart.1
      (fun slot isKept => (leaves slot isKept).1) (fun slot isKept => (leaves slot isKept).2.of_mem) hands
  | .hostCall function passed =>
    obtain ⟨count, gives, passedFit, -⟩ := fits
    have values := TypedExpr.traces_all passed free isBehind passedFit apart.2 fun slot isKept => (leaves slot isKept).2
    rw [count] at values
    exact .hostCall gives (fun _ _ _ evaluates => (TypedExpr.length_of_evaluateAll evaluates).trans count) values
  | .builtin member receiver passed =>
    obtain ⟨receiverFits, count, gives, passedFit, -⟩ := fits
    have owners := (receiver.traces free isBehind receiverFits apart.2.1 fun slot isKept =>
      (leaves slot isKept).2.1).valueOf
    have rises : (TypedExpr.blockOfAll (free + receiver.temporaries) passed).Rises setting.site setting.most _ :=
      TypedExpr.rises_all suits.methods suits.levels passed _ passedFit
    have values := TypedExpr.traces_all passed (free + receiver.temporaries) (Nat.le_add_right_of_le isBehind) passedFit
      apart.2.2 fun slot isKept => (leaves slot isKept).2.2
    rw [count] at rises values
    exact .builtin gives owners rises (fun _ _ _ evaluates => (TypedExpr.length_of_evaluateAll evaluates).trans count)
      values

/-- Every run of the code of expressions is an evaluation of them. -/
theorem TypedExpr.traces_all (values : List TypedExpr) (free : Nat) (isBehind : setting.frame.length ≤ free)
    {kept : Nat → Prop} (fits : TypedExpr.AllFit typing values)
    (apart : TypedExpr.EveryOfAll (fun node _ => node.PassesApart assigned) values)
    (leaves : ∀ slot, kept slot → TypedExpr.EveryOfAll (fun node _ => node.Leaves assigned slot) values) :
    setting.Traces kept [] (TypedExpr.blockOfAll free values)
      (TypedExpr.evaluateAll ⟨setting.site.libraries, call⟩ setting.frame values) List.reverse values.length := by
  match values with
  | [] => exact (Setting.Takes.empty [] [] rfl).traces 0
  | first :: rest =>
    rw [List.length_cons, Nat.add_comm]
    exact (first.traces free isBehind fits.1 apart.1 fun slot isKept => (leaves slot isKept).1).valueOf.bind
      (TypedExpr.rises_all suits.methods suits.levels rest _ fits.2) (by omega) fun value =>
        ((TypedExpr.traces_all rest _ (Nat.le_add_right_of_le isBehind) fits.2 apart.2 fun slot isKept =>
          (leaves slot isKept).2).under [value]).mapped (value :: ·) fun values => List.reverse_cons

/-- Every run of the code of arguments hands them over. -/
theorem TypedArgument.hands_all (passed : List TypedArgument) (parameters : List TypedParameter) (free : Nat)
    (isBehind : setting.frame.length ≤ free) {kept : Nat → Prop}
    (fits : TypedArgument.AllFit typing parameters passed)
    (apart : TypedArgument.EveryOfAll (fun node _ => node.PassesApart assigned) passed)
    (leaves : ∀ argument ∈ passed, ∀ slot, kept slot → argument.value.Leaves assigned slot)
    (keeps : ∀ argument ∈ passed, ∀ slot, argument.reference? = some slot → kept slot) :
    setting.HandsAll kept (TypedArgument.blockOfAll free passed) passed
      (TypedArgument.passAll ⟨setting.site.libraries, call⟩ setting.frame passed) := by
  match passed, parameters with
  | [], _ => exact .nil
  | .mk _ _ :: _, [] => cases fits
  | .mk mode value :: others, parameter :: parameters =>
    obtain ⟨-, valueFits, -, -, othersFit⟩ := fits
    rw [List.forall_mem_cons] at leaves keeps
    have rises (free : Nat) : (TypedArgument.blockOfAll free others).Rises setting.site setting.most others.length :=
      TypedArgument.rises_all suits.methods suits.levels others parameters free othersFit
    have tail (free : Nat) (isBehind : setting.frame.length ≤ free) :=
      TypedArgument.hands_all others parameters free isBehind othersFit apart.2 leaves.2 keeps.2
    cases isReference : (TypedArgument.mk mode value).reference? with
    | none =>
      rw [TypedArgument.blockOfAll_of_value isReference, TypedArgument.passAll, isReference]
      exact .consValue isReference (value.traces free isBehind valueFits apart.1 leaves.1).valueOf (rises _)
        (tail _ (Nat.le_add_right_of_le isBehind))
    | some index =>
      obtain ⟨type, span, rfl⟩ := TypedArgument.exists_slot isReference
      obtain ⟨-, slot, found, -⟩ := valueFits
      rw [suits.slots] at found
      have inside := (List.getElem?_eq_some_iff.1 found).1
      rw [TypedArgument.passAll, isReference]
      cases mode with
      | value => cases isReference
      | out =>
        refine .consCell suits.isApart isReference inside (keeps.1 index isReference)
          (.const type.defaultConstant) (fun situation value after done => ?_) (rises free) (tail free isBehind)
        cases done
        exact ⟨rfl, fun notOut => absurd rfl notOut⟩
      | ref | input =>
        refine .consCell suits.isApart isReference inside (keeps.1 index isReference)
          ((Setting.Takes.load suits.isApart inside).scope _) (fun situation value after done => ?_) (rises _)
          (tail _ (Nat.le_add_right_of_le isBehind))
        obtain ⟨isSame, holds⟩ := Evaluation.of_read done
        exact ⟨isSame, fun _ => holds⟩

end

end

end Snippet
