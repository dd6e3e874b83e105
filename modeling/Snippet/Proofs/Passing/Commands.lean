import Snippet.Proofs.Passing.Tracing

/-!
Commands beside the steps of the evaluation: what a command takes off the stack and puts there is what the step reads
and gives. The loads and stores of a running call are reads and writes of the cells that its slots denote.
-/

namespace Snippet

/-! ### Commands that work on the stack -/

namespace Command

/-- Whether a command stores nothing, loads nothing and calls nothing. -/
def isQuiet : Command → Bool
  | load _ | store _ | hostCall _ | call _ | giveBack | giveBackNothing => false
  | _ => true

/-- A local command goes on normally. -/
theorem isNext_of_run {site : Site} {single : Command} (isLocal : single.isLocal = true) {activation : Activation}
    {result : Completion × Activation} (ran : single.run site activation = some result) : result.1 = .next := by
  obtain ⟨after, -, rfl, -⟩ := of_run isLocal ran
  rfl

/-- A local command that ends has performed what it says. -/
theorem exists_performed {site : Site} {single : Command} {activation after : Activation}
    (ran : single.runLocal site activation = some after) :
    ∃ slots stack world, (single.perform site.libraries activation.slots activation.stack).inWorld activation.world =
        (.ok (slots, stack), world) ∧
      after = ⟨slots, single.noted activation.stored, stack, world,
        activation.calls ++ (single.hostCall? site.libraries activation.stack activation.world).toList⟩ := by
  unfold runLocal at ran
  split at ran
  · next slots stack world performed => exact ⟨slots, stack, world, performed, (Option.some.inj ran).symm⟩
  · cases ran

end Command

namespace Evaluation

variable {situation : Situation} {frame : List Nat} {slot cell : Nat} {value : Value}

theorem read_of (denotes : frame[slot]? = some cell) (holds : situation.cells[cell]? = some value) :
    read frame slot situation = some (value, situation) := by
  have isCell : given frame[slot]? situation = some (cell, situation) := by rw [denotes]; rfl
  rw [read, bind_of isCell]
  show given situation.cells[cell]? situation = _
  rw [holds]
  rfl

theorem of_read {after : Situation} (done : read frame slot situation = some (value, after)) :
    after = situation ∧ ∀ cell, frame[slot]? = some cell → situation.cells[cell]? = some value := by
  obtain ⟨cell, middle, isCell, isValue⟩ := exists_of_bind done
  obtain ⟨other, denotes, isGiven⟩ := Option.map_eq_some_iff.1 isCell
  cases isGiven
  obtain ⟨found, holds, isGiven⟩ := Option.map_eq_some_iff.1 isValue
  cases isGiven
  refine ⟨rfl, fun cell' denotes' => ?_⟩
  cases denotes.symm.trans denotes'
  exact holds

theorem write_of (denotes : frame[slot]? = some cell) :
    write frame slot value situation =
      some (⟨⟩, { situation with cells := situation.cells.setIfInBounds cell value }) := by
  have isCell : given frame[slot]? situation = some (cell, situation) := by rw [denotes]; rfl
  rw [write, bind_of isCell]
  rfl

end Evaluation

namespace Site

variable {site : Site} {slot other : Nat} {stored : List Nat}

/-- A store to a slot gives no other slot a value. -/
theorem lacks_cons_of_ne (isOther : other ≠ slot) : site.lacks (slot :: stored) other = site.lacks stored other := by
  have notSlot : (other == slot) = false := beq_false_of_ne isOther
  rw [lacks, lacks, List.contains_cons, notSlot, Bool.false_or]

end Site

namespace Setting

variable {setting : Setting} {kept : Nat → Prop} {α : Type}

/-- A quiet command is an action on its operands. -/
theorem Takes.perform {single : Command} (isQuiet : single.isQuiet = true) {popped : List Value} {action : Action α}
    {values : α → List Value}
    (performs : ∀ (slots : Array Value) (rest : Stack), single.perform setting.site.libraries slots (popped ++ rest) =
      action >>= fun value => pure (slots, values value ++ rest)) :
    setting.Takes kept popped (.command single) (Evaluation.act action) values := by
  have isLocal : single.isLocal = true := by cases single <;> first | rfl | cases isQuiet
  have noStore (stored : List Nat) : single.noted stored = stored := by cases single <;> first | rfl | cases isQuiet
  have noCall (stack : Stack) (world : World) : single.hostCall? setting.site.libraries stack world = none := by
    cases single <;> first | rfl | cases isQuiet
  intro activation rest situation result isStack mirrors ran
  obtain ⟨after, ranLocal, rfl, -⟩ := Command.of_run isLocal ran
  obtain ⟨slots, stack, world, performed, rfl⟩ := Command.exists_performed ranLocal
  rw [isStack, performs] at performed
  obtain ⟨value, middle, done, isPure⟩ := Action.of_bind_eq_ok performed
  obtain ⟨isPair, rfl⟩ := Action.of_pure_eq_ok isPure
  cases isPair
  rw [← mirrors.world] at done
  refine ⟨rfl, value, { situation with world }, Evaluation.act_of done, ?_, rfl, .ofCells rfl⟩
  rw [noStore, noCall, Option.toList_none, List.append_nil]
  exact ⟨rfl, mirrors.calls, mirrors.inside, mirrors.agrees⟩

/-- A quiet command whose action always succeeds. -/
theorem Takes.performPure {single : Command} (isQuiet : single.isQuiet = true) {popped : List Value} {value : α}
    {values : α → List Value}
    (performs : ∀ (slots : Array Value) (rest : Stack), single.perform setting.site.libraries slots (popped ++ rest) =
      pure (slots, values value ++ rest)) :
    setting.Takes kept popped (.command single) (pure value) values :=
  show setting.Takes kept popped _ (Evaluation.act (pure value)) values from .perform isQuiet performs

/-- A command that raises an exception does not end, whatever the evaluation does. -/
theorem Takes.raise {single : Command} (isLocal : single.isLocal = true) {popped : List Value} {step : Evaluation α}
    {values : α → List Value}
    (raises : ∀ (slots : Array Value) (rest : Stack) (world : World), ∃ exception,
      (single.perform setting.site.libraries slots (popped ++ rest)).inWorld world = (.error exception, world)) :
    setting.Takes kept popped (.command single) step values := by
  intro activation rest situation result isStack mirrors ran
  obtain ⟨after, ranLocal, -⟩ := Command.of_run isLocal ran
  obtain ⟨slots, stack, world, performed, -⟩ := Command.exists_performed ranLocal
  obtain ⟨exception, raised⟩ := raises activation.slots rest activation.world
  rw [isStack, raised] at performed
  cases performed

theorem Takes.duplicate (value : Value) :
    setting.Takes kept [value] (.command .duplicate) (pure PUnit.unit) fun _ => [value, value] :=
  .performPure rfl fun _ _ => rfl

theorem Takes.drop (value : Value) : setting.Takes kept [value] (.command .drop) (pure PUnit.unit) fun _ => [] :=
  .performPure rfl fun _ _ => rfl

theorem Takes.const (value : Constant) :
    setting.Takes kept [] (.command (.const value)) (pure value.toValue) fun pushed => [pushed] :=
  .performPure rfl fun _ _ => rfl

theorem Takes.operate (operation : Operation) (first second : Value) :
    setting.Takes kept [second, first] (.command (.operate operation))
      (Evaluation.act (operation.apply first second)) fun result => [result] :=
  .perform rfl fun _ _ => rfl

theorem Takes.negate (value : Value) :
    setting.Takes kept [value] (.command .negate) (Evaluation.act value.negate) fun result => [result] :=
  .perform rfl fun _ _ => rfl

theorem Takes.convert (conversion : NumericConversion) (value : Value) :
    setting.Takes kept [value] (.command (.convert conversion)) (pure (conversion.apply value))
      fun result => [result] :=
  .performPure rfl fun _ _ => rfl

theorem Takes.cast (target : String) (value : Value) :
    setting.Takes kept [value] (.command (.cast target)) (Evaluation.act (value.castTo target))
      fun result => [result] :=
  .perform rfl fun _ _ => rfl

theorem Takes.newList (element : String) :
    setting.Takes kept [] (.command (.newList element)) (Evaluation.act (Action.newList element #[]))
      fun result => [result] :=
  .perform rfl fun _ _ => rfl

theorem Takes.not (value : Value) :
    setting.Takes kept [value] (.command .not)
      (Evaluation.given value.truth? >>= fun truth => pure (some (Value.bool !truth))) Option.toList := by
  cases value with
  | bool truth => exact .performPure rfl fun _ _ => rfl
  | _ => exact .raise rfl fun _ _ _ => ⟨_, rfl⟩

theorem Takes.newObject (type : String) :
    setting.Takes kept [] (.command (.newObject type)) (Evaluation.create setting.site.libraries type)
      fun result => [result] := by
  unfold Evaluation.create
  split
  · next name fields isLinked =>
    refine .perform rfl fun slots rest => ?_
    simp only [Command.perform, isLinked]
    rfl
  · next notLinked =>
    refine .raise rfl fun slots rest world => ⟨.badImage (.notAType 0), ?_⟩
    rw [Command.perform]
    split
    · next name fields isLinked => exact absurd isLinked (notLinked name fields)
    · rfl

/-- A field of an object is loaded as it is read. -/
theorem Takes.loadField (name : String) (object : Value) :
    setting.Takes kept [object] (.command (.loadField name)) (Evaluation.act (Action.getField name object))
      fun result => [result] := by
  refine .perform rfl fun slots rest => ?_
  show (liftM (Module.fieldOwner name object) : Action Nat) >>= _ = _
  unfold Action.getField
  rw [bind_assoc]
  congr 1
  funext reference
  rw [bind_assoc]
  congr 1
  funext store
  cases (store.fields reference).get? name <;> rfl

/-- A field of an object is stored as it is set. -/
theorem Takes.storeField (name : String) (object value : Value) :
    setting.Takes kept [value, object] (.command (.storeField name))
      (Evaluation.act (Action.setField name object value))
      fun _ => [value] := by
  refine .perform rfl fun slots rest => ?_
  show (liftM (Module.fieldOwner name object) : Action Nat) >>= _ = _
  unfold Action.setField
  rw [bind_assoc]
  congr 1
  funext reference
  rw [bind_assoc]
  congr 1
  funext store
  dsimp only
  split <;> rfl

/-- A function of the host is called with the operands. -/
theorem Takes.hostCall (function : FunctionImport) {arguments : List Value}
    (count : arguments.length = function.parameters.length) :
    setting.Takes kept arguments.reverse (.command (.hostCall function))
      (Evaluation.callHost setting.site.libraries function arguments) Option.toList := by
  intro activation rest situation result isStack mirrors ran
  obtain ⟨after, ranLocal, rfl, -⟩ := Command.of_run rfl ran
  obtain ⟨slots, stack, world, performed, rfl⟩ := Command.exists_performed ranLocal
  rw [isStack, Command.perform] at performed
  split at performed
  · next run arity hasResult isLinked =>
    have isArity : arity = arguments.length := by
      obtain ⟨found, ⟨-, -, -, fits⟩, isFunction⟩ := FunctionImport.of_link isLinked
      cases isFunction
      rw [count, ← Candidate.length_of_mapM_fullName? (HostFunction.fits_iff.1 fits).1]
    have isCall : (Command.hostCall function).hostCall? setting.site.libraries activation.stack activation.world =
        some ⟨function, arguments, activation.world⟩ := by
      rw [Command.hostCall?, isLinked, isStack, isArity]
      simp only [List.take_left' List.length_reverse, List.reverse_reverse]
    have popped : Stack.popMany (arguments.reverse ++ rest) arity = .ok (arguments, rest) := by
      rw [isArity]
      exact Stack.popMany_pushAll rest arguments
    rw [popped] at performed
    obtain ⟨value, middle, done, isPure⟩ :=
      Action.of_bind_eq_ok (show (run arguments >>= _ : Action _).inWorld _ = _ from performed)
    obtain ⟨isPair, rfl⟩ := Action.of_pure_eq_ok isPure
    cases isPair
    rw [← mirrors.world] at done
    let noted : Situation :=
      { situation with calls := situation.calls ++ [⟨function, arguments, situation.world⟩] }
    have notes : (modify fun situation : Situation => { situation with
        calls := situation.calls ++ [⟨function, arguments, situation.world⟩] } : Evaluation PUnit) situation =
          some (⟨⟩, noted) := rfl
    have acts : Evaluation.act (run arguments) noted = some (value, { noted with world }) := Evaluation.act_of done
    refine ⟨rfl, if hasResult then some value else none, { noted with world }, ?_, ?_, rfl, .ofCells rfl⟩
    · rw [Evaluation.callHost, isLinked]
      exact (Evaluation.bind_of notes).trans (Evaluation.bind_of acts)
    · rw [isCall]
      refine ⟨rfl, ?_, mirrors.inside, mirrors.agrees⟩
      show situation.calls ++ [_] = activation.calls ++ [_]
      rw [mirrors.calls, mirrors.world]
  · cases performed

/-- A member is applied to the operands, the receiver below the arguments. -/
theorem Takes.builtin (member : BuiltinMember) (receiver : Value) {arguments : List Value}
    (count : arguments.length = member.arity) :
    setting.Takes kept (arguments.reverse ++ [receiver]) (.command (.builtin member))
      (Evaluation.act (member.apply receiver arguments)) Option.toList := by
  refine .perform rfl fun slots rest => ?_
  have popped : Stack.popMany (arguments.reverse ++ [receiver] ++ rest) member.arity =
      .ok (arguments, receiver :: rest) := by
    rw [← count, List.append_assoc]
    exact Stack.popMany_pushAll (receiver :: rest) arguments
  rw [Command.perform, popped]
  rfl

/-! ### Variables -/

end Setting

/-- What a load of a slot leaves behind. -/
theorem Command.of_load {site : Site} {slot : Nat} {activation : Activation} {result : Completion × Activation}
    (ran : (Command.load slot).run site activation = some result) :
    ∃ value, activation.slots[slot]? = some value ∧ site.lacks activation.stored slot = false ∧
      result = (.next, { activation with stack := value :: activation.stack }) := by
  obtain ⟨after, ranLocal, rfl, hasValue⟩ := Command.of_run rfl ran
  obtain ⟨slots, stack, world, performed, rfl⟩ := Command.exists_performed ranLocal
  have noCall : (Command.load slot).hostCall? site.libraries activation.stack activation.world = none := rfl
  rw [Command.perform] at performed
  split at performed
  · next value isValue =>
    cases performed
    rw [noCall, Option.toList_none, List.append_nil]
    exact ⟨value, isValue, hasValue slot rfl, rfl⟩
  · cases performed

/-- What a store to a slot leaves behind. -/
theorem Command.of_store {site : Site} {slot : Nat} {value : Value} {rest : Stack} {activation : Activation}
    {result : Completion × Activation} (isStack : activation.stack = value :: rest)
    (ran : (Command.store slot).run site activation = some result) :
    slot < activation.slots.size ∧ result = (.next,
      { activation with slots := activation.slots.setIfInBounds slot value, stored := slot :: activation.stored,
                        stack := rest }) := by
  obtain ⟨after, ranLocal, rfl, -⟩ := Command.of_run rfl ran
  obtain ⟨slots, stack, world, performed, rfl⟩ := Command.exists_performed ranLocal
  rw [isStack] at performed
  by_cases inside : slot < activation.slots.size
  · have stores : (Command.store slot).perform site.libraries activation.slots (value :: rest) =
        pure (activation.slots.setIfInBounds slot value, rest) := by
      exact if_neg (Nat.not_le.2 inside)
    have noCall : (Command.store slot).hostCall? site.libraries activation.stack activation.world = none := rfl
    rw [stores] at performed
    cases performed
    rw [noCall, Option.toList_none, List.append_nil]
    exact ⟨inside, rfl⟩
  · have raises : (Command.store slot).perform site.libraries activation.slots (value :: rest) =
        throw (.badImage (.noLocal slot)) := by
      show (if activation.slots.size ≤ slot then _ else _) = _
      exact (if_pos (Nat.not_lt.1 inside)).trans rfl
    rw [raises] at performed
    cases performed

/-- Commands that store nothing leave the slots as they are. -/
theorem Block.keeps_slots {site : Site} {most : Nat} {commands : List Command}
    (areKept : ∀ single ∈ commands, single.isLocal = true ∧ single.keepsSlots = true) {activation : Activation}
    {result : Completion × Activation} (ran : (Block.ofList commands).run site most activation = some result) :
    result.2.slots = activation.slots ∧ result.2.stored = activation.stored := by
  induction commands generalizing activation with
  | nil =>
      cases ran
      exact ⟨rfl, rfl⟩
  | cons first rest ih =>
      rw [List.forall_mem_cons] at areKept
      obtain ⟨⟨isLocal, isKept⟩, areKept⟩ := areKept
      obtain ⟨middle, ranFirst, ranRest⟩ :=
        Activation.of_follow_next (fun _ ran => Command.isNext_of_run isLocal ran) ran
      obtain ⟨after, ranLocal, isAfter, -⟩ := Command.of_run isLocal ranFirst
      cases isAfter
      obtain ⟨sameSlots, sameStored⟩ := (Command.of_runLocal isLocal ranLocal).2 isKept
      obtain ⟨sameSlots', sameStored'⟩ := ih areKept ranRest
      exact ⟨sameSlots'.trans sameSlots, sameStored'.trans sameStored⟩

namespace Setting

variable {setting : Setting} {kept : Nat → Prop} {α : Type}

/-- A slot that has a value is loaded as its cell is read. -/
theorem Takes.load (isApart : setting.IsApart) {slot : Nat} (exists_slot : slot < setting.site.slots.length) :
    setting.Takes kept [] (.command (.load slot)) (Evaluation.read setting.frame slot) fun value => [value] := by
  intro activation rest situation result isStack mirrors ran
  obtain ⟨value, isValue, hasValue, rfl⟩ := Command.of_load ran
  obtain ⟨cell, denotes⟩ := isApart.exists_cell exists_slot
  have holds := (mirrors.agrees denotes hasValue).trans isValue
  exact ⟨rfl, value, situation, Evaluation.read_of denotes holds,
    ⟨mirrors.world, mirrors.calls, mirrors.inside, mirrors.agrees⟩, congrArg (value :: ·) isStack, .refl situation⟩

/-- A slot is stored to as its cell is written. -/
theorem Takes.store (isApart : setting.IsApart) {slot : Nat} (exists_slot : slot < setting.site.slots.length)
    (notKept : ¬kept slot) (notInput : ¬setting.site.IsInput slot) (value : Value) :
    setting.Takes kept [value] (.command (.store slot)) (Evaluation.write setting.frame slot value) fun _ => [] := by
  intro activation rest situation result isStack mirrors ran
  obtain ⟨inside, rfl⟩ := Command.of_store isStack ran
  obtain ⟨cell, denotes⟩ := isApart.exists_cell exists_slot
  have exists_cell := mirrors.inside denotes
  refine ⟨rfl, ⟨⟩, _, Evaluation.write_of denotes, ⟨mirrors.world, mirrors.calls, ?_, ?_⟩, rfl, ?_, ?_⟩
  · intro other cell' denotes'
    rw [Array.size_setIfInBounds]
    exact mirrors.inside denotes'
  · intro other cell' denotes' hasValue
    dsimp only at hasValue ⊢
    by_cases isSlot : other = slot
    · subst isSlot
      cases denotes.symm.trans denotes'
      rw [Array.getElem?_setIfInBounds_self_of_lt exists_cell, Array.getElem?_setIfInBounds_self_of_lt inside]
    · have notCell : cell ≠ cell' := by
        rintro rfl
        exact notInput (isApart.apart denotes denotes' (Ne.symm isSlot))
      rw [Array.getElem?_setIfInBounds_ne notCell, Array.getElem?_setIfInBounds_ne (Ne.symm isSlot)]
      rw [Site.lacks_cons_of_ne isSlot] at hasValue
      exact mirrors.agrees denotes' hasValue
  · exact Nat.le_of_eq Array.size_setIfInBounds.symm
  · intro other _ isKept
    refine Array.getElem?_setIfInBounds_ne ?_
    rintro rfl
    exact (isKept slot denotes).elim notKept notInput

/-- A temporary holds a value while commands run that store nothing. -/
theorem Takes.recalled {temporary : Nat} (isOutside : setting.frame.length ≤ temporary) {commands : List Command}
    (areKept : ∀ single ∈ commands, single.isLocal = true ∧ single.keepsSlots = true) {value : Value}
    {popped : List Value} {step : Evaluation α}
    (inner : setting.Takes kept (value :: popped) (.ofList commands) step fun _ => []) :
    setting.Takes kept (value :: popped)
      (.ofList ([.store temporary, .load temporary] ++ (commands ++ [.load temporary]))) step fun _ => [value] := by
  intro activation rest situation result isStack mirrors ran
  have goesOn {single : Command} (isLocal : single.isLocal = true) {activation : Activation} ⦃ended⦄
      (ran : (Block.command single).run setting.site setting.most activation = some ended) : ended.1 = .next :=
    Command.isNext_of_run isLocal ran
  obtain ⟨stored, ranStore, ran⟩ := Activation.of_follow_next (goesOn rfl) ran
  obtain ⟨inside, isStored⟩ := Command.of_store isStack ranStore
  cases isStored
  obtain ⟨loaded, ranLoad, ran⟩ := Activation.of_follow_next (goesOn rfl) ran
  obtain ⟨value', isValue, -, isLoaded⟩ := Command.of_load ranLoad
  cases isLoaded
  cases (Array.getElem?_setIfInBounds_self_of_lt inside).symm.trans isValue
  have mirrors' : setting.Mirrors { activation with
      slots := activation.slots.setIfInBounds temporary value, stored := temporary :: activation.stored,
      stack := value :: (popped ++ rest) } situation := by
    refine ⟨mirrors.world, mirrors.calls, mirrors.inside, fun slot cell denotes hasValue => ?_⟩
    have notTemporary : slot ≠ temporary :=
      Nat.ne_of_lt (Nat.lt_of_lt_of_le (List.getElem?_eq_some_iff.1 denotes).1 isOutside)
    rw [Site.lacks_cons_of_ne notTemporary] at hasValue
    rw [Array.getElem?_setIfInBounds_ne (Ne.symm notTemporary)]
    exact mirrors.agrees denotes hasValue
  replace ran := (Block.run_ofList_append commands [.load temporary] _).symm.trans ran
  obtain ⟨middle, ranInner, ran⟩ := Activation.of_follow_next (fun _ ran => (inner rfl mirrors' ran).1) ran
  obtain ⟨-, given, after, leads⟩ := inner rfl mirrors' ranInner
  obtain ⟨sameSlots, -⟩ := Block.keeps_slots areKept ranInner
  obtain ⟨last, ranLast, ran⟩ := Activation.of_follow_next (goesOn rfl) ran
  obtain ⟨value', isValue', -, isLast⟩ := Command.of_load ranLast
  cases isLast
  cases ran
  rw [sameSlots] at isValue'
  cases isValue.symm.trans isValue'
  exact ⟨rfl, given, after, leads.evaluates, ⟨leads.mirrors.world, leads.mirrors.calls, leads.mirrors.inside,
    leads.mirrors.agrees⟩, congrArg (value :: ·) leads.stack, leads.spares⟩

/-! ### Branches -/

end Setting

/-- A test takes a truth value off the stack. -/
theorem Activation.of_popTruth {activation after : Activation} {value : Value} {rest : Stack} {truth : Bool}
    (isStack : activation.stack = value :: rest) (popped : activation.popTruth = some (truth, after)) :
    value = .bool truth ∧ after = { activation with stack := rest } := by
  unfold popTruth at popped
  rw [isStack] at popped
  cases value <;> cases popped
  exact ⟨rfl, rfl⟩

namespace Setting

variable {setting : Setting} {kept : Nat → Prop} {α : Type}

section

variable {below : List Value} {block other : Block} {step step' : Evaluation α} {values : α → List Value} {count : Nat}

/-- Runs of a branch are steps of an evaluation that takes the same branch. -/
theorem Traces.taken {rest : Stack} {situation : Situation} {activation : Activation}
    {result : Completion × Activation} (traces : setting.Traces kept below block step values count)
    (isStack : activation.stack = below ++ rest) (mirrors : setting.Mirrors activation situation)
    (ran : block.run setting.site setting.most activation = some result) (same : step' situation = step situation) :
    result.1 = .next ∧ (result.2.stack.length < rest.length + count ∨
      ∃ value after, setting.Leads kept step' values rest situation result.2 value after) := by
  obtain ⟨isNext, isLow | ⟨value, after, leads⟩⟩ := traces isStack mirrors ran
  · exact ⟨isNext, .inl isLow⟩
  · exact ⟨isNext, .inr ⟨value, after, same.trans leads.evaluates, leads.mirrors, leads.stack, leads.spares⟩⟩

/-- A guarded block runs if the truth value is the given one, and otherwise what lies below it is the result. -/
theorem Traces.guard (truth : Bool) {first : Value} {value : α} (isValue : values value = below)
    (inner : setting.Traces kept below block step values count) :
    setting.Traces kept (first :: below) (.guard truth block)
      (Evaluation.given first.truth? >>= fun found => if found = truth then step else pure value) values count := by
  intro activation rest situation result isStack mirrors ran
  rw [Block.run] at ran
  split at ran
  · cases ran
  · next found after popped =>
    obtain ⟨rfl, rfl⟩ := Activation.of_popTruth isStack popped
    have mirrors' : setting.Mirrors { activation with stack := below ++ rest } situation :=
      ⟨mirrors.world, mirrors.calls, mirrors.inside, mirrors.agrees⟩
    split at ran
    · next isTruth =>
      refine inner.taken rfl mirrors' ran ?_
      show (if found = truth then step else pure value) situation = _
      rw [if_pos isTruth]
    · next notTruth =>
      cases ran
      refine ⟨rfl, .inr ⟨value, situation, ?_, mirrors', congrArg (· ++ rest) isValue.symm, .refl situation⟩⟩
      show (if found = truth then step else pure value) situation = _
      rw [if_neg notTruth]
      rfl

/-- The first block runs if the truth value is true, and otherwise the second one. -/
theorem Traces.choose {first : Value} (onTrue : setting.Traces kept below block step values count)
    (onFalse : setting.Traces kept below other step' values count) :
    setting.Traces kept (first :: below) (.choose block other)
      (Evaluation.given first.truth? >>= fun found => if found = true then step else step') values count := by
  intro activation rest situation result isStack mirrors ran
  have mirrors' : setting.Mirrors { activation with stack := below ++ rest } situation :=
    ⟨mirrors.world, mirrors.calls, mirrors.inside, mirrors.agrees⟩
  rw [Block.run] at ran
  split at ran
  · cases ran
  · next popped =>
    obtain ⟨rfl, rfl⟩ := Activation.of_popTruth isStack popped
    exact onTrue.taken rfl mirrors' ran rfl
  · next popped =>
    obtain ⟨rfl, rfl⟩ := Activation.of_popTruth isStack popped
    exact onFalse.taken rfl mirrors' ran rfl

end

end Setting

end Snippet
