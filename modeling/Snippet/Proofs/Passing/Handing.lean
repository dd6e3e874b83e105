import Snippet.Proofs.Passing.Commands

/-!
Calls beside the evaluation by reference: what is handed over for the parameters, and what a call leaves behind. The
final values of the parameters go to the slots that were passed, where the evaluation has changed their cells already.
Main statement: `Setting.Traces.call`.
-/

namespace Snippet

/-! ### What is handed over -/

/-- What is handed over for a parameter: what the evaluation passes, and the value that the code pushes. -/
structure Handed where
  passed : Passed
  value : Value

/-- Whether what is handed over suits a parameter. A variable that is passed by reference has the value that is pushed,
unless it is passed as `out`. -/
inductive Handed.Suits (cells : Array Value) (mode : PassMode) : Handed → Prop
  | value {value : Value} (isValue : mode.writesBack = false) : Suits cells mode ⟨.value value, value⟩
  | cell {cell : Nat} {value : Value} (isReference : mode ≠ .value) (inside : cell < cells.size)
      (holds : mode ≠ .out → cells[cell]? = some value) : Suits cells mode ⟨.cell cell, value⟩

/-- Whether what is handed over suits the parameters of a method. No cell is passed to two parameters, unless they only
read it. -/
structure TypedMethod.Receives (method : TypedMethod) (handed : List Handed) (cells : Array Value) : Prop where
  length : handed.length = method.parameters.length
  suits : ∀ ⦃position : Nat⦄ ⦃parameter : TypedParameter⦄ ⦃one : Handed⦄,
    method.parameters[position]? = some parameter → handed[position]? = some one → one.Suits cells parameter.mode
  apart : ∀ ⦃first second cell : Nat⦄ ⦃value value' : Value⦄ ⦃parameter : TypedParameter⦄,
    handed[first]? = some ⟨.cell cell, value⟩ → handed[second]? = some ⟨.cell cell, value'⟩ → first ≠ second →
    method.parameters[first]? = some parameter → parameter.mode = .input

/-- Whether a situation is that behind an evaluation of the call that has left something behind: cells change only if
they are passed to parameters that are assigned, and hold the final values. -/
structure Leaving.Shows (left : Leaving) (method : TypedMethod) (assigned : Nat → Prop) (handed : List Handed)
    (stack : Stack) (before after : Situation) : Prop where
  stack : left.stack = stack
  world : after.world = left.world
  calls : after.calls = left.calls
  grows : before.cells.size ≤ after.cells.size
  spares : ∀ ⦃cell : Nat⦄, cell < before.cells.size →
    (∀ (position : Nat) (value : Value) (parameter : TypedParameter), handed[position]? = some ⟨.cell cell, value⟩ →
      method.parameters[position]? = some parameter → parameter.mode = .input ∨ ¬assigned position) →
    after.cells[cell]? = before.cells[cell]?
  finals : ∀ ⦃position cell : Nat⦄ ⦃value : Value⦄ ⦃parameter : TypedParameter⦄,
    handed[position]? = some ⟨.cell cell, value⟩ → method.parameters[position]? = some parameter →
    parameter.mode.writesBack = true → after.cells[cell]? = left.slots[position]?

/-- Whether calls are calls by reference: every one that ends is an evaluation, unless it leaves too little on the
stack. -/
def Calling.Refers (calling : Calling) (methods : List TypedMethod) (assigned : Nat → Nat → Prop)
    (call : Nat → List Passed → Evaluation (Option Value)) : Prop :=
  ∀ ⦃index : Nat⦄ ⦃method : TypedMethod⦄ ⦃handed : List Handed⦄ ⦃stack : Stack⦄ ⦃situation : Situation⦄
    ⦃left : Leaving⦄, methods[index]? = some method → method.Receives handed situation.cells →
    calling index (handed.map (·.value)) stack situation.world situation.calls = some left →
    left.stack.length < stack.length ∨ ∃ after,
      call index (handed.map (·.passed)) situation = some (left.result, after) ∧
        left.Shows method (assigned index) handed stack situation after

/-- The final values of the parameters that are written back, from a position on. -/
def TypedParameter.finalsFrom (slots : Array Value) : Nat → List TypedParameter → List Value
  | _, [] => []
  | position, parameter :: rest =>
    if parameter.mode.writesBack then slots.getD position .null :: finalsFrom slots (position + 1) rest
    else finalsFrom slots (position + 1) rest

theorem TypedMethod.finals_eq (method : TypedMethod) (slots : Array Value) :
    method.finals slots = TypedParameter.finalsFrom slots 0 method.parameters := by
  have go (parameters : List TypedParameter) (start : Nat) :
      (((parameters.map fun parameter =>
          SignatureParameter.mk parameter.name parameter.mode parameter.type.fullName).zipIdx start).filter
        (·.1.mode.writesBack)).map (fun place => slots.getD place.2 .null) =
          TypedParameter.finalsFrom slots start parameters := by
    induction parameters generalizing start with
    | nil => rfl
    | cons first rest ih =>
        rw [List.map_cons, List.zipIdx_cons, List.filter_cons, TypedParameter.finalsFrom]
        dsimp only
        split
        · exact congrArg (_ :: ·) (ih _)
        · exact ih _
  exact go method.parameters 0

namespace TypedArgument

variable {typing : Typing} {parameters : List TypedParameter} {passed : List TypedArgument}

theorem reference?_of_writesBack {mode : PassMode} {value : TypedExpr} {index : Nat}
    (writesBack : mode.writesBack = true) (isSlot : value.node = .slot index) :
    (TypedArgument.mk mode value).reference? = some index := by
  obtain ⟨node, type, span⟩ := value
  obtain rfl : node = .slot index := isSlot
  cases mode with
  | value => cases writesBack
  | _ => rfl

theorem mode_ne_value_of_reference? {argument : TypedArgument} {index : Nat}
    (isSlot : argument.reference? = some index) : argument.mode ≠ .value := by
  obtain ⟨mode, value⟩ := argument
  rintro rfl
  cases isSlot

/-- What the arguments of a call promise, one by one. -/
theorem AllFit.at (fits : AllFit typing parameters passed) {position : Nat} {argument : TypedArgument}
    (found : passed[position]? = some argument) :
    ∃ parameter, parameters[position]? = some parameter ∧ argument.mode = parameter.mode ∧
      argument.value.Fits typing ∧
      (argument.mode.writesBack = true → ∃ index slot, argument.reference? = some index ∧
        typing.slots[index]? = some slot ∧ slot.mode ≠ some .input) := by
  induction passed generalizing parameters position with
  | nil => cases found
  | cons first rest ih =>
      obtain ⟨mode, value⟩ := first
      cases parameters with
      | nil => cases fits
      | cons parameter parameters =>
        obtain ⟨isMode, valueFits, -, written, othersFit⟩ := fits
        cases position with
        | zero =>
          cases found
          refine ⟨parameter, rfl, isMode, valueFits, fun writesBack => ?_⟩
          obtain ⟨index, slot, isSlot, isFound, notInput, -⟩ := written writesBack
          exact ⟨index, slot, reference?_of_writesBack writesBack isSlot, isFound, notInput⟩
        | succ position => exact ih othersFit found

/-- The slot that the final value of a parameter is written back to. -/
def writtenSlot? (argument : TypedArgument) : Option Nat :=
  if argument.mode.writesBack then argument.reference? else none

theorem of_writtenSlot? {argument : TypedArgument} {slot : Nat} (isSlot : argument.writtenSlot? = some slot) :
    argument.mode.writesBack = true ∧ argument.reference? = some slot := by
  unfold writtenSlot? at isSlot
  split at isSlot
  · next writesBack => exact ⟨writesBack, isSlot⟩
  · cases isSlot

/-- The slots that are written back with the final values of the parameters that they are passed to, from a position
on. -/
def writesFrom (slots : Array Value) : Nat → List TypedArgument → List (Nat × Value)
  | _, [] => []
  | position, argument :: rest =>
    argument.writtenSlot?.toList.map (·, slots.getD position .null) ++ writesFrom slots (position + 1) rest

theorem mem_writesFrom {slots : Array Value} {start : Nat} {slot : Nat} {value : Value} :
    (slot, value) ∈ writesFrom slots start passed ↔ ∃ position argument, passed[position]? = some argument ∧
      argument.writtenSlot? = some slot ∧ value = slots.getD (start + position) .null := by
  induction passed generalizing start with
  | nil => simp [writesFrom]
  | cons first rest ih =>
      have isHead : (slot, value) ∈ first.writtenSlot?.toList.map (·, slots.getD start .null) ↔
          first.writtenSlot? = some slot ∧ value = slots.getD start .null := by
        cases first.writtenSlot? with
        | none => simp
        | some index => simp [eq_comm]
      rw [writesFrom, List.mem_append, isHead, ih]
      constructor
      · rintro (⟨isSlot, isValue⟩ | ⟨position, argument, found, isSlot, isValue⟩)
        · exact ⟨0, first, rfl, isSlot, isValue⟩
        · exact ⟨position + 1, argument, found, isSlot, isValue.trans (by rw [Nat.add_assoc, Nat.add_comm 1])⟩
      · rintro ⟨_ | position, argument, found, isSlot, isValue⟩
        · cases found
          exact .inl ⟨isSlot, isValue⟩
        · exact .inr ⟨position, argument, found, isSlot, isValue.trans (by rw [Nat.add_assoc, Nat.add_comm 1])⟩

theorem writtenSlots_eq (slots : Array Value) (start : Nat) (passed : List TypedArgument) :
    Emit.writtenSlots passed = (writesFrom slots start passed).map (·.1) := by
  induction passed generalizing start with
  | nil => rfl
  | cons first rest ih =>
      rw [writesFrom, List.map_append, ← ih (start + 1)]
      obtain ⟨mode, ⟨node, type, span⟩⟩ := first
      cases mode with
      | value | input => rfl
      | ref | out => cases node <;> rfl

theorem AllFit.finals_eq (fits : AllFit typing parameters passed) (slots : Array Value) (start : Nat) :
    TypedParameter.finalsFrom slots start parameters = (writesFrom slots start passed).map (·.2) := by
  induction passed generalizing parameters start with
  | nil =>
      cases parameters with
      | nil => rfl
      | cons => cases fits
  | cons first rest ih =>
      obtain ⟨mode, value⟩ := first
      cases parameters with
      | nil => cases fits
      | cons parameter parameters =>
        obtain ⟨rfl, -, -, written, othersFit⟩ := fits
        have isWritten (writesBack : parameter.mode.writesBack = true) :
            ∃ index, (TypedArgument.mk parameter.mode value).writtenSlot? = some index := by
          obtain ⟨index, slot, isSlot, -⟩ := written writesBack
          exact ⟨index, (if_pos writesBack).trans (reference?_of_writesBack writesBack isSlot)⟩
        rw [TypedParameter.finalsFrom, writesFrom, List.map_append, ih othersFit]
        cases writesBack : parameter.mode.writesBack with
        | true =>
          obtain ⟨index, isIndex⟩ := isWritten writesBack
          rw [isIndex]
          rfl
        | false =>
          have notWritten : (TypedArgument.mk parameter.mode value).writtenSlot? = none :=
            if_neg (by simp [mode, writesBack])
          rw [notWritten]
          rfl

end TypedArgument

/-- The stores behind a call put the values on top of the stack into their slots. -/
theorem Block.of_stores {site : Site} {most : Nat} {writes : List (Nat × Value)} {activation : Activation}
    {rest : Stack} {result : Completion × Activation} (isStack : activation.stack = writes.map (·.2) ++ rest)
    (ran : (Block.ofList (writes.map fun write => .store write.1)).run site most activation = some result) :
    ∃ slots stored, result = (.next, { activation with slots, stored, stack := rest }) ∧
      (∀ slot, slot ∉ writes.map (·.1) → slots[slot]? = activation.slots[slot]? ∧
        site.lacks stored slot = site.lacks activation.stored slot) ∧
      ∀ slot ∈ writes.map (·.1), ∃ value, (slot, value) ∈ writes ∧ slots[slot]? = some value := by
  induction writes generalizing activation with
  | nil =>
      cases ran
      refine ⟨activation.slots, activation.stored, ?_, fun _ _ => ⟨rfl, rfl⟩, fun _ member => by cases member⟩
      rw [← show activation.stack = rest from isStack]
  | cons first others ih =>
      obtain ⟨index, value⟩ := first
      obtain ⟨middle, ranFirst, ranOthers⟩ := Activation.of_follow_next (fun _ ran => Command.isNext_of_run rfl ran) ran
      obtain ⟨inside, isMiddle⟩ := Command.of_store isStack ranFirst
      cases isMiddle
      obtain ⟨slots, stored, rfl, areKept, areWritten⟩ := ih rfl ranOthers
      refine ⟨slots, stored, rfl, fun slot notWritten => ?_, fun slot isWritten => ?_⟩
      · rw [List.map_cons, List.mem_cons, not_or] at notWritten
        obtain ⟨sameSlot, sameLacks⟩ := areKept slot notWritten.2
        rw [sameSlot, sameLacks, Site.lacks_cons_of_ne notWritten.1,
          Array.getElem?_setIfInBounds_ne (Ne.symm notWritten.1)]
        exact ⟨rfl, rfl⟩
      · by_cases inOthers : slot ∈ others.map (·.1)
        · obtain ⟨found, member, isFound⟩ := areWritten slot inOthers
          exact ⟨found, .tail _ member, isFound⟩
        · obtain rfl : slot = index := (List.mem_cons.1 isWritten).resolve_right inOthers
          refine ⟨value, .head _, (areKept slot inOthers).1.trans ?_⟩
          exact Array.getElem?_setIfInBounds_self_of_lt inside

/-- Behind a call the final values go to the slots that were passed. -/
theorem Block.of_writeBack {site : Site} {most : Nat} {passed : List TypedArgument} {final : Array Value}
    {activation : Activation} {rest : Stack} {result : Completion × Activation}
    (isStack : activation.stack = Stack.pushAll rest ((TypedArgument.writesFrom final 0 passed).map (·.2)))
    (ran : (Block.writeBack passed).run site most activation = some result) :
    ∃ slots stored, result = (.next, { activation with slots, stored, stack := rest }) ∧
      (∀ slot, slot ∉ (TypedArgument.writesFrom final 0 passed).map (·.1) → slots[slot]? = activation.slots[slot]? ∧
        site.lacks stored slot = site.lacks activation.stored slot) ∧
      ∀ slot ∈ (TypedArgument.writesFrom final 0 passed).map (·.1), ∃ value,
        (slot, value) ∈ TypedArgument.writesFrom final 0 passed ∧ slots[slot]? = some value := by
  rw [Block.writeBack, TypedArgument.writtenSlots_eq final 0 passed, ← List.map_reverse, List.map_map] at ran
  rw [Stack.pushAll, ← List.map_reverse] at isStack
  obtain ⟨slots, stored, rfl, areKept, areWritten⟩ := Block.of_stores isStack ran
  simp only [List.map_reverse, List.mem_reverse] at areKept areWritten
  exact ⟨slots, stored, rfl, areKept, areWritten⟩

namespace Setting

variable {setting : Setting} {kept : Nat → Prop}

/-- Whether something is handed over for an argument. A variable that is passed by reference has the value that is
pushed, unless it is passed as `out`. -/
inductive Hands (setting : Setting) (cells : Array Value) (argument : TypedArgument) : Handed → Prop
  | value {value : Value} (isValue : argument.reference? = none) : Hands setting cells argument ⟨.value value, value⟩
  | cell {slot cell : Nat} {value : Value} (isSlot : argument.reference? = some slot)
      (denotes : setting.frame[slot]? = some cell) (holds : argument.mode ≠ .out → cells[cell]? = some value) :
      Hands setting cells argument ⟨.cell cell, value⟩

/-- Whether every run of the code of some arguments is an evaluation of them, unless it leaves fewer values than it
should. -/
def HandsAll (setting : Setting) (kept : Nat → Prop) (block : Block) (passed : List TypedArgument)
    (step : Evaluation (List Passed)) : Prop :=
  ∀ ⦃activation situation result⦄, setting.Mirrors activation situation →
    block.run setting.site setting.most activation = some result →
    result.1 = .next ∧ (result.2.stack.length < activation.stack.length + passed.length ∨
      ∃ handed after, step situation = some (handed.map (·.passed), after) ∧ setting.Mirrors result.2 after ∧
        result.2.stack = (handed.map (·.value)).reverse ++ activation.stack ∧ setting.Spares kept situation after ∧
        List.Forall₂ (setting.Hands after.cells) passed handed)

theorem exists_argument {cells : Array Value} {passed : List TypedArgument} {handed : List Handed}
    (hands : List.Forall₂ (setting.Hands cells) passed handed) {position : Nat} {one : Handed}
    (found : handed[position]? = some one) :
    ∃ argument, passed[position]? = some argument ∧ setting.Hands cells argument one := by
  induction hands generalizing position with
  | nil => cases found
  | cons first _ ih =>
      cases position with
      | zero =>
        cases found
        exact ⟨_, rfl, first⟩
      | succ position => exact ih found

theorem exists_handed {cells : Array Value} {passed : List TypedArgument} {handed : List Handed}
    (hands : List.Forall₂ (setting.Hands cells) passed handed) {position : Nat} {argument : TypedArgument}
    (found : passed[position]? = some argument) :
    ∃ one, handed[position]? = some one ∧ setting.Hands cells argument one := by
  have inside : position < handed.length := hands.length_eq ▸ (List.getElem?_eq_some_iff.1 found).1
  obtain ⟨argument', found', one⟩ := exists_argument hands (List.getElem?_eq_getElem inside)
  cases found.symm.trans found'
  exact ⟨_, List.getElem?_eq_getElem inside, one⟩

section

variable {typing : Typing} {method : TypedMethod} {passed : List TypedArgument} {handed : List Handed}
  {cells : Array Value} {assigned : Nat → Nat → Prop} {index : Nat}
  (sameSlots : typing.slots = setting.site.slots) (fits : TypedArgument.AllFit typing method.parameters passed)
  (hands : List.Forall₂ (setting.Hands cells) passed handed)

include sameSlots fits hands

/-- A cell that is handed over is that of a slot. What is written back is not only read. -/
theorem exists_slot {position cell : Nat} {value : Value} (found : handed[position]? = some ⟨.cell cell, value⟩) :
    ∃ argument slot parameter, passed[position]? = some argument ∧ method.parameters[position]? = some parameter ∧
      argument.mode = parameter.mode ∧ argument.reference? = some slot ∧ setting.frame[slot]? = some cell ∧
      (parameter.mode.writesBack = true → ¬setting.site.IsInput slot) := by
  obtain ⟨argument, isArgument, one⟩ := exists_argument hands found
  obtain ⟨parameter, isParameter, isMode, -, written⟩ := fits.at isArgument
  cases one with
  | @cell slot _ _ isSlot denotes holds =>
    refine ⟨argument, slot, parameter, isArgument, isParameter, isMode, isSlot, denotes, fun writesBack => ?_⟩
    obtain ⟨other, declared, isOther, isDeclared, notInput⟩ := written (isMode ▸ writesBack)
    cases isSlot.symm.trans isOther
    rintro ⟨declared', isDeclared', isInput⟩
    rw [← sameSlots, isDeclared] at isDeclared'
    cases isDeclared'
    exact notInput isInput

/-- A cell of a parameter that is not written back is only read. -/
theorem mode_eq_input {position cell : Nat} {value : Value} {parameter : TypedParameter}
    (found : handed[position]? = some ⟨.cell cell, value⟩) (isParameter : method.parameters[position]? = some parameter)
    (notWritten : ¬parameter.mode.writesBack = true) : parameter.mode = .input := by
  obtain ⟨argument, slot, _, -, isParameter', isMode, isSlot, -⟩ := exists_slot sameSlots fits hands found
  cases isParameter.symm.trans isParameter'
  have notValue := TypedArgument.mode_ne_value_of_reference? isSlot
  rw [isMode] at notValue
  cases isMode : parameter.mode with
  | input => rfl
  | value => exact absurd isMode notValue
  | ref | out =>
    rw [isMode] at notWritten
    exact absurd rfl notWritten

/-- What is handed over suits the method. -/
theorem receives (isApart : setting.IsApart) (apart : (TypedNode.call index passed).PassesApart assigned)
    (inside : ∀ ⦃slot cell : Nat⦄, setting.frame[slot]? = some cell → cell < cells.size) :
    method.Receives handed cells where
  length := hands.length_eq.symm.trans fits.length_eq
  suits := by
    intro position parameter one isParameter found
    obtain ⟨argument, isArgument, hands⟩ := exists_argument hands found
    obtain ⟨parameter', isParameter', isMode, -, written⟩ := fits.at isArgument
    cases isParameter.symm.trans isParameter'
    rw [← isMode]
    cases hands with
    | value notSlot =>
      refine .value (Bool.eq_false_iff.2 fun writesBack => ?_)
      obtain ⟨slot, declared, isSlot, -⟩ := written writesBack
      rw [notSlot] at isSlot
      cases isSlot
    | cell isSlot denotes holds =>
      exact .cell (TypedArgument.mode_ne_value_of_reference? isSlot) (inside denotes) holds
  apart := by
    intro first second cell value value' parameter isFirst isSecond isOther isParameter
    refine mode_eq_input sameSlots fits hands isFirst isParameter fun writesBack => ?_
    obtain ⟨argument, slot, _, isArgument, isParameter', isMode, isSlot, denotes, notInput⟩ :=
      exists_slot sameSlots fits hands isFirst
    obtain ⟨argument', slot', -, isArgument', -, -, isSlot', denotes', -⟩ := exists_slot sameSlots fits hands isSecond
    cases isParameter.symm.trans isParameter'
    by_cases isSame : slot = slot'
    · subst isSame
      have notWritten := apart.1 first second slot argument argument' isArgument isArgument' isOther isSlot isSlot'
      rw [isMode, writesBack] at notWritten
      cases notWritten
    · exact notInput writesBack (isApart.apart denotes denotes' isSame)

/-- A call changes no cells of slots that it leaves alone. -/
theorem spares_of_shows {left : Leaving} {stack : Stack} {before after : Situation}
    (leaves : ∀ slot, kept slot → (TypedNode.call index passed).Leaves assigned slot)
    (shows : left.Shows method (assigned index) handed stack before after) : setting.Spares kept before after where
  grows := shows.grows
  same := by
    intro cell inside isKept
    refine shows.spares inside fun position value parameter found isParameter => ?_
    obtain ⟨argument, slot, _, isArgument, isParameter', isMode, isSlot, denotes, notInput⟩ :=
      exists_slot sameSlots fits hands found
    cases isParameter.symm.trans isParameter'
    by_cases writesBack : parameter.mode.writesBack = true
    · rcases isKept slot denotes with isKept | isInput
      · exact .inr (leaves slot isKept position argument isArgument (isMode ▸ writesBack) isSlot)
      · exact absurd isInput (notInput writesBack)
    · exact .inl (mode_eq_input sameSlots fits hands found isParameter writesBack)

/-- Behind a call the slots that were written back hold what their cells hold. -/
theorem mirrors_of_shows (isApart : setting.IsApart) {left : Leaving} {stack : Stack} {before after : Situation}
    (shows : left.Shows method (assigned index) handed stack before after)
    {activation written : Activation} (mirrors : setting.Mirrors activation before)
    (isWorld : written.world = left.world) (areCalls : written.calls = left.calls)
    (areKept : ∀ slot, slot ∉ (TypedArgument.writesFrom left.slots 0 passed).map (·.1) →
      written.slots[slot]? = activation.slots[slot]? ∧
        setting.site.lacks written.stored slot = setting.site.lacks activation.stored slot)
    (areWritten : ∀ slot ∈ (TypedArgument.writesFrom left.slots 0 passed).map (·.1), ∃ value,
      (slot, value) ∈ TypedArgument.writesFrom left.slots 0 passed ∧ written.slots[slot]? = some value) :
    setting.Mirrors written after where
  world := shows.world.trans isWorld.symm
  calls := shows.calls.trans areCalls.symm
  inside := fun slot cell denotes => Nat.lt_of_lt_of_le (mirrors.inside denotes) shows.grows
  agrees := by
    intro slot cell denotes hasValue
    by_cases isWritten : slot ∈ (TypedArgument.writesFrom left.slots 0 passed).map (·.1)
    · obtain ⟨value, member, isValue⟩ := areWritten slot isWritten
      obtain ⟨position, argument, isArgument, isSlot, rfl⟩ := TypedArgument.mem_writesFrom.1 member
      obtain ⟨writesBack, isSlot⟩ := TypedArgument.of_writtenSlot? isSlot
      obtain ⟨parameter, isParameter, isMode, -⟩ := fits.at isArgument
      obtain ⟨one, found, one⟩ := exists_handed hands isArgument
      cases one with
      | value notSlot =>
        rw [isSlot] at notSlot
        cases notSlot
      | cell isSlot' denotes' =>
        cases isSlot.symm.trans isSlot'
        cases denotes.symm.trans denotes'
        have isFinal := shows.finals found isParameter (isMode ▸ writesBack)
        obtain ⟨final, isCell⟩ : ∃ final, after.cells[cell]? = some final :=
          ⟨_, Array.getElem?_eq_getElem (Nat.lt_of_lt_of_le (mirrors.inside denotes) shows.grows)⟩
        rw [isCell] at isFinal
        rw [isValue, isCell, Nat.zero_add, Array.getD_eq_getD_getElem?, ← isFinal]
        rfl
    · obtain ⟨sameSlot, sameLacks⟩ := areKept slot isWritten
      rw [sameSlot, ← mirrors.agrees denotes (sameLacks ▸ hasValue)]
      refine shows.spares (mirrors.inside denotes) fun position value parameter found isParameter => ?_
      by_cases writesBack : parameter.mode.writesBack = true
      · obtain ⟨argument, slot', _, isArgument, isParameter', isMode, isSlot, denotes', notInput⟩ :=
          exists_slot sameSlots fits hands found
        cases isParameter.symm.trans isParameter'
        have isOther : slot' ≠ slot := by
          rintro rfl
          refine isWritten (List.mem_map.2 ⟨(slot', _), TypedArgument.mem_writesFrom.2
            ⟨position, argument, isArgument, ?_, rfl⟩, rfl⟩)
          exact (if_pos (isMode ▸ writesBack)).trans isSlot
        exact absurd (isApart.apart denotes' denotes isOther) (notInput writesBack)
      · exact .inl (mode_eq_input sameSlots fits hands found isParameter writesBack)

end

/-- A call, the final values of which are written back, is a call by reference. -/
theorem Traces.call {typing : Typing} {method : TypedMethod} {passed : List TypedArgument} {index : Nat} {block : Block}
    {assigned : Nat → Nat → Prop} {step : Evaluation (List Passed)}
    {call : Nat → List Passed → Evaluation (Option Value)} {more : Nat → Prop} (isApart : setting.IsApart)
    (sameSlots : typing.slots = setting.site.slots)
    (calls : setting.site.call.Refers setting.site.methods assigned call)
    (levels : setting.site.call.Levels setting.site.methods) (found : setting.site.methods[index]? = some method)
    (fits : TypedArgument.AllFit typing method.parameters passed)
    (apart : (TypedNode.call index passed).PassesApart assigned)
    (leaves : ∀ slot, kept slot → (TypedNode.call index passed).Leaves assigned slot)
    (isMore : ∀ slot, kept slot → more slot) (hands : setting.HandsAll more block passed step) :
    setting.Traces kept [] (block ++ .command (.call index) ++ .writeBack passed)
      (step >>= fun handed => call index handed) Option.toList method.result.pushed.length := by
  refine Traces.regroup fun activation rest situation result isStack mirrors ran => ?_
  have rises : (Block.command (.call index)).Rises setting.site setting.most _ := .call levels found
  have stores : (Block.writeBack passed).Rises setting.site setting.most _ := .writeBack passed
  rw [fits.length_written] at stores
  obtain ⟨middle, ranBlock, ran⟩ := Activation.of_follow_next (fun _ ran => (hands mirrors ran).1) ran
  obtain ⟨behind, ranCall, ranStores⟩ := Activation.of_follow_next (fun _ ran => (rises ran).1) ran
  obtain ⟨-, height⟩ := rises ranCall
  obtain ⟨isNext, height'⟩ := stores ranStores
  refine ⟨isNext, ?_⟩
  obtain ⟨-, isLow | ⟨handed, before, passes, mirrors', isMiddle, spares, hands⟩⟩ := hands mirrors ranBlock
  · rw [isStack, fits.length_eq] at isLow
    simp only [List.nil_append] at isLow
    dsimp only at height height'
    exact .inl (by omega)
  · obtain ⟨after, called, isBehind⟩ := Option.map_eq_some_iff.1 ranCall
    cases isBehind
    obtain ⟨_, arguments, stack, left, isMethod, popped, isLeft, rfl⟩ := Site.of_runCall called
    cases found.symm.trans isMethod
    have receives := receives sameSlots fits hands isApart apart mirrors'.inside
    rw [isMiddle, isStack, ← receives.length, ← List.length_map (f := Handed.value)] at popped
    cases (Stack.popMany_pushAll _ _).symm.trans popped
    have isResult := (levels found isLeft).2
    rw [← mirrors'.world, ← mirrors'.calls] at isLeft
    rcases calls found receives isLeft with isLow | ⟨after, evaluates, shows⟩
    · left
      rw [Stack.pushAll, List.length_append, List.length_reverse, method.length_finals, List.length_append] at height'
      simp only [List.nil_append] at isLow
      omega
    · right
      have isStack' : Stack.pushAll (left.result.toList ++ left.stack) (method.finals left.slots) =
          Stack.pushAll (left.result.toList ++ rest) ((TypedArgument.writesFrom left.slots 0 passed).map (·.2)) := by
        rw [method.finals_eq, fits.finals_eq, shows.stack]
        rfl
      obtain ⟨slots, stored, rfl, areKept, areWritten⟩ := Block.of_writeBack isStack' ranStores
      refine ⟨left.result, after, (Evaluation.bind_of passes).trans evaluates, ?_, rfl, ?_⟩
      · exact mirrors_of_shows sameSlots fits hands isApart shows mirrors' rfl rfl areKept areWritten
      · exact (spares.mono isMore).trans (spares_of_shows sameSlots fits hands leaves shows)

end Setting

end Snippet
