import Snippet.Proofs.Passing.Statements

/-!
Calls of a program beside the evaluation by reference: a call that starts mirrors the cells that its parameters denote,
and all calls are calls by reference. Main statement: `TypedProgram.run_refers`.
-/

namespace Snippet

/-! ### Frames -/

/-- What the frame of a call denotes: the cells that are passed, and new ones with the values that are passed. -/
structure Evaluation.Enters (passed : List Passed) (before : Array Value) (frame : List Nat) (after : Array Value) :
    Prop where
  length : frame.length = passed.length
  grows : before.size ≤ after.size
  same : ∀ cell < before.size, after[cell]? = before[cell]?
  cells : ∀ (position cell : Nat), passed[position]? = some (.cell cell) → frame[position]? = some cell
  values : ∀ (position : Nat) (value : Value), passed[position]? = some (.value value) →
    ∃ cell, frame[position]? = some cell ∧ before.size ≤ cell ∧ after[cell]? = some value
  fresh : ∀ (first second cell : Nat), frame[first]? = some cell → frame[second]? = some cell → before.size ≤ cell →
    first = second

namespace Evaluation

/-- A cell of a frame is passed, or it is new. -/
theorem Enters.of_frame {passed : List Passed} {before after : Array Value} {frame : List Nat}
    (enters : Enters passed before frame after) {position cell : Nat} (found : frame[position]? = some cell) :
    passed[position]? = some (.cell cell) ∨
      ∃ value, passed[position]? = some (.value value) ∧ before.size ≤ cell ∧ after[cell]? = some value := by
  have inside : position < passed.length := enters.length ▸ (List.getElem?_eq_some_iff.1 found).1
  have isPassed := List.getElem?_eq_getElem inside
  cases isKind : passed[position] with
  | cell other =>
    rw [isKind] at isPassed
    cases found.symm.trans (enters.cells position other isPassed)
    exact .inl isPassed
  | value value =>
    rw [isKind] at isPassed
    obtain ⟨other, isOther, isNew, holds⟩ := enters.values position value isPassed
    cases found.symm.trans isOther
    exact .inr ⟨value, isPassed, isNew, holds⟩

/-- Parameters are entered one after another. -/
theorem exists_enters (passed : List Passed) (situation : Situation)
    (bounded : ∀ (position cell : Nat), passed[position]? = some (.cell cell) → cell < situation.cells.size) :
    ∃ frame after, passed.mapM enter situation = some (frame, { situation with cells := after }) ∧
      Enters passed situation.cells frame after := by
  induction passed generalizing situation with
  | nil =>
      refine ⟨[], situation.cells, rfl, rfl, Nat.le_refl _, fun _ _ => rfl, ?_, ?_, ?_⟩
      · exact fun _ _ found => by cases found
      · exact fun _ _ found => by cases found
      · exact fun _ _ _ found => by cases found
  | cons first rest ih =>
      have bounded' (position cell : Nat) (found : rest[position]? = some (.cell cell)) :
          cell < situation.cells.size := bounded (position + 1) cell found
      cases first with
      | cell cell =>
        obtain ⟨frame, after, entered, enters⟩ := ih situation bounded'
        have isBounded : cell < situation.cells.size := bounded 0 cell rfl
        refine ⟨cell :: frame, after, ?_, congrArg (· + 1) enters.length, enters.grows, enters.same, ?_, ?_, ?_⟩
        · rw [List.mapM_cons]
          exact (bind_of (show enter (.cell cell) situation = some (cell, situation) from rfl)).trans (bind_of entered)
        · rintro (_ | position) other found
          · cases found
            rfl
          · exact enters.cells position other found
        · rintro (_ | position) value found
          · cases found
          · exact enters.values position value found
        · rintro (_ | one) (_ | other) found isFirst isSecond isNew
          · rfl
          · cases isFirst
            omega
          · cases isSecond
            omega
          · exact congrArg (· + 1) (enters.fresh one other found isFirst isSecond isNew)
      | value value =>
        have isLess (position cell : Nat) (found : rest[position]? = some (.cell cell)) :
            cell < (situation.cells.push value).size := by
          rw [Array.size_push]
          exact Nat.lt_succ_of_lt (bounded' position cell found)
        obtain ⟨frame, after, entered, enters⟩ := ih { situation with cells := situation.cells.push value } isLess
        have grows := enters.grows
        have same := enters.same
        dsimp only at grows same
        rw [Array.size_push] at grows same
        have isOther {position : Nat} (found : frame[position]? = some situation.cells.size) : False := by
          rcases enters.of_frame found with isCell | ⟨_, -, isNew, -⟩
          · exact absurd (bounded' position _ isCell) (Nat.lt_irrefl _)
          · rw [Array.size_push] at isNew
            exact absurd isNew (Nat.not_succ_le_self _)
        refine ⟨situation.cells.size :: frame, after, ?_, congrArg (· + 1) enters.length, Nat.le_of_succ_le grows,
          fun cell inside => ?_, ?_, ?_, ?_⟩
        · rw [List.mapM_cons]
          exact (bind_of (show enter (.value value) situation =
            some (situation.cells.size, { situation with cells := situation.cells.push value }) from rfl)).trans
              (bind_of entered)
        · rw [same cell (Nat.lt_succ_of_lt inside), Array.getElem?_push_lt inside, Array.getElem?_eq_getElem inside]
        · rintro (_ | position) cell found
          · cases found
          · exact enters.cells position cell found
        · rintro (_ | position) other found
          · cases found
            refine ⟨situation.cells.size, rfl, Nat.le_refl _, ?_⟩
            rw [same _ (Nat.lt_succ_self _), Array.getElem?_push_size]
          · obtain ⟨cell, isCell, isNew, holds⟩ := enters.values position other found
            rw [Array.size_push] at isNew
            exact ⟨cell, isCell, Nat.le_of_succ_le isNew, holds⟩
        · rintro (_ | one) (_ | other) found isFirst isSecond isNew
          · rfl
          · cases isFirst
            exact (isOther isSecond).elim
          · cases isSecond
            exact (isOther isFirst).elim
          · refine congrArg (· + 1) (enters.fresh one other found isFirst isSecond ?_)
            rw [Array.size_push]
            refine Nat.lt_of_le_of_ne isNew fun isSame => ?_
            exact isOther (isFirst.trans (congrArg some isSame.symm))

end Evaluation

/-! ### Calls that start -/

/-- A parameter is a slot that is passed in the same way. -/
theorem TypedProgram.MethodFits.exists_slot {program : TypedProgram} {libraries : LibrarySet} {method : TypedMethod}
    (fits : program.MethodFits libraries method) {position : Nat} {parameter : TypedParameter}
    (found : method.parameters[position]? = some parameter) :
    ∃ slot, method.slots[position]? = some slot ∧ slot.mode = some parameter.mode := by
  have same := congrArg (·[position]?) fits.parameters
  rw [List.getElem?_map, List.getElem?_map, found] at same
  obtain ⟨slot, isSlot, isPair⟩ := Option.map_eq_some_iff.1 same
  refine ⟨slot, ?_, congrArg Prod.snd isPair⟩
  rw [List.getElem?_take] at isSlot
  split at isSlot
  · exact isSlot
  · cases isSlot

theorem TypedProgram.MethodFits.parameters_le {program : TypedProgram} {libraries : LibrarySet} {method : TypedMethod}
    (fits : program.MethodFits libraries method) : method.parameters.length ≤ method.slots.length := by
  have same := congrArg List.length fits.parameters
  rw [List.length_map, List.length_map, List.length_take] at same
  omega

/-- What the slots of a call hold that starts. -/
theorem TypedMethod.getElem?_start (method : TypedMethod) (arguments : List Value) {slot : Nat}
    (exists_slot : slot < method.slots.length) :
    (method.start arguments)[slot]? = some (arguments.getD slot .null) := by
  rw [start, Array.getElem?_append]
  split
  · next inside =>
    rw [List.getElem?_toArray, List.getD_eq_getElem?_getD]
    rw [List.size_toArray] at inside
    rw [List.getElem?_eq_getElem inside]
    rfl
  · next outside =>
    rw [List.size_toArray] at outside
    rw [Array.getElem?_replicate, if_pos (by rw [List.size_toArray]; omega), List.getD_eq_getElem?_getD,
      List.getElem?_eq_none (Nat.not_lt.1 outside)]
    rfl

namespace TypedProgram

variable (program : TypedProgram) (libraries : LibrarySet) (most : Nat)

/-- Where a call of a method is compared with an evaluation of it. -/
def setting (method : TypedMethod) (frame : List Nat) : Setting :=
  ⟨⟨libraries, program.methods, program.run libraries most, method.slots⟩, most, frame⟩

variable {program libraries most} {references : LibrarySet} {method : TypedMethod} {handed : List Handed}
  {situation : Situation} {frame : List Nat} {after : Array Value}

section

variable (fits : program.MethodFits references method) (receives : method.Receives handed situation.cells)
  (enters : Evaluation.Enters (handed.map (·.passed) ++
    List.replicate (method.slots.length - (handed.map (·.passed)).length) (Passed.value .null))
    situation.cells frame after)

include fits receives enters

/-- As many cells are denoted as there are slots. -/
theorem length_frame : frame.length = method.slots.length := by
  have isLess := fits.parameters_le
  have count := receives.length
  rw [enters.length, List.length_append, List.length_replicate, List.length_map]
  omega

/-- A cell of a frame is handed over for a parameter, or it is new and holds what its slot holds. -/
theorem of_denotes {slot cell : Nat} (denotes : frame[slot]? = some cell) :
    (∃ value parameter, handed[slot]? = some ⟨.cell cell, value⟩ ∧ method.parameters[slot]? = some parameter ∧
      cell < situation.cells.size) ∨
    situation.cells.size ≤ cell ∧ after[cell]? = (method.start (handed.map (·.value)))[slot]? ∧
      cell < after.size := by
  have exists_slot : slot < method.slots.length := by
    rw [← length_frame fits receives enters]
    exact (List.getElem?_eq_some_iff.1 denotes).1
  rw [method.getElem?_start _ exists_slot]
  by_cases inside : slot < handed.length
  · have isParameter := List.getElem?_eq_getElem (receives.length ▸ inside)
    have found := List.getElem?_eq_getElem inside
    have isPassed : (handed.map (·.passed) ++ List.replicate (method.slots.length - (handed.map (·.passed)).length)
        (Passed.value .null))[slot]? = some handed[slot].passed := by
      rw [List.getElem?_append_left (by rwa [List.length_map]), List.getElem?_map, found]
      rfl
    have isPushed : (handed.map (·.value)).getD slot .null = handed[slot].value := by
      rw [List.getD_eq_getElem?_getD, List.getElem?_map, found]
      rfl
    have suits := receives.suits isParameter found
    rw [isPushed]
    generalize handed[slot] = one at found isPassed suits
    obtain ⟨passed, pushed⟩ := one
    rcases enters.of_frame denotes with isCell | ⟨value, isValue, isNew, holds⟩
    · cases isPassed.symm.trans isCell
      cases suits with
      | cell _ isOld => exact .inl ⟨pushed, _, found, isParameter, isOld⟩
    · cases isPassed.symm.trans isValue
      cases suits
      exact .inr ⟨isNew, holds, (Array.getElem?_eq_some_iff.1 holds).1⟩
  · have isPassed : (handed.map (·.passed) ++ List.replicate (method.slots.length - (handed.map (·.passed)).length)
        (Passed.value .null))[slot]? = some (.value .null) := by
      rw [List.getElem?_append_right (by rw [List.length_map]; omega), List.getElem?_replicate, List.length_map,
        if_pos (by omega)]
    have isPushed : (handed.map (·.value)).getD slot .null = .null := by
      rw [List.getD_eq_getElem?_getD, List.getElem?_eq_none (by rw [List.length_map]; omega)]
      rfl
    rw [isPushed]
    rcases enters.of_frame denotes with isCell | ⟨value, isValue, isNew, holds⟩
    · cases isPassed.symm.trans isCell
    · cases isPassed.symm.trans isValue
      exact .inr ⟨isNew, holds, (Array.getElem?_eq_some_iff.1 holds).1⟩

/-- The slots of a call that starts denote different cells, unless they are only read. -/
theorem isApart_setting : (program.setting libraries most method frame).IsApart where
  length := length_frame fits receives enters
  apart := by
    intro slot other cell denotes denotes' isOther
    rcases of_denotes fits receives enters denotes with ⟨value, parameter, found, isParameter, isOld⟩ | ⟨isNew, -⟩
    · rcases of_denotes fits receives enters denotes' with ⟨value', -, found', -⟩ | ⟨isNew, -⟩
      · obtain ⟨declared, isDeclared, isMode⟩ := fits.exists_slot isParameter
        have isInput := receives.apart found found' isOther isParameter
        exact ⟨declared, isDeclared, isMode.trans (congrArg some isInput)⟩
      · omega
    · exact absurd (enters.fresh slot other cell denotes denotes' isNew) isOther

/-- A call that starts mirrors the cells that its slots denote. -/
theorem mirrors_start (stack : Stack) :
    (program.setting libraries most method frame).Mirrors
      ⟨method.start (handed.map (·.value)), [], stack, situation.world, situation.calls⟩
      { situation with cells := after } where
  world := rfl
  calls := rfl
  inside := by
    intro slot cell denotes
    rcases of_denotes fits receives enters denotes with ⟨-, -, -, -, isOld⟩ | ⟨-, -, inside⟩
    · exact Nat.lt_of_lt_of_le isOld enters.grows
    · exact inside
  agrees := by
    intro slot cell denotes hasValue
    rcases of_denotes fits receives enters denotes with ⟨value, parameter, found, isParameter, isOld⟩ | ⟨-, holds, -⟩
    · obtain ⟨declared, isDeclared, isMode⟩ := fits.exists_slot isParameter
      have notOut : parameter.mode ≠ .out := by
        intro isOut
        have lacks :
            Site.lacks ⟨libraries, program.methods, program.run libraries most, method.slots⟩ [] slot = true := by
          rw [Site.lacks, isDeclared, Option.any_some, isMode, isOut]
          rfl
        exact Bool.false_ne_true (hasValue.symm.trans lacks)
      cases receives.suits isParameter found with
      | cell _ _ holds =>
        dsimp only
        rw [enters.same cell isOld, holds notOut, method.getElem?_start _ (List.getElem?_eq_some_iff.1 isDeclared).1,
          List.getD_eq_getElem?_getD, List.getElem?_map, found]
        rfl
    · exact holds

end

/-- Slots that denote cells of their own are apart. -/
theorem isApart_range : (program.setting libraries most method (List.range method.slots.length)).IsApart where
  length := List.length_range
  apart := by
    have same {slot cell : Nat} (denotes : (List.range method.slots.length)[slot]? = some cell) : slot = cell := by
      obtain ⟨inside, isCell⟩ := List.getElem?_eq_some_iff.1 denotes
      rwa [List.getElem_range] at isCell
    intro slot other cell denotes denotes' isOther
    exact absurd ((same denotes).trans (same denotes').symm) isOther

/-! ### Calls that end -/

/-- The execution of the body of a method. A void method ends behind its last statement. -/
def execution (program : TypedProgram) (libraries : LibrarySet) (most : Nat) (method : TypedMethod) (frame : List Nat) :
    Evaluation Completion :=
  let body := TypedStmt.executeAll ⟨libraries, program.call libraries most⟩ frame most method.body
  if method.result = .void then body >>= Evaluation.follow (pure (.gaveBack none)) else body

/-- A body that has given a result back gives it back to the caller. -/
theorem call_of_execution {index : Nat} {passed : List Passed} {before entered last : Situation} {result : Option Value}
    (found : program.methods[index]? = some method) (enters : method.frame passed before = some (frame, entered))
    (executed : program.execution libraries most method frame entered = some (.gaveBack result, last)) :
    program.call libraries (most + 1) index passed before = some (result, last) := by
  have isMethod : Evaluation.given program.methods[index]? before = some (method, before) := by
    rw [found]
    rfl
  rw [call, Evaluation.bind_of isMethod, Evaluation.bind_of enters]
  unfold execution at executed
  split at executed
  · next isVoid =>
    obtain ⟨completion, middle, ran, followed⟩ := Evaluation.exists_of_bind executed
    rw [Evaluation.bind_of ran]
    cases completion with
    | next =>
      cases followed
      show (if method.result = .void then pure none else failure : Evaluation (Option Value)) last = _
      rw [if_pos isVoid]
      rfl
    | gaveBack value =>
      cases followed
      rfl
    | _ => cases followed
  · exact Evaluation.bind_of executed

/-- Every run of the code of a method is an execution of its body. -/
theorem executes {index : Nat} (fits : program.MethodFits references method) (apart : program.PassesApart)
    (found : program.methods[index]? = some method) (isApart : (program.setting libraries most method frame).IsApart)
    (levels : (program.run libraries most).Levels program.methods)
    (refers : (program.run libraries most).Refers program.methods program.Assigns (program.call libraries most)) :
    (program.setting libraries most method frame).Executes (fun slot => ¬program.Assigns index slot) method.result
      (method.block.run (program.setting libraries most method frame).site most)
      (program.execution libraries most method frame) := by
  have suits : (program.setting libraries most method frame).Suits (program.typing references method) program.Assigns
      (program.call libraries most) := ⟨isApart, rfl, rfl, levels, refers⟩
  have body := TypedStmt.executes_all suits method.body method.slots.length (Nat.le_of_eq isApart.length) fits.body
    (apart method (List.mem_of_getElem? found)) fun slot notAssigned =>
      program.covers_assigns index slot method found notAssigned
  unfold TypedMethod.block execution
  dsimp only
  split
  · next isVoid => exact body.follow (.giveBackNothing isVoid)
  · exact body

/-- What is passed to a method that receives it can be entered. -/
theorem exists_frame (receives : method.Receives handed situation.cells) :
    ∃ frame after, method.frame (handed.map (·.passed)) situation = some (frame, { situation with cells := after }) ∧
      Evaluation.Enters (handed.map (·.passed) ++
        List.replicate (method.slots.length - (handed.map (·.passed)).length) (Passed.value .null))
        situation.cells frame after := by
  refine Evaluation.exists_enters _ situation fun position cell isCell => ?_
  by_cases inside : position < handed.length
  · rw [List.getElem?_append_left (by rwa [List.length_map]), List.getElem?_map] at isCell
    obtain ⟨⟨passed, value⟩, found, rfl⟩ := Option.map_eq_some_iff.1 isCell
    cases receives.suits (List.getElem?_eq_getElem (receives.length ▸ inside)) found with
    | cell _ isOld => exact isOld
  · rw [List.getElem?_append_right (by rw [List.length_map]; omega)] at isCell
    cases List.eq_of_mem_replicate (List.mem_of_getElem? isCell)

/-- Behind a call that has ended the cells show what it has left behind. -/
theorem shows_of_finishes {index : Nat} (fits : program.MethodFits references method)
    (receives : method.Receives handed situation.cells) (enters : Evaluation.Enters (handed.map (·.passed) ++
      List.replicate (method.slots.length - (handed.map (·.passed)).length) (Passed.value .null))
      situation.cells frame after) {step : Evaluation Completion} {stack : Stack} {result : Option Value}
    {activation : Activation} {last : Situation}
    (finished : (program.setting libraries most method frame).Finishes (fun slot => ¬program.Assigns index slot) step
      { situation with cells := after } stack (.gaveBack result, activation) last) :
    (Leaving.mk result activation.slots activation.stack activation.world activation.calls).Shows method
      (program.Assigns index) handed stack situation last where
  stack := finished.arrives.stack
  world := finished.arrives.mirrors.world
  calls := finished.arrives.mirrors.calls
  grows := Nat.le_trans enters.grows finished.arrives.spares.grows
  spares := by
    intro cell isOld isSpared
    refine (finished.arrives.spares.same (Nat.lt_of_lt_of_le isOld enters.grows) fun slot denotes => ?_).trans
      (enters.same cell isOld)
    rcases of_denotes fits receives enters denotes with ⟨value, parameter, found, isParameter, -⟩ | ⟨isNew, -⟩
    · rcases isSpared slot value parameter found isParameter with isInput | notAssigned
      · obtain ⟨declared, isDeclared, isMode⟩ := fits.exists_slot isParameter
        exact .inr ⟨declared, isDeclared, isMode.trans (congrArg some isInput)⟩
      · exact .inl notAssigned
    · omega
  finals := by
    intro position cell value parameter found isParameter writesBack
    have isPassed : (handed.map (·.passed) ++ List.replicate (method.slots.length - (handed.map (·.passed)).length)
        (Passed.value .null))[position]? = some (.cell cell) := by
      rw [List.getElem?_append_left (by rw [List.length_map]; exact (List.getElem?_eq_some_iff.1 found).1),
        List.getElem?_map, found]
      rfl
    obtain ⟨declared, isDeclared, -⟩ := fits.exists_slot isParameter
    have assigns := List.all_eq_true.1 (finished.assignsOut result rfl) position
      (List.mem_range.2 (List.getElem?_eq_some_iff.1 isDeclared).1)
    exact finished.arrives.mirrors.agrees (enters.cells position cell isPassed) (by simpa using assigns)

/-- All calls of a program are calls by reference, and leave no more on the stack than their results. The induction is
on the depth of calls that is left. -/
theorem run_refers (fits : ∀ method ∈ program.methods, program.MethodFits references method)
    (apart : program.PassesApart) (most : Nat) :
    (program.run libraries most).Levels program.methods ∧
      (program.run libraries most).Refers program.methods program.Assigns (program.call libraries most) := by
  induction most with
  | zero => exact ⟨fun _ _ _ _ _ _ _ _ ran => (nomatch ran), fun _ _ _ _ _ _ _ _ ran => nomatch ran⟩
  | succ most ih =>
      obtain ⟨levels, refers⟩ := ih
      constructor
      · intro index method arguments stack world calls left found ran
        obtain ⟨_, result, activation, isMethod, ran, rfl⟩ := TypedProgram.of_run ran
        cases found.symm.trans isMethod
        have methodFits := fits method (List.mem_of_getElem? found)
        have within := (executes methodFits apart found isApart_range levels refers ran).1
        exact ⟨within.height, within.result result rfl⟩
      · intro index method handed stack situation left found receives ran
        obtain ⟨_, result, activation, isMethod, ran, rfl⟩ := TypedProgram.of_run ran
        cases found.symm.trans isMethod
        have methodFits := fits method (List.mem_of_getElem? found)
        obtain ⟨frame, after, entered, enters⟩ := exists_frame receives
        have isApart : (program.setting libraries most method frame).IsApart :=
          isApart_setting methodFits receives enters
        have mirrors : (program.setting libraries most method frame).Mirrors _ _ :=
          mirrors_start methodFits receives enters stack
        rcases (executes methodFits apart found isApart levels refers ran).2 mirrors with isLow | ⟨last, finished⟩
        · exact .inl isLow
        · exact .inr ⟨last, call_of_execution found entered finished.evaluates,
            shows_of_finishes methodFits receives enters finished⟩

end TypedProgram

end Snippet
