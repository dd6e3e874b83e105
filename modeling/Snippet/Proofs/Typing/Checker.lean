import Snippet.Proofs.Typing.Judgement
import Snippet.Typing.Checking

/-!
Reasoning about steps of the checker. A step only adds slots and findings, and it stops only with an
error. What it gives is good if no error has been found by then: the checker goes on behind errors,
but what it builds from there on means nothing.
-/

namespace Snippet

/-! ### Expressions and types that are good so far -/

/-- Whether an expression may have the type. -/
structure Ty.Sits (typing : Typing) (type : Ty) : Prop where
  holds : type = .void ∨ type.holdsValues = true
  defined : typing.Strict → type = .void ∨ type = .null ∨ type.Defined typing.libraries

/-- Whether an expression keeps its promises and has a type that it may have. -/
structure TypedExpr.Checked (typing : Typing) (value : TypedExpr) : Prop where
  fits : value.Fits typing
  type : value.type.Sits typing

/-- Whether a variable may have the type. -/
structure Ty.Stores (typing : Typing) (type : Ty) : Prop where
  holds : type.holdsValues = true
  defined : typing.Strict → type.Defined typing.libraries

namespace BodyState

/-- Whether no error has been found yet, and the slots are the first ones of the method. -/
structure Clean (typing : Typing) (state : BodyState) : Prop where
  slots : state.slots.toList <+: typing.slots
  findings : ∀ finding ∈ state.findings.toList, finding.isError = false

/-- Whether every name in scope has a slot. -/
def Scoped (state : BodyState) : Prop :=
  ∀ scope ∈ state.scopes, ∀ entry ∈ scope, entry.2 < state.slots.size

theorem Scoped.inside {state : BodyState} (named : state.Scoped) {name : String} {index : Nat}
    (found : (state.scopes.findSome? fun scope => scope.lookup name) = some index) : index < state.slots.size := by
  obtain ⟨scope, member, held⟩ := List.exists_of_findSome?_eq_some found
  obtain ⟨front, rest, isScope, -⟩ := List.lookup_eq_some_iff.1 held
  exact named scope member (name, index) (by simp [isScope])

/-- Whether every slot has the type of a variable. -/
def Valid (typing : Typing) (state : BodyState) : Prop :=
  ∀ slot ∈ state.slots.toList, slot.type.Stores typing

/-- Whether one state comes from another one by declaring variables and reporting findings. -/
structure Grows (before after : BodyState) : Prop where
  slots : ∃ declared : List Slot, after.slots.toList = before.slots.toList ++ declared ∧
    ∀ slot ∈ declared, slot.mode = none
  findings : before.findings.toList <+: after.findings.toList
  loopDepth : after.loopDepth = before.loopDepth

namespace Grows

variable {before middle after : BodyState} {typing : Typing}

theorem refl (state : BodyState) : state.Grows state :=
  ⟨⟨[], (List.append_nil _).symm, fun _ member => absurd member List.not_mem_nil⟩,
    List.prefix_rfl, rfl⟩

theorem trans (head : before.Grows middle) (tail : middle.Grows after) : before.Grows after := by
  obtain ⟨declared, isMiddle, locals⟩ := head.slots
  obtain ⟨further, isAfter, furtherLocals⟩ := tail.slots
  refine ⟨⟨declared ++ further, by rw [isAfter, isMiddle, List.append_assoc], fun slot member => ?_⟩,
    head.findings.trans tail.findings, tail.loopDepth.trans head.loopDepth⟩
  exact (List.mem_append.1 member).elim (locals slot) (furtherLocals slot)

theorem slots_grow (grows : before.Grows after) : before.slots.toList <+: after.slots.toList := by
  obtain ⟨declared, isAfter, -⟩ := grows.slots
  exact ⟨declared, isAfter.symm⟩

/-- A state without errors comes from one without errors. -/
theorem clean (grows : before.Grows after) (clean : after.Clean typing) : before.Clean typing :=
  ⟨grows.slots_grow.trans clean.slots, fun finding member =>
    clean.findings finding (grows.findings.subset member)⟩

theorem size_le (grows : before.Grows after) : before.slots.size ≤ after.slots.size := by
  simpa using grows.slots_grow.length_le

end Grows

/-- A slot of a clean state is one of the method. -/
theorem Clean.slot {typing : Typing} {state : BodyState} (clean : state.Clean typing) {index : Nat}
    (inside : index < state.slots.size) : typing.slots[index]? = some state.slots[index] := by
  have found : state.slots.toList[index]? = some state.slots[index] := by simp [inside]
  obtain ⟨further, isMethod⟩ := clean.slots
  rw [← isMethod, List.getElem?_append_left (by simpa using inside)]
  exact found

end BodyState

/-! ### The rules -/

namespace Check

/-- Whether a result is good unless an error has been found, and the state behind it comes from the
one before. -/
def Sound {α : Type} (typing : Typing) (before : BodyState) (result : Except Finding α × BodyState)
    (good : α → Prop) : Prop :=
  result.2.Scoped ∧ before.Grows result.2 ∧ (result.2.Clean typing → result.2.Valid typing) ∧
    match result.1 with
    | .ok value => result.2.Clean typing → good value
    | .error finding => finding.isError = true

namespace Sound

variable {α : Type} {typing : Typing} {before : BodyState} {result : Except Finding α × BodyState}
  {good : α → Prop}

theorem of_ok (sound : Sound typing before result good) {value : α} (isOk : result.1 = .ok value)
    (clean : result.2.Clean typing) : good value := by
  have outcome := sound.2.2.2
  rw [isOk] at outcome
  exact outcome clean

end Sound

/-- Whether a step gives a sound result if it is taken in a state in which something is known unless
an error has been found. -/
def Yields {α : Type} (typing : Typing) (context : BodyContext) (before : BodyState) (known : Prop)
    (step : Check α) (good : α → Prop) : Prop :=
  before.Scoped → (before.Clean typing → before.Valid typing ∧ known) →
    Sound typing before ((step.run context).run.run before) good

namespace Yields

variable {α β : Type} {typing : Typing} {context : BodyContext} {before : BodyState}
  {known known' : Prop} {good good' : α → Prop} {step : Check α}

theorem mono (yields : Yields typing context before known step good) (stronger : known' → known)
    (weaker : ∀ value, known' → good value → good' value) :
    Yields typing context before known' step good' := by
  intro inScope clean
  obtain ⟨scopedAfter, grows, valid, outcome⟩ := yields inScope fun isClean =>
    ⟨(clean isClean).1, stronger (clean isClean).2⟩
  refine ⟨scopedAfter, grows, valid, ?_⟩
  generalize (step.run context).run.run before = result at *
  obtain ⟨finding | value, after⟩ := result
  · exact outcome
  · exact fun isClean => weaker _ (clean (grows.clean isClean)).2 (outcome isClean)

/-- More may be known than is needed. -/
theorem weaken (stronger : known' → known) (yields : Yields typing context before known step good) :
    Yields typing context before known' step good :=
  yields.mono stronger fun _ _ => id

theorem pure {value : α} (holds : known → good value) :
    Yields typing context before known (Pure.pure value) good :=
  fun inScope clean => ⟨inScope, .refl _, fun isClean => (clean isClean).1,
    fun isClean => holds (clean isClean).2⟩

theorem throw {finding : Finding} (isError : finding.isError = true) :
    Yields typing context before known (MonadExcept.throw finding : Check α) good :=
  fun inScope clean => ⟨inScope, .refl _, fun isClean => (clean isClean).1, isError⟩

theorem fail {problem : Problem} {span : Span} (isError : problem.isWarning = false) :
    Yields typing context before known (Check.fail problem span : Check α) good :=
  throw (by simp [Finding.isError, isError])

theorem run_bind (step : Check α) (next : α → Check β) (context : BodyContext) (before : BodyState) :
    (((step >>= next).run context).run.run before) =
      match (step.run context).run.run before with
      | (.ok value, after) => ((next value).run context).run.run after
      | (.error finding, after) => (.error finding, after) := by
  simp only [ReaderT.run_bind, ExceptT.run_bind, StateT.run_bind]
  generalize (step.run context).run.run before = result
  obtain ⟨finding | value, after⟩ := result <;> rfl

theorem bind {next : α → Check β} {goal : β → Prop} (head : Yields typing context before known step good)
    (tail : ∀ (value : α) (after : BodyState), before.Grows after →
      Yields typing context after (known ∧ good value) (next value) goal) :
    Yields typing context before known (step >>= next) goal := by
  intro inScope clean
  obtain ⟨scopedAfter, grows, valid, outcome⟩ := head inScope clean
  simp only [run_bind]
  generalize (step.run context).run.run before = result at *
  obtain ⟨finding | value, after⟩ := result
  · exact ⟨scopedAfter, grows, valid, outcome⟩
  · obtain ⟨scopedEnd, growsEnd, validEnd, outcomeEnd⟩ := tail value after grows scopedAfter fun isClean =>
      ⟨valid isClean, (clean (grows.clean isClean)).2, outcome isClean⟩
    exact ⟨scopedEnd, grows.trans growsEnd, validEnd, outcomeEnd⟩

/-- Nothing is done behind a failure. -/
theorem fail_bind {problem : Problem} {span : Span} {next : α → Check β} {goal : β → Prop}
    (isError : problem.isWarning = false) :
    Yields typing context before known (Check.fail problem span >>= next) goal := by
  have isErrorFinding : (Finding.mk problem span).isError = true := by simp [Finding.isError, isError]
  exact fun inScope clean => ⟨inScope, .refl _, fun isClean => (clean isClean).1, isErrorFinding⟩

/-- A step may be refused under a condition. -/
theorem refuse {condition : Prop} [Decidable condition] {problem : Problem} {span : Span}
    {next : PUnit → Check α} (isError : problem.isWarning = false)
    (rest : ¬condition → Yields typing context before known (next ⟨⟩) good) :
    Yields typing context before known
      (if condition then Check.fail problem span >>= next else next ⟨⟩) good := by
  by_cases holds : condition
  · rw [if_pos holds]
    exact fail_bind isError
  · rw [if_neg holds]
    exact rest holds

theorem read_bind {next : BodyContext → Check β} {goal : β → Prop}
    (tail : Yields typing context before known (next context) goal) :
    Yields typing context before known (read >>= next) goal := tail

theorem environment_bind {next : Environment → Check β} {goal : β → Prop}
    (tail : Yields typing context before known (next context.environment) goal) :
    Yields typing context before known (Check.environment >>= next) goal := tail

theorem get_bind {next : BodyState → Check β} {goal : β → Prop}
    (tail : Yields typing context before known (next before) goal) :
    Yields typing context before known (get >>= next) goal := tail

theorem modifyUsage (index : Nat) (change : Usage → Usage) :
    Yields typing context before known (Check.modifyUsage index change) fun _ => True :=
  fun inScope clean => ⟨inScope, ⟨⟨[], (List.append_nil _).symm, fun _ member => absurd member List.not_mem_nil⟩,
    List.prefix_rfl, rfl⟩, fun isClean => (clean ⟨isClean.slots, isClean.findings⟩).1, fun _ => trivial⟩

/-! #### Findings -/

theorem run_attempt (step : Check α) (context : BodyContext) (before : BodyState) :
    ((attempt step).run context).run.run before =
      (.ok ((step.run context).run.run before).1, ((step.run context).run.run before).2) := by
  simp only [attempt, ReaderT.run_tryCatch, ExceptT.run_tryCatch, StateT.run_bind, ReaderT.run_map,
    ExceptT.run_map, StateT.run_map, ReaderT.run_pure]
  generalize (step.run context).run.run before = result
  obtain ⟨finding | value, after⟩ := result <;> rfl

/-- A step may stop as long as the finding is seen to. -/
theorem attempt_bind {next : Except Finding α → Check β} {goal : β → Prop}
    (head : Yields typing context before known step good)
    (values : ∀ (value : α) (after : BodyState), before.Grows after →
      Yields typing context after (known ∧ good value) (next (.ok value)) goal)
    (errors : ∀ (finding : Finding) (after : BodyState), before.Grows after → finding.isError = true →
      Yields typing context after known (next (.error finding)) goal) :
    Yields typing context before known (attempt step >>= next) goal := by
  intro inScope clean
  obtain ⟨scopedAfter, grows, valid, outcome⟩ := head inScope clean
  simp only [run_bind, run_attempt]
  generalize (step.run context).run.run before = result at *
  obtain ⟨finding | value, after⟩ := result
  · obtain ⟨scopedEnd, growsEnd, validEnd, outcomeEnd⟩ := errors finding after grows outcome scopedAfter
      fun isClean => ⟨valid isClean, (clean (grows.clean isClean)).2⟩
    exact ⟨scopedEnd, grows.trans growsEnd, validEnd, outcomeEnd⟩
  · obtain ⟨scopedEnd, growsEnd, validEnd, outcomeEnd⟩ := values value after grows scopedAfter fun isClean =>
      ⟨valid isClean, (clean (grows.clean isClean)).2, outcome isClean⟩
    exact ⟨scopedEnd, grows.trans growsEnd, validEnd, outcomeEnd⟩

/-- A step may stop as long as what comes behind it looks at its result. -/
theorem attempt_then {next : Except Finding α → Check β} {goal : β → Prop}
    (head : Yields typing context before known step good)
    (tail : ∀ (result : Except Finding α) (after : BodyState), before.Grows after →
      (∀ finding, result = .error finding → finding.isError = true) →
      Yields typing context after (known ∧ ∀ value, result = .ok value → good value) (next result) goal) :
    Yields typing context before known (attempt step >>= next) goal := by
  refine head.attempt_bind (fun value after grows => ?_) fun finding after grows isError => ?_
  · exact .weaken (fun holds => ⟨holds.1, fun other same => Except.ok.inj same ▸ holds.2⟩)
      (tail (.ok value) after grows nofun)
  · exact .weaken (fun holds => ⟨holds, nofun⟩)
      (tail (.error finding) after grows fun other same => Except.error.inj same ▸ isError)

/-- Reporting an error is sound in every state: the state behind it is not clean. -/
theorem report_sound {finding : Finding} (isError : finding.isError = true) (named : before.Scoped) :
    Sound typing before (((Check.report finding).run context).run.run before) fun _ => False := by
  have found {state : BodyState} (isClean : ({ state with findings := state.findings.push finding } :
      BodyState).Clean typing) : False := by
    have notError := isClean.findings finding (by simp)
    rw [isError] at notError
    cases notError
  refine ⟨named, ⟨⟨[], (List.append_nil _).symm, fun _ member => absurd member List.not_mem_nil⟩, ?_, rfl⟩,
    fun isClean => (found isClean).elim, fun isClean => (found isClean).elim⟩
  show before.findings.toList <+: (before.findings.push finding).toList
  rw [Array.toList_push]
  exact List.prefix_append ..

theorem report {finding : Finding} (isError : finding.isError = true) :
    Yields typing context before known (Check.report finding) fun _ => False :=
  fun named _ => report_sound isError named

/-- What is given behind a reported error does not matter. -/
theorem report_return_sound {finding : Finding} (isError : finding.isError = true) (named : before.Scoped)
    (value : β) {goal : β → Prop} :
    Sound typing before
      (((Check.report finding >>= fun _ => Pure.pure value : Check β).run context).run.run before) goal := by
  have reported : Sound typing before (((Check.report finding).run context).run.run before) fun _ => False :=
    report_sound isError named
  obtain ⟨namedAfter, grows, valid, outcome⟩ := reported
  exact ⟨namedAfter, grows, valid, fun isClean => (outcome isClean).elim⟩

/-! #### Scopes, loops and variables -/

theorem run_inScope (step : Check α) (context : BodyContext) (before : BodyState) :
    ((Check.inScope step).run context).run.run before =
      let result := (step.run context).run.run { before with scopes := [] :: before.scopes }
      (result.1, { result.2 with scopes := result.2.scopes.drop 1 }) := by
  have steps : ((Check.inScope step).run context).run.run before =
      (((attempt step >>= fun result => do
        modify fun state => { state with scopes := state.scopes.drop 1 }
        Check.ofExcept result : Check α).run context).run.run
          { before with scopes := [] :: before.scopes }) := rfl
  rw [steps, run_bind, run_attempt]
  generalize (step.run context).run.run _ = result
  obtain ⟨finding | value, after⟩ := result <;> rfl

theorem inScope (inner : Yields typing context { before with scopes := [] :: before.scopes } known step good) :
    Yields typing context before known (Check.inScope step) good := by
  intro named clean
  have opened : ({ before with scopes := [] :: before.scopes } : BodyState).Scoped := by
    intro scope member
    rcases List.mem_cons.1 member with rfl | outer
    · exact fun _ member => absurd member List.not_mem_nil
    · exact named scope outer
  obtain ⟨namedAfter, grows, valid, outcome⟩ := inner opened fun isClean =>
    clean ⟨isClean.slots, isClean.findings⟩
  rw [run_inScope]
  generalize (step.run context).run.run _ = result at *
  obtain ⟨result, after⟩ := result
  refine ⟨fun scope member => namedAfter scope (List.mem_of_mem_drop member),
    ⟨grows.slots, grows.findings, grows.loopDepth⟩,
    fun isClean => valid ⟨isClean.slots, isClean.findings⟩, ?_⟩
  cases result with
  | error finding => exact outcome
  | ok value => exact fun isClean => outcome ⟨isClean.slots, isClean.findings⟩

theorem run_inLoop (step : Check α) (context : BodyContext) (before : BodyState) :
    ((Check.inLoop step).run context).run.run before =
      let result := (step.run context).run.run { before with loopDepth := before.loopDepth + 1 }
      (result.1, { result.2 with loopDepth := result.2.loopDepth - 1 }) := by
  have steps : ((Check.inLoop step).run context).run.run before =
      (((attempt step >>= fun result => do
        modify fun state => { state with loopDepth := state.loopDepth - 1 }
        Check.ofExcept result : Check α).run context).run.run
          { before with loopDepth := before.loopDepth + 1 }) := rfl
  rw [steps, run_bind, run_attempt]
  generalize (step.run context).run.run _ = result
  obtain ⟨finding | value, after⟩ := result <;> rfl

theorem inLoop
    (inner : Yields typing context { before with loopDepth := before.loopDepth + 1 } known step good) :
    Yields typing context before known (Check.inLoop step) good := by
  intro named clean
  obtain ⟨namedAfter, grows, valid, outcome⟩ := inner named fun isClean =>
    clean ⟨isClean.slots, isClean.findings⟩
  rw [run_inLoop]
  generalize (step.run context).run.run _ = result at *
  obtain ⟨result, after⟩ := result
  refine ⟨namedAfter, ⟨grows.slots, grows.findings, ?_⟩,
    fun isClean => valid ⟨isClean.slots, isClean.findings⟩, ?_⟩
  · exact congrArg (· - 1) grows.loopDepth
  · cases result with
    | error finding => exact outcome
    | ok value => exact fun isClean => outcome ⟨isClean.slots, isClean.findings⟩

/-- A name in scope has a slot of the current state. -/
theorem lookup_bind {name : String} {next : Option Nat → Check β} {goal : β → Prop}
    (missing : Yields typing context before known (next none) goal)
    (found : ∀ index : Nat, index < before.slots.size →
      Yields typing context before known (next (some index)) goal) :
    Yields typing context before known (lookup? name >>= next) goal := by
  intro named clean
  have runs : (((lookup? name >>= next : Check β).run context).run.run before) =
      ((next (before.scopes.findSome? fun scope => scope.lookup name)).run context).run.run before := rfl
  rw [runs]
  cases result : before.scopes.findSome? fun scope => scope.lookup name with
  | none => exact missing named clean
  | some index =>
      exact found index (named.inside result) named clean

/-- A slot of the current state is one of the method, and stores values. -/
theorem slot_bind {index : Nat} {next : Slot → Check β} {goal : β → Prop}
    (inside : index < before.slots.size)
    (tail : ∀ slot : Slot, Yields typing context before
      (known ∧ typing.slots[index]? = some slot ∧ slot.type.Stores typing) (next slot) goal) :
    Yields typing context before known (Check.slot index >>= next) goal := by
  intro named clean
  have runs : (((Check.slot index >>= next : Check β).run context).run.run before) =
      ((next (before.slots.getD index ⟨"", .error, ⟨0, 0⟩, none⟩)).run context).run.run before := rfl
  rw [runs]
  have found : before.slots.getD index ⟨"", .error, ⟨0, 0⟩, none⟩ = before.slots[index] := by
    simp [inside]
  rw [found]
  refine tail before.slots[index] named fun isClean => ?_
  obtain ⟨valid, holds⟩ := clean isClean
  exact ⟨valid, holds, isClean.slot inside, valid _ (by simp)⟩

end Yields

end Check

/-- The state with one more variable in the innermost scope. -/
def BodyState.declare (state : BodyState) (name : String) (type : Ty) (span : Span) : BodyState :=
  { state with
    slots := state.slots.push ⟨name, type, span, none⟩
    usage := state.usage.push ⟨false, false, false⟩
    scopes := match state.scopes with
      | scope :: outer => ((name, state.slots.size) :: scope) :: outer
      | [] => [] }

namespace BodyState

variable {state : BodyState} {name : String} {type : Ty} {span : Span}

theorem grows_declare : state.Grows (state.declare name type span) :=
  ⟨⟨[⟨name, type, span, none⟩], Array.toList_push, fun slot member => by
    rw [List.mem_singleton.1 member]⟩, List.prefix_rfl, rfl⟩

theorem scoped_declare (name : String) (type : Ty) (span : Span) (named : state.Scoped) : (state.declare name type span).Scoped := by
  have size : (state.declare name type span).slots.size = state.slots.size + 1 := by
    simp [declare]
  intro scope member entry inScope
  rw [size]
  cases isScopes : state.scopes with
  | nil =>
    simp only [declare, isScopes] at member
    exact absurd member List.not_mem_nil
  | cons inner outer =>
    simp only [declare, isScopes] at member
    rcases List.mem_cons.1 member with rfl | isOuter
    · rcases List.mem_cons.1 inScope with rfl | isInner
      · exact Nat.lt_succ_self _
      · exact Nat.lt_succ_of_lt (named inner (by simp [isScopes]) entry isInner)
    · exact Nat.lt_succ_of_lt (named scope (by simp [isScopes, isOuter]) entry inScope)

end BodyState

namespace Check

/-- Declaring a variable is refused if its name is in scope or there are too many. -/
theorem run_declare (name : String) (type : Ty) (span : Span) (context : BodyContext) (before : BodyState) :
    ((declare name type span).run context).run.run before =
      if (before.scopes.head?.getD []).any (·.1 == name) then
        (.error ⟨.duplicateVariable name, span⟩, before)
      else if (before.scopes.findSome? fun scope => scope.lookup name).isSome then
        (.error ⟨.shadowedVariable name, span⟩, before)
      else if 65535 < before.slots.size then
        (.error ⟨.unsupported "more than 65535 locals", span⟩, before)
      else (.ok before.slots.size, before.declare name type span) := by
  unfold declare
  by_cases isDuplicate : (before.scopes.head?.getD []).any (·.1 == name)
  · rw [if_pos isDuplicate]
    show ((ite _ _ _ : Check Nat).run context).run.run before = _
    rw [if_pos isDuplicate]
    rfl
  · rw [if_neg isDuplicate]
    show ((ite _ _ _ : Check Nat).run context).run.run before = _
    rw [if_neg isDuplicate]
    by_cases isShadowed : (before.scopes.findSome? fun scope => scope.lookup name).isSome
    · rw [if_pos isShadowed]
      show ((ite _ _ _ : Check Nat).run context).run.run before = _
      rw [if_pos isShadowed]
      rfl
    · rw [if_neg isShadowed]
      show ((ite _ _ _ : Check Nat).run context).run.run before = _
      rw [if_neg isShadowed]
      split_ifs <;> rfl

/-- Declaring a variable is refused with an error, or gives the slot that comes next. -/
theorem declare_cases (name : String) (type : Ty) (span : Span) (context : BodyContext)
    (before : BodyState) :
    (∃ finding, ((declare name type span).run context).run.run before = (.error finding, before) ∧
      finding.isError = true) ∨
    ((declare name type span).run context).run.run before =
      (.ok before.slots.size, before.declare name type span) := by
  rw [run_declare]
  split_ifs
  · exact .inl ⟨_, rfl, rfl⟩
  · exact .inl ⟨_, rfl, rfl⟩
  · exact .inl ⟨_, rfl, rfl⟩
  · exact .inr rfl

namespace Yields

variable {α β : Type} {typing : Typing} {context : BodyContext} {before : BodyState}
  {known : Prop} {name : String} {type : Ty} {span : Span}

/-- A declared variable has the slot that comes next. -/
theorem declare (stores : known → type.Stores typing) :
    Yields typing context before known (Check.declare name type span) fun index =>
      typing.slots[index]? = some ⟨name, type, span, none⟩ := by
  intro named clean
  rcases declare_cases name type span context before with ⟨finding, runs, isError⟩ | runs
  · rw [runs]
    exact ⟨named, .refl _, fun isClean => (clean isClean).1, isError⟩
  · rw [runs]
    have grows : before.Grows (before.declare name type span) := BodyState.grows_declare
    refine ⟨BodyState.scoped_declare name type span named, grows, fun isClean slot member => ?_, fun isClean => ?_⟩
    · obtain ⟨valid, holds⟩ := clean (grows.clean isClean)
      rcases List.mem_append.1 (Array.toList_push ▸ member : slot ∈ before.slots.toList ++ _) with old | new
      · exact valid slot old
      · rw [List.mem_singleton.1 new]
        exact stores holds
    · have inside : before.slots.size < (before.declare name type span).slots.size := by
        simp [BodyState.declare]
      refine (isClean.slot inside).trans ?_
      simp [BodyState.declare]

/-- A variable whose first value is wrong may be declared as long as the error is reported. -/
theorem declare_doomed {next : Except Finding Nat → Check β} {goal : β → Prop}
    (reports : ∀ (result : Except Finding Nat) (after : BodyState), after.Scoped →
      (∀ finding, result = .error finding → finding.isError = true) →
      Sound typing after (((next result).run context).run.run after) goal) :
    Yields typing context before known (attempt (Check.declare name type span) >>= next) goal := by
  intro named _
  simp only [run_bind, run_attempt]
  rcases declare_cases name type span context before with ⟨finding, runs, isError⟩ | runs
  · rw [runs]
    exact reports (.error finding) before named fun other same => Except.error.inj same ▸ isError
  · rw [runs]
    obtain ⟨namedEnd, grows, valid, outcome⟩ := reports (.ok before.slots.size) _
      (BodyState.scoped_declare name type span named) nofun
    exact ⟨namedEnd, BodyState.grows_declare.trans grows, valid, outcome⟩

end Yields

end Check

end Snippet
