import Snippet.Proofs.Typing.Resolution

/-!
Two logics of the steps of the checker. What a step gives in every state, if it does not stop: for properties that do
not depend on what has been found or declared (`Check.Gives`). What is known in front of a step that ends without an
error and behind it: no step takes back what has been found, and one that stops does so with an error (`Check.Ends`).
-/

namespace Snippet

namespace Check

/-! ### What a step gives -/

/-- Whether everything that a step gives is good. -/
def Gives {α : Type} (context : BodyContext) (step : Check α) (good : α → Prop) : Prop :=
  ∀ (before : BodyState) (value : α), ((step.run context).run.run before).1 = .ok value → good value

namespace Gives

variable {α β : Type} {context : BodyContext} {good good' : α → Prop} {goal : β → Prop} {step : Check α}

/-- Nothing is asked of what a step gives. -/
theorem anything (step : Check α) : Gives context step fun _ => True := fun _ _ _ => trivial

theorem mono (gives : Gives context step good) (weaker : ∀ value, good value → good' value) :
    Gives context step good' := fun before value isOk => weaker value (gives before value isOk)

theorem pure {value : α} (holds : good value) : Gives context (Pure.pure value) good := by
  rintro _ _ ⟨⟩
  exact holds

theorem throw {finding : Finding} : Gives context (MonadExcept.throw finding : Check α) good := nofun

theorem fail {problem : Problem} {span : Span} : Gives context (Check.fail problem span : Check α) good := nofun

theorem bind {next : α → Check β} (head : Gives context step good)
    (tail : ∀ value, good value → Gives context (next value) goal) : Gives context (step >>= next) goal := by
  intro before value isOk
  rw [Yields.run_bind] at isOk
  have given := head before
  generalize (step.run context).run.run before = result at *
  obtain ⟨finding | middle, after⟩ := result
  · cases isOk
  · exact tail middle (given middle rfl) after value isOk

/-- What a step gives may not matter. -/
theorem bind_any {next : α → Check β} (tail : ∀ value, Gives context (next value) goal) :
    Gives context (step >>= next) goal := (anything step).bind fun value _ => tail value

theorem read_bind {next : BodyContext → Check β} (tail : Gives context (next context) goal) :
    Gives context (read >>= next) goal := tail

theorem environment_bind {next : Environment → Check β} (tail : Gives context (next context.environment) goal) :
    Gives context (Check.environment >>= next) goal := tail

theorem fail_bind {problem : Problem} {span : Span} {next : β → Check α} :
    Gives context (Check.fail problem span >>= next) good := nofun

theorem refuse {condition : Prop} [Decidable condition] {problem : Problem} {span : Span} {next : PUnit → Check α}
    (rest : ¬condition → Gives context (next ⟨⟩) good) :
    Gives context (if condition then Check.fail problem span >>= next else next ⟨⟩) good := by
  by_cases holds : condition
  · rw [if_pos holds]
    exact fail_bind
  · rw [if_neg holds]
    exact rest holds

theorem ofExcept {result : Except Finding α} (values : ∀ value, result = .ok value → good value) :
    Gives context (Check.ofExcept result) good := by
  cases result with
  | ok value => exact pure (values value rfl)
  | error finding => exact throw

theorem ofResolves {result : Except Finding α} (resolves : Resolves good result) :
    Gives context (Check.ofExcept result) good := by
  cases result with
  | ok value => exact pure resolves
  | error finding => exact throw

theorem attempt_bind {next : Except Finding α → Check β} (head : Gives context step good)
    (tail : ∀ result, (∀ value, result = .ok value → good value) → Gives context (next result) goal) :
    Gives context (attempt step >>= next) goal := by
  have attempted : Gives context (attempt step) fun result => ∀ value, result = .ok value → good value := by
    intro before result isOk value isValue
    rw [Yields.run_attempt] at isOk
    exact head before value ((Except.ok.inj isOk).trans isValue)
  exact attempted.bind tail

theorem inScope (inner : Gives context step good) : Gives context (Check.inScope step) good := by
  intro before value isOk
  rw [Yields.run_inScope] at isOk
  exact inner _ value isOk

theorem inLoop (inner : Gives context step good) : Gives context (Check.inLoop step) good := by
  intro before value isOk
  rw [Yields.run_inLoop] at isOk
  exact inner _ value isOk

end Gives

end Check

/-! ### Steps that end without an error -/

/-- Whether no error has been found yet. -/
def BodyState.ErrorFree (state : BodyState) : Prop := ∀ finding ∈ state.findings.toList, finding.isError = false

namespace Check

variable {α β : Type}

/-- Whether a step stops only with an error, and ends without one found only if none was found in front of it: then its
outcome is good if it starts in a state of which something is known. -/
def Ends (context : BodyContext) (known : BodyState → Prop) (step : Check α)
    (good : Except Finding α → BodyState → Prop) : Prop :=
  ∀ before : BodyState,
    let result := (step.run context).run.run before
    (result.2.ErrorFree → before.ErrorFree) ∧
      (∀ finding, result.1 = .error finding → finding.isError = true) ∧
      (result.2.ErrorFree → known before → good result.1 result.2)

namespace Ends

variable {context : BodyContext} {known known' : BodyState → Prop} {step : Check α}
  {good good' : Except Finding α → BodyState → Prop}

theorem mono (ends : Ends context known step good) (stronger : ∀ state, known' state → known state)
    (weaker : ∀ result state, good result state → good' result state) : Ends context known' step good' :=
  fun before => ⟨(ends before).1, (ends before).2.1, fun isFree holds =>
    weaker _ _ ((ends before).2.2 isFree (stronger before holds))⟩

/-- What a step makes of each single state. -/
theorem ofEach {good : BodyState → Except Finding α → BodyState → Prop}
    (each : ∀ start, Ends context (· = start) step (good start)) :
    Ends context known step fun result state => ∃ start, known start ∧ good start result state :=
  fun before => ⟨(each before before).1, (each before before).2.1, fun isFree holds =>
    ⟨before, holds, (each before before).2.2 isFree rfl⟩⟩

theorem pure {value : α} (holds : ∀ state, known state → good (.ok value) state) :
    Ends context known (Pure.pure value) good := fun before => ⟨id, nofun, fun _ => holds before⟩

theorem throw {finding : Finding} (isError : finding.isError = true)
    (holds : ∀ state, known state → good (.error finding) state) :
    Ends context known (MonadExcept.throw finding : Check α) good :=
  fun before => ⟨id, fun _ same => Except.error.inj same ▸ isError, fun _ => holds before⟩

/-- What stops the first step stops both. -/
theorem bind {rest : α → Check β} {goal : Except Finding β → BodyState → Prop} (head : Ends context known step good)
    (errors : ∀ finding state, good (.error finding) state → goal (.error finding) state)
    (tail : ∀ value, Ends context (good (.ok value)) (rest value) goal) : Ends context known (step >>= rest) goal := by
  intro before
  obtain ⟨keeps, isError, outcome⟩ := head before
  simp only [Yields.run_bind]
  generalize (step.run context).run.run before = result at *
  obtain ⟨finding | value, after⟩ := result
  · refine ⟨keeps, ?_, fun isFree holds => errors _ _ (outcome isFree holds)⟩
    rintro _ ⟨⟩
    exact isError finding rfl
  · obtain ⟨keepsTail, isErrorTail, outcomeTail⟩ := tail value after
    exact ⟨fun isFree => keeps (keepsTail isFree), isErrorTail, fun isFree holds =>
      outcomeTail isFree (outcome (keepsTail isFree) holds)⟩

/-- The result of a step is looked at, and what stopped it is an error. -/
theorem attemptBind {rest : Except Finding α → Check β} {goal : Except Finding β → BodyState → Prop}
    (head : Ends context known step good)
    (tail : ∀ result : Except Finding α, (∀ finding, result = .error finding → finding.isError = true) →
      Ends context (good result) (rest result) goal) :
    Ends context known (attempt step >>= rest) goal := by
  intro before
  obtain ⟨keeps, isError, outcome⟩ := head before
  simp only [Yields.run_bind, Yields.run_attempt]
  generalize (step.run context).run.run before = result at *
  obtain ⟨keepsTail, isErrorTail, outcomeTail⟩ := tail result.1 isError result.2
  exact ⟨fun isFree => keeps (keepsTail isFree), isErrorTail, fun isFree holds =>
    outcomeTail isFree (outcome (keepsTail isFree) holds)⟩

/-- No step ends without an error behind a reported one. -/
theorem report {finding : Finding} (isError : finding.isError = true)
    {good : Except Finding PUnit → BodyState → Prop} : Ends context known (Check.report finding) good := by
  intro before
  have found : ¬({ before with findings := before.findings.push finding } : BodyState).ErrorFree := by
    intro isFree
    have notError := isFree finding (by simp)
    rw [isError] at notError
    cases notError
  exact ⟨fun isFree => (found isFree).elim, nofun, fun isFree => (found isFree).elim⟩

theorem modifyUsage {good : Except Finding PUnit → BodyState → Prop} {index : Nat} {change : Usage → Usage}
    (holds : ∀ state, known state → good (.ok ⟨⟩) { state with usage := state.usage.modify index change }) :
    Ends context known (Check.modifyUsage index change) good := fun before => ⟨id, nofun, fun _ => holds before⟩

theorem inScope (inner : Ends context known' step good')
    (opens : ∀ state, known state → known' { state with scopes := [] :: state.scopes })
    (closes : ∀ result state, good' result state → good result { state with scopes := state.scopes.drop 1 }) :
    Ends context known (Check.inScope step) good := by
  intro before
  obtain ⟨keeps, isError, outcome⟩ := inner { before with scopes := [] :: before.scopes }
  simp only [Yields.run_inScope]
  exact ⟨keeps, isError, fun isFree holds => closes _ _ (outcome isFree (opens before holds))⟩

theorem inLoop (inner : Ends context known' step good')
    (enters : ∀ state, known state → known' { state with loopDepth := state.loopDepth + 1 })
    (leaves : ∀ result state, good' result state → good result { state with loopDepth := state.loopDepth - 1 }) :
    Ends context known (Check.inLoop step) good := by
  intro before
  obtain ⟨keeps, isError, outcome⟩ := inner { before with loopDepth := before.loopDepth + 1 }
  simp only [Yields.run_inLoop]
  exact ⟨keeps, isError, fun isFree holds => leaves _ _ (outcome isFree (enters before holds))⟩

/-- A variable that cannot be declared is an error, and leaves the state as it is. -/
theorem declare {good : Except Finding Nat → BodyState → Prop} {name : String} {type : Ty} {span : Span}
    (refused : ∀ finding state, known state → good (.error finding) state)
    (declared : ∀ state, known state → good (.ok state.slots.size) (state.declare name type span)) :
    Ends context known (Check.declare name type span) good := by
  intro before
  dsimp only
  rcases declare_cases name type span context before with ⟨finding, runs, isError⟩ | runs
  · rw [runs]
    exact ⟨id, fun _ same => Except.error.inj same ▸ isError, fun _ => refused finding before⟩
  · rw [runs]
    exact ⟨id, nofun, fun _ => declared before⟩

end Ends

end Check

end Snippet
