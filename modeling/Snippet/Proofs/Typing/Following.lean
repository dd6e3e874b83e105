import Snippet.Proofs.Typing.Outcome
import Snippet.Proofs.Typing.Resolution

/-!
Two runs of the checker: a logic of steps that do in a second context what they do in the first one, unless they find
an error. Behind an error the two may differ, as long as the first one does not end without it.
-/

namespace Snippet.Check

variable {α β γ : Type}

/-- Whether a step that ends without an error does the same in a second context, and may end so at all. -/
def Follows (may : Prop) (context context' : BodyContext) (step step' : Check α) : Prop :=
  ∀ start : BodyState, Ends context (· = start) step fun result state =>
    ∀ value, result = .ok value → may ∧ (step'.run context').run.run start = (.ok value, state)

namespace Follows

variable {may may' : Prop} {context context' : BodyContext} {step step' : Check α}

theorem mono (follows : Follows may context context' step step') (weaker : may → may') :
    Follows may' context context' step step' := fun start =>
  (follows start).mono (fun _ => id) fun _ _ does value isOk => (does value isOk).imp weaker id

/-- A step that never ends without an error stands for any other one. -/
theorem doomed (follows : Follows False context context' step step') {other : Check α} :
    Follows may context context' step other := fun start =>
  (follows start).mono (fun _ => id) fun _ _ does value isOk => (does value isOk).1.elim

/-- A step that does the same in both contexts. -/
theorem same (ends : Ends context (fun _ => True) step fun _ _ => True)
    (runs : ∀ before, (step.run context').run.run before = (step.run context).run.run before) :
    Follows True context context' step step := by
  intro start before
  refine ⟨(ends before).1, (ends before).2.1, ?_⟩
  rintro - rfl value isOk
  exact ⟨trivial, (runs before).trans (Prod.ext isOk rfl)⟩

theorem pure (value : α) : Follows True context context' (Pure.pure value) (Pure.pure value) :=
  same (.pure fun _ _ => trivial) fun _ => rfl

theorem throw {finding : Finding} (isError : finding.isError = true) :
    Follows may context context' (MonadExcept.throw finding) step' := fun _ => .throw isError fun _ _ => nofun

theorem fail {problem : Problem} {span : Span} (isError : problem.isWarning = false) :
    Follows may context context' (Check.fail problem span) step' := throw (by simp [Finding.isError, isError])

/-- What follows behind a step that has been followed. -/
theorem endsBehind (may : Prop) {first' : Check γ} {rest : Check α} {rest' : γ → Check α} {value : γ}
    {start : BodyState}
    (tail : Follows may' context context' rest (rest' value)) :
    Ends context (fun state => may ∧ (first'.run context').run.run start = (.ok value, state)) rest
      fun result state => ∀ value, result = .ok value →
        (may ∧ may') ∧ ((first' >>= rest').run context').run.run start = (.ok value, state) := by
  refine (Ends.ofEach tail).mono (fun _ => id) ?_
  rintro result state ⟨middle, ⟨mayHead, ranHead⟩, does⟩ given isOk
  obtain ⟨mayTail, ranTail⟩ := does given isOk
  refine ⟨⟨mayHead, mayTail⟩, ?_⟩
  rw [Yields.run_bind, ranHead]
  exact ranTail

theorem bindBoth {first first' : Check γ} {rest rest' : γ → Check α}
    (head : Follows may context context' first first')
    (tail : ∀ value : γ, Follows may' context context' (rest value) (rest' value)) :
    Follows (may ∧ may') context context' (first >>= rest) (first' >>= rest') := fun start =>
  (head start).bind (fun _ _ _ => nofun) fun value =>
    (endsBehind may (tail value)).mono (fun _ does => does value rfl) fun _ _ => id

theorem bind {first first' : Check γ} {rest rest' : γ → Check α} (head : Follows may context context' first first')
    (tail : ∀ value : γ, Follows may context context' (rest value) (rest' value)) :
    Follows may context context' (first >>= rest) (first' >>= rest') := (bindBoth head tail).mono And.left

theorem pureBind {value : γ} {rest rest' : γ → Check α}
    (go : Follows may context context' (rest value) (rest' value)) :
    Follows may context context' (Pure.pure value >>= rest) (Pure.pure value >>= rest') := go

theorem readBind {rest rest' : BodyContext → Check α}
    (go : Follows may context context' (rest context) (rest' context')) :
    Follows may context context' (read >>= rest) (read >>= rest') := go

theorem environment {rest rest' : Environment → Check α}
    (go : Follows may context context' (rest context.environment) (rest' context'.environment)) :
    Follows may context context' (Check.environment >>= rest) (Check.environment >>= rest') := go

theorem getBind {rest rest' : BodyState → Check α}
    (go : ∀ state : BodyState, Follows may context context' (rest state) (rest' state)) :
    Follows may context context' (get >>= rest) (get >>= rest') := by
  intro start before
  refine ⟨(go before start before).1, (go before start before).2.1, ?_⟩
  rintro isFree rfl
  exact (go before before before).2.2 isFree rfl

theorem lookup? {name : String} {rest rest' : Option Nat → Check α}
    (go : ∀ found : Option Nat, Follows may context context' (rest found) (rest' found)) :
    Follows may context context' (Check.lookup? name >>= rest) (Check.lookup? name >>= rest') :=
  getBind fun _ => go _

theorem slot {index : Nat} {rest rest' : Slot → Check α}
    (go : ∀ found : Slot, Follows may context context' (rest found) (rest' found)) :
    Follows may context context' (Check.slot index >>= rest) (Check.slot index >>= rest') := getBind fun _ => go _

theorem choose {condition : Prop} [Decidable condition] {first second first' second' : Check α}
    (yes : Follows may context context' first first') (no : Follows may context context' second second') :
    Follows may context context' (if condition then first else second) (if condition then first' else second') := by
  split
  · exact yes
  · exact no

theorem ofExcept {result result' : Except Finding α} (kept : Resolves (result' = .ok ·) result) :
    Follows True context context' (Check.ofExcept result) (Check.ofExcept result') := by
  cases result with
  | ok value =>
    rw [show result' = .ok value from kept]
    exact .pure value
  | error finding => exact .throw kept

/-- The result of a step is looked at: a finding that stops it must not be lost. -/
theorem attemptBind {rest rest' : Except Finding γ → Check α} {first first' : Check γ}
    (head : Follows True context context' first first')
    (values : ∀ value : γ, Follows may context context' (rest (.ok value)) (rest' (.ok value)))
    (errors : ∀ finding : Finding, finding.isError = true →
      Follows False context context' (rest (.error finding)) (rest' (.error finding))) :
    Follows may context context' (attempt first >>= rest) (attempt first' >>= rest') := by
  intro start
  refine (head start).attemptBind fun result isError => ?_
  cases result with
  | ok value =>
    refine (endsBehind True (values value)).mono (fun state does => ?_) fun _ _ does given isOk =>
      (does given isOk).imp And.right id
    obtain ⟨-, ran⟩ := does value rfl
    exact ⟨trivial, by rw [Yields.run_attempt, ran]⟩
  | error finding =>
    refine (Ends.ofEach (errors finding (isError finding rfl))).mono (fun _ => id) ?_
    rintro _ _ ⟨_, _, does⟩ given isOk
    exact (does given isOk).1.elim

/-- What stopped a step may stop another one behind it instead. -/
theorem attemptThen {rest rest' : Except Finding γ → Check α} {first first' : Check γ}
    (head : Follows True context context' first first')
    (tail : ∀ result : Except Finding γ, (∀ finding, result = .error finding → finding.isError = true) →
      Follows (may ∧ result.isOk = true) context context' (rest result) (rest' result)) :
    Follows may context context' (attempt first >>= rest) (attempt first' >>= rest') := by
  refine attemptBind head (fun value => (tail (.ok value) nofun).mono And.left) fun finding isError => ?_
  exact (tail (.error finding) fun other same => Except.error.inj same ▸ isError).mono fun ⟨_, isOk⟩ => nomatch isOk

theorem report {finding : Finding} (isError : finding.isError = true) {other : Check PUnit} :
    Follows may context context' (Check.report finding) other := fun _ => .report isError

/-- Behind a reported error the checker goes on, but does not end without it. -/
theorem reportBind {finding : Finding} (isError : finding.isError = true) {rest : PUnit → Check α} {tail' : Check α}
    (tail : Follows may' context context' (rest ⟨⟩) tail') {other : Check α} :
    Follows may context context' (Check.report finding >>= rest) other := by
  have reported : Follows False context context' (Check.report finding) (Check.report finding) := report isError
  exact ((bindBoth reported fun _ => tail).mono And.left).doomed

theorem modifyUsage (index : Nat) (change : Usage → Usage) :
    Follows True context context' (Check.modifyUsage index change) (Check.modifyUsage index change) :=
  same (.modifyUsage fun _ _ => trivial) fun _ => rfl

theorem inScope (inner : Follows may context context' step step') :
    Follows may context context' (Check.inScope step) (Check.inScope step') := by
  refine fun start => (inner { start with scopes := [] :: start.scopes }).inScope ?_ fun result state does value isOk => ?_
  · rintro _ rfl
    rfl
  · obtain ⟨mayStep, ran⟩ := does value isOk
    exact ⟨mayStep, by rw [Yields.run_inScope, ran]⟩

theorem inLoop (inner : Follows may context context' step step') :
    Follows may context context' (Check.inLoop step) (Check.inLoop step') := by
  refine fun start => (inner { start with loopDepth := start.loopDepth + 1 }).inLoop ?_ fun result state does value isOk => ?_
  · rintro _ rfl
    rfl
  · obtain ⟨mayStep, ran⟩ := does value isOk
    exact ⟨mayStep, by rw [Yields.run_inLoop, ran]⟩

theorem declare (name : String) (type : Ty) (span : Span) :
    Follows True context context' (Check.declare name type span) (Check.declare name type span) :=
  same (.declare (fun _ _ _ => trivial) fun _ _ => trivial) fun before => by rw [run_declare, run_declare]

end Follows

theorem noteRead_follows {context context' : BodyContext} (index : Nat) :
    Follows True context context' (noteRead index) (noteRead index) := .modifyUsage index _

theorem noteWrite_follows {context context' : BodyContext} (index : Nat) (value : TypedExpr) :
    Follows True context context' (noteWrite index value) (noteWrite index value) := .modifyUsage index _

end Snippet.Check
