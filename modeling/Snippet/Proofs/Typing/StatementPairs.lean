import Snippet.Proofs.Typing.Conversion
import Snippet.Proofs.Typing.Spans
import Snippet.Typing.Statement

/-!
Statements in pairs of runs of the checker, the second one of trees with changed places in a context of its own: the
rules that a property of such pairs follows, and one walk through declarations and statements that uses nothing else.
Main statement: `Check.PairLogic.statement_agrees`.
-/

namespace Snippet

/-- Values in which places may stand. -/
class Placed (α : Type) where
  mapSpans (change : Span → Span) : α → α
  mapSpans_id (value : α) : mapSpans id value = value

namespace Placed

variable {α : Type} [Placed α]

instance : Placed PUnit := ⟨fun _ => id, fun _ => rfl⟩
instance : Placed Nat := ⟨fun _ => id, fun _ => rfl⟩
instance : Placed Ty := ⟨fun _ => id, fun _ => rfl⟩
instance : Placed TypedExpr := ⟨TypedExpr.mapSpans, TypedExpr.mapSpans_id⟩
instance : Placed TypedStmt := ⟨TypedStmt.mapSpans, TypedStmt.mapSpans_id⟩

instance : Placed (List α) :=
  ⟨fun change => List.map (mapSpans change), fun values => by rw [funext mapSpans_id, List.map_id']⟩

instance : Placed (Option α) :=
  ⟨fun change => Option.map (mapSpans change), fun value => by rw [funext mapSpans_id, Option.map_id']⟩

end Placed

theorem moveResult_id {α : Type} [Placed α] (result : Except Finding α) :
    moveResult id (Placed.mapSpans id) result = result := by
  cases result with
  | ok value => rw [moveResult, Placed.mapSpans_id]
  | error finding => rfl

namespace Check

/-- The type that a declaration gives its variables, if it names one. Everything wrong with it is reported. -/
def declaredType (span : Span) (type : TypeName) (count : Nat) : Check (Option Ty) := do
  let context ← read
  if type.isInferred then
    if 1 < count then report ⟨.severalInferred, span⟩
    return none
  match context.environment.resolveType context.owner .variable type with
  | .ok type => return some type
  | .error finding =>
    report finding
    return some .error

theorem declaration_eq (span : Span) (type : TypeName) (sources : List Declarator) :
    declaration span type sources = do
      let declared ← declaredType span type sources.length
      return .block (← declaratorList declared sources) := by
  rw [declaration, declaredType, bind_assoc]
  refine congrArg (read >>= ·) (funext fun context => ?_)
  cases type.isInferred with
  | true => by_cases several : 1 < sources.length <;> simp [several]
  | false => cases context.environment.resolveType context.owner .variable type <;> simp

/-! ### The rules -/

/-- A property of pairs of steps, by its rules. A judgement says what holds if the first step ends without an error. -/
structure PairLogic (change : Span → Span) (context context' : BodyContext) where
  Judges {α : Type} [Placed α] (may : Prop) (step step' : Check α) : Prop
  /-- Whether a step may stop with a finding, and may report it. -/
  Stops : Finding → Prop
  stops {finding : Finding} (isError : finding.isError = true) : Stops finding
  label : context'.label = context.label
  result : context'.result = context.result
  pure {α : Type} [Placed α] {may : Prop} {value result : α} (holds : may) (same : result = Placed.mapSpans change value) :
    Judges may (Pure.pure value) (Pure.pure result)
  throw {α : Type} [Placed α] {may : Prop} {finding : Finding} (stops : Stops finding) :
    Judges may (MonadExcept.throw finding : Check α) (MonadExcept.throw (finding.mapSpans change))
  bind {α β : Type} [Placed α] [Placed β] {may : Prop} {first first' : Check α} {rest rest' : α → Check β}
    (head : Judges True first first') (tail : ∀ value, Judges may (rest value) (rest' (Placed.mapSpans change value))) :
    Judges may (first >>= rest) (first' >>= rest')
  /-- What stopped a step may stop another one behind it instead. -/
  attempt {α β : Type} [Placed α] [Placed β] {may : Prop} {first first' : Check α} {rest rest' : Except Finding α → Check β}
    (head : Judges True first first')
    (tail : ∀ result, (∀ finding, result = .error finding → Stops finding) →
      Judges (may ∧ result.isOk = true) (rest result) (rest' (moveResult change (Placed.mapSpans change) result))) :
    Judges may (Check.attempt first >>= rest) (Check.attempt first' >>= rest')
  /-- Behind a reported finding the checker goes on, but does not end without an error. -/
  report {α : Type} [Placed α] {may may' : Prop} {finding : Finding} {rest rest' : Check α} (stops : Stops finding)
    (tail : Judges may' rest rest') :
    Judges may
      (do
        Check.report finding
        rest)
      (do
        Check.report (finding.mapSpans change)
        rest')
  read {α : Type} [Placed α] {may : Prop} {rest rest' : BodyContext → Check α}
    (tail : Judges may (rest context) (rest' context')) :
    Judges may (MonadReader.read >>= rest) (MonadReader.read >>= rest')
  noteWrite (index : Nat) (value : TypedExpr) :
    Judges True (Check.noteWrite index value) (Check.noteWrite index (value.mapSpans change))
  inScope {α : Type} [Placed α] {may : Prop} {step step' : Check α} (inner : Judges may step step') :
    Judges may (Check.inScope step) (Check.inScope step')
  inLoop {α : Type} [Placed α] {may : Prop} {step step' : Check α} (inner : Judges may step step') :
    Judges may (Check.inLoop step) (Check.inLoop step')
  unlessOutside {α : Type} [Placed α] {problem : Problem} {span : Span} {value : α} (isError : problem.isWarning = false) :
    Judges True
      (do
        if (← get).loopDepth == 0 then Check.fail problem span
        return value)
      (do
        if (← get).loopDepth == 0 then Check.fail problem (change span)
        return Placed.mapSpans change value)
  declare (name : String) (type : Ty) (span : Span) :
    Judges True (Check.declare name type span) (Check.declare name type (change span))
  expression (source : Expr) : Judges True (Check.expression source) (Check.expression (source.mapSpans change))
  condition (source : Expr) : Judges True (Check.condition source) (Check.condition (source.mapSpans change))
  declaredType (span : Span) (type : TypeName) (count : Nat) :
    Judges True (Check.declaredType span type count) (Check.declaredType (change span) (type.mapSpans change) count)

namespace PairLogic

variable {change : Span → Span} {context context' : BodyContext} (logic : PairLogic change context context')

/-- A finding that is reported, and what is given behind it. -/
theorem reported {α : Type} [Placed α] {may : Prop} {finding : Finding} {value result : α}
    (stops : logic.Stops finding) (same : result = Placed.mapSpans change value) :
    logic.Judges may
      (do
        Check.report finding
        return value)
      (do
        Check.report (finding.mapSpans change)
        return result) := logic.report stops (logic.pure trivial same)

theorem fail {α : Type} [Placed α] {may : Prop} {problem : Problem} {span : Span} (isError : problem.isWarning = false) :
    logic.Judges may (Check.fail problem span : Check α) (Check.fail problem (change span)) :=
  logic.throw (logic.stops (by simp [Finding.isError, isError]))

/-- A result that was looked at is given back, and stops the step if it is a finding. -/
theorem ofExcept {α β : Type} [Placed α] [Placed β] {may : Prop} {result : Except Finding α} {rest rest' : α → Check β}
    (errors : ∀ finding, result = .error finding → logic.Stops finding)
    (values : ∀ value, result = .ok value → logic.Judges may (rest value) (rest' (Placed.mapSpans change value))) :
    logic.Judges may (Check.ofExcept result >>= rest)
      (Check.ofExcept (moveResult change (Placed.mapSpans change) result) >>= rest') := by
  cases result with
  | ok value => exact values value rfl
  | error finding => exact logic.throw (errors finding rfl)

theorem stops_of_coerce {value : TypedExpr} {type : Ty} {finding : Finding}
    (refused : value.coerce type = .error finding) : logic.Stops finding := by
  have resolves : Resolves (fun _ => True) (value.coerce type) := TypedExpr.resolves_coerce fun _ _ => trivial
  rw [refused] at resolves
  exact logic.stops resolves

/-! ### Expressions in statements -/

theorem effect_agrees (source : Expr) : logic.Judges True (effect source) (effect (source.mapSpans change)) := by
  have same : isStatement (source.mapSpans change) = isStatement source := by cases source <;> rfl
  rw [effect, effect, same, Expr.span_mapSpans]
  split
  · exact logic.fail rfl
  · exact logic.expression source

theorem effects_agree (sources : List Expr) :
    logic.Judges True (effects sources) (effects (sources.map (Expr.mapSpans change))) := by
  induction sources with
  | nil => exact logic.pure trivial rfl
  | cons first rest ih =>
    rw [List.map_cons, effects, effects]
    exact logic.bind (logic.effect_agrees first) fun first => logic.bind ih fun others => logic.pure trivial rfl

theorem optionalCondition_agrees (source : Option Expr) :
    logic.Judges True (optionalCondition source) (optionalCondition (source.map (Expr.mapSpans change))) := by
  cases source with
  | none => exact logic.pure trivial rfl
  | some source => exact logic.bind (logic.condition source) fun test => logic.pure trivial rfl

theorem giveBack_agrees (span : Span) (value : Option Expr) :
    logic.Judges True (giveBack span value) (giveBack (change span) (value.map (Expr.mapSpans change))) := by
  have converted (source : Expr) (type : Ty) : logic.Judges True
      (do return TypedStmt.giveBack span (some (← Check.ofExcept ((← Check.expression source).coerce type))))
      (do return TypedStmt.giveBack (change span) (some (← Check.ofExcept
        ((← Check.expression (source.mapSpans change)).coerce type)))) := by
    refine logic.bind (logic.expression source) fun value => ?_
    dsimp only [Placed.mapSpans]
    rw [TypedExpr.coerce_mapSpans]
    exact logic.ofExcept (fun _ => logic.stops_of_coerce) fun used _ => logic.pure trivial rfl
  rw [giveBack, giveBack]
  refine logic.read ?_
  rw [logic.result, logic.label]
  cases value with
  | none =>
    cases context.result with
    | void => exact logic.pure trivial rfl
    | _ => exact logic.fail rfl
  | some source =>
    cases context.result with
    | void => exact logic.fail rfl
    | _ => exact converted source _

/-! ### Declarations -/

theorem variableType_agrees (declared : Option Ty) (value : Option (Except Finding TypedExpr)) (span : Span) :
    logic.Judges True (variableType declared value span)
      (variableType declared (value.map (moveResult change (TypedExpr.mapSpans change))) (change span)) := by
  cases declared with
  | some type => exact logic.pure trivial rfl
  | none =>
    obtain _ | finding | value := value
    · exact logic.reported (logic.stops rfl) rfl
    · exact logic.pure trivial rfl
    · simp only [Option.map_some, moveResult, variableType, TypedExpr.type_mapSpans]
      split
      · exact logic.reported (logic.stops rfl) rfl
      · exact logic.pure trivial rfl

theorem declarator_agrees (declared : Option Ty) (source : Declarator) :
    logic.Judges True (declarator declared source) (declarator declared (source.mapSpans change)) := by
  obtain ⟨name, value, span⟩ := source
  unfold declarator
  cases value with
  | none =>
    dsimp only [Declarator.mapSpans, Option.map_none]
    rw [pure_bind, pure_bind]
    refine logic.bind (logic.variableType_agrees declared none span) fun type => ?_
    refine logic.attempt (logic.declare name type span) fun result stops => ?_
    cases result with
    | error finding => exact logic.reported (stops finding rfl) rfl
    | ok index => exact logic.pure ⟨trivial, rfl⟩ rfl
  | some value =>
    dsimp only [Declarator.mapSpans, Option.map_some]
    rw [bind_map_left, bind_map_left]
    refine logic.attempt (logic.expression value) fun first stops => ?_
    cases first with
    | error finding =>
      refine logic.bind (logic.variableType_agrees declared (some (.error finding)) span) fun type => ?_
      refine logic.attempt (logic.declare name type span) fun result errors => ?_
      cases result with
      | error other => exact logic.reported (errors other rfl) rfl
      | ok index => exact logic.reported (stops finding rfl) rfl
    | ok first =>
      refine logic.bind (logic.variableType_agrees declared (some (.ok first)) span) fun type => ?_
      refine logic.attempt (logic.declare name type span) fun result errors => ?_
      cases result with
      | error finding => exact logic.reported (errors finding rfl) rfl
      | ok index =>
        dsimp only [moveResult, Placed.mapSpans, id]
        rw [TypedExpr.coerce_mapSpans]
        cases isUsed : first.coerce type with
        | error finding => exact logic.reported (logic.stops_of_coerce isUsed) rfl
        | ok used =>
          exact logic.bind (logic.noteWrite index used) fun _ => logic.pure ⟨⟨trivial, rfl⟩, rfl⟩ rfl

theorem declaratorList_agrees (declared : Option Ty) (sources : List Declarator) :
    logic.Judges True (declaratorList declared sources)
      (declaratorList declared (sources.map (Declarator.mapSpans change))) := by
  induction sources with
  | nil => exact logic.pure trivial rfl
  | cons first rest ih =>
    rw [List.map_cons, declaratorList, declaratorList]
    refine logic.bind (logic.declarator_agrees declared first) fun first => logic.bind ih fun others => ?_
    cases first <;> exact logic.pure trivial rfl

theorem declaration_agrees (span : Span) (type : TypeName) (sources : List Declarator) :
    logic.Judges True (declaration span type sources)
      (declaration (change span) (type.mapSpans change) (sources.map (Declarator.mapSpans change))) := by
  rw [declaration_eq, declaration_eq, List.length_map]
  refine logic.bind (logic.declaredType span type sources.length) fun declared => ?_
  have sameType : Placed.mapSpans change declared = declared := by cases declared <;> rfl
  rw [sameType]
  refine logic.bind (logic.declaratorList_agrees declared sources) fun body => logic.pure trivial ?_
  exact congrArg TypedStmt.block (TypedStmt.mapSpansOfAll_eq_map change body).symm

/-! ### Statements -/

/-- A statement in a place that needs one. -/
theorem orEmpty_agrees {step step' : Check TypedStmt} (inner : logic.Judges True step step') :
    logic.Judges True (orEmpty step) (orEmpty step') := by
  rw [orEmpty, orEmpty]
  refine logic.attempt inner fun result stops => ?_
  cases result with
  | ok statement => exact logic.pure ⟨trivial, rfl⟩ rfl
  | error finding => exact logic.reported (stops finding rfl) rfl

mutual

/-- A statement has the property, whatever it is. -/
theorem statement_agrees (source : Stmt) :
    logic.Judges True (statement source) (statement (source.mapSpans change)) := by
  match source with
  | .block _ body =>
    rw [Stmt.mapSpans, statement, statement, Stmt.mapSpansOfAll_eq_map]
    refine logic.inScope (logic.bind (statements_agree body) fun body => logic.pure trivial ?_)
    exact congrArg TypedStmt.block (TypedStmt.mapSpansOfAll_eq_map change body).symm
  | .empty _ =>
    rw [Stmt.mapSpans, statement, statement]
    exact logic.pure trivial rfl
  | .declare span type sources =>
    rw [Stmt.mapSpans, statement, statement]
    exact logic.declaration_agrees span type sources
  | .evaluate _ value =>
    rw [Stmt.mapSpans, statement, statement]
    exact logic.bind (logic.effect_agrees value) fun value => logic.pure trivial rfl
  | .giveBack span value =>
    rw [Stmt.mapSpans, statement, statement]
    exact logic.giveBack_agrees span value
  | .branch _ test thenBranch elseBranch =>
    rw [Stmt.mapSpans, statement, statement]
    refine logic.attempt (logic.condition test) fun test stops => ?_
    refine logic.bind (logic.orEmpty_agrees (statement_agrees thenBranch)) fun first => ?_
    refine logic.bind (optionalStatement_agrees elseBranch) fun second => ?_
    exact logic.ofExcept stops fun test isOk => logic.pure ⟨trivial, isOk ▸ rfl⟩ (by cases second <;> rfl)
  | .whileLoop _ test body =>
    rw [Stmt.mapSpans, statement, statement]
    refine logic.attempt (logic.condition test) fun test stops => ?_
    refine logic.bind (logic.inLoop (logic.orEmpty_agrees (statement_agrees body))) fun body => ?_
    exact logic.ofExcept stops fun test isOk => logic.pure ⟨trivial, isOk ▸ rfl⟩ rfl
  | .forLoop _ start test steps body =>
    rw [Stmt.mapSpans, statement, statement, Stmt.mapSpansOfAll_eq_map]
    refine logic.inScope (logic.bind (statements_agree start) fun start => ?_)
    refine logic.attempt (logic.optionalCondition_agrees test) fun test testStops => ?_
    refine logic.attempt (logic.effects_agree steps) fun steps stepsStop => ?_
    refine logic.bind (logic.inLoop (logic.orEmpty_agrees (statement_agrees body))) fun body => ?_
    refine logic.ofExcept testStops fun test testIsOk => logic.ofExcept stepsStop fun steps areOk => ?_
    refine logic.pure ⟨⟨trivial, testIsOk ▸ rfl⟩, areOk ▸ rfl⟩ ?_
    exact congrArg (TypedStmt.forLoop · _ _ _) (TypedStmt.mapSpansOfAll_eq_map change start).symm
  | .leaveLoop span =>
    rw [Stmt.mapSpans, statement, statement]
    exact logic.unlessOutside rfl
  | .nextRound span =>
    rw [Stmt.mapSpans, statement, statement]
    exact logic.unlessOutside rfl

theorem optionalStatement_agrees (source : Option Stmt) :
    logic.Judges True (optionalStatement source) (optionalStatement (Stmt.mapSpansOfOptional change source)) := by
  match source with
  | none => exact logic.pure trivial rfl
  | some branch =>
    rw [Stmt.mapSpansOfOptional, optionalStatement, optionalStatement]
    exact logic.bind (logic.orEmpty_agrees (statement_agrees branch)) fun branch => logic.pure trivial rfl

theorem statements_agree (sources : List Stmt) :
    logic.Judges True (statements sources) (statements (sources.map (Stmt.mapSpans change))) := by
  match sources with
  | [] => exact logic.pure trivial rfl
  | first :: rest =>
    rw [List.map_cons, statements, statements]
    refine logic.attempt (statement_agrees first) fun result stops => ?_
    cases result with
    | ok first =>
      refine logic.bind (statements_agree rest) fun others => ?_
      exact logic.pure ⟨trivial, rfl⟩ rfl
    | error finding => exact logic.report (stops finding rfl) (statements_agree rest)

end

end PairLogic

end Check

end Snippet
