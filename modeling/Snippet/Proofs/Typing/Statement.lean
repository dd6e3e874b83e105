import Snippet.Proofs.Stack.Values
import Snippet.Proofs.Typing.Resolution
import Snippet.Typing.Statement

/-!
Statements, for every property of what the checker gives: the rules that such a property follows, and one walk through
declarations and statements that uses nothing else. Main statement: `Check.StatementLogic.statement_judged`.
-/

namespace Snippet

mutual

/-- The variables that a statement declares, and the statements in it, in the order of the text. -/
def Stmt.declarators : Stmt → List (String × Span)
  | .block _ body => Stmt.declaratorsOfAll body
  | .declare _ _ sources => sources.map fun source => (source.name, source.span)
  | .branch _ _ thenBranch elseBranch => thenBranch.declarators ++ Stmt.declaratorsOfOptional elseBranch
  | .whileLoop _ _ body => body.declarators
  | .forLoop _ start _ _ body => Stmt.declaratorsOfAll start ++ body.declarators
  | .empty _ | .evaluate _ _ | .giveBack _ _ | .leaveLoop _ | .nextRound _ => []

/-- The variables that an else branch declares, if there is one. -/
def Stmt.declaratorsOfOptional : Option Stmt → List (String × Span)
  | none => []
  | some elseBranch => elseBranch.declarators

/-- The variables that statements declare, in the order of the text. -/
def Stmt.declaratorsOfAll : List Stmt → List (String × Span)
  | [] => []
  | first :: rest => first.declarators ++ Stmt.declaratorsOfAll rest

end

namespace Check

/-! ### The rules -/

/-- A property of what steps give, by its rules. A judgement says what is known in front of a step, and what is good of
the value that it gives; both may speak of a world. It says also whether the step stands in a loop, and which variables
it may declare. -/
structure Logic (context : BodyContext) where
  World : Type
  Judges {α : Type} (nested : Bool) (offered : List (String × Span)) (known : World → Prop) (step : Check α)
    (good : World → α → Prop) : Prop
  /-- Whether a step may stop with a finding, and may report it. -/
  Stops : Finding → Prop
  /-- What is known behind a reported finding. -/
  Doomed : World → Prop
  /-- Where a round of a loop may be left. -/
  Leaves (nested : Bool) : Prop
  stops {finding : Finding} (isError : finding.isError = true) : Stops finding
  pure {α : Type} {nested : Bool} {offered : List (String × Span)} {known : World → Prop} {good : World → α → Prop}
    {value : α} (holds : ∀ world, known world → good world value) :
    Judges nested offered known (Pure.pure value) good
  throw {α : Type} {nested : Bool} {offered : List (String × Span)} {known : World → Prop} {good : World → α → Prop}
    {finding : Finding} (stops : Stops finding) :
    Judges nested offered known (MonadExcept.throw finding : Check α) good
  bind {α β : Type} {nested : Bool} {offered further : List (String × Span)} {known : World → Prop}
    {good : World → α → Prop} {goal : World → β → Prop} {step : Check α} {next : α → Check β}
    (head : Judges nested offered known step good)
    (tail : ∀ value, Judges nested further (fun world => known world ∧ good world value) (next value) goal) :
    Judges nested (offered ++ further) known (step >>= next) goal
  /-- What stopped a step may stop another one behind it instead. -/
  attempt {α β : Type} {nested : Bool} {offered further : List (String × Span)} {known : World → Prop}
    {good : World → α → Prop} {goal : World → β → Prop} {step : Check α} {next : Except Finding α → Check β}
    (head : Judges nested offered known step good)
    (tail : ∀ result, (∀ finding, result = .error finding → Stops finding) →
      Judges nested further (fun world => known world ∧ ∀ value, result = .ok value → good world value) (next result)
        goal) :
    Judges nested (offered ++ further) known (Check.attempt step >>= next) goal
  report {nested : Bool} {known : World → Prop} {finding : Finding} (stops : Stops finding) :
    Judges nested [] known (Check.report finding) fun world _ => Doomed world
  read {α : Type} {nested : Bool} {offered : List (String × Span)} {known : World → Prop} {good : World → α → Prop}
    {next : BodyContext → Check α} (tail : Judges nested offered known (next context) good) :
    Judges nested offered known (MonadReader.read >>= next) good
  noteWrite {nested : Bool} {known : World → Prop} (index : Nat) (value : TypedExpr) :
    Judges nested [] known (Check.noteWrite index value) fun _ _ => True
  inScope {α : Type} {nested : Bool} {offered : List (String × Span)} {known : World → Prop}
    {good : World → α → Prop} {step : Check α} (inner : Judges nested offered known step good) :
    Judges nested offered known (Check.inScope step) good
  inLoop {α : Type} {nested : Bool} {offered : List (String × Span)} {known : World → Prop}
    {good : World → α → Prop} {step : Check α} (inner : Judges true offered known step good) :
    Judges nested offered known (Check.inLoop step) good
  /-- A step that is refused outside all loops. -/
  unlessOutside {α : Type} {nested : Bool} {known : World → Prop} {good : World → α → Prop} {problem : Problem}
    {span : Span} {value : α} (isError : problem.isWarning = false)
    (holds : Leaves nested → ∀ world, known world → good world value) :
    Judges nested [] known (do
      if (← get).loopDepth == 0 then Check.fail problem span
      return value) good

namespace Logic

variable {context : BodyContext} (logic : Logic context) {α β : Type} {nested : Bool}
  {offered : List (String × Span)} {known : logic.World → Prop} {good : logic.World → α → Prop}
  {goal : logic.World → β → Prop}

theorem fail {problem : Problem} {span : Span} (isError : problem.isWarning = false) :
    logic.Judges nested offered known (Check.fail problem span : Check α) good :=
  logic.throw (logic.stops (by simp [Finding.isError, isError]))

/-- A step in front of others that declare nothing. -/
theorem bindLast {step : Check α} {next : α → Check β} (head : logic.Judges nested offered known step good)
    (tail : ∀ value, logic.Judges nested [] (fun world => known world ∧ good world value) (next value) goal) :
    logic.Judges nested offered known (step >>= next) goal := by
  have both := logic.bind head tail
  rwa [List.append_nil] at both

/-- A declaring step, whose finding is looked at, in front of others that declare nothing. -/
theorem attemptLast {step : Check α} {next : Except Finding α → Check β}
    (head : logic.Judges nested offered known step good)
    (tail : ∀ result, (∀ finding, result = .error finding → logic.Stops finding) →
      logic.Judges nested [] (fun world => known world ∧ ∀ value, result = .ok value → good world value) (next result)
        goal) :
    logic.Judges nested offered known (Check.attempt step >>= next) goal := by
  have both := logic.attempt head tail
  rwa [List.append_nil] at both

/-- A step that declares nothing, whose finding is looked at. -/
theorem attemptQuiet {step : Check α} {next : Except Finding α → Check β}
    (head : logic.Judges nested [] known step good)
    (tail : ∀ result, (∀ finding, result = .error finding → logic.Stops finding) →
      logic.Judges nested offered (fun world => known world ∧ ∀ value, result = .ok value → good world value)
        (next result) goal) :
    logic.Judges nested offered known (Check.attempt step >>= next) goal := logic.attempt head tail

/-- A result that was looked at is given back, and stops the step if it is a finding. -/
theorem ofExcept {result : Except Finding α} {next : α → Check β}
    (errors : ∀ finding, result = .error finding → logic.Stops finding)
    (values : ∀ value, result = .ok value → logic.Judges nested offered known (next value) goal) :
    logic.Judges nested offered known (Check.ofExcept result >>= next) goal := by
  cases result with
  | ok value => exact values value rfl
  | error finding => exact logic.throw (errors finding rfl)

end Logic

/-- A property of typed expressions and variables, with the steps that give them. -/
structure ExpressionLogic (context : BodyContext) extends Logic context where
  /-- What is asked of an expression. -/
  Value : World → TypedExpr → Prop
  /-- What is asked of a condition. -/
  Test : World → TypedExpr → Prop
  /-- What is asked of an expression that is used as one of a type. -/
  Used : World → Ty → TypedExpr → Prop
  /-- What is asked of the type of a variable. -/
  Stores : World → Ty → Prop
  /-- What is asked of the index of a variable. -/
  Declared : World → Slot → Nat → Prop
  expression {nested : Bool} {known : World → Prop} (source : Expr) :
    Judges nested [] known (Check.expression source) Value
  condition {nested : Bool} {known : World → Prop} (source : Expr) : Judges nested [] known (Check.condition source) Test
  coerce (value : TypedExpr) (type : Ty) :
    Resolves (fun used => ∀ world, Value world value → Stores world type → Used world type used) (value.coerce type)
  resolve (type : TypeName) :
    Resolves (fun resolved => ∀ world, Stores world resolved)
      (context.environment.resolveType context.owner .variable type)
  result (world : World) : context.result ≠ .void → Stores world context.result
  stores {world : World} {value : TypedExpr} (isGood : Value world value) (notNull : value.type ≠ .null)
    (notVoid : value.type ≠ .void) : Stores world value.type
  /-- Behind a reported finding a variable may have the type of an error. -/
  doomed {world : World} (isDoomed : Doomed world) : Stores world .error
  declare {nested : Bool} {known : World → Prop} {name : String} {type : Ty} {span : Span}
    (stores : ∀ world, known world → Stores world type) :
    Judges nested [(name, span)] known (Check.declare name type span) fun world index =>
      Declared world ⟨name, type, span, none⟩ index
  /-- A variable may have any type if a finding is reported right behind it. -/
  declareDoomed {α : Type} {nested : Bool} {known : World → Prop} {good : World → α → Prop} {name : String} {type : Ty}
    {span : Span} {next : Except Finding Nat → Check α} {value : α}
    (reports : ∀ result, (∀ finding, result = .error finding → Stops finding) →
      ∃ finding, Stops finding ∧ next result = do
        Check.report finding
        return value)
    (holds : ∀ world, Doomed world → good world value) :
    Judges nested [(name, span)] known (Check.attempt (Check.declare name type span) >>= next) good

/-- A property of typed statements, by what is asked of their parts. -/
structure StatementLogic (context : BodyContext) extends ExpressionLogic context where
  /-- What is asked of a statement, in a loop or outside all loops. -/
  Holds (nested : Bool) : World → TypedStmt → Prop
  block {nested : Bool} {world : World} {body : List TypedStmt} (holds : ∀ statement ∈ body, Holds nested world statement) :
    Holds nested world (.block body)
  evaluate {nested : Bool} {world : World} {value : TypedExpr} (isGood : Value world value) :
    Holds nested world (.evaluate value)
  assign {nested : Bool} {world : World} {name : String} {type : Ty} {span : Span} {index : Nat} {used : TypedExpr}
    (stores : Stores world type) (declared : Declared world ⟨name, type, span, none⟩ index)
    (isUsed : Used world type used) : Holds nested world (.evaluate (.mk (.assign (.slot index) used) type span))
  giveNothing {nested : Bool} {world : World} {span : Span} (isVoid : context.result = .void) :
    Holds nested world (.giveBack span none)
  giveBack {nested : Bool} {world : World} {span : Span} {used : TypedExpr} (hasResult : context.result ≠ .void)
    (isUsed : Used world context.result used) : Holds nested world (.giveBack span (some used))
  branch {nested : Bool} {world : World} {test : TypedExpr} {first : TypedStmt} {second : Option TypedStmt}
    (isTest : Test world test) (one : Holds nested world first)
    (other : ∀ statement ∈ second, Holds nested world statement) : Holds nested world (.branch test first second)
  whileLoop {nested : Bool} {world : World} {test : TypedExpr} {body : TypedStmt} (isTest : Test world test)
    (holds : Holds true world body) : Holds nested world (.whileLoop test body)
  forLoop {nested : Bool} {world : World} {start : List TypedStmt} {test : Option TypedExpr} {steps : List TypedExpr}
    {body : TypedStmt} (starts : ∀ statement ∈ start, Holds nested world statement)
    (isTest : ∀ value ∈ test, Test world value) (advances : ∀ value ∈ steps, Value world value)
    (holds : Holds true world body) : Holds nested world (.forLoop start test steps body)
  leaveLoop {nested : Bool} {world : World} (leaves : Leaves nested) : Holds nested world .leaveLoop
  nextRound {nested : Bool} {world : World} (leaves : Leaves nested) : Holds nested world .nextRound

/-- A property of all expressions in a statement. -/
def ExpressionLogic.everywhere {context : BodyContext} (logic : ExpressionLogic context)
    (ofTest : ∀ world value, logic.Test world value → logic.Value world value)
    (ofUsed : ∀ world type value, logic.Used world type value → logic.Value world value)
    (assigned : ∀ world (slot : Slot) index used, logic.Stores world slot.type → logic.Declared world slot index →
      logic.Used world slot.type used → logic.Value world (.mk (.assign (.slot index) used) slot.type slot.span)) :
    StatementLogic context where
  toExpressionLogic := logic
  Holds _ world statement := statement.Every (logic.Value world) (logic.Value world)
  block := TypedStmt.everyOfAll_iff.2
  evaluate := id
  assign stores declared isUsed := assigned _ ⟨_, _, _, none⟩ _ _ stores declared isUsed
  giveNothing _ := trivial
  giveBack _ isUsed := ofUsed _ _ _ isUsed
  branch {_ _ _ _ second} isTest one other := by
    cases second with
    | none => exact ⟨ofTest _ _ isTest, one⟩
    | some second => exact ⟨ofTest _ _ isTest, one, other second rfl⟩
  whileLoop isTest holds := ⟨ofTest _ _ isTest, holds⟩
  forLoop starts isTest advances holds :=
    ⟨TypedStmt.everyOfAll_iff.2 starts, fun value isSome => ofTest _ _ (isTest value isSome), advances, holds⟩
  leaveLoop _ := trivial
  nextRound _ := trivial

namespace StatementLogic

variable {context : BodyContext} (logic : StatementLogic context) {nested : Bool} {known : logic.World → Prop}

/-- A finding that is reported, and what is given behind it. -/
theorem reported {α : Type} {good : logic.World → α → Prop} {finding : Finding} {value : α}
    (stops : logic.Stops finding) (holds : ∀ world, logic.Doomed world → good world value) :
    logic.Judges nested [] known (do
      Check.report finding
      return value) good :=
  logic.bind (logic.report stops) fun _ => logic.pure fun world ⟨_, isDoomed⟩ => holds world isDoomed

/-! ### Expressions in statements -/

theorem effect_judged (source : Expr) : logic.Judges nested [] known (effect source) logic.Value := by
  unfold effect
  split
  · exact logic.fail rfl
  · exact logic.expression source

theorem effects_judged (sources : List Expr) :
    logic.Judges nested [] known (effects sources) fun world values => ∀ value ∈ values, logic.Value world value := by
  induction sources generalizing known with
  | nil =>
    rw [effects]
    exact logic.pure fun _ _ _ member => absurd member List.not_mem_nil
  | cons source rest ih =>
    rw [effects]
    refine logic.bind (logic.effect_judged source) fun first => logic.bind ih fun others => logic.pure ?_
    exact fun world ⟨⟨_, isGood⟩, areGood⟩ => List.forall_mem_cons.2 ⟨isGood, areGood⟩

theorem optionalCondition_judged (source : Option Expr) :
    logic.Judges nested [] known (optionalCondition source) fun world found =>
      ∀ test ∈ found, logic.Test world test := by
  cases source with
  | none => exact logic.pure fun _ _ _ isNone => by cases isNone
  | some source =>
    refine logic.bind (logic.condition source) fun test => logic.pure ?_
    exact fun world ⟨_, isTest⟩ other isSome => Option.some.inj isSome ▸ isTest

/-- A return statement. -/
theorem giveBack_judged (span : Span) (value : Option Expr) :
    logic.Judges nested [] known (Check.giveBack span value) (logic.Holds nested) := by
  unfold Check.giveBack
  refine logic.read ?_
  split
  · next isVoid => exact logic.pure fun world _ => logic.giveNothing isVoid
  · exact logic.fail rfl
  · exact logic.fail rfl
  · next source hasResult =>
    refine logic.bind (logic.expression source) fun value => ?_
    have coerces := logic.coerce value context.result
    refine logic.ofExcept (fun finding isError => ?_) fun used isUsed => logic.pure ?_
    · rw [isError] at coerces
      exact logic.stops coerces
    · rw [isUsed] at coerces
      exact fun world ⟨_, isGood⟩ => logic.giveBack hasResult (coerces world isGood (logic.result world hasResult))

/-! ### Declarations -/

/-- The type of a variable, declared or of a first value that has been checked. -/
theorem variableType_judged {declared : Option Ty} (value : Option TypedExpr) (span : Span)
    (isDeclared : ∀ world, known world → ∀ type ∈ declared, logic.Stores world type)
    (isGood : ∀ world, known world → ∀ first ∈ value, logic.Value world first) :
    logic.Judges nested [] known (variableType declared (value.map .ok) span) logic.Stores := by
  have doomed (problem : Problem) (isError : problem.isWarning = false) : logic.Judges nested [] known (do
      Check.report ⟨problem, span⟩
      return Ty.error) logic.Stores :=
    logic.reported (logic.stops (by simp [Finding.isError, isError])) fun world => logic.doomed
  cases declared with
  | some type => exact logic.pure fun world holds => isDeclared world holds type rfl
  | none =>
    cases value with
    | none => exact doomed .inferredWithoutValue rfl
    | some value =>
      unfold variableType
      dsimp only [Option.map_some]
      split
      · exact doomed (.inferredFrom value.type.shown) rfl
      · next hasType =>
        simp only [Bool.or_eq_true, beq_iff_eq, not_or] at hasType
        exact logic.pure fun world holds => logic.stores (isGood world holds value rfl) hasType.1 hasType.2

/-- One variable of a declaration. -/
theorem declarator_judged {declared : Option Ty}
    (isDeclared : ∀ world, known world → ∀ type ∈ declared, logic.Stores world type) (source : Declarator) :
    logic.Judges nested [(source.name, source.span)] known (declarator declared source) fun world found =>
      ∀ statement ∈ found, logic.Holds nested world statement := by
  obtain ⟨name, value, span⟩ := source
  have nothing (world : logic.World) : ∀ statement ∈ (none : Option TypedStmt), logic.Holds nested world statement :=
    fun _ isNone => by cases isNone
  unfold declarator
  cases value with
  | none =>
    refine logic.bind (logic.variableType_judged none span isDeclared fun _ _ _ isNone => by cases isNone) fun type => ?_
    refine logic.attemptLast (logic.declare fun world holds => holds.2) fun result stops => ?_
    cases result with
    | error finding => exact logic.reported (stops finding rfl) fun world _ => nothing world
    | ok index => exact logic.pure fun world _ => nothing world
  | some first =>
    dsimp only
    rw [bind_map_left]
    refine logic.attemptQuiet (logic.expression first) fun first stops => ?_
    cases first with
    | error finding =>
      have anyType : variableType declared (some (.error finding)) span = pure (declared.getD .error) := by
        cases declared <;> rfl
      rw [anyType]
      refine logic.declareDoomed (fun result errors => ?_) fun world _ => nothing world
      cases result with
      | error other => exact ⟨other, errors other rfl, rfl⟩
      | ok index => exact ⟨finding, stops finding rfl, rfl⟩
    | ok first =>
      refine logic.bind (logic.variableType_judged (some first) span (fun world holds => isDeclared world holds.1)
        fun world holds => ?_) fun type => ?_
      · exact fun other isSome => Option.some.inj isSome ▸ holds.2 first rfl
      · refine logic.attemptLast (logic.declare fun world holds => holds.2) fun result stops => ?_
        cases result with
        | error finding => exact logic.reported (stops finding rfl) fun world _ => nothing world
        | ok index =>
          have coerces := logic.coerce first type
          dsimp only
          revert coerces
          cases first.coerce type with
          | error finding => exact fun isError => logic.reported (logic.stops isError) fun world _ => nothing world
          | ok used =>
            refine fun coerces => logic.bind (logic.noteWrite index used) fun _ => logic.pure ?_
            intro world ⟨⟨⟨⟨_, isGood⟩, stores⟩, declared⟩, _⟩ statement isSome
            rw [← Option.some.inj isSome]
            exact logic.assign stores (declared index rfl) (coerces world (isGood first rfl) stores)

theorem declaratorList_judged {declared : Option Ty}
    (isDeclared : ∀ world, known world → ∀ type ∈ declared, logic.Stores world type) (sources : List Declarator) :
    logic.Judges nested (sources.map fun source => (source.name, source.span)) known (declaratorList declared sources)
      fun world body => ∀ statement ∈ body, logic.Holds nested world statement := by
  induction sources generalizing known with
  | nil =>
    rw [declaratorList]
    exact logic.pure fun _ _ _ member => absurd member List.not_mem_nil
  | cons source rest ih =>
    rw [declaratorList]
    refine logic.bind (logic.declarator_judged isDeclared source) fun first => ?_
    refine logic.bindLast (ih fun world holds => isDeclared world holds.1) fun others => logic.pure ?_
    intro world ⟨⟨_, isFirst⟩, areOthers⟩ statement member
    rcases List.mem_append.1 member with inFirst | inOthers
    · exact isFirst statement (Option.mem_toList.1 inFirst)
    · exact areOthers statement inOthers

/-- A declaration puts its statements into a block. -/
theorem declaratorBlock_judged {declared : Option Ty}
    (isDeclared : ∀ world, known world → ∀ type ∈ declared, logic.Stores world type) (sources : List Declarator) :
    logic.Judges nested (sources.map fun source => (source.name, source.span)) known
      (declaratorList declared sources >>= fun body => pure (.block body)) (logic.Holds nested) :=
  logic.bindLast (logic.declaratorList_judged isDeclared sources) fun _ =>
    logic.pure fun _ ⟨_, holds⟩ => logic.block holds

theorem declaration_judged (span : Span) (type : TypeName) (sources : List Declarator) :
    logic.Judges nested (sources.map fun source => (source.name, source.span)) known (declaration span type sources)
      (logic.Holds nested) := by
  -- No type is given, so the one of each initial value is taken.
  have inferred (known : logic.World → Prop) : logic.Judges nested
      (sources.map fun source => (source.name, source.span)) known
      (declaratorList none sources >>= fun body => pure (.block body)) (logic.Holds nested) :=
    logic.declaratorBlock_judged (by simp) sources
  unfold declaration
  refine logic.read ?_
  split
  · split
    · exact logic.bind (logic.report (logic.stops rfl)) fun _ => inferred _
    · exact inferred _
  · have resolves := logic.resolve type
    revert resolves
    cases context.environment.resolveType context.owner .variable type with
    | ok resolved =>
      refine fun stores => logic.declaratorBlock_judged ?_ sources
      exact fun world _ other same => Option.some.inj same ▸ stores world
    | error finding =>
      refine fun isError => logic.bind (logic.report (logic.stops isError)) fun _ => ?_
      refine logic.declaratorBlock_judged ?_ sources
      exact fun world ⟨_, isDoomed⟩ other same => Option.some.inj same ▸ logic.doomed isDoomed

/-! ### Statements -/

/-- A statement in a place that needs one. -/
theorem orEmpty_judged {offered : List (String × Span)} {step : Check TypedStmt}
    (inner : logic.Judges nested offered known step (logic.Holds nested)) :
    logic.Judges nested offered known (orEmpty step) (logic.Holds nested) := by
  have isEmpty (world : logic.World) : logic.Holds nested world (.block []) :=
    logic.block fun _ member => absurd member List.not_mem_nil
  unfold orEmpty
  refine logic.attemptLast inner fun result stops => ?_
  cases result with
  | ok statement => exact logic.pure fun world ⟨_, holds⟩ => holds statement rfl
  | error finding => exact logic.reported (stops finding rfl) fun world _ => isEmpty world

mutual

/-- A statement has the property, whatever is known in front of it. -/
theorem statement_judged (nested : Bool) (known : logic.World → Prop) (source : Stmt) :
    logic.Judges nested source.declarators known (statement source) (logic.Holds nested) := by
  match source with
  | .block span body =>
    rw [statement]
    refine logic.inScope (logic.bindLast (statements_judged nested known body) fun body => logic.pure ?_)
    exact fun world ⟨_, holds⟩ => logic.block holds
  | .empty span =>
    rw [statement]
    exact logic.pure fun world _ => logic.block fun _ member => absurd member List.not_mem_nil
  | .declare span type sources =>
    rw [statement]
    exact logic.declaration_judged span type sources
  | .evaluate span value =>
    rw [statement]
    refine logic.bind (logic.effect_judged value) fun value => logic.pure ?_
    exact fun world ⟨_, isGood⟩ => logic.evaluate isGood
  | .giveBack span value =>
    rw [statement]
    exact logic.giveBack_judged span value
  | .branch span test thenBranch elseBranch =>
    rw [statement]
    refine logic.attemptQuiet (logic.condition test) fun test stops => ?_
    refine logic.bind (logic.orEmpty_judged (statement_judged nested _ thenBranch)) fun first => ?_
    refine logic.bindLast (optionalStatement_judged nested _ elseBranch) fun second => ?_
    refine logic.ofExcept stops fun test isOk => logic.pure ?_
    exact fun world ⟨⟨⟨_, tests⟩, one⟩, other⟩ => logic.branch (tests test isOk) one other
  | .whileLoop span test body =>
    rw [statement]
    refine logic.attemptQuiet (logic.condition test) fun test stops => ?_
    refine logic.bindLast (logic.inLoop (logic.orEmpty_judged (statement_judged true _ body))) fun body => ?_
    refine logic.ofExcept stops fun test isOk => logic.pure ?_
    exact fun world ⟨⟨_, tests⟩, holds⟩ => logic.whileLoop (tests test isOk) holds
  | .forLoop span start test steps body =>
    rw [statement]
    refine logic.inScope (logic.bind (statements_judged nested known start) fun start => ?_)
    refine logic.attemptQuiet (logic.optionalCondition_judged test) fun test testStops => ?_
    refine logic.attemptQuiet (logic.effects_judged steps) fun steps stepsStop => ?_
    refine logic.bindLast (logic.inLoop (logic.orEmpty_judged (statement_judged true _ body))) fun body => ?_
    refine logic.ofExcept testStops fun test testIsOk => logic.ofExcept stepsStop fun steps areOk => logic.pure ?_
    exact fun world ⟨⟨⟨⟨_, starts⟩, tests⟩, advances⟩, holds⟩ =>
      logic.forLoop starts (tests test testIsOk) (advances steps areOk) holds
  | .leaveLoop span =>
    rw [statement]
    exact logic.unlessOutside rfl fun leaves world _ => logic.leaveLoop leaves
  | .nextRound span =>
    rw [statement]
    exact logic.unlessOutside rfl fun leaves world _ => logic.nextRound leaves

theorem optionalStatement_judged (nested : Bool) (known : logic.World → Prop) (source : Option Stmt) :
    logic.Judges nested (Stmt.declaratorsOfOptional source) known (optionalStatement source) fun world found =>
      ∀ statement ∈ found, logic.Holds nested world statement := by
  match source with
  | none =>
    rw [optionalStatement]
    exact logic.pure fun _ _ _ isNone => by cases isNone
  | some branch =>
    rw [optionalStatement]
    refine logic.bindLast (logic.orEmpty_judged (statement_judged nested known branch)) fun given => logic.pure ?_
    exact fun world ⟨_, holds⟩ other same => Option.some.inj same ▸ holds

theorem statements_judged (nested : Bool) (known : logic.World → Prop) (sources : List Stmt) :
    logic.Judges nested (Stmt.declaratorsOfAll sources) known (statements sources) fun world body =>
      ∀ statement ∈ body, logic.Holds nested world statement := by
  match sources with
  | [] =>
    rw [statements]
    exact logic.pure fun _ _ _ member => absurd member List.not_mem_nil
  | first :: rest =>
    rw [statements]
    refine logic.attempt (statement_judged nested known first) fun result stops => ?_
    cases result with
    | ok first =>
      refine logic.bindLast (statements_judged nested _ rest) fun others => logic.pure ?_
      exact fun world ⟨⟨_, isFirst⟩, areOthers⟩ => List.forall_mem_cons.2 ⟨isFirst first rfl, areOthers⟩
    | error finding => exact logic.bind (logic.report (stops finding rfl)) fun _ => statements_judged nested _ rest

end

end StatementLogic

end Check

end Snippet
