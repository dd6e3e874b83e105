import Snippet.Proofs.Emit.Characters
import Snippet.Proofs.Passing.Apart
import Snippet.Proofs.Typing.Place
import Snippet.Proofs.Typing.Program
import Snippet.Proofs.Typing.WholeExpression

/-!
Statements and programs without errors in their types. Main statement: over libraries in whose members no error stands,
a program in which no error is found is whole. A field or a constant of an open type has the type of an error, and
nothing is found.
-/

namespace Snippet

/-- Whether no error stands in the types of the expressions in statements. -/
def TypedStmt.AllWhole (statements : List TypedStmt) : Prop :=
  TypedStmt.EveryOfAll TypedExpr.IsWhole TypedExpr.IsWhole statements

/-- Whether no error stands in the types of a method: in those of its parameters, its result, its variables and its
expressions. -/
structure TypedMethod.IsWhole (method : TypedMethod) : Prop where
  parameters : ∀ parameter ∈ method.parameters, parameter.type.IsWhole
  result : method.result.IsWhole
  slots : ∀ slot ∈ method.slots, slot.type.IsWhole
  body : TypedStmt.AllWhole method.body

/-- Whether no error stands in the types of a program. -/
def TypedProgram.IsWhole (program : TypedProgram) : Prop := ∀ method ∈ program.methods, method.IsWhole

instance (value : TypedExpr) : Decidable value.IsWhole :=
  inferInstanceAs (Decidable (value.Every fun _ type => type.IsWhole))

instance (method : TypedMethod) : Decidable method.IsWhole :=
  decidable_of_iff ((∀ parameter ∈ method.parameters, parameter.type.IsWhole) ∧ method.result.IsWhole ∧
      (∀ slot ∈ method.slots, slot.type.IsWhole) ∧
      TypedStmt.EveryOfAll TypedExpr.IsWhole TypedExpr.IsWhole method.body)
    ⟨fun ⟨parameters, result, slots, body⟩ => ⟨parameters, result, slots, body⟩,
      fun whole => ⟨whole.parameters, whole.result, whole.slots, whole.body⟩⟩

instance (program : TypedProgram) : Decidable program.IsWhole :=
  inferInstanceAs (Decidable (∀ method ∈ program.methods, method.IsWhole))

/-! ### Statements -/

namespace Check

variable {context : BodyContext}

/-- The steps of the checker that build something good unless an error is found. -/
def Builds.logic (context : BodyContext) : Logic context where
  World := Unit
  Judges _ _ known step good := Builds context (known ()) step (good ())
  Stops finding := finding.isError = true
  Doomed _ := False
  Leaves _ := True
  stops isError := isError
  pure holds := .pure (holds ())
  throw := .throw
  bind := .bind
  attempt := .attemptBind
  report := .report
  read := .readBind
  noteWrite index _ := .modifyUsage index _
  inScope := .inScope
  inLoop := .inLoop
  unlessOutside isError holds := .getBind fun _ => .choose (fun _ => .fail isError) fun _ => .pure (holds trivial ())

/-- A variable may have any type if an error is reported right behind it. -/
theorem Builds.declareDoomed {α : Type} {facts : Prop} {good : α → Prop} {name : String} {type : Ty} {span : Span}
    {next : Except Finding Nat → Check α} {value : α}
    (reports : ∀ result, (∀ finding, result = .error finding → finding.isError = true) →
      ∃ finding, finding.isError = true ∧ next result = do
        Check.report finding
        return value) :
    Builds context facts (attempt (Check.declare name type span) >>= next) good := by
  have declared : Ends context (fun state => facts ∧ state.IsWhole) (Check.declare name type span) fun _ _ => True :=
    .declare (fun _ _ _ => trivial) fun _ _ => trivial
  refine declared.attemptBind fun result errors => ?_
  obtain ⟨finding, isError, isNext⟩ := reports result errors
  rw [isNext]
  have ends : Ends context (fun _ => True) (Check.report finding) fun _ _ => False := .report isError
  exact ends.bind (fun _ _ => False.elim) fun _ => .pure fun _ => False.elim

/-- Whole expressions, and variables of whole types. -/
def wholeLogic (whole : context.IsWhole) : ExpressionLogic context where
  toLogic := Builds.logic context
  Value _ value := value.IsWhole
  Test _ test := test.IsWhole
  Used _ _ used := used.IsWhole
  Stores _ type := type.IsWhole
  Declared _ _ _ := True
  expression source := expression_builds whole source
  condition source := condition_builds whole source
  coerce value type := (value.coerce_whole type).mono fun _ coerces _ => coerces
  resolve type := (context.environment.resolveType_whole context.owner .variable type).mono fun _ isWhole _ => isWhole
  result _ _ := whole.result
  stores isWhole _ _ := isWhole.type
  doomed := False.elim
  declare stores := .declare (stores ()) _ _
  declareDoomed reports _ := .declareDoomed reports

theorem statements_builds (whole : context.IsWhole) (sources : List Stmt) :
    Builds context True (statements sources) TypedStmt.AllWhole := by
  have assigned (slot : Slot) (index : Nat) (used : TypedExpr) (isType : slot.type.IsWhole) (isWhole : used.IsWhole) :
      (TypedExpr.mk (.assign (.slot index) used) slot.type slot.span).IsWhole := ⟨isType, trivial, isWhole⟩
  let logic := (wholeLogic whole).everywhere (fun _ _ => id) (fun _ _ _ => id) fun _ slot index used isType _ =>
    assigned slot index used isType
  have builds : Builds context True (statements sources) fun body =>
    ∀ statement ∈ body, statement.Every TypedExpr.IsWhole TypedExpr.IsWhole :=
      logic.statements_judged false (fun _ => True) sources
  exact Ends.mono builds (fun _ => id) fun _ _ ⟨isState, isBody⟩ =>
    ⟨isState, fun body isOk => TypedStmt.everyOfAll_iff.2 (isBody body isOk)⟩

end Check

/-! ### Method headers -/

namespace Environment

variable {environment : Environment}

theorem parameters_whole (owner : Nat) (seen : List String) (sources : List Parameter) :
    Resolves (fun parameters => ∀ parameter ∈ parameters, parameter.type.IsWhole)
      (environment.parameters owner seen sources) := by
  induction sources generalizing seen with
  | nil => exact fun _ => nofun
  | cons source rest ih =>
    rw [parameters]
    split
    · rfl
    · exact (environment.resolveType_whole owner .parameter source.type).bind fun type isType =>
        (ih (source.name :: seen)).bind fun others areOthers => List.forall_mem_cons.2 ⟨isType, areOthers⟩

theorem header_whole (owner : Nat) (earlier : Array MethodHeader) (decl : MethodDecl) :
    Resolves MethodHeader.IsWhole (environment.header owner earlier decl) :=
  (header_of_parts (parameters_whole owner [] decl.parameters) (environment.resolveType_whole owner .result) trivial
    earlier).mono fun _ ⟨areParameters, isResult, _⟩ => ⟨areParameters, isResult⟩

/-- The headers of a program are whole. -/
theorem headers_whole (methods : List (List MethodDecl)) :
    ∀ header ∈ (environment.headers methods).1.toList, header.IsWhole := by
  intro header member
  obtain ⟨owner, earlier, decl, -, isHeader⟩ := exists_of_mem_headers member
  have resolves := @header_whole environment owner earlier decl
  rw [isHeader] at resolves
  exact resolves

end Environment

/-! ### Bodies and programs -/

/-- At the start of a body the parameters are its slots. -/
theorem MethodHeader.startState_whole {typing : Typing} {header : MethodHeader} (stores : header.Stores typing)
    (whole : header.IsWhole) : header.startState.IsWhole := by
  refine ⟨startState_scoped stores, fun slot member => ?_⟩
  have mapped : (slot.type, slot.mode) ∈ header.startState.slots.toList.map fun slot => (slot.type, slot.mode) :=
    List.mem_map_of_mem member
  rw [map_startSlots stores] at mapped
  obtain ⟨parameter, inHeader, same⟩ := List.mem_map.1 mapped
  rw [← (Prod.mk.inj same).1]
  exact whole.parameters parameter inHeader

/-- A body in which no error is found is whole. -/
theorem MethodHeader.check_whole {typing : Typing} {header : MethodHeader} (stores : header.Stores typing)
    {environment : Environment} (libraries : environment.libraries.IsWhole) {methods : Array MethodHeader}
    (areWhole : ∀ other ∈ methods.toList, other.IsWhole) (whole : header.IsWhole)
    (noError : ∀ finding ∈ (header.check environment methods).2, finding.isError = false) :
    (header.check environment methods).1.IsWhole := by
  let context : BodyContext := ⟨environment, methods, header.owner, header.label, header.result⟩
  have isContext : context.IsWhole := ⟨libraries, areWhole, whole.result⟩
  obtain ⟨-, isError, outcome⟩ := Check.statements_builds isContext header.decl.body header.startState
  unfold MethodHeader.check at noError ⊢
  dsimp only at isError outcome noError ⊢
  generalize ((Check.statements header.decl.body).run _).run.run header.startState = result at isError outcome noError ⊢
  obtain ⟨finding | body, state⟩ := result
  · have notError := noError finding (by simp)
    rw [isError finding rfl] at notError
    cases notError
  · have isFree : state.ErrorFree := fun finding member => noError finding (by simp [Array.mem_toList_iff.1 member])
    obtain ⟨isState, isBody⟩ := outcome isFree ⟨trivial, startState_whole stores whole⟩
    exact ⟨whole.parameters, whole.result, isState.slots, isBody body rfl⟩

namespace CompilationUnit

/-- A program in which no error is found is whole, over libraries in whose members no error stands. -/
theorem isWhole_of_check {unit : CompilationUnit} {libraries : LibrarySet} (whole : libraries.IsWhole)
    (noError : ∀ finding ∈ (unit.check libraries).findings, finding.isError = false) :
    (unit.check libraries).program.IsWhole := by
  intro method member
  let environment := (Collected.ofUnit unit).environment libraries
  let headers := environment.headers (Collected.ofUnit unit).methods.toList
  let typing : Typing := ⟨libraries, [], [], .void⟩
  have fit : Environment.HeadersFit typing headers.1 := Environment.headers_fit rfl _
  have areWhole : ∀ header ∈ headers.1.toList, header.IsWhole := Environment.headers_whole _
  obtain ⟨entry, inChecked, rfl⟩ := List.mem_map.1 member
  obtain ⟨header, inHeaders, rfl⟩ := List.mem_map.1 inChecked
  refine MethodHeader.check_whole (fit.store header inHeaders) whole areWhole (areWhole header inHeaders)
    fun finding found => noError finding ?_
  refine (List.mergeSort_perm _ _).mem_iff.2 (List.mem_append_right _ ?_)
  exact List.mem_flatMap.2 ⟨_, List.mem_map_of_mem inHeaders, found⟩

/-- No error stands in the price of an item. -/
theorem isWhole_pricing : LibrarySet.pricing.IsWhole := by
  intro name type found
  obtain ⟨library, inSet, isFound⟩ := List.exists_of_findSome?_eq_some found
  cases List.mem_singleton.1 inSet
  cases List.mem_singleton.1 (List.mem_of_find?_eq_some isFound)
  refine ⟨fun field member => ?_, nofun, nofun⟩
  cases List.mem_singleton.1 member
  trivial

/-- A sum with the price of an item is whole. -/
theorem isWhole_of_check_price :
    ∃ unit, ofSource "class C \x7b static int M(Shop.Item item) \x7b return item.Price + 1; \x7d \x7d" = .ok unit ∧
      (unit.check .pricing).program.IsWhole := by
  have accepted : (ofSource "class C \x7b static int M(Shop.Item item) \x7b return item.Price + 1; \x7d \x7d").toOption.any
      (fun unit => (unit.check .pricing).findings.isEmpty) = true := by
    rw [ofSource_ofList]
    decide +kernel
  obtain ⟨unit, isUnit, isEmpty⟩ := exists_of_any_ofSource accepted
  refine ⟨unit, isUnit, isWhole_of_check isWhole_pricing fun finding found => ?_⟩
  rw [List.isEmpty_iff.1 isEmpty] at found
  cases found

end CompilationUnit

/-- A library whose only type is one of objects with a field of an open type. -/
def LibrarySet.opening : LibrarySet :=
  ⟨[⟨"Shop", [⟨"Shop", [], "Item", .data, [], [], [⟨"Any", .parameter "T"⟩]⟩]⟩]⟩

/-- A field of an open type has the type of an error: nothing is found in a sum with it, and the null constant stands
for the sum. -/
theorem CompilationUnit.not_isWhole_of_check :
    ∃ unit, ofSource ("class C \x7b public static int M() \x7b Shop.Item item = new Shop.Item(); " ++
        "return item.Any + 1; \x7d \x7d") = .ok unit ∧
      (unit.check .opening).findings = [] ∧ ¬(unit.check .opening).program.IsWhole := by
  have accepted : (ofSource ("class C \x7b public static int M() \x7b Shop.Item item = new Shop.Item(); " ++
      "return item.Any + 1; \x7d \x7d")).toOption.any (fun unit => (unit.check .opening).findings.isEmpty &&
        decide ¬(unit.check .opening).program.IsWhole) = true := by
    have isSource : "class C \x7b public static int M() \x7b Shop.Item item = new Shop.Item(); " ++
        "return item.Any + 1; \x7d \x7d" = .ofList _ := String.ofList_append.symm
    rw [isSource, ofSource_ofList]
    decide +kernel
  obtain ⟨unit, isUnit, passes⟩ := exists_of_any_ofSource accepted
  rw [Bool.and_eq_true, List.isEmpty_iff, decide_eq_true_eq] at passes
  exact ⟨unit, isUnit, passes⟩

end Snippet
