import Snippet.Proofs.Typing.Program
import Snippet.Proofs.Typing.ScopesExpression
import Snippet.Proofs.Typing.Statement

/-!
Scopes around statements. Main statement: checking a statement, whether it ends with a tree or stops with a finding,
leaves the open scopes as they were but for names added to the innermost one, and every slot in the tree is in range
and belongs to one declaration (`Check.statement_keepsScopes`). So the slots in the methods of a checked program are in
range, whatever is found in its text (`CompilationUnit.check_usesOnly`).
-/

namespace Snippet

theorem TypedExpr.usesOnly_assign {allowed : Nat → Prop} {index : Nat} {used : TypedExpr} (isAllowed : allowed index)
    (uses : used.UsesOnly allowed) (type : Ty) (span : Span) :
    (TypedExpr.mk (.assign (.slot index) used) type span).UsesOnly allowed := by
  refine ⟨fun other isSlot => ?_, trivial, uses⟩
  rw [← Option.some.inj isSlot]
  exact isAllowed

namespace Check

variable {context : BodyContext}

/-- The steps of the checker that leave names and slots well scoped. What is good is so for all slots that may occur. -/
def Balances.logic (context : BodyContext) : Logic context where
  World := Nat → Prop
  Judges _ offered known step good := Balances context offered step fun allowed value => known allowed → good allowed value
  Stops _ := True
  Doomed _ := True
  Leaves _ := True
  stops _ := trivial
  pure holds := .pure holds
  throw _ := .throw
  bind head tail := head.bind fun value => (tail value).mono (.refl _) fun _ _ isGoal isGood known =>
    isGoal ⟨known, isGood known⟩
  attempt head tail := head.attempt.bind fun result => (tail result fun _ _ => trivial).mono (.refl _)
    fun _ _ isGoal isGood known => isGoal ⟨known, fun value isOk => isGood value isOk known⟩
  report _ := Balances.report.mono (.refl _) fun _ _ _ _ => trivial
  read := .readBind
  noteWrite index _ := (Balances.modifyUsage index _).mono (.refl _) fun _ _ _ _ => trivial
  inScope := .inScope
  inLoop := .inLoop
  unlessOutside _ holds := .getBind fun _ => .choose .fail (.pure (holds trivial))

/-- Expressions that use only slots that may occur, and variables whose slots may. -/
def usesOnlyLogic (context : BodyContext) : ExpressionLogic context where
  toLogic := Balances.logic context
  Value allowed value := value.UsesOnly allowed
  Test allowed test := test.UsesOnly allowed
  Used allowed _ used := used.UsesOnly allowed
  Stores _ _ := True
  Declared allowed _ index := allowed index
  expression source := (expression_balances source).mono (.refl _) fun _ _ uses _ => uses
  condition source := (condition_balances source).mono (.refl _) fun _ _ uses _ => uses
  coerce value type := (value.coerce_usesOnly type).mono fun _ coerces allowed uses _ => coerces allowed uses
  resolve type := (context.environment.resolveType_whole context.owner .variable type).mono fun _ _ _ => trivial
  result _ _ := trivial
  stores _ _ _ := trivial
  doomed _ := trivial
  declare _ := (Balances.declare _ _ _).mono (.refl _) fun _ _ isAllowed _ => isAllowed
  declareDoomed reports holds := (Balances.declare _ _ _).attempt.bindLast fun result => by
    obtain ⟨finding, -, isNext⟩ := reports result fun _ _ => trivial
    rw [isNext]
    exact Balances.report.quietThen fun _ => .pure fun allowed _ _ => holds allowed trivial

/-- Statements that use only slots that may occur. -/
def usesOnlyStatements (context : BodyContext) : StatementLogic context :=
  (usesOnlyLogic context).everywhere (fun _ _ => id) (fun _ _ _ => id) fun _ slot _ _ _ isAllowed uses =>
    TypedExpr.usesOnly_assign isAllowed uses slot.type slot.span

theorem statement_balances (source : Stmt) :
    Balances context source.declarators (statement source) fun allowed typed => typed.UsesOnly allowed := by
  have balances : Balances context source.declarators (statement source) fun allowed typed =>
    True → typed.UsesOnly allowed := (usesOnlyStatements context).statement_judged false (fun _ => True) source
  exact balances.mono (.refl _) fun _ _ uses => uses trivial

theorem statements_balances (sources : List Stmt) :
    Balances context (Stmt.declaratorsOfAll sources) (statements sources) fun allowed body =>
      ∀ typed ∈ body, typed.UsesOnly allowed := by
  have balances : Balances context (Stmt.declaratorsOfAll sources) (statements sources) fun allowed body =>
    True → ∀ typed ∈ body, typed.UsesOnly allowed :=
      (usesOnlyStatements context).statements_judged false (fun _ => True) sources
  exact balances.mono (.refl _) fun _ _ uses => uses trivial

/-- Checking a statement, whether it ends with a tree or stops with a finding, leaves names and slots well scoped: as
many scopes are open, names are only added to the innermost one, the loops around are the same, and every slot that is
new is of one declaration in the statement. Visible names keep slots of their own. Every slot in the tree is in range,
and of a name that was visible or is declared in the statement. -/
theorem statement_keepsScopes (context : BodyContext) (source : Stmt) {before : BodyState}
    (wellScoped : before.WellScoped) :
    let (result, after) := ((statement source).run context).run.run before
    after.WellScoped ∧ before.Extends source.declarators after ∧
      ((before.visible.map (·.2)).Nodup → (after.visible.map (·.2)).Nodup) ∧
      ∀ typed, result = .ok typed → typed.UsesOnly (before.Owns after) := by
  have balances : Balances context source.declarators (statement source) fun allowed typed => typed.UsesOnly allowed :=
    statement_balances source
  obtain ⟨wellScopedAfter, extension, uses⟩ := balances before wellScoped
  exact ⟨wellScopedAfter, extension, extension.nodup_slots wellScoped wellScopedAfter, fun typed isOk =>
    uses typed isOk _ fun _ => id⟩

end Check

/-- A loop over the numbers below another one, with the half of each:
`for (int index = 0; index < count; index++) { int half = index / 2; }`. -/
def Stmt.halving : Stmt :=
  let index (start : Nat) : Expr := .name ⟨start, start + 5⟩ "index"
  .forLoop ⟨0, 71⟩
    [.declare ⟨5, 19⟩ (.basic ⟨5, 8⟩ .int) [⟨"index", some (.int ⟨17, 18⟩ 0), ⟨9, 18⟩⟩]]
    (some (.binary ⟨21, 34⟩ .less (index 21) (.name ⟨29, 34⟩ "count")))
    [.step ⟨36, 43⟩ true false (index 36)]
    (.block ⟨45, 70⟩ [.declare ⟨47, 68⟩ (.basic ⟨47, 50⟩ .int)
      [⟨"half", some (.binary ⟨58, 67⟩ .divide (index 58) (.int ⟨66, 67⟩ 2)), ⟨51, 67⟩⟩]])

/-- The state in the body of a method with one parameter. -/
def BodyState.counting : BodyState :=
  ⟨#[⟨"count", .int, ⟨0, 0⟩, some .value⟩], #[⟨true, true, true⟩], [[], [("count", 0)]], 0, #[]⟩

/-- What that body is checked against. -/
def BodyContext.counting : BodyContext := ⟨⟨.empty, #[], [], []⟩, #[], 0, "C.M(int)", .void⟩

/-- Behind the loop there are two more slots, and only the parameter is visible. -/
theorem Check.statement_keepsScopes_halving :
    let (result, after) := ((statement .halving).run .counting).run.run .counting
    BodyState.counting.WellScoped ∧
      (result.isOk = true ∧ ∀ typed, result = .ok typed → typed.UsesOnly (BodyState.counting.Owns after)) ∧
      after.slots.toList.map (·.name) = ["count", "index", "half"] ∧ after.visible = [("count", 0)] := by
  have wellScoped : BodyState.counting.WellScoped := ⟨rfl, by decide, by decide⟩
  have kept := statement_keepsScopes .counting .halving wellScoped
  exact ⟨wellScoped, ⟨by decide +kernel, kept.2.2.2⟩, by decide +kernel, by decide +kernel⟩

/-- A loop with an unknown condition stops with a finding behind its body: one more slot is there, and the scopes and
loops around are the same. -/
example :
    (fun run : Except Finding TypedStmt × BodyState =>
        (run.1.isOk, run.2.slots.toList.map (·.name), run.2.scopes, run.2.loopDepth))
      (((Check.statement (.whileLoop ⟨0, 29⟩ (.name ⟨7, 12⟩ "limit") (.block ⟨14, 29⟩
        [.declare ⟨16, 27⟩ (.basic ⟨16, 19⟩ .int) [⟨"half", none, ⟨20, 24⟩⟩]]))).run .counting).run.run .counting) =
      (false, ["count", "half"], [[], [("count", 0)]], 0) := by
  decide +kernel

/-! ### Methods and programs -/

namespace Environment

variable {environment : Environment}

/-- The parameters of a method have names of their own. -/
theorem parameters_nodup (owner : Nat) (seen : List String) (sources : List Parameter) :
    Resolves (fun parameters => (parameters.map (·.name)).Nodup ∧ ∀ parameter ∈ parameters, parameter.name ∉ seen)
      (environment.parameters owner seen sources) := by
  let typing : Typing := ⟨environment.libraries, [], [], .void⟩
  induction sources generalizing seen with
  | nil => exact ⟨List.nodup_nil, List.forall_mem_nil _⟩
  | cons source rest inductionHypothesis =>
    rw [parameters]
    split
    · rfl
    · next isNew =>
      refine (resolveType_named (show typing.libraries = environment.libraries from rfl) owner .parameter
        source.type).bind fun type _ => ?_
      refine (inductionHypothesis (source.name :: seen)).bind fun others areApart => ?_
      obtain ⟨areDistinct, areNew⟩ := areApart
      constructor
      · refine List.nodup_cons.2 ⟨fun member => ?_, areDistinct⟩
        obtain ⟨parameter, isOther, same⟩ := List.mem_map.1 member
        exact areNew parameter isOther (List.mem_cons.2 (.inl same))
      · refine List.forall_mem_cons.2 ⟨fun member => isNew (List.elem_eq_true_of_mem member), fun other isOther => ?_⟩
        exact fun member => areNew other isOther (List.mem_cons_of_mem _ member)

/-- The parameters of a header have names of their own. -/
theorem header_nodup (owner : Nat) (earlier : Array MethodHeader) (decl : MethodDecl) :
    Resolves (fun header => (header.parameters.map (·.name)).Nodup) (environment.header owner earlier decl) := by
  let typing : Typing := ⟨environment.libraries, [], [], .void⟩
  have result (type : TypeName) : Resolves (fun _ => True) (environment.resolveType owner .result type) :=
    (resolveType_named (show typing.libraries = environment.libraries from rfl) owner .result type).mono
      fun _ _ => trivial
  exact (header_of_parts (parameters_nodup owner [] decl.parameters) result trivial earlier).mono
    fun _ made => made.1.1

end Environment

namespace MethodHeader

variable {header : MethodHeader}

/-- At the start of a body the names of the parameters are well scoped. -/
theorem startState_wellScoped (sameLength : header.parameters.length = header.decl.parameters.length)
    (distinct : (header.parameters.map (·.name)).Nodup) : header.startState.WellScoped := by
  have size : header.startState.slots.size = header.parameters.length := by simp [startState, sameLength]
  have isVisible : header.startState.visible =
      header.parameters.zipIdx.map fun entry => (entry.1.name, entry.2 % 65536) := by
    simp [BodyState.visible, startState]
  refine ⟨?_, ?_, ?_⟩
  · rw [size]
    simp [startState]
  · have named : (header.parameters.zipIdx.map fun entry => (entry.1.name, entry.2 % 65536)).map (·.1) =
        (header.parameters.zipIdx.map (·.1)).map (·.name) := by rw [List.map_map, List.map_map]; rfl
    rw [isVisible, named, List.zipIdx_map_fst]
    exact distinct
  · rw [isVisible, size]
    intro entry member
    obtain ⟨numbered, inZip, rfl⟩ := List.mem_map.1 member
    exact slot_lt_of_mem_zipIdx inZip

/-- Every slot in a checked body is one of the method, whatever is found in it. -/
theorem check_usesOnly (wellScoped : header.startState.WellScoped) (environment : Environment)
    (methods : Array MethodHeader) :
    ∀ statement ∈ (header.check environment methods).1.body,
      statement.UsesOnly (· < (header.check environment methods).1.slots.length) := by
  let context : BodyContext := ⟨environment, methods, header.owner, header.label, header.result⟩
  have balances : Check.Balances context _ (Check.statements header.decl.body) fun allowed body =>
      ∀ typed ∈ body, typed.UsesOnly allowed := Check.statements_balances header.decl.body
  obtain ⟨-, -, uses⟩ := balances header.startState wellScoped
  unfold check
  dsimp only at uses ⊢
  generalize ((Check.statements header.decl.body).run _).run.run header.startState = result at uses ⊢
  obtain ⟨finding | body, state⟩ := result
  · exact nofun
  · exact uses body rfl _ fun index owned => Array.length_toList ▸ owned.1

end MethodHeader

/-- Every slot in a checked program is one of its method, whatever is found in the text. -/
theorem CompilationUnit.check_usesOnly (unit : CompilationUnit) (libraries : LibrarySet) :
    ∀ method ∈ (unit.check libraries).program.methods, ∀ statement ∈ method.body,
      statement.UsesOnly (· < method.slots.length) := by
  intro method member
  let environment := (Collected.ofUnit unit).environment libraries
  obtain ⟨entry, inChecked, rfl⟩ := List.mem_map.1 member
  obtain ⟨header, inHeaders, rfl⟩ := List.mem_map.1 inChecked
  let typing : Typing := ⟨libraries, [], [], .void⟩
  have fit : Environment.HeadersFit typing (environment.headers (Collected.ofUnit unit).methods.toList).1 :=
    Environment.headers_fit rfl _
  obtain ⟨owner, earlier, decl, -, isHeader⟩ := Environment.exists_of_mem_headers inHeaders
  have distinct := environment.header_nodup owner earlier decl
  rw [isHeader] at distinct
  exact header.check_usesOnly (MethodHeader.startState_wellScoped (fit.store header inHeaders).sources distinct) _ _

end Snippet
