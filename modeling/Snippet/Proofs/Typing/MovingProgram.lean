import Snippet.Proofs.Grammar.Moving
import Snippet.Proofs.Typing.MovingExpression
import Snippet.Proofs.Typing.StatementPairs

/-!
Statements, method bodies and whole texts with changed places. The checker of statements and of method bodies gives
the same on trees with changed places. Main statement: the typed program and the findings are those of the text as
it was, with changed places.
-/

namespace Snippet.Check

variable {change : Span → Span} {context : BodyContext}

/-! ### Statements -/

theorem declaredType_moves (span : Span) (type : TypeName) (count : Nat) :
    Moves change context id (declaredType span type count) (declaredType (change span) (type.mapSpans change) count) := by
  rw [declaredType, declaredType, TypeName.isInferred_mapSpans]
  refine .readBind (.choose (.choose ((Moves.report rfl).bind fun _ => .pure rfl) (.pure rfl)) ?_)
  rw [BodyContext.environment_mapSpans, BodyContext.owner_mapSpans, Environment.resolveType_mapSpans]
  cases context.environment.resolveType context.owner .variable type with
  | ok type => exact .pure rfl
  | error finding => exact (Moves.report rfl).bind fun _ => .pure rfl

/-- The steps of the checker that give the same on trees with changed places. -/
def Moves.logic (change : Span → Span) (context : BodyContext) : PairLogic change context (context.mapSpans change) where
  Judges _ step moved := Moves change context (Placed.mapSpans change) step moved
  Stops _ := True
  stops _ := trivial
  label := rfl
  result := rfl
  pure _ same := .pure same
  throw _ := .throw rfl
  bind := .bind
  attempt head tail := head.attempt.bind fun result => tail result fun _ _ => trivial
  report _ tail := (Moves.report rfl).bind fun _ => tail
  read := .readBind
  noteWrite := noteWrite_moves
  inScope := .inScope
  inLoop := .inLoop
  unlessOutside _ := .getBind fun _ => .choose .fail (.pure rfl)
  declare := .declare
  expression := expression_moves
  condition := condition_moves
  declaredType span type count := by
    have same : (Placed.mapSpans change : Option Ty → Option Ty) = id := funext fun declared => by cases declared <;> rfl
    rw [same]
    exact declaredType_moves span type count

theorem statements_moves (sources : List Stmt) :
    Moves change context (List.map (TypedStmt.mapSpans change)) (statements sources)
      (statements (sources.map (Stmt.mapSpans change))) := (Moves.logic change context).statements_agree sources

end Snippet.Check

namespace Snippet

variable {change : Span → Span}

/-! ### Classes and namespaces -/

namespace Collected

theorem report_mapSpans (collected : Collected) (problem : Problem) (span : Span) :
    (collected.mapSpans change).report problem (change span) = (collected.report problem span).mapSpans change := by
  simp [report, mapSpans, Finding.mapSpans]

theorem addSpace_mapSpans (collected : Collected) (space : String) :
    (collected.mapSpans change).addSpace space = (collected.addSpace space).mapSpans change := rfl

theorem addClass_mapSpans (collected : Collected) (info : ClassInfo) (methods : List MethodDecl) :
    (collected.mapSpans change).addClass info (methods.map (MethodDecl.mapSpans change)) =
      (collected.addClass info methods).mapSpans change := by
  simp [addClass, mapSpans]

theorem duplicate?_mapSpans (collected : Collected) (parent : Option Nat) (space fullName name : String) :
    (collected.mapSpans change).duplicate? parent space fullName name =
      collected.duplicate? parent space fullName name := rfl

mutual

theorem collectClass_mapSpans (collected : Collected) (space : String) (usings : List String) (parent : Option Nat)
    (decl : ClassDecl) : (collected.mapSpans change).collectClass space usings parent (decl.mapSpans change) =
      (collected.collectClass space usings parent decl).mapSpans change := by
  match decl with
  | .mk span name modifiers methods nested =>
    rw [ClassDecl.mapSpans, collectClass, collectClass]
    dsimp only
    rw [duplicate?_mapSpans]
    have sameName : (collected.mapSpans change).fullNameIn parent space name =
      collected.fullNameIn parent space name := rfl
    rw [sameName]
    split
    · exact collected.report_mapSpans _ span
    · rw [addClass_mapSpans]
      exact collectClasses_mapSpans _ space usings _ nested

theorem collectClasses_mapSpans (collected : Collected) (space : String) (usings : List String) (parent : Option Nat)
    (decls : List ClassDecl) :
    (collected.mapSpans change).collectClasses space usings parent (ClassDecl.mapSpansOfAll change decls) =
      (collected.collectClasses space usings parent decls).mapSpans change := by
  match decls with
  | [] =>
    rw [ClassDecl.mapSpansOfAll, collectClasses, collectClasses]
  | first :: rest =>
    rw [ClassDecl.mapSpansOfAll, collectClasses, collectClasses, collectClass_mapSpans]
    exact collectClasses_mapSpans _ space usings parent rest

end

theorem usingNames_mapSpans (directives : List UsingDirective) :
    (directives.map (UsingDirective.mapSpans change)).map (·.name) = directives.map (·.name) := by
  rw [List.map_map]
  rfl

mutual

theorem collectMember_mapSpans (collected : Collected) (space : String) (usings : List String) (member : Member) :
    (collected.mapSpans change).collectMember space usings (member.mapSpans change) =
      (collected.collectMember space usings member).mapSpans change := by
  match member with
  | .space span name directives members =>
    rw [Member.mapSpans, collectMember, collectMember, usingNames_mapSpans, addSpace_mapSpans, ← collectMembers_mapSpans]
    dsimp only [mapSpans]
    rw [List.map_append]
    rfl
  | .type decl =>
    rw [Member.mapSpans, collectMember, collectMember]
    exact collectClass_mapSpans collected space usings none decl

theorem collectMembers_mapSpans (collected : Collected) (space : String) (usings : List String)
    (members : List Member) :
    (collected.mapSpans change).collectMembers space usings (Member.mapSpansOfAll change members) =
      (collected.collectMembers space usings members).mapSpans change := by
  match members with
  | [] =>
    rw [Member.mapSpansOfAll, collectMembers, collectMembers]
  | first :: rest =>
    rw [Member.mapSpansOfAll, collectMembers, collectMembers, collectMember_mapSpans]
    exact collectMembers_mapSpans _ space usings rest

end

theorem ofUnit_mapSpans (unit : CompilationUnit) : ofUnit (unit.mapSpans change) = (ofUnit unit).mapSpans change := by
  rw [ofUnit, ofUnit, ← collectMembers_mapSpans, Member.mapSpansOfAll_eq_map]
  dsimp only [CompilationUnit.mapSpans]
  rw [usingNames_mapSpans]
  simp [mapSpans, empty]

end Collected

/-! ### Using directives and method headers -/

namespace Environment

variable (environment : Environment)

theorem usingFindings_mapSpans (seen : List String) (directives : List UsingDirective) :
    environment.usingFindings seen (directives.map (UsingDirective.mapSpans change)) =
      (environment.usingFindings seen directives).map (Finding.mapSpans change) := by
  induction directives generalizing seen with
  | nil => rfl
  | cons directive rest ih =>
    rw [List.map_cons, usingFindings, usingFindings, apply_ite (List.map _), List.map_append, ← ih, List.map_cons, ← ih]
    dsimp only [UsingDirective.mapSpans]
    cases environment.usingProblem? directive.name <;> rfl

theorem parameters_mapSpans (owner : Nat) (seen : List String) (sources : List Parameter) :
    environment.parameters owner seen (sources.map (Parameter.mapSpans change)) =
      moveResult change id (environment.parameters owner seen sources) := by
  induction sources generalizing seen with
  | nil => rfl
  | cons parameter rest ih =>
    rw [List.map_cons, parameters, parameters]
    refine moveResult_choose rfl ?_
    dsimp only [Parameter.mapSpans]
    rw [resolveType_mapSpans, ih]
    exact moveResult_bind fun type => moveResult_bind fun others => rfl

theorem headerWith_mapSpans (owner : Nat) (earlier : Array MethodHeader) (decl : MethodDecl) (result : Ty) :
    environment.headerWith owner (earlier.map (MethodHeader.mapSpans change)) (decl.mapSpans change) result =
      moveResult change (MethodHeader.mapSpans change) (environment.headerWith owner earlier decl result) := by
  have sameSiblings (check : MethodHeader → Option Problem)
      (same : ∀ other : MethodHeader, check (other.mapSpans change) = check other) :
      ((earlier.map (MethodHeader.mapSpans change)).toList.filter (·.owner == owner)).findSome? check =
        (earlier.toList.filter (·.owner == owner)).findSome? check := by
    rw [Array.toList_map, List.filter_map, List.findSome?_map]
    exact congrArg (List.findSome? · _) (funext same)
  rw [headerWith, headerWith]
  dsimp only [MethodDecl.mapSpans]
  rw [parameters_mapSpans]
  refine moveResult_bind fun parameters => ?_
  dsimp only [id]
  rw [sameSiblings _ fun other => rfl, Array.size_map]
  cases (earlier.toList.filter (·.owner == owner)).findSome?
      (overloadProblem? (environment.classShown owner) decl.name parameters) with
  | some problem => rfl
  | none => exact moveResult_choose rfl rfl

theorem header_mapSpans (owner : Nat) (earlier : Array MethodHeader) (decl : MethodDecl) :
    environment.header owner (earlier.map (MethodHeader.mapSpans change)) (decl.mapSpans change) =
      moveResult change (MethodHeader.mapSpans change) (environment.header owner earlier decl) := by
  rw [header, header]
  refine moveResult_choose rfl (moveResult_choose rfl ?_)
  obtain ⟨name, modifiers, result, parameters, body, span⟩ := decl
  cases result with
  | none => exact environment.headerWith_mapSpans owner earlier ⟨name, modifiers, none, parameters, body, span⟩ .void
  | some type =>
    dsimp only [MethodDecl.mapSpans, Option.map]
    rw [resolveType_mapSpans]
    exact moveResult_bind fun result =>
      environment.headerWith_mapSpans owner earlier ⟨name, modifiers, some type, parameters, body, span⟩ result

/-- Headers and findings with changed places. -/
def moveHeaders (change : Span → Span) : Array MethodHeader × List Finding → Array MethodHeader × List Finding :=
  Prod.map (Array.map (MethodHeader.mapSpans change)) (List.map (Finding.mapSpans change))

theorem classHeaders_mapSpans (owner : Nat) (state : Array MethodHeader × List Finding) (methods : List MethodDecl) :
    environment.classHeaders owner (moveHeaders change state) (methods.map (MethodDecl.mapSpans change)) =
      moveHeaders change (environment.classHeaders owner state methods) := by
  rw [classHeaders, classHeaders, List.foldl_map]
  induction methods generalizing state with
  | nil => rfl
  | cons decl rest ih =>
    rw [List.foldl_cons, List.foldl_cons, ← ih]
    refine congrArg (List.foldl _ · rest) ?_
    dsimp only [moveHeaders, Prod.map]
    rw [header_mapSpans]
    cases environment.header owner state.1 decl with
    | ok header =>
      dsimp only [moveResult]
      rw [Array.map_push]
    | error finding =>
      dsimp only [moveResult]
      rw [List.map_append, List.map_singleton]

theorem headers_mapSpans (methods : List (List MethodDecl)) :
    environment.headers (methods.map (List.map (MethodDecl.mapSpans change))) =
      moveHeaders change (environment.headers methods) := by
  have folded (classes : List (List MethodDecl × Nat)) (state : Array MethodHeader × List Finding) :
      classes.foldl (fun state entry =>
          environment.classHeaders entry.2 state (entry.1.map (MethodDecl.mapSpans change))) (moveHeaders change state) =
        moveHeaders change (classes.foldl (fun state entry => environment.classHeaders entry.2 state entry.1) state) := by
    induction classes generalizing state with
    | nil => rfl
    | cons first rest ih => rw [List.foldl_cons, List.foldl_cons, classHeaders_mapSpans, ih]
  rw [headers, headers, List.zipIdx_map, List.foldl_map, ← folded]
  simp [moveHeaders]

end Environment

/-! ### Bodies -/

namespace MethodHeader

theorem startState_mapSpans (header : MethodHeader) :
    (header.mapSpans change).startState = header.startState.mapSpans change := by
  have sameSlots : (header.mapSpans change).startState.slots =
      header.startState.slots.map (Slot.mapSpans change) := by
    simp only [startState, mapSpans, MethodDecl.mapSpans, List.zip_map_right, List.map_toArray, List.map_map]
    rfl
  rw [BodyState.mapSpans, ← sameSlots]
  simp [startState, mapSpans]

theorem usageFinding?_mapSpans (slot : Slot) (usage : Usage) :
    usageFinding? (slot.mapSpans change) usage = (usageFinding? slot usage).map (Finding.mapSpans change) := by
  rw [usageFinding?, usageFinding?, apply_ite (Option.map _), apply_ite (Option.map _), apply_ite (Option.map _)]
  rfl

theorem check_mapSpans (header : MethodHeader) (environment : Environment) (methods : Array MethodHeader) :
    (header.mapSpans change).check environment (methods.map (MethodHeader.mapSpans change)) =
      Prod.map (TypedMethod.mapSpans change) (List.map (Finding.mapSpans change))
        (header.check environment methods) := by
  have moves : Check.Moves change ⟨environment, methods, header.owner, header.label, header.result⟩
      (List.map (TypedStmt.mapSpans change)) _ _ := Check.statements_moves header.decl.body
  have ran := moves header.startState
  rw [← startState_mapSpans] at ran
  unfold check
  dsimp only [mapSpans, MethodDecl.mapSpans, BodyContext.mapSpans] at ran ⊢
  rw [ran]
  generalize ((Check.statements header.decl.body).run _).run.run header.startState = result
  obtain ⟨outcome, state⟩ := result
  have sameUnused : ((state.mapSpans change).slots.zip (state.mapSpans change).usage).toList.filterMap
        (fun entry => usageFinding? entry.1 entry.2) =
      ((state.slots.zip state.usage).toList.filterMap fun entry => usageFinding? entry.1 entry.2).map
        (Finding.mapSpans change) := by
    rw [List.map_filterMap, BodyState.mapSpans, Array.toList_zip, Array.toList_map, List.zip_map_left,
      List.filterMap_map, Array.toList_zip]
    exact congrArg (List.filterMap · _) (funext fun entry => usageFinding?_mapSpans entry.1 entry.2)
  dsimp only [Prod.map]
  rw [sameUnused, List.map_append, List.map_append]
  cases outcome with
  | ok body => simp [BodyState.mapSpans, moveResult, TypedMethod.mapSpans]
  | error finding => simp [BodyState.mapSpans, moveResult, TypedMethod.mapSpans]

end MethodHeader

/-! ### Whole texts -/

theorem Finding.sorted_mapSpans (respects : Span.Respects change) (findings : List Finding) :
    Finding.sorted (findings.map (Finding.mapSpans change)) = (Finding.sorted findings).map (Finding.mapSpans change) := by
  refine (List.map_mergeSort fun first _ second _ => ?_).symm
  exact decide_eq_decide.mpr (respects.order first.span second.span).symm

/-- A checked program with changed places. -/
def CheckedProgram.mapSpans (change : Span → Span) (checked : CheckedProgram) : CheckedProgram :=
  ⟨checked.program.mapSpans change, checked.findings.map (Finding.mapSpans change)⟩

theorem ClassInfo.typed_mapSpans (info : ClassInfo) (index : Nat) (headers : Array MethodHeader) :
    info.typed index (headers.map (MethodHeader.mapSpans change)) = info.typed index headers := by
  rw [typed, Array.toList_map, List.zipIdx_map, List.filter_map, List.map_map]
  rfl

namespace CompilationUnit

variable (unit : CompilationUnit) (libraries : LibrarySet)

/-- Everything found in a text, in the order of the checks. -/
def found : List Finding :=
  let collected := Collected.ofUnit unit
  let environment := collected.environment libraries
  let (headers, headerFindings) := environment.headers collected.methods.toList
  collected.findings ++ collected.directives.flatMap (environment.usingFindings []) ++ headerFindings ++
    headers.toList.flatMap fun header => (header.check environment headers).2

/-- What is found is shown in the order of the places. -/
theorem findings_check : (unit.check libraries).findings = Finding.sorted (unit.found libraries) := by
  rw [check, found]
  dsimp only
  rw [List.flatMap_map]

theorem checked_mapSpans :
    ((unit.mapSpans change).check libraries).program = (unit.check libraries).program.mapSpans change ∧
      (unit.mapSpans change).found libraries = (unit.found libraries).map (Finding.mapSpans change) := by
  rw [check, check, found, found, Collected.ofUnit_mapSpans]
  have sameEnvironment : ((Collected.ofUnit unit).mapSpans change).environment libraries =
    (Collected.ofUnit unit).environment libraries := rfl
  have sameDecls : ((Collected.ofUnit unit).mapSpans change).methods.toList =
    (Collected.ofUnit unit).methods.toList.map (List.map (MethodDecl.mapSpans change)) := Array.toList_map
  dsimp only
  rw [sameEnvironment, sameDecls, Environment.headers_mapSpans]
  generalize (Collected.ofUnit unit).environment libraries = environment
  obtain ⟨headers, findings⟩ := environment.headers (Collected.ofUnit unit).methods.toList
  have sameChecked (header : MethodHeader) :
      (header.mapSpans change).check environment (headers.map (MethodHeader.mapSpans change)) =
        Prod.map (TypedMethod.mapSpans change) (List.map (Finding.mapSpans change)) (header.check environment headers) :=
    header.check_mapSpans environment headers
  have sameClasses : ((Collected.ofUnit unit).classes.toList.zipIdx.map fun entry =>
        entry.1.typed entry.2 (headers.map (MethodHeader.mapSpans change))) =
      (Collected.ofUnit unit).classes.toList.zipIdx.map fun entry => entry.1.typed entry.2 headers :=
    List.map_congr_left fun entry _ => entry.1.typed_mapSpans entry.2 headers
  have sameUsings : ((Collected.ofUnit unit).mapSpans change).directives.flatMap (environment.usingFindings []) =
      ((Collected.ofUnit unit).directives.flatMap (environment.usingFindings [])).map (Finding.mapSpans change) := by
    rw [List.map_flatMap, Collected.mapSpans, List.flatMap_map]
    exact List.flatMap_congr fun directives _ => environment.usingFindings_mapSpans [] directives
  dsimp only [Environment.moveHeaders, Prod.map]
  refine ⟨?_, ?_⟩
  · rw [TypedProgram.mapSpans, Array.toList_map]
    simp only [List.map_map, Function.comp_def, sameChecked, Prod.map_fst]
    exact congrArg (TypedProgram.mk · _) sameClasses
  · rw [List.map_append, List.map_append, List.map_append, ← sameUsings, Array.toList_map, List.flatMap_map,
      List.map_flatMap]
    simp only [sameChecked, Prod.map_snd]
    rfl

end CompilationUnit

theorem CompilationUnit.check_mapSpans (respects : Span.Respects change) (unit : CompilationUnit)
    (libraries : LibrarySet) : (unit.mapSpans change).check libraries = (unit.check libraries).mapSpans change := by
  obtain ⟨program, found⟩ := unit.checked_mapSpans libraries
  have findings : ((unit.mapSpans change).check libraries).findings =
      (unit.check libraries).findings.map (Finding.mapSpans change) := by
    rw [findings_check, found, Finding.sorted_mapSpans respects, findings_check]
  rw [CheckedProgram.mapSpans, ← program, ← findings]

end Snippet
