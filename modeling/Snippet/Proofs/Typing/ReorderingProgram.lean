import Snippet.Proofs.Typing.MovingProgram
import Snippet.Proofs.Typing.Program
import Snippet.Proofs.Typing.ReorderingExpression
import Snippet.Proofs.Typing.StatementPairs

/-!
Texts whose using directives stand in another order. Main statement: a text that is accepted is accepted in every order
of the using directives of its lists, and the typed program is the same up to places.
-/

namespace Snippet

/-! ### Statements -/

namespace Check

variable {context : BodyContext} {classes : Array ClassInfo}

theorem declaredType_keeps (reorders : ClassInfo.ReorderAll context.environment.classes classes) (span : Span)
    (type : TypeName) (count : Nat) : Keeps context classes (declaredType span type count) := by
  rw [declaredType]
  refine .readBind (.choose (.choose (.reportBind rfl (.pure none)) (.pure none)) ?_)
  have kept := Environment.resolveType_kept reorders context.owner .variable type
  rw [BodyContext.environment_withClasses, BodyContext.owner_withClasses]
  cases isType : context.environment.resolveType context.owner .variable type with
  | ok declared =>
    rw [isType] at kept
    have same : (context.environment.withClasses classes).resolveType context.owner .variable type = .ok declared := kept
    rw [same]
    exact .pure (some declared)
  | error finding =>
    rw [isType] at kept
    exact .reportBind kept (.pure (some Ty.error))

/-- The steps of the checker that do the same for other classes unless they find an error. -/
def Keeps.logic (reorders : ClassInfo.ReorderAll context.environment.classes classes) :
    PairLogic id context (context.withClasses classes) where
  Judges may step step' := Follows may context (context.withClasses classes) step step'
  Stops finding := finding.isError = true
  stops isError := isError
  label := rfl
  result := rfl
  pure {_ _ _ value _} holds same := by
    rw [same, Placed.mapSpans_id]
    exact (Follows.pure value).mono fun _ => holds
  throw isError := .throw isError
  bind head tail := by
    refine (head.bindBoth fun value => ?_).mono And.right
    have follows := tail value
    rwa [Placed.mapSpans_id] at follows
  attempt head tail := .attemptThen head fun result isError => by
    have follows := tail result isError
    rwa [moveResult_id] at follows
  report isError tail := .reportBind isError tail
  read := .readBind
  noteWrite index value := by
    rw [TypedExpr.mapSpans_id]
    exact noteWrite_follows index value
  inScope := .inScope
  inLoop := .inLoop
  unlessOutside {_ _ _ _ value} isError := by
    rw [Placed.mapSpans_id]
    exact .getBind fun _ => .choose (.fail isError) (.pure value)
  declare := .declare
  expression source := by
    rw [Expr.mapSpans_id]
    exact expression_keeps reorders source
  condition source := by
    rw [Expr.mapSpans_id]
    exact condition_keeps reorders source
  declaredType span type count := by
    rw [TypeName.mapSpans_id]
    exact declaredType_keeps reorders span type count

theorem statements_keeps (reorders : ClassInfo.ReorderAll context.environment.classes classes) (sources : List Stmt) :
    Keeps context classes (statements sources) := by
  have follows : Follows True context (context.withClasses classes) (statements sources) _ :=
    (Keeps.logic reorders).statements_agree sources
  rwa [funext Stmt.mapSpans_id, List.map_id'] at follows

end Check

/-! ### Texts -/

mutual

/-- Whether a member of a namespace differs from another one at most in the order of using directives. -/
inductive Member.Reorders : Member → Member → Prop where
  | space (span : Span) (name : String) {usings usings' : List UsingDirective} {members members' : List Member} :
    usings.Perm usings' → Member.ReorderAll members members' →
      Member.Reorders (.space span name usings members) (.space span name usings' members')
  | type (decl : ClassDecl) : Member.Reorders (.type decl) (.type decl)

/-- Whether members of a namespace differ from other ones at most in the order of using directives. -/
inductive Member.ReorderAll : List Member → List Member → Prop where
  | nil : Member.ReorderAll [] []
  | cons {first first' : Member} {rest rest' : List Member} :
    Member.Reorders first first' → Member.ReorderAll rest rest' → Member.ReorderAll (first :: rest) (first' :: rest')

end

/-- Whether a text differs from another one at most in the order of the using directives of its lists. -/
structure CompilationUnit.Reorders (unit unit' : CompilationUnit) : Prop where
  usings : unit.usings.Perm unit'.usings
  members : Member.ReorderAll unit.members unit'.members

/-- A text without its places. -/
def CompilationUnit.unplaced (unit : CompilationUnit) : CompilationUnit := unit.mapSpans fun _ => ⟨0, 0⟩

/-- A typed program without its places. -/
def TypedProgram.unplaced (program : TypedProgram) : TypedProgram := program.mapSpans fun _ => ⟨0, 0⟩

/-! ### Classes and namespaces -/

namespace ClassInfo

namespace ReorderAll

variable {classes classes' : Array ClassInfo} {info info' : ClassInfo}

theorem size_eq (reorders : ReorderAll classes classes') : classes'.size = classes.size := by
  have same (index : Nat) : classes.size ≤ index ↔ classes'.size ≤ index := by
    rw [← Array.getElem?_eq_none_iff, ← Array.getElem?_eq_none_iff]
    have related := reorders index
    generalize classes[index]? = found, classes'[index]? = found' at related
    cases related <;> simp
  exact Nat.le_antisymm ((same _).1 (Nat.le_refl _)) ((same _).2 (Nat.le_refl _))

theorem push (reorders : ReorderAll classes classes') (isReordered : info.Reorders info') :
    ReorderAll (classes.push info) (classes'.push info') := by
  intro index
  rw [Array.getElem?_push, Array.getElem?_push, reorders.size_eq]
  split
  · exact .some isReordered
  · exact reorders index

theorem modify (reorders : ReorderAll classes classes') {change : ClassInfo → ClassInfo}
    (keeps : ∀ {info info' : ClassInfo}, info.Reorders info' → (change info).Reorders (change info')) (parent : Nat) :
    ReorderAll (classes.modify parent change) (classes'.modify parent change) := by
  intro index
  rw [Array.getElem?_modify, Array.getElem?_modify]
  have related := reorders index
  generalize classes[index]? = found, classes'[index]? = found' at related
  split
  · cases related with
    | none => exact .none
    | some isReordered => exact .some (keeps isReordered)
  · exact related

/-- Typed classes do not tell the order of the namespaces in use. -/
theorem typed_eq (reorders : ReorderAll classes classes')
    (headers : Array MethodHeader) :
    (classes'.toList.zipIdx.map fun (info, index) => info.typed index headers) =
      classes.toList.zipIdx.map fun (info, index) => info.typed index headers := by
  refine List.ext_getElem? fun index => ?_
  have related := reorders index
  simp only [List.getElem?_map, List.getElem?_zipIdx, Array.getElem?_toList]
  generalize classes[index]? = found, classes'[index]? = found' at related
  cases related with
  | none => rfl
  | some isReordered =>
    obtain ⟨usings, -, rfl⟩ := isReordered
    rfl

end ReorderAll

end ClassInfo

namespace Collected

/-- Whether two collections differ at most in the order of namespaces in use and of using directives. -/
structure Reorders (collected collected' : Collected) : Prop where
  classes : ClassInfo.ReorderAll collected.classes collected'.classes
  topLevel : collected'.topLevel = collected.topLevel
  namespaces : collected'.namespaces = collected.namespaces
  methods : collected'.methods = collected.methods
  directives : List.Forall₂ List.Perm collected.directives collected'.directives
  findings : collected'.findings = collected.findings

namespace Reorders

variable {collected collected' : Collected}

theorem report (reorders : collected.Reorders collected') (problem : Problem) (span : Span) :
    (collected.report problem span).Reorders (collected'.report problem span) :=
  { reorders with findings := congrArg (· ++ [Finding.mk problem span]) reorders.findings }

theorem addSpace (reorders : collected.Reorders collected') (space : String) :
    (collected.addSpace space).Reorders (collected'.addSpace space) :=
  { reorders with namespaces := congrArg (· ++ _) reorders.namespaces }

theorem addClass (reorders : collected.Reorders collected') {info info' : ClassInfo}
    (isReordered : info.Reorders info') (methods : List MethodDecl) :
    (collected.addClass info methods).Reorders (collected'.addClass info' methods) := by
  have size := reorders.classes.size_eq
  have nests {outer outer' : ClassInfo} (entry : String × Nat) (isReordered : outer.Reorders outer') :
      ClassInfo.Reorders { outer with nested := outer.nested ++ [entry] }
        { outer' with nested := outer'.nested ++ [entry] } := by
    obtain ⟨usings, perm, rfl⟩ := isReordered
    exact ⟨usings, perm, rfl⟩
  have added {classes classes' : Array ClassInfo} (areReordered : ClassInfo.ReorderAll classes classes') :
      ClassInfo.ReorderAll (classes.push info) (classes'.push info') := areReordered.push isReordered
  obtain ⟨usings, -, rfl⟩ := isReordered
  unfold Collected.addClass
  have sameMethods : collected'.methods.push methods = collected.methods.push methods := by
    rw [reorders.methods]
  dsimp only
  split
  · next parent isParent =>
    refine { reorders with classes := ?_, methods := sameMethods }
    rw [size]
    exact added (reorders.classes.modify (nests _) parent)
  · refine { reorders with classes := added reorders.classes, topLevel := ?_, methods := sameMethods }
    dsimp only
    rw [reorders.topLevel, size]

theorem nestedIn?_eq (reorders : collected.Reorders collected') (parent : Option Nat) (name : String) :
    collected'.nestedIn? parent name = collected.nestedIn? parent name := by
  cases parent with
  | none => rfl
  | some index =>
    have related := reorders.classes index
    unfold nestedIn?
    dsimp only [Option.bind_eq_bind, Option.bind_some]
    generalize collected.classes[index]? = found, collected'.classes[index]? = found' at related
    cases related with
    | none => rfl
    | some isReordered =>
      obtain ⟨usings, -, rfl⟩ := isReordered
      rfl

theorem duplicate?_eq (reorders : collected.Reorders collected') (parent : Option Nat) (space fullName name : String) :
    collected'.duplicate? parent space fullName name = collected.duplicate? parent space fullName name := by
  cases parent with
  | none => rw [duplicate?, duplicate?, reorders.topLevel]
  | some index => rw [duplicate?, duplicate?, reorders.nestedIn?_eq]

theorem fullNameIn_eq (reorders : collected.Reorders collected') (parent : Option Nat) (space name : String) :
    collected'.fullNameIn parent space name = collected.fullNameIn parent space name := by
  cases parent with
  | none => rfl
  | some index =>
    have related := reorders.classes index
    unfold fullNameIn
    dsimp only [Option.bind_some]
    generalize collected.classes[index]? = found, collected'.classes[index]? = found' at related
    cases related with
    | none => rfl
    | some isReordered =>
      obtain ⟨usings, -, rfl⟩ := isReordered
      rfl

theorem exists_directives (reorders : collected.Reorders collected') {directives' : List UsingDirective}
    (member : directives' ∈ collected'.directives) :
    ∃ directives ∈ collected.directives, directives.Perm directives' := by
  have related := reorders.directives
  generalize collected.directives = lists, collected'.directives = lists' at related member
  induction related with
  | nil => exact absurd member List.not_mem_nil
  | @cons first _ _ _ perm _ ih =>
    rcases List.mem_cons.1 member with rfl | inRest
    · exact ⟨first, List.mem_cons_self, perm⟩
    · obtain ⟨directives, inLists, isPerm⟩ := ih inRest
      exact ⟨directives, List.mem_cons_of_mem _ inLists, isPerm⟩

end Reorders

mutual

theorem collectClass_reorders {collected collected' : Collected} {usings usings' : List String}
    (reorders : collected.Reorders collected') (perm : usings.Perm usings') (space : String)
    (parent : Option Nat) (decl : ClassDecl) :
    (collected.collectClass space usings parent decl).Reorders (collected'.collectClass space usings' parent decl) := by
  match decl with
  | .mk span name modifiers methods nested =>
    rw [collectClass, collectClass]
    dsimp only
    rw [reorders.fullNameIn_eq, reorders.duplicate?_eq, reorders.classes.size_eq]
    split
    · exact reorders.report _ span
    · exact collectClasses_reorders (reorders.addClass ⟨usings', perm, rfl⟩ methods) perm space _ nested

theorem collectClasses_reorders {collected collected' : Collected} {usings usings' : List String}
    (reorders : collected.Reorders collected') (perm : usings.Perm usings') (space : String)
    (parent : Option Nat) (decls : List ClassDecl) :
    (collected.collectClasses space usings parent decls).Reorders
      (collected'.collectClasses space usings' parent decls) := by
  match decls with
  | [] =>
    rw [collectClasses, collectClasses]
    exact reorders
  | first :: rest =>
    rw [collectClasses, collectClasses]
    exact collectClasses_reorders (collectClass_reorders reorders perm space parent first) perm space parent rest

end

mutual

theorem collectMember_reorders {collected collected' : Collected} {usings usings' : List String}
    (reorders : collected.Reorders collected') (perm : usings.Perm usings') (space : String)
    {member member' : Member} (isReordered : member.Reorders member') :
    (collected.collectMember space usings member).Reorders (collected'.collectMember space usings' member') := by
  match member, member', isReordered with
  | _, _, .space span name directives members =>
    rw [collectMember, collectMember]
    have entered := reorders.addSpace (qualify space name)
    refine collectMembers_reorders ?_ (perm.append (directives.map _)) _ members
    exact { entered with directives := List.rel_append entered.directives (.cons directives .nil) }
  | _, _, .type decl =>
    rw [collectMember, collectMember]
    exact collectClass_reorders reorders perm space none decl

theorem collectMembers_reorders {collected collected' : Collected} {usings usings' : List String}
    (reorders : collected.Reorders collected') (perm : usings.Perm usings') (space : String)
    {members members' : List Member} (areReordered : Member.ReorderAll members members') :
    (collected.collectMembers space usings members).Reorders (collected'.collectMembers space usings' members') := by
  match members, members', areReordered with
  | _, _, .nil =>
    rw [collectMembers, collectMembers]
    exact reorders
  | _, _, .cons first rest =>
    rw [collectMembers, collectMembers]
    exact collectMembers_reorders (collectMember_reorders reorders perm space first) perm space rest

end

theorem ofUnit_reorders {unit unit' : CompilationUnit} (reorders : unit.Reorders unit') :
    (ofUnit unit).Reorders (ofUnit unit') := by
  refine collectMembers_reorders ?_ (reorders.usings.map _) "" reorders.members
  exact ⟨fun _ => .none, rfl, rfl, rfl, .cons reorders.usings .nil, rfl⟩

theorem Reorders.environment_eq {collected collected' : Collected} (reorders : collected.Reorders collected')
    (libraries : LibrarySet) :
    collected'.environment libraries = (collected.environment libraries).withClasses collected'.classes := by
  rw [Collected.environment, reorders.topLevel, reorders.namespaces]
  rfl

end Collected

/-! ### Using directives -/

namespace Environment

variable {environment : Environment} {classes : Array ClassInfo}

theorem missingPart?_isError {space : String} {parts : List String} {problem : Problem}
    (found : environment.missingPart? space parts = some problem) : problem.isWarning = false := by
  induction parts generalizing space with
  | nil => cases found
  | cons part rest ih =>
    rw [missingPart?] at found
    split_ifs at found
    · exact ih found
    · cases found
      rfl
    · cases found
      rfl

theorem usingProblem?_isError {name : String} {problem : Problem}
    (found : environment.usingProblem? name = some problem) : problem.isWarning = false := by
  unfold usingProblem? at found
  split_ifs at found
  · cases found
    rfl
  · exact missingPart?_isError found

/-- A list of using directives is accepted if every name behind none of the seen ones is a namespace. -/
theorem usingFindings_accepted (seen : List String) (directives : List UsingDirective) :
    (∀ finding ∈ environment.usingFindings seen directives, finding.isError = false) ↔
      ∀ directive ∈ directives, directive.name ∈ seen ∨ environment.usingProblem? directive.name = none := by
  induction directives generalizing seen with
  | nil => simp [usingFindings]
  | cons directive rest ih =>
    rw [usingFindings, List.forall_mem_cons]
    split_ifs with isSeen
    · have isSeen : directive.name ∈ seen := by simpa using isSeen
      have isWarning : (Finding.mk (.duplicateUsing directive.name) directive.span).isError = false := rfl
      rw [List.forall_mem_cons, ih]
      simp [isSeen, isWarning]
    · have notSeen : directive.name ∉ seen := by simpa using isSeen
      rw [List.forall_mem_append, ih]
      cases isProblem : environment.usingProblem? directive.name with
      | some problem =>
        have isError := usingProblem?_isError isProblem
        simp [Finding.isError, isError, notSeen]
      | none =>
        simp only [Option.map_none, Option.toList_none, List.not_mem_nil, false_implies, implies_true, true_and,
          or_true, List.mem_cons]
        refine forall₂_congr fun other _ => ?_
        rw [or_assoc, or_iff_right_of_imp]
        rintro same
        exact .inr (same ▸ isProblem)

/-- The order of using directives does not matter for whether they are accepted. -/
theorem usingFindings_reorders {directives directives' : List UsingDirective} (perm : directives.Perm directives')
    (accepted : ∀ finding ∈ environment.usingFindings [] directives, finding.isError = false) :
    ∀ finding ∈ (environment.withClasses classes).usingFindings [] directives', finding.isError = false := by
  have sameParts (space : String) (parts : List String) :
      (environment.withClasses classes).missingPart? space parts = environment.missingPart? space parts := by
    induction parts generalizing space with
    | nil => rfl
    | cons part rest ih =>
      rw [missingPart?, missingPart?, ih]
      rfl
  have sameProblem (name : String) :
      (environment.withClasses classes).usingProblem? name = environment.usingProblem? name := by
    rw [usingProblem?, usingProblem?, sameParts]
    rfl
  rw [usingFindings_accepted] at accepted ⊢
  intro directive member
  rw [sameProblem]
  exact accepted directive (perm.mem_iff.2 member)

/-! ### Method headers -/

section

variable (reorders : ClassInfo.ReorderAll environment.classes classes)

include reorders

theorem parameters_kept (owner : Nat) (seen : List String) (sources : List Parameter) :
    Resolves ((environment.withClasses classes).parameters owner seen sources = .ok ·)
      (environment.parameters owner seen sources) := by
  induction sources generalizing seen with
  | nil => rfl
  | cons source rest ih =>
    rw [parameters, parameters]
    exact .keepsChoose rfl ((resolveType_kept reorders owner .parameter source.type).keepsBind fun type =>
      (ih _).keepsBind fun others => rfl)

theorem headerWith_kept (owner : Nat) (earlier : Array MethodHeader) (decl : MethodDecl) (result : Ty) :
    Resolves ((environment.withClasses classes).headerWith owner earlier decl result = .ok ·)
      (environment.headerWith owner earlier decl result) := by
  rw [headerWith, headerWith, classShown_withClasses reorders]
  refine (parameters_kept reorders owner [] decl.parameters).keepsBind fun parameters => ?_
  dsimp only
  split
  · next problem found =>
    obtain ⟨other, -, isProblem⟩ := List.exists_of_findSome?_eq_some found
    show (!problem.isWarning) = true
    rw [overloadProblem?_isError isProblem]
    rfl
  · exact .keepsChoose rfl rfl

theorem header_kept (owner : Nat) (earlier : Array MethodHeader) (decl : MethodDecl) :
    Resolves ((environment.withClasses classes).header owner earlier decl = .ok ·)
      (environment.header owner earlier decl) := by
  rw [header, header, any_class?_withClasses reorders _ fun _ _ => rfl]
  refine .keepsChoose rfl (.keepsChoose rfl ?_)
  cases decl.result with
  | none => exact headerWith_kept reorders owner earlier decl .void
  | some type =>
    exact (resolveType_kept reorders owner .result type).keepsBind fun result =>
      headerWith_kept reorders owner earlier decl result

omit reorders in
theorem classHeaders_cons (owner : Nat) (state : Array MethodHeader × List Finding) (decl : MethodDecl)
    (rest : List MethodDecl) : environment.classHeaders owner state (decl :: rest) =
      environment.classHeaders owner
        (match environment.header owner state.1 decl with
          | .ok header => (state.1.push header, state.2)
          | .error finding => (state.1, state.2 ++ [finding])) rest := rfl

/-- Accepted methods of a class have the same headers in every order. -/
theorem classHeaders_kept (owner : Nat) (methods : List MethodDecl) (state : Array MethodHeader × List Finding)
    (accepted : ∀ finding ∈ (environment.classHeaders owner state methods).2, finding.isError = false) :
    (environment.withClasses classes).classHeaders owner state methods = environment.classHeaders owner state methods ∧
      ∀ finding ∈ state.2, finding.isError = false := by
  induction methods generalizing state with
  | nil => exact ⟨rfl, accepted⟩
  | cons decl rest ih =>
    have kept := header_kept reorders owner state.1 decl
    rw [classHeaders_cons] at accepted
    rw [classHeaders_cons, classHeaders_cons]
    cases isHeader : environment.header owner state.1 decl with
    | ok header =>
      rw [isHeader] at kept
      simp only [isHeader, show (environment.withClasses classes).header owner state.1 decl = .ok header from kept]
        at accepted ⊢
      exact ih _ accepted
    | error finding =>
      rw [isHeader] at kept
      simp only [isHeader] at accepted
      have isFree := (ih _ accepted).2 finding (by simp)
      rw [show finding.isError = true from kept] at isFree
      cases isFree

/-- Accepted methods have the same headers in every order. -/
theorem headers_kept (methods : List (List MethodDecl))
    (accepted : ∀ finding ∈ (environment.headers methods).2, finding.isError = false) :
    (environment.withClasses classes).headers methods = environment.headers methods := by
  have folds (entries : List (List MethodDecl × Nat)) (state : Array MethodHeader × List Finding)
      (accepted : ∀ finding ∈ (entries.foldl (fun state entry => environment.classHeaders entry.2 state entry.1)
        state).2, finding.isError = false) :
      entries.foldl (fun state entry => (environment.withClasses classes).classHeaders entry.2 state entry.1) state =
        entries.foldl (fun state entry => environment.classHeaders entry.2 state entry.1) state ∧
      ∀ finding ∈ state.2, finding.isError = false := by
    induction entries generalizing state with
    | nil => exact ⟨rfl, accepted⟩
    | cons entry rest ih =>
      obtain ⟨sameRest, isFree⟩ := ih _ accepted
      obtain ⟨same, isFreeBefore⟩ := classHeaders_kept reorders entry.2 entry.1 state isFree
      rw [List.foldl_cons, List.foldl_cons, same]
      exact ⟨sameRest, isFreeBefore⟩
  exact (folds methods.zipIdx _ accepted).1

/-! ### Bodies and whole texts -/

/-- An accepted body is typed the same in every order. -/
theorem check_kept (header : MethodHeader) (methods : Array MethodHeader)
    (accepted : ∀ finding ∈ (header.check environment methods).2, finding.isError = false) :
    header.check (environment.withClasses classes) methods = header.check environment methods := by
  let context : BodyContext := ⟨environment, methods, header.owner, header.label, header.result⟩
  have keeps : Check.Keeps context classes (Check.statements header.decl.body) :=
    Check.statements_keeps reorders header.decl.body
  obtain ⟨-, isError, outcome⟩ := keeps header.startState header.startState
  unfold MethodHeader.check at accepted ⊢
  have ran : ((Check.statements header.decl.body).run context).run.run header.startState =
    ((Check.statements header.decl.body).run ⟨environment, methods, header.owner, header.label, header.result⟩).run.run
      header.startState := rfl
  dsimp only at isError outcome accepted ⊢
  rw [ran] at isError outcome
  generalize ((Check.statements header.decl.body).run _).run.run header.startState = result at isError outcome accepted ⊢
  obtain ⟨finding | body, state⟩ := result
  · have isFree := accepted finding (by simp)
    rw [isError finding rfl] at isFree
    cases isFree
  · have isFree : state.ErrorFree := fun finding member => accepted finding (by simp [Array.mem_toList_iff.1 member])
    have same : ((Check.statements header.decl.body).run ⟨environment.withClasses classes, methods, header.owner,
      header.label, header.result⟩).run.run header.startState = (.ok body, state) := (outcome isFree rfl body rfl).2
    rw [same]

end

end Environment

namespace CompilationUnit

variable {unit unit' : CompilationUnit} {libraries : LibrarySet}

/-- Whether no error is found in a text. -/
def IsAccepted (unit : CompilationUnit) (libraries : LibrarySet) : Prop :=
  ∀ finding ∈ (unit.check libraries).findings, finding.isError = false

theorem isAccepted_iff : unit.IsAccepted libraries ↔ ∀ finding ∈ unit.found libraries, finding.isError = false := by
  rw [IsAccepted, findings_check]
  simp only [Finding.sorted, List.mem_mergeSort]

/-- Texts that differ in the order of using directives only are typed the same, or one of them is refused. -/
theorem check_reorders (reorders : unit.Reorders unit') (accepted : unit.IsAccepted libraries) :
    unit'.IsAccepted libraries ∧ (unit'.check libraries).program = (unit.check libraries).program := by
  have collects := Collected.ofUnit_reorders reorders
  have sameEnvironment := collects.environment_eq libraries
  have classes : ClassInfo.ReorderAll ((Collected.ofUnit unit).environment libraries).classes
    (Collected.ofUnit unit').classes := collects.classes
  rw [isAccepted_iff, found] at accepted
  rw [isAccepted_iff, found, check, check]
  dsimp only at accepted ⊢
  rw [sameEnvironment, collects.methods, collects.findings]
  simp only [List.forall_mem_append] at accepted ⊢
  obtain ⟨⟨⟨collected, usings⟩, headers⟩, bodies⟩ := accepted
  have sameHeaders := Environment.headers_kept classes _ headers
  have sameBodies (header : MethodHeader)
      (member : header ∈ (((Collected.ofUnit unit).environment libraries).headers
        (Collected.ofUnit unit).methods.toList).1.toList) :=
    Environment.check_kept classes header _ fun finding inBody => bodies finding (List.mem_flatMap_of_mem member inBody)
  rw [sameHeaders]
  refine ⟨⟨⟨⟨collected, fun finding member => ?_⟩, headers⟩, fun finding member => ?_⟩, ?_⟩
  · obtain ⟨directives', inUnit', isFound⟩ := List.mem_flatMap.1 member
    obtain ⟨directives, inUnit, perm⟩ := collects.exists_directives inUnit'
    exact Environment.usingFindings_reorders perm
      (fun finding inUsings => usings finding (List.mem_flatMap_of_mem inUnit inUsings)) finding isFound
  · obtain ⟨header, isHeader, inBody⟩ := List.mem_flatMap.1 member
    rw [sameBodies header isHeader] at inBody
    exact bodies finding (List.mem_flatMap_of_mem isHeader inBody)
  · have sameClasses := collects.classes.typed_eq
      (((Collected.ofUnit unit).environment libraries).headers (Collected.ofUnit unit).methods.toList).1
    rw [sameClasses, List.map_map, List.map_map]
    exact congrArg (TypedProgram.mk _)
      (List.map_congr_left fun header member => congrArg Prod.fst (sameBodies header member))

theorem unplaced_isAccepted : unit.unplaced.IsAccepted libraries ↔ unit.IsAccepted libraries := by
  rw [isAccepted_iff, isAccepted_iff, unplaced, (unit.checked_mapSpans libraries).2]
  simp only [List.forall_mem_map, Finding.isError_mapSpans]

/-- The order of the using directives inside each list does not matter: an accepted text is accepted in every order,
and the typed program is the same up to places. -/
theorem check_irrespective_of_usings (reorders : unit.unplaced.Reorders unit'.unplaced)
    (accepted : unit.IsAccepted libraries) :
    unit'.IsAccepted libraries ∧
      (unit'.check libraries).program.unplaced = (unit.check libraries).program.unplaced := by
  obtain ⟨accepted', sameProgram⟩ := check_reorders reorders (unplaced_isAccepted.2 accepted)
  refine ⟨unplaced_isAccepted.1 accepted', ?_⟩
  rw [unplaced, unplaced, (unit'.checked_mapSpans libraries).1, (unit.checked_mapSpans libraries).1] at sameProgram
  exact sameProgram

/-- A class with a method that takes values of two types, in the namespaces of using directives. -/
def importing (usings : List UsingDirective) : CompilationUnit :=
  ⟨usings, [.type (.mk ⟨0, 0⟩ "C" .none
    [⟨"M", { Modifiers.none with isStatic := true }, none,
      [⟨.value, .named ⟨0, 0⟩ [.mk "Money" []], "money", ⟨0, 0⟩⟩,
        ⟨.value, .named ⟨0, 0⟩ [.mk "Stamp" []], "stamp", ⟨0, 0⟩⟩],
      [], ⟨0, 0⟩⟩] [])]⟩

/-- The two namespaces of the types may be imported in either order. -/
theorem check_irrespective_of_usings_shopAndPost :
    let libraries : LibrarySet := ⟨[⟨"Trade", [.bare "Shop" [] "Money" .data, .bare "Post" [] "Stamp" .data]⟩]⟩
    let first := importing [⟨"Shop", ⟨0, 11⟩⟩, ⟨"Post", ⟨12, 23⟩⟩]
    let second := importing [⟨"Post", ⟨0, 11⟩⟩, ⟨"Shop", ⟨12, 23⟩⟩]
    second.IsAccepted libraries ∧
      (second.check libraries).program.unplaced = (first.check libraries).program.unplaced := by
  intro libraries first second
  have accepted : first.IsAccepted libraries := by
    have noFindings : (first.check libraries).findings = [] := by decide +kernel
    rw [IsAccepted, noFindings]
    exact List.forall_mem_nil _
  exact check_irrespective_of_usings ⟨.swap _ _ _, .cons (.type _) .nil⟩ accepted

end CompilationUnit

end Snippet
