import Snippet.Proofs.Typing.Expression
import Snippet.Proofs.Typing.Statement
import Snippet.Typing.Program

/-!
Statements and whole programs: if nothing found in a source text is an error, then the bodies of all its
methods keep their promises. Main statement: `CompilationUnit.methodFits_of_check`.
-/

namespace Snippet

/-! ### Statements -/

namespace Check

variable {typing : Typing} {context : BodyContext}

/-- The steps of the checker with sound results. In a place that is nested in a loop the checker is in one. -/
def Yields.logic (typing : Typing) (context : BodyContext) : Logic context where
  World := Unit
  Judges nested _ known step good := ∀ before : BodyState, (before.loopDepth ≠ 0 → nested = true) →
    Yields typing context before (known ()) step (good ())
  Stops finding := finding.isError = true
  Doomed _ := False
  Leaves nested := nested = true
  stops isError := isError
  pure holds _ _ := .pure (holds ())
  throw isError _ _ := .throw isError
  bind head tail before nests := (head before nests).bind fun value after grows =>
    tail value after (grows.loopDepth ▸ nests)
  attempt head tail before nests := (head before nests).attempt_then fun result after grows isError =>
    tail result isError after (grows.loopDepth ▸ nests)
  report isError _ _ := .report isError
  read tail before nests := .read_bind (tail before nests)
  noteWrite index _ _ _ := .modifyUsage index _
  inScope inner before nests := .inScope (inner _ nests)
  inLoop inner before _ := .inLoop (inner _ fun _ => rfl)
  unlessOutside isError holds before nests := .get_bind (.refuse isError fun isNested =>
    .pure (holds (nests (by simpa using isNested)) ()))

/-- Whether a condition is a truth value. -/
def IsTest (typing : Typing) (test : TypedExpr) : Prop :=
  test.Checked typing ∧ (typing.Strict → test.type = .bool)

/-- Statements that keep their promises. -/
def fitLogic (describes : context.Describes typing) : StatementLogic context where
  toLogic := Yields.logic typing context
  Value _ value := value.Checked typing
  Test _ test := IsTest typing test
  Used _ type used := used.Checked typing ∧ (typing.Strict → used.type = type)
  Stores _ type := type.Stores typing
  Declared _ slot index := typing.slots[index]? = some slot
  Holds nested _ statement := statement.Fits typing nested
  expression source before _ := expression_checked describes before source
  condition source before _ := condition_checked describes before source
  coerce value type := (value.coerce_resolves typing type).mono fun _ coerces _ => coerces
  resolve type := (Environment.resolveType_named describes.libraries context.owner .variable type).mono
    fun _ named _ => named.toStores
  result _ hasResult := describes.gives.resolve_left hasResult
  stores checked notNull notVoid := checked.type.stores notVoid notNull
  doomed := False.elim
  declare stores _ _ := .declare (stores ())
  declareDoomed reports holds _ _ := .declare_doomed fun result after named stops => by
    obtain ⟨finding, isError, isNext⟩ := reports result stops
    rw [isNext]
    exact Yields.report_return_sound isError named _
  block holds := by
    rw [TypedStmt.Fits]
    exact TypedStmt.allFit_iff.2 holds
  evaluate checked := by
    rw [TypedStmt.Fits]
    exact checked.fits
  assign stores declared isUsed := by
    rw [TypedStmt.Fits]
    refine TypedExpr.fits_mk ?_
    rw [TypedNode.Fits]
    refine ⟨stores.ne_void, isUsed.1.fits, _, ?_, fun strict => ⟨.inl (isUsed.2 strict), .refl _⟩⟩
    exact ⟨_, declared, (Option.some_ne_none _).symm, rfl⟩
  giveNothing isVoid := by
    rw [TypedStmt.Fits]
    exact describes.result.trans isVoid
  giveBack hasResult isUsed := by
    rw [TypedStmt.Fits, describes.result]
    exact ⟨hasResult, isUsed.1.fits, fun strict => .inl (isUsed.2 strict)⟩
  branch {_ _ _ _ second} isTest one other := by
    cases second with
    | none =>
      rw [TypedStmt.Fits]
      exact ⟨isTest.1.fits, isTest.2, one⟩
    | some second =>
      rw [TypedStmt.Fits]
      exact ⟨isTest.1.fits, isTest.2, one, other second rfl⟩
  whileLoop isTest holds := by
    rw [TypedStmt.Fits]
    exact ⟨isTest.1.fits, isTest.2, holds⟩
  forLoop starts isTest advances holds := by
    rw [TypedStmt.Fits]
    refine ⟨TypedStmt.allFit_iff.2 starts, fun test isSome => ?_, ?_, holds⟩
    · exact ⟨(isTest test isSome).1.fits, (isTest test isSome).2⟩
    · exact TypedExpr.allFit_iff.2 fun value member => (advances value member).fits
  leaveLoop isNested := by
    rw [TypedStmt.Fits]
    exact isNested
  nextRound isNested := by
    rw [TypedStmt.Fits]
    exact isNested

/-- Statements keep their promises in every place that is nested in a loop if the checker's is. -/
theorem statements_fit (describes : context.Describes typing) {nested : Bool} (before : BodyState)
    (nests : before.loopDepth ≠ 0 → nested = true) (sources : List Stmt) :
    Yields typing context before True (statements sources) (TypedStmt.AllFit typing nested) :=
  ((fitLogic describes).statements_judged nested (fun _ => True) sources before nests).mono id
    fun _ _ => TypedStmt.allFit_iff.2

end Check

/-! ### Method headers -/

/-- Whether the types of a header are ones of variables. -/
structure MethodHeader.Stores (typing : Typing) (header : MethodHeader) : Prop where
  parameters : ∀ parameter ∈ header.parameters, parameter.type.Stores typing
  result : header.result = .void ∨ header.result.Stores typing
  sources : header.parameters.length = header.decl.parameters.length

namespace Environment

variable {environment : Environment} {typing : Typing}

theorem parameters_resolve (libraries : typing.libraries = environment.libraries) (owner : Nat)
    (seen : List String) (sources : List Parameter) :
    Resolves (fun parameters => (∀ parameter ∈ parameters, parameter.type.Stores typing) ∧
      parameters.length = sources.length) (environment.parameters owner seen sources) := by
  induction sources generalizing seen with
  | nil => exact ⟨fun _ member => absurd member List.not_mem_nil, rfl⟩
  | cons source rest ih =>
      rw [parameters]
      split
      · rfl
      · refine (resolveType_named libraries owner .parameter source.type).bind fun type named => ?_
        refine (ih (source.name :: seen)).bind fun others ⟨store, sameLength⟩ => ?_
        refine ⟨fun parameter member => ?_, congrArg (· + 1) sameLength⟩
        rcases List.mem_cons.1 member with rfl | inOthers
        · exact named.toStores
        · exact store parameter inOthers

theorem overloadProblem?_isError {shown name : String} {parameters : List TypedParameter} {other : MethodHeader}
    {problem : Problem} (found : overloadProblem? shown name parameters other = some problem) :
    problem.isWarning = false := by
  unfold overloadProblem? at found
  split_ifs at found <;> cases found <;> rfl

theorem headerWith_of_parameters {areGood : List TypedParameter → Prop} {owner : Nat} {decl : MethodDecl}
    (parameters : Resolves areGood (environment.parameters owner [] decl.parameters)) (earlier : Array MethodHeader)
    (result : Ty) :
    Resolves (fun header => areGood header.parameters ∧ header.result = result ∧ header.owner = owner ∧
      header.decl = decl ∧ earlier.size < UInt32.size) (environment.headerWith owner earlier decl result) := by
  unfold headerWith
  refine parameters.bind fun parameters areParameters => ?_
  dsimp only
  split
  · next problem found =>
    obtain ⟨other, -, isProblem⟩ := List.exists_of_findSome?_eq_some found
    show (!problem.isWarning) = true
    rw [overloadProblem?_isError isProblem]
    rfl
  · split
    · rfl
    · next enough => exact ⟨areParameters, rfl, rfl, rfl, by omega⟩

/-- A header has what the parameters and the result of its method have, and it is not one too many. -/
theorem header_of_parts {areGood : List TypedParameter → Prop} {isGood : Ty → Prop} {owner : Nat} {decl : MethodDecl}
    (parameters : Resolves areGood (environment.parameters owner [] decl.parameters))
    (result : ∀ type, Resolves isGood (environment.resolveType owner .result type)) (noResult : isGood .void)
    (earlier : Array MethodHeader) :
    Resolves (fun header => areGood header.parameters ∧ isGood header.result ∧ header.owner = owner ∧
      header.decl = decl ∧ earlier.size < UInt32.size) (environment.header owner earlier decl) := by
  have withResult {type : Ty} (isType : isGood type) := (headerWith_of_parameters parameters earlier type).mono
    fun header made => And.imp_right (And.imp_left fun same => same ▸ isType) made
  unfold header
  dsimp only
  split
  · rfl
  · split
    · rfl
    · split
      · next type _ => exact (result type).bind fun _ => withResult
      · exact withResult noResult

/-- A header of a class stores types of variables, and it is not one too many. -/
theorem header_resolves (libraries : typing.libraries = environment.libraries) (owner : Nat)
    (earlier : Array MethodHeader) (decl : MethodDecl) :
    Resolves (fun header => header.Stores typing ∧ header.owner = owner ∧ earlier.size < UInt32.size)
      (environment.header owner earlier decl) := by
  have result (type : TypeName) : Resolves (fun type => type = .void ∨ type.Stores typing)
      (environment.resolveType owner .result type) :=
    (resolveType_named libraries owner .result type).mono fun _ named => .inr named.toStores
  refine (header_of_parts (parameters_resolve libraries owner [] decl.parameters) result (.inl rfl) earlier).mono ?_
  rintro header ⟨⟨areStored, sameLength⟩, isResult, isOwner, rfl, hasRoom⟩
  exact ⟨⟨areStored, isResult, sameLength⟩, isOwner, hasRoom⟩

/-- A header belongs to the class whose method it is. -/
theorem header_owner {owner : Nat} {earlier : Array MethodHeader} {decl : MethodDecl} {header : MethodHeader}
    (found : environment.header owner earlier decl = .ok header) : header.owner = owner := by
  let typing : Typing := ⟨environment.libraries, [], [], .void⟩
  have resolves := header_resolves (show typing.libraries = environment.libraries from rfl) owner earlier decl
  rw [found] at resolves
  exact resolves.2.1

/-- Every header is made of a method of one of the classes. -/
theorem exists_of_mem_headers {methods : List (List MethodDecl)} {header : MethodHeader}
    (member : header ∈ (environment.headers methods).1.toList) :
    ∃ owner earlier decl, owner < methods.length ∧ environment.header owner earlier decl = .ok header := by
  let Made (state : Array MethodHeader × List Finding) : Prop := ∀ header ∈ state.1.toList,
    ∃ owner earlier decl, owner < methods.length ∧ environment.header owner earlier decl = .ok header
  have start : Made (#[], []) := fun _ member => absurd member List.not_mem_nil
  have made : Made (environment.headers methods) := by
    refine List.foldlRecOn (motive := Made) methods.zipIdx _ start fun state areMade entry isEntry => ?_
    have inside := (List.getElem?_eq_some_iff.1 (List.mem_zipIdx_iff_getElem?.1 isEntry)).1
    refine List.foldlRecOn (motive := Made) entry.1 _ areMade fun state areMade decl _ => ?_
    dsimp only
    split
    · next header isHeader =>
      intro other member
      rw [Array.toList_push] at member
      rcases List.mem_append.1 member with old | new
      · exact areMade other old
      · rw [List.mem_singleton.1 new]
        exact ⟨entry.2, state.1, decl, inside, isHeader⟩
    · exact areMade
  exact made header member

/-- Whether all headers so far store types of variables, and there are not too many. -/
structure HeadersFit (typing : Typing) (headers : Array MethodHeader) : Prop where
  store : ∀ header ∈ headers.toList, header.Stores typing
  size : headers.size ≤ UInt32.size

theorem classHeaders_fit (libraries : typing.libraries = environment.libraries) (owner : Nat)
    (state : Array MethodHeader × List Finding) (fit : HeadersFit typing state.1) (methods : List MethodDecl) :
    HeadersFit typing (environment.classHeaders owner state methods).1 := by
  unfold classHeaders
  induction methods generalizing state with
  | nil => exact fit
  | cons decl rest ih =>
      rw [List.foldl_cons]
      refine ih _ ?_
      have resolves := header_resolves libraries owner state.1 decl
      cases result : environment.header owner state.1 decl with
      | error finding =>
        simp only [result]
        exact fit
      | ok header =>
        rw [result] at resolves
        obtain ⟨stores, -, hasRoom⟩ := resolves
        simp only [result]
        refine ⟨fun other member => ?_, ?_⟩
        · rw [Array.toList_push] at member
          rcases List.mem_append.1 member with old | new
          · exact fit.store other old
          · rw [List.mem_singleton.1 new]
            exact stores
        · rw [Array.size_push]
          exact hasRoom

/-- The headers of a program store types of variables, and there are not too many. -/
theorem headers_fit (libraries : typing.libraries = environment.libraries) (methods : List (List MethodDecl)) :
    HeadersFit typing (environment.headers methods).1 := by
  let Fit (state : Array MethodHeader × List Finding) : Prop := HeadersFit typing state.1
  refine List.foldlRecOn (motive := Fit) methods.zipIdx _ ?_ ?_
  · exact ⟨fun _ member => absurd member List.not_mem_nil, Nat.zero_le _⟩
  · exact fun state fit entry _ => classHeaders_fit libraries entry.2 state fit entry.1

end Environment

/-! ### Bodies -/

namespace MethodHeader

variable {typing : Typing} {header : MethodHeader}

/-- The parameters are the slots at the start of a body. -/
theorem map_startSlots (stores : header.Stores typing) :
    header.startState.slots.toList.map (fun slot => (slot.type, slot.mode)) =
      header.parameters.map fun parameter => (parameter.type, some parameter.mode) := by
  have zipped (parameters : List TypedParameter) (sources : List Parameter)
      (sameLength : parameters.length = sources.length) :
      ((parameters.zip sources).map fun entry => (entry.1.type, some entry.1.mode)) =
        parameters.map fun parameter => (parameter.type, some parameter.mode) := by
    induction parameters generalizing sources with
    | nil => rfl
    | cons parameter parameters ih =>
        obtain ⟨source, sources, rfl⟩ := List.exists_cons_of_length_eq_add_one sameLength.symm
        rw [List.zip_cons_cons, List.map_cons, List.map_cons, ih sources (Nat.succ.inj sameLength)]
  rw [← zipped header.parameters header.decl.parameters stores.sources]
  simp [startState]

theorem length_startSlots (stores : header.Stores typing) :
    header.startState.slots.toList.length = header.parameters.length := by
  have sameTypes := congrArg List.length (map_startSlots stores)
  rwa [List.length_map, List.length_map] at sameTypes

/-- The numbers of 16 bits of the parameters are those of parameters. -/
theorem slot_lt_of_mem_zipIdx {parameters : List TypedParameter} {entry : TypedParameter × Nat}
    (member : entry ∈ parameters.zipIdx) : entry.2 % 65536 < parameters.length := by
  have inside : entry.2 < parameters.length := (List.getElem?_eq_some_iff.1 (List.mem_zipIdx_iff_getElem?.1 member)).1
  exact Nat.lt_of_le_of_lt (Nat.mod_le ..) inside

theorem startState_scoped (stores : header.Stores typing) : header.startState.Scoped := by
  intro scope member entry inScope
  have size : header.startState.slots.size = header.parameters.length := length_startSlots stores
  rw [size]
  simp only [startState, List.mem_cons, List.not_mem_nil, or_false] at member
  rcases member with rfl | rfl
  · exact absurd inScope List.not_mem_nil
  · obtain ⟨numbered, inZip, rfl⟩ := List.mem_map.1 inScope
    exact slot_lt_of_mem_zipIdx inZip

theorem startState_valid (stores : header.Stores typing) : header.startState.Valid typing := by
  intro slot member
  have mapped : (slot.type, slot.mode) ∈ header.startState.slots.toList.map fun slot => (slot.type, slot.mode) :=
    List.mem_map_of_mem member
  rw [map_startSlots stores] at mapped
  obtain ⟨parameter, inHeader, same⟩ := List.mem_map.1 mapped
  rw [← (Prod.mk.inj same).1]
  exact stores.parameters parameter inHeader

/-- The body of a header keeps its promises if nothing found in it is an error. -/
theorem check_fits {environment : Environment} {methods : Array MethodHeader}
    (fit : ∀ typing : Typing, typing.libraries = environment.libraries → Environment.HeadersFit typing methods)
    {program : TypedProgram}
    (isProgram : program.methods = methods.toList.map fun header => (header.check environment methods).1)
    (member : header ∈ methods.toList)
    (noError : ∀ finding ∈ (header.check environment methods).2, finding.isError = false) :
    program.MethodFits environment.libraries (header.check environment methods).1 := by
  let context : BodyContext := ⟨environment, methods, header.owner, header.label, header.result⟩
  let method := (header.check environment methods).1
  let typing := program.typing environment.libraries method
  have fit := fit typing rfl
  have stores := fit.store header member
  have describes : context.Describes typing := by
    refine ⟨rfl, ?_, rfl, fun other inMethods => (fit.store other inMethods).parameters,
      fun other inMethods => (fit.store other inMethods).result, stores.result⟩
    show program.methods.map _ = _
    rw [isProgram, List.map_map]
    rfl
  have nests : header.startState.loopDepth ≠ 0 → false = true := fun isNested => absurd rfl isNested
  have sound := Check.statements_fit describes header.startState nests header.decl.body
    (startState_scoped stores) fun _ => ⟨startState_valid stores, trivial⟩
  let run := ((Check.statements header.decl.body).run context).run.run header.startState
  have clean : run.2.Clean typing :=
    ⟨List.prefix_rfl, fun finding found => noError finding
      (List.mem_append_left _ (List.mem_append_left _ found))⟩
  have fits : TypedStmt.AllFit typing false method.body := by
    show TypedStmt.AllFit typing false (header.check environment methods).1.body
    unfold check
    dsimp only
    split
    next outcome state isRun =>
    cases outcome with
    | error finding => trivial
    | ok body => exact sound.of_ok (congrArg Prod.fst isRun) clean
  obtain ⟨-, ⟨⟨declared, isGrown, locals⟩, -, -⟩, valid, -⟩ := sound
  have isMethod : method.slots = header.startState.slots.toList ++ declared := isGrown
  have valid : ∀ slot ∈ method.slots, slot.type.Stores typing := valid clean
  have count : method.parameters.length = header.startState.slots.toList.length :=
    (length_startSlots stores).symm
  refine ⟨?_, ?_, fun slot inMethod => ⟨(valid slot inMethod).holds, (valid slot inMethod).defined⟩,
    fun closed => ⟨fun parameter inHeader => (stores.parameters parameter inHeader).defined closed, ?_⟩, fits⟩
  · rw [isMethod, count, List.take_left]
    exact map_startSlots stores
  · rw [isMethod, count, List.drop_left]
    exact locals
  · exact stores.result.imp id fun stored => stored.defined closed

end MethodHeader

/-- The bodies of a source text keep their promises if nothing found in it is an error. -/
theorem CompilationUnit.methodFits_of_check (unit : CompilationUnit) (libraries : LibrarySet)
    (noError : ∀ finding ∈ (unit.check libraries).findings, finding.isError = false) :
    ∀ method ∈ (unit.check libraries).program.methods,
      (unit.check libraries).program.MethodFits libraries method := by
  intro method member
  let environment := (Collected.ofUnit unit).environment libraries
  let headers := environment.headers (Collected.ofUnit unit).methods.toList
  obtain ⟨entry, inChecked, rfl⟩ := List.mem_map.1 member
  obtain ⟨header, inHeaders, rfl⟩ := List.mem_map.1 inChecked
  have isProgram : (unit.check libraries).program.methods =
      headers.1.toList.map fun header => (header.check environment headers.1).1 := List.map_map ..
  refine MethodHeader.check_fits (fun typing same => Environment.headers_fit same _) isProgram inHeaders
    fun finding found => noError finding ?_
  refine (List.mergeSort_perm _ _).mem_iff.2 (List.mem_append_right _ ?_)
  exact List.mem_flatMap.2 ⟨_, List.mem_map_of_mem inHeaders, found⟩

/-- A source text has no more methods than calls can tell apart. -/
theorem CompilationUnit.length_methods_le (unit : CompilationUnit) (libraries : LibrarySet) :
    (unit.check libraries).program.methods.length ≤ UInt32.size := by
  let environment := (Collected.ofUnit unit).environment libraries
  let headers := environment.headers (Collected.ofUnit unit).methods.toList
  have length : (unit.check libraries).program.methods.length = headers.1.size := by
    show ((headers.1.toList.map _).map _).length = _
    rw [List.length_map, List.length_map]
    rfl
  have fit : Environment.HeadersFit ⟨libraries, [], [], .void⟩ headers.1 := Environment.headers_fit rfl _
  rw [length]
  exact fit.size

end Snippet
