import Snippet.Proofs.Image.Linking
import Snippet.Proofs.Shape.Naming

/-!
From a body of a shape to its entry point. Main statement: what is compiled for a shape is found again
under its names and has the shape's modes, types and result.
-/

namespace Snippet

/-! ### The first class of a program -/

/-- The first method of the first class in the first namespace of a text. -/
def CompilationUnit.firstMethod? (unit : CompilationUnit) : Option MethodDecl :=
  match unit.members with
  | .space _ _ _ (.type (.mk _ _ _ (first :: _) _) :: _) :: _ => some first
  | _ => none

/-- Whether the class of a shape comes first in what is collected, with a method as its first one. -/
structure Collected.Leads (collected : Collected) (decl : MethodDecl) : Prop where
  first : ∃ info, collected.classes.toList.head? = some info ∧ info.fullName = "DynamicCompilation.Executer" ∧
    info.space = "DynamicCompilation"
  methods : ∃ rest others, collected.methods.toList = (decl :: rest) :: others

namespace Collected

variable {before after : Collected} {decl : MethodDecl}

theorem Leads.grows (leads : before.Leads decl) (grows : before.Grows after) : after.Leads decl := by
  obtain ⟨⟨info, isFirst, isNamed, inSpace⟩, rest, others, areFirst⟩ := leads
  obtain ⟨added, classes, methods⟩ := grows
  have head : (after.classes.toList.map ClassInfo.head).head? = some info.head := by
    rw [classes, List.head?_append, List.head?_map, isFirst]
    rfl
  rw [List.head?_map] at head
  obtain ⟨info', isFirst', same⟩ := Option.map_eq_some_iff.1 head
  refine ⟨⟨info', isFirst', ?_, ?_⟩, rest, others ++ added.map (·.2), ?_⟩
  · exact (congrArg ClassInfo.fullName same).trans isNamed
  · exact (congrArg ClassInfo.space same).trans inSpace
  · rw [methods, areFirst, List.cons_append]

/-- The class of a shape is the first one that is collected. -/
theorem ofUnit_leads {shape : CallableShape} {unit : CompilationUnit} {first : Member} {others : List Member}
    (members : unit.members = first :: others) (reads : shape.ReadsSpace first) :
    ∃ decl, unit.firstMethod? = some decl ∧ shape.Reads decl ∧ decl.name = "Execute" ∧
      decl.modifiers = .publicStatic ∧ (ofUnit unit).Leads decl := by
  obtain ⟨span, directives, classDecl, inSpace, rfl, place, modifiers, decl, methods, nested, rfl, reads⟩ := reads
  refine ⟨decl, by rw [CompilationUnit.firstMethod?, members], reads.1, reads.2.1, reads.2.2, ?_⟩
  have space : qualify "" "DynamicCompilation" = "DynamicCompilation" := by decide
  have className : qualify "DynamicCompilation" "Executer" = "DynamicCompilation.Executer" := rfl
  rw [ofUnit, members, collectMembers, collectMember, collectMembers, collectMember, collectClass, space]
  refine Leads.grows ?_ ((collectClasses_grows _ _ _ _ nested).trans
    ((collectMembers_grows _ _ _ inSpace).trans (collectMembers_grows _ _ _ others)))
  exact ⟨⟨_, rfl, className, rfl⟩, methods, [], rfl⟩

end Collected

/-! ### The header of a shape's method -/

/-- Whether a header repeats the declaration of a method of a class. -/
structure MethodHeader.Declares (header : MethodHeader) (owner : Nat) (decl : MethodDecl) : Prop where
  source : header.decl = decl
  name : header.name = decl.name
  owner : header.owner = owner
  modifiers : header.modifiers = decl.modifiers

/-- Whether a method has the modes and types of a shape and its result. -/
structure CallableShape.Types (shape : CallableShape) (parameters : List TypedParameter) (result : Ty) : Prop where
  parameters : List.Forall₂ (fun wanted found => found.mode = wanted.mode ∧
    wanted.type.nameOrOpen = .ok found.type.fullName) shape.parameters parameters
  result : shape.result.elim (result = .void) fun type => type.nameOrOpen = .ok result.fullName ∧ result ≠ .void

namespace Environment

variable {environment : Environment} {index : Nat} {shape : CallableShape}

/-- The parameters of a shape's method have the shape's modes and types. -/
theorem parameters_reads (generated : environment.IsGenerated index) {wanted : List ShapeParameter}
    (named : ∀ parameter ∈ wanted, parameter.type.IsNamed)
    (rooted : ∀ parameter ∈ wanted, parameter.type.IsRooted environment.libraries) {written : List Parameter}
    (reads : List.Forall₂ ShapeParameter.Reads wanted written) {seen : List String} {found : List TypedParameter}
    (isFound : environment.parameters index seen written = .ok found) :
    List.Forall₂ (fun wanted found => found.mode = wanted.mode ∧
      wanted.type.nameOrOpen = .ok found.type.fullName) wanted found := by
  induction reads generalizing seen found with
  | nil =>
      cases isFound
      exact .nil
  | cons first _ ih =>
      rw [List.forall_mem_cons] at named rooted
      rw [parameters] at isFound
      split_ifs at isFound
      · cases isFound
      · obtain ⟨type, isType, isFound⟩ := of_bind_eq_ok isFound
        obtain ⟨others, areOthers, isFound⟩ := of_bind_eq_ok isFound
        cases isFound
        exact .cons ⟨first.1, resolveType_reads generated named.1 rooted.1 first.2 isType⟩
          (ih named.2 rooted.2 areOthers)

theorem headerWith_ok {earlier : Array MethodHeader} {decl : MethodDecl} {result : Ty} {header : MethodHeader}
    (isHeader : environment.headerWith index earlier decl result = .ok header) :
    header.Declares index decl ∧ header.result = result ∧
      environment.parameters index [] decl.parameters = .ok header.parameters := by
  unfold headerWith at isHeader
  obtain ⟨parameters, areParameters, isHeader⟩ := of_bind_eq_ok isHeader
  dsimp only at isHeader
  split at isHeader
  · cases isHeader
  · split at isHeader
    · cases isHeader
    · cases isHeader
      exact ⟨⟨rfl, rfl, rfl, rfl⟩, rfl, areParameters⟩

/-- The header of a shape's method is that of its declaration, with the shape's modes, types and result. -/
theorem header_reads (generated : environment.IsGenerated index) (named : shape.IsNamed)
    (rooted : ∀ type ∈ shape.types, type.IsRooted environment.libraries) {decl : MethodDecl} (reads : shape.Reads decl)
    {earlier : Array MethodHeader} {header : MethodHeader}
    (isHeader : environment.header index earlier decl = .ok header) :
    header.Declares index decl ∧ shape.Types header.parameters header.result := by
  have parameters {result : Ty} (isHeader : environment.headerWith index earlier decl result = .ok header) :=
    parameters_reads generated named.parameters
      (fun parameter member => rooted _ (List.mem_append_left _ (List.mem_map_of_mem member))) reads.parameters
      (headerWith_ok isHeader).2.2
  unfold Environment.header at isHeader
  dsimp only at isHeader
  split at isHeader
  · cases isHeader
  · split at isHeader
    · cases isHeader
    · split at isHeader
      · next written isWritten =>
        obtain ⟨result, isResult, isHeader⟩ := of_bind_eq_ok isHeader
        obtain ⟨declares, sameResult, -⟩ := headerWith_ok isHeader
        refine ⟨declares, parameters isHeader, ?_⟩
        have readsResult := reads.result
        rw [isWritten] at readsResult
        cases wanted : shape.result with
        | none =>
          rw [wanted] at readsResult
          cases readsResult
        | some type =>
          rw [wanted] at readsResult
          cases readsResult with
          | some readsType =>
            have inTypes : type ∈ shape.types := List.mem_append_right _ (by simp [wanted])
            have resolves := resolveType_named (show (Typing.mk environment.libraries [] [] .void).libraries = _ from rfl)
              index .result written
            rw [isResult] at resolves
            rw [sameResult]
            exact ⟨resolveType_reads generated (named type inTypes) (rooted type inTypes) readsType isResult,
              Ty.ne_void_of_holdsValues resolves.holds⟩
      · next isVoid =>
        obtain ⟨declares, sameResult, -⟩ := headerWith_ok isHeader
        refine ⟨declares, parameters isHeader, ?_⟩
        have readsResult := reads.result
        rw [isVoid] at readsResult
        cases wanted : shape.result with
        | none => exact sameResult
        | some type =>
          rw [wanted] at readsResult
          cases readsResult

end Environment

/-! ### Programs -/

/-- Whether the method of a shape is the first one of a program and of its first class. -/
structure TypedProgram.Leads (program : TypedProgram) (shape : CallableShape) (decl : MethodDecl) : Prop where
  type : ∃ type, program.classes.head? = some type ∧ type.fullName = "DynamicCompilation.Executer" ∧
    type.methods.head? = some 0
  method : ∃ method, program.methods.head? = some method ∧ method.name = "Execute" ∧ method.isPublic = true ∧
    method.span = decl.span ∧ shape.Types method.parameters method.result

/-- A text without errors whose first method is that of a shape has it as the first one of its program. -/
theorem CompilationUnit.check_leads {unit : CompilationUnit} {libraries : LibrarySet}
    (noError : ∀ finding ∈ (unit.check libraries).findings, finding.isError = false)
    {shape : CallableShape} (named : shape.IsNamed) (foreign : libraries.IsForeign)
    (rooted : ∀ type ∈ shape.types, type.IsRooted libraries) {first : Member} {others : List Member}
    (members : unit.members = first :: others) (reads : shape.ReadsSpace first) :
    ∃ decl, unit.firstMethod? = some decl ∧ shape.Reads decl ∧ (unit.check libraries).program.Leads shape decl := by
  obtain ⟨decl, isFirst, reads, name, modifiers, leads⟩ := Collected.ofUnit_leads members reads
  refine ⟨decl, isFirst, reads, ?_⟩
  let collected := Collected.ofUnit unit
  let environment := collected.environment libraries
  let headers := environment.headers collected.methods.toList
  obtain ⟨⟨info, isInfo, fullName, inSpace⟩, rest, further, methods⟩ := leads
  have generated : environment.IsGenerated 0 := by
    refine ⟨foreign, info, ?_, inSpace⟩
    rw [List.head?_eq_getElem?, Array.getElem?_toList] at isInfo
    exact isInfo
  have isHeader : ∃ header, environment.header 0 #[] decl = .ok header ∧ headers.1.toList.head? = some header := by
    have first := environment.headers_first decl rest further
    rw [← methods] at first
    refine first.resolve_right fun ⟨finding, inFindings, isError⟩ => ?_
    let typing : Typing := ⟨libraries, [], [], .void⟩
    have resolves := environment.header_resolves (show typing.libraries = environment.libraries from rfl) 0 #[] decl
    rw [isError] at resolves
    have inProgram : finding ∈ (unit.check libraries).findings :=
      (List.mergeSort_perm _ _).mem_iff.2 (List.mem_append_left _ (List.mem_append_right _ inFindings))
    exact Bool.false_ne_true ((noError finding inProgram).symm.trans resolves)
  obtain ⟨header, isHeader, isFirst⟩ := isHeader
  obtain ⟨declares, types⟩ := Environment.header_reads generated named rooted reads isHeader
  obtain ⟨later, areHeaders⟩ := List.head?_eq_some_iff.1 isFirst
  refine ⟨⟨info.typed 0 headers.1, ?_, fullName, ?_⟩, (header.check environment headers.1).1, ?_, ?_, ?_, ?_, types⟩
  · show (collected.classes.toList.zipIdx.map _).head? = _
    rw [List.head?_map, List.head?_zipIdx, isInfo]
    rfl
  · show ((headers.1.toList.zipIdx.filter _).map _).head? = _
    rw [areHeaders, List.zipIdx_cons, List.filter_cons_of_pos]
    · rfl
    · exact beq_iff_eq.2 declares.owner
  · show ((headers.1.toList.map _).map _).head? = _
    rw [areHeaders]
    rfl
  · exact declares.name.trans name
  · show header.modifiers.isPublic = true
    rw [declares.modifiers, modifiers]
    rfl
  · show header.decl.span = decl.span
    rw [declares.source]

/-! ### Signatures -/

/-- Whether a signature has the modes and the full type names of a shape in order, and its result. -/
structure MethodSignature.IsOf (signature : MethodSignature) (shape : CallableShape) : Prop where
  parameters : List.Forall₂ (fun found wanted => found.mode = wanted.mode ∧
    wanted.type.nameOrOpen = .ok found.typeName) signature.parameters shape.parameters
  result : shape.result.elim (signature.result = none) fun type =>
    ∃ name, signature.result = some name ∧ type.nameOrOpen = .ok name

theorem TypedMethod.signature_isOf {method : TypedMethod} {shape : CallableShape}
    (types : shape.Types method.parameters method.result) : method.signature.IsOf shape := by
  obtain ⟨parameters, result⟩ := types
  refine ⟨?_, ?_⟩
  · show List.Forall₂ _ (method.parameters.map _) shape.parameters
    exact List.forall₂_map_left_iff.2 parameters.flip
  · cases wanted : shape.result with
    | none =>
      rw [wanted] at result
      rw [TypedMethod.signature, show method.result = .void from result]
      rfl
    | some type =>
      rw [wanted] at result
      refine ⟨method.result.fullName, ?_, result.1⟩
      unfold TypedMethod.signature
      dsimp only
      split
      · next isVoid => exact absurd isVoid result.2
      · rfl

theorem TypeDesc.requireName_eq_ok {type : TypeDesc} {name : String} (isName : type.nameOrOpen = .ok name) :
    type.requireName = .ok name := by
  rw [requireName, isName]

namespace EntryPoint

variable {entry : EntryPoint} {shape : CallableShape}

theorem bindParameters_eq_ok {parameters : List SignatureParameter} {wanted : List ShapeParameter}
    (same : List.Forall₂ (fun found wanted => found.mode = wanted.mode ∧
      wanted.type.nameOrOpen = .ok found.typeName) parameters wanted) (label : String) (position : Nat) :
    bindParameters label position parameters wanted = .ok ⟨⟩ := by
  induction same generalizing position with
  | nil => rfl
  | cons first _ ih =>
      have requested := TypeDesc.requireName_eq_ok first.2
      rw [bindParameters, requested, first.1, ok_bind, bne_self_eq_false, bne_self_eq_false, Bool.or_false,
        if_neg Bool.false_ne_true]
      exact ih (position + 1)

/-- An entry point with the signature of a shape is bound to the shape. -/
theorem bind_eq_ok (isOf : entry.signature.IsOf shape) : entry.bind shape = .ok ⟨entry, shape⟩ := by
  have sameCount : entry.signature.parameters.length = shape.arity := isOf.parameters.length_eq
  have requested : requestedResult shape = .ok entry.signature.result := by
    have result := isOf.result
    unfold requestedResult
    cases wanted : shape.result with
    | none =>
      rw [wanted] at result
      exact congrArg _ (Eq.symm result)
    | some type =>
      rw [wanted] at result
      obtain ⟨name, isName, found⟩ := result
      rw [isName, ← Except.map_ok, ← TypeDesc.requireName_eq_ok found]
  unfold bind
  dsimp only
  rw [bindParameters_eq_ok isOf.parameters, requested, sameCount, bne_self_eq_false, if_neg Bool.false_ne_true,
    ok_bind, ok_bind, bne_self_eq_false, if_neg Bool.false_ne_true]
  rfl

end EntryPoint

/-! ### Entry points -/

/-- The program's first method is found under the names of a shape's method. -/
theorem TypedProgram.Leads.resolve {program : TypedProgram} {shape : CallableShape} {decl : MethodDecl}
    (leads : program.Leads shape decl) {module : Module}
    (classes : module.image.classes = program.classes.map TypedClass.toImage)
    (heads : List.Forall₂ TypedMethod.Heads program.methods module.image.methods) :
    ∃ method, program.methods[0]? = some method ∧ method.span = decl.span ∧ method.signature.IsOf shape ∧
      module.resolve "DynamicCompilation" "Executer" "Execute" =
        .ok ⟨"DynamicCompilation", "Executer", "Execute", module, 0, method.signature⟩ := by
  obtain ⟨⟨type, isType, fullName, listed⟩, method, isMethod, name, isPublic, span, types⟩ := leads
  refine ⟨method, List.head?_eq_getElem?.symm.trans isMethod, span, TypedMethod.signature_isOf types, ?_⟩
  obtain ⟨others, areClasses⟩ := List.head?_eq_some_iff.1 isType
  obtain ⟨indices, areListed⟩ := List.head?_eq_some_iff.1 listed
  obtain ⟨further, areMethods⟩ := List.head?_eq_some_iff.1 isMethod
  rw [areMethods] at heads
  obtain ⟨compiled, rest, head, -, areCompiled⟩ := List.forall₂_cons_left_iff.1 heads
  have isClass : module.findClass? "DynamicCompilation.Executer" = some type.toImage := by
    rw [Module.findClass?, classes, areClasses, List.map_cons, List.find?_cons_of_pos]
    exact beq_iff_eq.2 fullName
  have isCompiled : module.method? 0 = some compiled := by
    rw [Module.method?, areCompiled]
    rfl
  have isFound : module.findMethod? type.toImage "Execute" = some 0 := by
    rw [Module.findMethod?, TypedClass.toImage, areListed, List.map_cons, List.find?_cons_of_pos]
    · rfl
    · show (module.method? 0).any _ = true
      rw [isCompiled, Option.any_some, head.name, name, head.isPublic, isPublic, head.isStatic]
      rfl
  have full : classFullName "DynamicCompilation" "Executer" = "DynamicCompilation.Executer" := rfl
  rw [Module.resolve]
  dsimp only
  rw [full, isClass]
  dsimp only
  rw [isFound, ← head.signature]
  simp [isCompiled]

end Snippet
