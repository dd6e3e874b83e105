import Snippet.Compiler.Basic
import Snippet.Proofs.Emit.Characters
import Snippet.Proofs.Emit.Layout
import Snippet.Proofs.Grammar.Stops

/-!
When there is an image. Main statement: an emission has an image exactly if none of its diagnostics blocks, whatever the
policy for warnings is; the policy decides which warnings are shown and how, and nothing about the image but whether there
is one.
-/

namespace Snippet

/-! ### Names of modules -/

/-- The name of a module decides nothing but the name of its image. -/
theorem compileSource_renamed (source : String) (libraries : LibrarySet) (moduleName moduleName' : String) :
    compileSource source libraries moduleName' =
      (compileSource source libraries moduleName).map id (Option.map (·.renamed moduleName')) := by
  rw [compileSource_eq, compileSource_eq]
  cases CompilationUnit.ofSource source with
  | error findings => rfl
  | ok unit => exact unit.compile_renamed libraries moduleName moduleName'

/-! ### Errors of the phases -/

/-- A method that is not compiled has too much of something. -/
theorem TypedMethod.problem_of_toImage {method : TypedMethod} {state : EmitState} {found : Finding}
    (fails : method.toImage.run state = .error found) : ∃ excess, found.problem = .unsupported excess := by
  rw [toImage_run] at fails
  dsimp only at fails
  split at fails
  · cases fails
    exact ⟨_, rfl⟩
  · cases fails

theorem TypedMethod.problem_of_toImages {methods : List TypedMethod} {state : EmitState} {found : Finding}
    (fails : (methods.mapM TypedMethod.toImage).run state = .error found) :
    ∃ excess, found.problem = .unsupported excess := by
  induction methods generalizing state with
  | nil => cases fails
  | cons method rest ih =>
    rw [List.mapM_cons, StateT.run_bind] at fails
    cases first : method.toImage.run state with
    | error others =>
      rw [first] at fails
      cases fails
      exact problem_of_toImage first
    | ok emitted =>
      rw [first] at fails
      change ((rest.mapM toImage) >>= fun others => pure (emitted.1 :: others)).run emitted.2 = _ at fails
      rw [StateT.run_bind] at fails
      cases remaining : (rest.mapM toImage).run emitted.2 with
      | error others =>
        rw [remaining] at fails
        cases fails
        exact ih remaining
      | ok others =>
        rw [remaining] at fails
        cases fails

/-- A program that is not compiled has too much of something. -/
theorem TypedProgram.problem_of_toImage {program : TypedProgram} {moduleName : String} {found : Finding}
    (fails : program.toImage moduleName = .error found) : ∃ excess, found.problem = .unsupported excess := by
  unfold toImage at fails
  cases emitted : (program.methods.mapM TypedMethod.toImage).run .empty with
  | error others =>
    rw [emitted] at fails
    cases fails
    exact TypedMethod.problem_of_toImages emitted
  | ok emitted' =>
    rw [emitted] at fails
    cases fails

theorem TypedProgram.isError_of_toImage {program : TypedProgram} {moduleName : String} {found : Finding}
    (fails : program.toImage moduleName = .error found) : found.isError = true := by
  obtain ⟨excess, isExcess⟩ := problem_of_toImage fails
  rw [Finding.isError, isExcess]
  rfl

/-- A tree has an image exactly if nothing found in it is an error, whichever phase has found it. -/
theorem CompilationUnit.compile_isSome (unit : CompilationUnit) (libraries : LibrarySet) (moduleName : String) :
    (unit.compile libraries moduleName).2.isSome = !(unit.compile libraries moduleName).1.any (·.isError) := by
  unfold compile
  dsimp only
  split
  · next isFound => rw [isFound]; rfl
  · split
    · next isFound => rw [isFound]; rfl
    · next isClean =>
      cases made : (unit.check libraries).program.toImage moduleName with
      | ok image =>
        dsimp only
        rw [Bool.not_eq_true] at isClean
        rw [isClean]
        rfl
      | error found =>
        dsimp only
        rw [List.any_append, List.any_cons, TypedProgram.isError_of_toImage made, Bool.true_or, Bool.or_true]
        rfl

/-- A text has an image exactly if nothing found in it is an error. -/
theorem compileSource_isSome (source : String) (libraries : LibrarySet) (moduleName : String) :
    (compileSource source libraries moduleName).2.isSome =
      !(compileSource source libraries moduleName).1.any (·.isError) := by
  rw [compileSource_eq]
  cases read : CompilationUnit.ofSource source with
  | error findings =>
    dsimp only
    rw [CompilationUnit.isError_of_ofSource read]
    rfl
  | ok unit => exact unit.compile_isSome libraries moduleName

/-! ### Policies for warnings -/

/-- The diagnostics of everything found in a text, before any policy. -/
def sourceDiagnostics (source : String) (libraries : LibrarySet) (moduleName : String) : List Diagnostic :=
  (compileSource source libraries moduleName).1.map (·.toDiagnostic source)

theorem sourceDiagnostics_renamed (source : String) (libraries : LibrarySet) (moduleName moduleName' : String) :
    sourceDiagnostics source libraries moduleName' = sourceDiagnostics source libraries moduleName := by
  rw [sourceDiagnostics, compileSource_renamed source libraries moduleName moduleName']
  rfl

/-- How a diagnostic is shown: an error as it is, a warning not at all, as an error or as it is. -/
def WarningPolicy.shown? (policy : WarningPolicy) (diagnostic : Diagnostic) : Option Diagnostic :=
  match diagnostic.severity with
  | .error => some diagnostic
  | .warning =>
    if policy.suppressed.contains diagnostic.code then none
    else if policy.warningsAsErrors then some { diagnostic with severity := .error, escalated := true }
    else some diagnostic

namespace WarningPolicy

variable (policy : WarningPolicy)

theorem shown?_of_error {diagnostic : Diagnostic} (isError : diagnostic.severity = .error) :
    policy.shown? diagnostic = some diagnostic := by
  rw [shown?, isError]

theorem apply_eq_filterMap (diagnostics : List Diagnostic) :
    policy.apply diagnostics = diagnostics.filterMap policy.shown? := by
  have same (diagnostic : Diagnostic) : policy.shown? diagnostic =
      if policy.keeps diagnostic then some (if policy.warningsAsErrors then diagnostic.escalate else diagnostic)
      else none := by
    obtain ⟨code, message, severity, isEscalated, location⟩ := diagnostic
    rw [shown?, keeps, Diagnostic.escalate]
    cases severity
    · cases policy.suppressed.contains code <;> cases policy.warningsAsErrors <;> rfl
    · cases policy.warningsAsErrors <;> rfl
  rw [apply, funext same, ← List.filterMap_eq_map, List.filterMap_filter]
  rfl

theorem mem_apply_of_error {diagnostics : List Diagnostic} {diagnostic : Diagnostic} (member : diagnostic ∈ diagnostics)
    (isError : diagnostic.severity = .error) : diagnostic ∈ policy.apply diagnostics := by
  rw [apply_eq_filterMap]
  exact List.mem_filterMap.2 ⟨diagnostic, member, policy.shown?_of_error isError⟩

end WarningPolicy

/-! ### Emissions -/

section

variable (source : String) (libraries : LibrarySet) (policy : WarningPolicy) (moduleName : String)

theorem emit_image : (emit source libraries policy moduleName).image =
    if (emit source libraries policy moduleName).diagnostics.any (·.isBlocking) then none
    else (compileSource source libraries moduleName).2 := rfl

/-- The diagnostics of an emission are those of the text that the policy shows, in the same order. -/
theorem emit_diagnostics (moduleName' : String) : (emit source libraries policy moduleName).diagnostics =
    (sourceDiagnostics source libraries moduleName').filterMap policy.shown? := by
  rw [← sourceDiagnostics_renamed source libraries moduleName' moduleName]
  exact policy.apply_eq_filterMap _

/-- No policy hides an error. -/
theorem mem_emit_of_error {diagnostic : Diagnostic} (member : diagnostic ∈ sourceDiagnostics source libraries moduleName)
    (isError : diagnostic.severity = .error) :
    diagnostic ∈ (emit source libraries policy moduleName).diagnostics :=
  policy.mem_apply_of_error member isError

/-- What is found as an error is shown and blocks. -/
theorem any_isBlocking_of_isError (isFound : (compileSource source libraries moduleName).1.any (·.isError) = true) :
    (emit source libraries policy moduleName).diagnostics.any (·.isBlocking) = true := by
  obtain ⟨found, member, isError⟩ := List.any_eq_true.1 isFound
  have severity : (found.toDiagnostic source).severity = .error := by
    rw [Finding.isError, Bool.not_eq_true'] at isError
    rw [Finding.toDiagnostic, isError]
    rfl
  refine List.any_eq_true.2 ⟨found.toDiagnostic source, ?_, ?_⟩
  · exact mem_emit_of_error source libraries policy moduleName (List.mem_map_of_mem member) severity
  · rw [Diagnostic.isBlocking, severity, BEq.rfl, Bool.or_true]

/-- There is an image unless a diagnostic blocks: if none does then nothing found was an error, and the image was made. -/
theorem emit_isSome : (emit source libraries policy moduleName).image.isSome =
    !(emit source libraries policy moduleName).diagnostics.any (·.isBlocking) := by
  rw [emit_image]
  cases blocks : (emit source libraries policy moduleName).diagnostics.any (·.isBlocking) with
  | true => rfl
  | false =>
    have noError : (compileSource source libraries moduleName).1.any (·.isError) = false := by
      refine Bool.eq_false_iff.2 fun isFound => ?_
      rw [any_isBlocking_of_isError source libraries policy moduleName isFound] at blocks
      cases blocks
    rw [if_neg Bool.false_ne_true, compileSource_isSome, noError]

theorem compileSource_of_emit {image : Image} (isImage : (emit source libraries policy moduleName).image = some image) :
    (compileSource source libraries moduleName).2 = some image := by
  rw [emit_image] at isImage
  split at isImage
  · cases isImage
  · exact isImage

/-- Images of a text differ in the name only, whatever the policies are. -/
theorem emit_image_renamed {policy' : WarningPolicy} {moduleName' : String} {image image' : Image}
    (isImage : (emit source libraries policy moduleName).image = some image)
    (isImage' : (emit source libraries policy' moduleName').image = some image') :
    image' = image.renamed moduleName' := by
  have made' := compileSource_of_emit source libraries policy' moduleName' isImage'
  rw [compileSource_renamed source libraries moduleName moduleName', Prod.map_snd,
    compileSource_of_emit source libraries policy moduleName isImage, Option.map_some] at made'
  exact (Option.some.inj made').symm

end

/-! ### Modules -/

/-- A list at one of whose entries a step fails has such an entry. -/
theorem List.exists_mem_of_mapM_error {α β ε : Type} {step : α → Except ε β} {entries : List α} {fault : ε}
    (fails : entries.mapM step = .error fault) : ∃ entry ∈ entries, step entry = .error fault := by
  induction entries with
  | nil => cases fails
  | cons first rest ih =>
    rw [List.mapM_cons] at fails
    cases head : step first with
    | error other =>
      rw [head] at fails
      cases fails
      exact ⟨first, List.mem_cons_self, head⟩
    | ok result =>
      rw [head] at fails
      cases tail : rest.mapM step with
      | error other =>
        simp only [tail] at fails
        cases fails
        obtain ⟨entry, member, stops⟩ := ih tail
        exact ⟨entry, List.mem_cons_of_mem _ member, stops⟩
      | ok results =>
        simp only [tail] at fails
        cases fails

theorem Image.fault?_ne_absent (image : Image) : image.fault? ≠ some .absent := by
  intro isFault
  rw [fault?, Option.orElse_eq_orElse, Option.orElse_eq_or, Option.or_eq_some_iff] at isFault
  rcases isFault with inClass | ⟨-, inMethod⟩
  · obtain ⟨type, -, listed⟩ := List.exists_of_findSome?_eq_some inClass
    obtain ⟨index, -, isUnknown⟩ := Option.map_eq_some_iff.1 listed
    cases isUnknown
  · obtain ⟨method, -, header⟩ := List.exists_of_findSome?_eq_some inMethod
    unfold methodFault? at header
    split_ifs at header <;> cases header

theorem Import.link_ne_absent (libraries : LibrarySet) (entry : Import) : entry.link libraries ≠ .error .absent := by
  intro fails
  cases entry with
  | function wanted =>
    change wanted.link libraries = _ at fails
    unfold FunctionImport.link at fails
    dsimp only at fails
    split at fails
    · cases fails
    · cases fails
  | type name =>
    change linkType name libraries = _ at fails
    unfold linkType at fails
    split at fails
    · split_ifs at fails
      cases fails
    · cases fails

/-- Whatever keeps an image from being loaded, it is not that there is none. -/
theorem Module.load_ne_absent (image : Image) (libraries : LibrarySet) (maxDepth : Nat) :
    load image libraries maxDepth ≠ .error .absent := by
  intro fails
  unfold load at fails
  split at fails
  · next fault isFault =>
    cases fails
    exact image.fault?_ne_absent isFault
  · cases links : image.imports.mapM (·.link libraries) with
    | error fault =>
      rw [links] at fails
      cases fails
      obtain ⟨entry, -, stops⟩ := List.exists_mem_of_mapM_error links
      exact entry.link_ne_absent libraries stops
    | ok linked =>
      rw [links] at fails
      cases fails

/-- Compiles a source text to a module: what is emitted is loaded. -/
def compileModule (source : String) (libraries : LibrarySet) (policy : WarningPolicy) (moduleName : String)
    (maxDepth : Nat) : Except Failure Module :=
  loadProduct (emit source libraries policy moduleName).diagnostics
    ((emit source libraries policy moduleName).image.map .ok) libraries maxDepth

/-- A compiler compiles a source text with its catalog and what is referred to besides. -/
theorem Compiler.compileSource_eq_compileModule (compiler : Compiler) (source : String) (references : List Library)
    (policy : WarningPolicy) : compiler.compileSource source references policy = (do
      let catalog ← compiler.catalog
      compileModule source (catalog.extend references) policy moduleName compiler.maxDepth) := rfl

section

variable (source : String) (libraries : LibrarySet) (policy : WarningPolicy) (moduleName : String) (maxDepth : Nat)

/-- What is emitted is loaded if there is an image, and otherwise refused with what blocks. -/
theorem compileModule_eq : compileModule source libraries policy moduleName maxDepth =
    match (emit source libraries policy moduleName).image with
    | some image => (Module.load image libraries maxDepth).mapError .load
    | none => .error (.compilation ((emit source libraries policy moduleName).diagnostics.filter (·.isBlocking))) := by
  have isMade := emit_isSome source libraries policy moduleName
  unfold compileModule
  generalize emit source libraries policy moduleName = emission at isMade
  obtain ⟨diagnostics, image⟩ := emission
  dsimp only at isMade ⊢
  unfold loadProduct
  cases image with
  | some image =>
    have clean : diagnostics.filter (·.isBlocking) = [] := by
      refine List.filter_eq_nil_iff.2 (List.any_eq_false.1 ?_)
      rwa [Option.isSome_some, eq_comm, Bool.not_eq_true'] at isMade
    rw [clean]
    rfl
  | none =>
    rw [Option.isSome_none, eq_comm, Bool.not_eq_false'] at isMade
    obtain ⟨diagnostic, member, isBlocking⟩ := List.any_eq_true.1 isMade
    have blocked := List.mem_filter.2 ⟨member, isBlocking⟩
    split
    · next isEmpty =>
      rw [isEmpty] at blocked
      cases blocked
    · rfl

/-- What is emitted is never taken for a success without an image. -/
theorem compileModule_ne_absent :
    compileModule source libraries policy moduleName maxDepth ≠ .error (.load .absent) := by
  rw [compileModule_eq]
  split
  · next image isImage =>
    intro fails
    cases loaded : Module.load image libraries maxDepth with
    | error fault =>
      rw [loaded] at fails
      cases fails
      exact Module.load_ne_absent image libraries maxDepth loaded
    | ok module =>
      rw [loaded] at fails
      cases fails
  · nofun

end

/-- An image is produced exactly when nothing blocks. An error is shown under every policy. What is shown is the list of
the text, with each warning as the policy has it. Images under two policies differ in the name only. What is emitted is
loaded if there is an image and refused with what blocks if there is none, and it is never taken for a success without
an image. -/
theorem emit_outcome (source : String) (libraries : LibrarySet) (policy : WarningPolicy) (moduleName : String) :
    ((emit source libraries policy moduleName).image.isSome = true ↔
      ∀ diagnostic ∈ (emit source libraries policy moduleName).diagnostics, diagnostic.isBlocking = false) ∧
    (∀ diagnostic ∈ sourceDiagnostics source libraries moduleName, diagnostic.severity = .error →
      diagnostic ∈ (emit source libraries policy moduleName).diagnostics) ∧
    (∀ moduleName', (emit source libraries policy moduleName).diagnostics =
      (sourceDiagnostics source libraries moduleName').filterMap policy.shown?) ∧
    (∀ policy' moduleName' image image', (emit source libraries policy moduleName).image = some image →
      (emit source libraries policy' moduleName').image = some image' → image' = image.renamed moduleName') ∧
    ∀ maxDepth, compileModule source libraries policy moduleName maxDepth ≠ .error (.load .absent) ∧
      compileModule source libraries policy moduleName maxDepth =
        match (emit source libraries policy moduleName).image with
        | some image => (Module.load image libraries maxDepth).mapError .load
        | none => .error (.compilation
          ((emit source libraries policy moduleName).diagnostics.filter (·.isBlocking))) := by
  refine ⟨?_, fun _ => mem_emit_of_error source libraries policy moduleName,
    emit_diagnostics source libraries policy moduleName,
    fun _ _ _ _ => emit_image_renamed source libraries policy moduleName,
    fun maxDepth => ⟨compileModule_ne_absent source libraries policy moduleName maxDepth,
      compileModule_eq source libraries policy moduleName maxDepth⟩⟩
  rw [emit_isSome, Bool.not_eq_true', List.any_eq_false]
  exact forall₂_congr fun diagnostic _ => by rw [Bool.not_eq_true]

/-- A text with a variable that is never used, of which there is a warning. -/
def unusedVariable : String := "class C \x7b static void M() \x7b int x; \x7d \x7d"

/-- A warning that is suppressed is not escalated, and the image is the one that is made beside the warning. -/
theorem emit_outcome_unusedVariable : ∃ image image' : Image,
    (emit unusedVariable .empty .default "first").image = some image ∧
      (emit unusedVariable .empty ⟨true, ["CS0168"]⟩ "second").image = some image' ∧
      image' = image.renamed "second" := by
  have isMade : (emit unusedVariable .empty .default "first").image.isSome = true := by
    rw [unusedVariable, emit_ofList]
    decide +kernel
  have isMade' : (emit unusedVariable .empty ⟨true, ["CS0168"]⟩ "second").image.isSome = true := by
    rw [unusedVariable, emit_ofList]
    decide +kernel
  obtain ⟨image, isImage⟩ := Option.isSome_iff_exists.1 isMade
  obtain ⟨image', isImage'⟩ := Option.isSome_iff_exists.1 isMade'
  exact ⟨image, image', isImage, isImage',
    (emit_outcome unusedVariable .empty .default "first").2.2.2.1 _ _ _ _ isImage isImage'⟩

example : (emit unusedVariable .empty ⟨true, []⟩ "first").image = none := by
  rw [unusedVariable, emit_ofList]
  decide +kernel

end Snippet
