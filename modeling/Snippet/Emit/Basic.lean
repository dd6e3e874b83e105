import Snippet.Diagnostic.Basic
import Snippet.Diagnostic.Problem
import Snippet.Emit.Code
import Snippet.Flow.Assignment
import Snippet.Grammar.Declaration
import Snippet.Typing.Program

/-!
Compiling a source text: it is read, checked and compiled, and everything that was found becomes a
diagnostic. A program with more slots, instructions or entries than the indices of an image can tell apart is refused.
-/

namespace Snippet

/-- The signature of a typed method. -/
def TypedMethod.signature (method : TypedMethod) : MethodSignature where
  parameters := method.parameters.map fun parameter =>
    ⟨parameter.name, parameter.mode, parameter.type.fullName⟩
  result := match method.result with
    | .void => none
    | type => some type.fullName

/-- What there is too much of for an image, if anything. -/
def EmitState.excess? (state : EmitState) (code : List Instruction) : Option String :=
  let most := UInt32.size
  if 65535 < state.slots then some "more than 65535 locals"
  else if most < state.constants.entries.size then some "more than 4294967295 constants"
  else if most < state.strings.entries.size then some "more than 4294967295 strings"
  else if most < state.imports.entries.size then some "more than 4294967295 imports"
  else if most ≤ code.length then some "more than 4294967295 instructions"
  else none

/-- Compiles a method. -/
def TypedMethod.toImage (method : TypedMethod) :
    StateT EmitState (Except Finding) MethodImage := do
  let (code, state) := (Emit.methodCode method).run { ← get with slots := method.slots.length }
  if let some excess := state.excess? code then throw (Finding.unsupported excess method.span)
  set state
  return ⟨method.name, .ofNat method.owner, method.isPublic, true, method.signature,
    .ofNat state.slots, code⟩

/-- A class as the image lists it. -/
def TypedClass.toImage (type : TypedClass) : ClassImage :=
  ⟨type.fullName, type.isPublic, type.isStatic, type.methods.map .ofNat⟩

/-- Compiles a program without errors. -/
def TypedProgram.toImage (program : TypedProgram) (moduleName : String) : Except Finding Image := do
  let (methods, state) ← (program.methods.mapM TypedMethod.toImage).run .empty
  return {
    formatVersion := Image.currentVersion
    moduleName
    constants := state.constants.entries.toList
    strings := state.strings.entries.toList
    imports := state.imports.entries.toList
    classes := program.classes.map TypedClass.toImage
    methods }

/-! ### Source texts -/

/-- What compiling a source text gives. -/
structure Emission where
  diagnostics : List Diagnostic
  image : Option Image

/-- Everything found in a source text, and its image if nothing found is an error. -/
def compileSource (source : String) (libraries : LibrarySet) (moduleName : String) :
    List Finding × Option Image :=
  match CompilationUnit.ofSource source with
  | .error findings => (findings, none)
  | .ok unit =>
    let checked := unit.check libraries
    if checked.findings.any (·.isError) then (checked.findings, none)
    else
      let findings := Finding.sorted (checked.findings ++ checked.program.flowFindings)
      if findings.any (·.isError) then (findings, none)
      else
        match checked.program.toImage moduleName with
        | .ok image => (findings, some image)
        | .error finding => (findings ++ [finding], none)

/-- Compiles a source text under a policy for warnings. There is an image unless a diagnostic
blocks. -/
def emit (source : String) (libraries : LibrarySet) (policy : WarningPolicy)
    (moduleName : String) : Emission :=
  let (findings, image) := compileSource source libraries moduleName
  let diagnostics := policy.apply (findings.map (·.toDiagnostic source))
  ⟨diagnostics, if diagnostics.any (·.isBlocking) then none else image⟩

end Snippet
