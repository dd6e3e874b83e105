import Snippet.Emit.Basic
import Snippet.Proofs.Source.Piece

/-!
Compiling from the characters of a text. A text that is written down is made from its characters, so what is made of it can
be worked out without its bytes: `CompilationUnit.ofSource_ofList` and `emit_ofList` are rewritten with before a fixed text
is evaluated.
-/

namespace Snippet

/-- The tokens among lexemes, or all problems among them. -/
def Lexeme.tokensOf (lexemes : List Lexeme) : Except (List Finding) (List PlacedToken) :=
  match lexemes.filterMap finding? with
  | [] => .ok (lexemes.filterMap token?)
  | findings => .error findings

theorem tokenize_ofList (characters : List Char) :
    tokenize (.ofList characters) = Lexeme.tokensOf (Lexer.lexemes ⟨characters, 0⟩) := by
  rw [tokenize, String.toList_ofList]
  rfl

namespace CompilationUnit

/-- The syntax tree of the lexemes of a text, or what is wrong with them. -/
def ofLexemes (lexemes : List Lexeme) : Except (List Finding) CompilationUnit := do
  let tokens ← Lexeme.tokensOf lexemes
  (ofTokens tokens).mapError ([·])

theorem ofSource_ofList (characters : List Char) :
    ofSource (.ofList characters) = ofLexemes (Lexer.lexemes ⟨characters, 0⟩) := by
  rw [ofSource, tokenize_ofList]
  rfl

/-- A source text that is read and passes a test. -/
theorem exists_of_any_ofSource {source : String} {test : CompilationUnit → Bool}
    (passes : (ofSource source).toOption.any test = true) : ∃ unit, ofSource source = .ok unit ∧ test unit = true := by
  revert passes
  cases ofSource source with
  | ok unit => exact fun passes => ⟨unit, rfl, passes⟩
  | error findings => exact nofun

/-- Everything found in a tree, and its image if nothing found is an error. -/
def compile (unit : CompilationUnit) (libraries : LibrarySet) (moduleName : String) : List Finding × Option Image :=
  let checked := unit.check libraries
  if checked.findings.any (·.isError) then (checked.findings, none)
  else
    let findings := Finding.sorted (checked.findings ++ checked.program.flowFindings)
    if findings.any (·.isError) then (findings, none)
    else
      match checked.program.toImage moduleName with
      | .ok image => (findings, some image)
      | .error finding => (findings ++ [finding], none)

end CompilationUnit

theorem compileSource_eq (source : String) (libraries : LibrarySet) (moduleName : String) :
    compileSource source libraries moduleName =
      match CompilationUnit.ofSource source with
      | .error findings => (findings, none)
      | .ok unit => unit.compile libraries moduleName := rfl

/-- Everything found in the lexemes of a text, and its image if nothing found is an error. -/
def compileLexemes (lexemes : List Lexeme) (libraries : LibrarySet) (moduleName : String) : List Finding × Option Image :=
  match CompilationUnit.ofLexemes lexemes with
  | .error findings => (findings, none)
  | .ok unit => unit.compile libraries moduleName

theorem emit_ofList (characters : List Char) (libraries : LibrarySet) (policy : WarningPolicy) (moduleName : String) :
    emit (.ofList characters) libraries policy moduleName =
      let (findings, image) := compileLexemes (Lexer.lexemes ⟨characters, 0⟩) libraries moduleName
      let diagnostics := policy.apply (findings.map (·.toDiagnostic (.ofList characters)))
      ⟨diagnostics, if diagnostics.any (·.isBlocking) then none else image⟩ := by
  rw [emit, compileSource_eq, CompilationUnit.ofSource_ofList]
  rfl

end Snippet
