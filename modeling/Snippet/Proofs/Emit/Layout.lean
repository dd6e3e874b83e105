import Snippet.Proofs.Emit.Characters
import Snippet.Proofs.Emit.Moving
import Snippet.Proofs.Flow.Moving
import Snippet.Proofs.Grammar.MovingUnit
import Snippet.Proofs.Source.Respacing
import Snippet.Proofs.Typing.MovingProgram

/-!
Layout does not matter. Main statement: a text with other layout between its tokens is compiled with the same
diagnostics but for their places, and to the same image but for its name.
-/

namespace Snippet

/-- A diagnostic without its place. -/
def Diagnostic.unplaced (diagnostic : Diagnostic) : Diagnostic := { diagnostic with location := none }

/-- An image without its name. -/
def Image.unnamed (image : Image) : Image := { image with moduleName := "" }

/-- An image under another name. -/
def Image.renamed (image : Image) (moduleName : String) : Image := { image with moduleName }

/-! ### Trees -/

theorem Finding.any_isError_mapSpans (change : Span → Span) (findings : List Finding) :
    (findings.map (Finding.mapSpans change)).any (·.isError) = findings.any (·.isError) := by
  rw [List.any_map]
  rfl

namespace CompilationUnit

variable {change : Span → Span}

/-- Of a tree with changed places the same is found, at the changed places, and the same image is made. -/
theorem compile_mapSpans (respects : Span.Respects change) (unit : CompilationUnit) (libraries : LibrarySet)
    (moduleName : String) : (unit.mapSpans change).compile libraries moduleName =
      Prod.map (List.map (Finding.mapSpans change)) id (unit.compile libraries moduleName) := by
  unfold compile
  rw [check_mapSpans respects]
  dsimp only [CheckedProgram.mapSpans]
  rw [Finding.any_isError_mapSpans, TypedProgram.flowFindings_mapSpans, ← List.map_append,
    Finding.sorted_mapSpans respects, Finding.any_isError_mapSpans, TypedProgram.toImage_mapSpans]
  split
  · rfl
  · split
    · rfl
    · cases (unit.check libraries).program.toImage moduleName with
      | ok image => rfl
      | error finding =>
          dsimp only [moveResult, Prod.map]
          rw [List.map_append, List.map_singleton]
          rfl

end CompilationUnit

theorem TypedProgram.toImage_renamed (program : TypedProgram) (moduleName moduleName' : String) :
    program.toImage moduleName' = (program.toImage moduleName).map (·.renamed moduleName') := by
  unfold toImage
  cases (program.methods.mapM TypedMethod.toImage).run .empty <;> rfl

theorem CompilationUnit.compile_renamed (unit : CompilationUnit) (libraries : LibrarySet)
    (moduleName moduleName' : String) :
    unit.compile libraries moduleName' =
      (unit.compile libraries moduleName).map id (Option.map (·.renamed moduleName')) := by
  unfold compile
  dsimp only
  rw [(unit.check libraries).program.toImage_renamed moduleName moduleName']
  split
  · rfl
  · split
    · rfl
    · cases (unit.check libraries).program.toImage moduleName <;> rfl

/-! ### Results without places -/

/-- What compiling has given, without places and without the name of the image. -/
def bareResult (result : List Finding × Option Image) : List Problem × Option Image :=
  (result.1.map (·.problem), result.2.map Image.unnamed)

theorem bareResult_renamed (result : List Finding × Option Image) (moduleName : String) :
    bareResult (result.map id (Option.map (·.renamed moduleName))) = bareResult result := by
  obtain ⟨findings, image⟩ := result
  cases image <;> rfl

theorem CompilationUnit.compile_unnamed (unit : CompilationUnit) (libraries : LibrarySet)
    (moduleName moduleName' : String) :
    bareResult (unit.compile libraries moduleName') = bareResult (unit.compile libraries moduleName) := by
  rw [unit.compile_renamed libraries moduleName moduleName', bareResult_renamed]

theorem CompilationUnit.bareResult_mapSpans {change : Span → Span} (respects : Span.Respects change)
    (unit : CompilationUnit) (libraries : LibrarySet) (moduleName : String) :
    bareResult ((unit.mapSpans change).compile libraries moduleName) =
      bareResult (unit.compile libraries moduleName) := by
  rw [compile_mapSpans respects, bareResult, bareResult, Prod.map_fst, Prod.map_snd, List.map_map]
  rfl

/-! ### Tokens -/

/-- Everything found in tokens, and the image of their tree if nothing found is an error. -/
def compileTokens (tokens : List PlacedToken) (libraries : LibrarySet) (moduleName : String) :
    List Finding × Option Image :=
  match CompilationUnit.ofTokens tokens with
  | .error finding => ([finding], none)
  | .ok unit => unit.compile libraries moduleName

theorem compileSource_of_tokenize {source : String} {tokens : List PlacedToken} (lexes : tokenize source = .ok tokens)
    (libraries : LibrarySet) (moduleName : String) :
    compileSource source libraries moduleName = compileTokens tokens libraries moduleName := by
  have isRead : CompilationUnit.ofSource source = (CompilationUnit.ofTokens tokens).mapError ([·]) := by
    rw [CompilationUnit.ofSource, lexes]
    rfl
  rw [compileSource_eq, isRead, compileTokens]
  cases CompilationUnit.ofTokens tokens <;> rfl

theorem bareResult_compileTokens {change : Span → Span} (respects : Span.Respects change) {tokens : List PlacedToken}
    {place : Span} (ends : Input.Ends ⟨tokens, place⟩) (libraries : LibrarySet) (moduleName : String) :
    bareResult (compileTokens (tokens.map (PlacedToken.mapSpans change)) libraries moduleName) =
      bareResult (compileTokens tokens libraries moduleName) := by
  have read := CompilationUnit.ofTokens_mapSpans respects ends
  cases isRead : CompilationUnit.ofTokens tokens with
  | ok unit =>
      rw [isRead] at read
      have read : CompilationUnit.ofTokens (tokens.map (PlacedToken.mapSpans change)) = .ok (unit.mapSpans change) := read
      rw [compileTokens, compileTokens, isRead, read]
      exact unit.bareResult_mapSpans respects libraries moduleName
  | error finding =>
      rw [isRead] at read
      obtain ⟨span, read⟩ := read
      rw [compileTokens, compileTokens, isRead, read]
      rfl

theorem compileTokens_unnamed (tokens : List PlacedToken) (libraries : LibrarySet) (moduleName moduleName' : String) :
    bareResult (compileTokens tokens libraries moduleName') = bareResult (compileTokens tokens libraries moduleName) := by
  rw [compileTokens, compileTokens]
  cases CompilationUnit.ofTokens tokens with
  | ok unit => exact unit.compile_unnamed libraries moduleName moduleName'
  | error finding => rfl

theorem ends_of_tokenize {source : String} {tokens : List PlacedToken} (lexes : tokenize source = .ok tokens) :
    Input.Ends ⟨tokens, ⟨0, 0⟩⟩ := by
  obtain ⟨entries, stop, _, rfl⟩ := exists_standsIn_of_tokenize lexes
  rw [Input.Ends, List.getLast?_concat]
  rfl

/-- The same tokens at other places are compiled with the same problems, and to the same image but for its name. -/
theorem bareResult_of_sameTokens {source source' : String} {tokens tokens' : List PlacedToken}
    (lexes : tokenize source = .ok tokens) (lexes' : tokenize source' = .ok tokens')
    (same : tokens'.map (·.token) = tokens.map (·.token)) (libraries : LibrarySet) (moduleName moduleName' : String) :
    bareResult (compileSource source' libraries moduleName') = bareResult (compileSource source libraries moduleName) := by
  obtain ⟨change, change', respects, respects', matching⟩ :=
    exists_matching same (tokenize_starts lexes) (tokenize_starts lexes')
  rw [compileSource_of_tokenize lexes, compileSource_of_tokenize lexes',
    compileTokens_unnamed tokens' libraries moduleName,
    ← bareResult_compileTokens respects (ends_of_tokenize lexes),
    ← bareResult_compileTokens respects' (ends_of_tokenize lexes'), matching]

/-! ### Diagnostics -/

/-- The diagnostic of a problem at no place. -/
def Problem.diagnostic (problem : Problem) : Diagnostic where
  code := problem.code
  message := problem.message
  severity := if problem.isWarning then .warning else .error
  escalated := false
  location := none

namespace WarningPolicy

variable (policy : WarningPolicy)

theorem apply_unplaced (diagnostics : List Diagnostic) :
    (policy.apply diagnostics).map Diagnostic.unplaced = policy.apply (diagnostics.map Diagnostic.unplaced) := by
  have escalated (diagnostic : Diagnostic) :
      (if policy.warningsAsErrors then diagnostic.escalate else diagnostic).unplaced =
        if policy.warningsAsErrors then diagnostic.unplaced.escalate else diagnostic.unplaced := by
    obtain ⟨code, message, severity, isEscalated, location⟩ := diagnostic
    cases policy.warningsAsErrors <;> cases severity <;> rfl
  rw [apply, apply, List.filter_map, List.map_map, List.map_map]
  exact List.map_congr_left fun diagnostic _ => escalated diagnostic

/-- Without their places the diagnostics of findings are those of the problems. -/
theorem apply_findings (source : String) (findings : List Finding) :
    (policy.apply (findings.map (·.toDiagnostic source))).map Diagnostic.unplaced =
      policy.apply ((findings.map (·.problem)).map Problem.diagnostic) := by
  rw [apply_unplaced, List.map_map, List.map_map]
  rfl

end WarningPolicy

theorem Diagnostic.any_isBlocking_unplaced (diagnostics : List Diagnostic) :
    (diagnostics.map Diagnostic.unplaced).any (·.isBlocking) = diagnostics.any (·.isBlocking) := by
  rw [List.any_map]
  rfl

/-- What an emission shows without places and names is decided by the problems and the image without a name. -/
theorem emit_bare {source source' : String} {libraries : LibrarySet} {moduleName moduleName' : String}
    (same : bareResult (compileSource source' libraries moduleName') =
      bareResult (compileSource source libraries moduleName)) (policy : WarningPolicy) :
    (emit source' libraries policy moduleName').diagnostics.map Diagnostic.unplaced =
        (emit source libraries policy moduleName).diagnostics.map Diagnostic.unplaced ∧
      (emit source' libraries policy moduleName').image.map Image.unnamed =
        (emit source libraries policy moduleName).image.map Image.unnamed := by
  obtain ⟨sameProblems, sameImage⟩ := Prod.mk.inj same
  have sameDiagnostics : (emit source' libraries policy moduleName').diagnostics.map Diagnostic.unplaced =
      (emit source libraries policy moduleName).diagnostics.map Diagnostic.unplaced := by
    refine (policy.apply_findings source' _).trans (Eq.trans ?_ (policy.apply_findings source _).symm)
    exact congrArg (fun problems => policy.apply (problems.map Problem.diagnostic)) sameProblems
  refine ⟨sameDiagnostics, ?_⟩
  have sameBlocking := Diagnostic.any_isBlocking_unplaced (emit source' libraries policy moduleName').diagnostics
  rw [sameDiagnostics, Diagnostic.any_isBlocking_unplaced] at sameBlocking
  have isImage (source : String) (moduleName : String) : (emit source libraries policy moduleName).image =
      if (emit source libraries policy moduleName).diagnostics.any (·.isBlocking) then none
      else (compileSource source libraries moduleName).2 := rfl
  rw [isImage, isImage, sameBlocking, apply_ite (Option.map Image.unnamed), apply_ite (Option.map Image.unnamed), sameImage]

/-- Layout does not matter: a text with other layout between its tokens has the same tokens, its diagnostics differ in
places only, and its image in the name only. -/
theorem emit_respaced {source : String} {tokens : List PlacedToken} (lexes : tokenize source = .ok tokens)
    (spacing : Spacing) (libraries : LibrarySet) (policy : WarningPolicy) (moduleName moduleName' : String) :
    (∃ tokens' : List PlacedToken, tokenize (respaced source tokens spacing) = .ok tokens' ∧
        tokens'.map (·.token) = tokens.map (·.token)) ∧
      (emit (respaced source tokens spacing) libraries policy moduleName').diagnostics.map Diagnostic.unplaced =
        (emit source libraries policy moduleName).diagnostics.map Diagnostic.unplaced ∧
      (emit (respaced source tokens spacing) libraries policy moduleName').image.map Image.unnamed =
        (emit source libraries policy moduleName).image.map Image.unnamed := by
  obtain ⟨tokens', lexes', same⟩ := tokenize_respaced lexes spacing
  exact ⟨⟨tokens', lexes', same⟩,
    emit_bare (bareResult_of_sameTokens lexes lexes' same libraries moduleName moduleName') policy⟩

/-- A text with one class, written without needless blanks. -/
def oneClass : String := "class C\x7b\x7d"

/-- The tokens of the text with one class. -/
def oneClassTokens : List PlacedToken :=
  [⟨.keyword .classWord, ⟨0, 5⟩⟩, ⟨.name "C", ⟨6, 7⟩⟩, ⟨.symbol .leftBrace, ⟨7, 8⟩⟩, ⟨.symbol .rightBrace, ⟨8, 9⟩⟩,
    ⟨.endOfFile, ⟨9, 9⟩⟩]

/-- Comments of both kinds behind every token, and one that nothing ends. -/
def Spacing.commented : Spacing where
  opening := ⟨'\n', rfl, [], fun _ member => absurd member List.not_mem_nil⟩
  behind _ := ⟨' ', rfl, [.block ['*', '"'], .line ['x'], .blank '\t'], by
    simp only [List.forall_mem_cons, Filler.IsComplete]
    exact ⟨by decide, by decide, rfl, fun _ member => absurd member List.not_mem_nil⟩⟩
  remark := some ⟨['/', '*'], by decide⟩

theorem tokenize_oneClass : tokenize oneClass = .ok oneClassTokens := by
  have word : Lexer.readLexeme 'c' ['l', 'a', 's', 's', ' ', 'C', '\x7b', '\x7d'] 0 =
      .token (.keyword .classWord) 0 ⟨[' ', 'C', '\x7b', '\x7d'], 5⟩ := rfl
  have name : Lexer.readLexeme 'C' ['\x7b', '\x7d'] 6 = .token (.name "C") 6 ⟨['\x7b', '\x7d'], 7⟩ := rfl
  have left : Lexer.readLexeme '\x7b' ['\x7d'] 7 = .token (.symbol .leftBrace) 7 ⟨['\x7d'], 8⟩ := rfl
  have right : Lexer.readLexeme '\x7d' [] 8 = .token (.symbol .rightBrace) 8 ⟨[], 9⟩ := rfl
  have ends : Lexer.lexemes ⟨[], 9⟩ = [.token ⟨.endOfFile, ⟨9, 9⟩⟩] := Lexer.lexemes_of_end rfl
  have reads : Lexer.lexemes ⟨oneClass.toList, 0⟩ = Lexer.lexemesOf oneClassTokens.dropLast 9 := by
    rw [Lexer.lexemes_cons rfl word, Lexer.lexemes_cons rfl name, Lexer.lexemes_cons rfl left,
      Lexer.lexemes_cons rfl right, ends]
    rfl
  exact tokenize_of_lexemes reads

theorem emit_respaced_oneClass : tokenize oneClass = .ok oneClassTokens ∧
    (emit (respaced oneClass oneClassTokens .commented) .empty .default "second").diagnostics.map Diagnostic.unplaced =
      (emit oneClass .empty .default "first").diagnostics.map Diagnostic.unplaced :=
  ⟨tokenize_oneClass, (emit_respaced tokenize_oneClass .commented .empty .default "first" "second").2.1⟩

end Snippet
