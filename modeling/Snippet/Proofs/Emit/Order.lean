import Snippet.Proofs.Emit.Outcome
import Snippet.Proofs.Source.Order

/-!
The order of diagnostics. Main statement: diagnostics come in the order of lines and columns, but for literals that are not
closed, behind the bad escapes in them, and for a program that is too large, behind the warnings about it.
-/

namespace Snippet

/-! ### Findings -/

/-- What is wrong with a text that has no syntax tree comes in order: of the grammar only one problem is reported. -/
theorem CompilationUnit.ofSource_ordered {source : String} {findings : List Finding}
    (fails : ofSource source = .error findings) : findings.Pairwise Finding.Precedes := by
  unfold ofSource at fails
  cases isTokens : tokenize source with
  | error others =>
    rw [isTokens] at fails
    cases fails
    exact tokenize_ordered isTokens
  | ok tokens =>
    rw [isTokens] at fails
    replace fails : (ofTokens tokens).mapError (fun found => [found]) = .error findings := fails
    cases isRead : ofTokens tokens with
    | ok unit =>
      rw [isRead] at fails
      cases fails
    | error found =>
      rw [isRead] at fails
      cases fails
      exact List.pairwise_singleton _ _

theorem CompilationUnit.compile_ordered (unit : CompilationUnit) (libraries : LibrarySet) (moduleName : String) :
    (unit.compile libraries moduleName).1.Pairwise Finding.Precedes := by
  unfold compile
  dsimp only
  split
  · exact Finding.sorted_ordered _
  · split
    · exact Finding.sorted_ordered _
    · next noError =>
      split
      · exact Finding.sorted_ordered _
      · next found fails =>
        obtain ⟨excess, isExcess⟩ := TypedProgram.problem_of_toImage fails
        refine List.pairwise_append.2 ⟨Finding.sorted_ordered _, List.pairwise_singleton _ _, ?_⟩
        intro warning member last isLast
        rw [List.mem_singleton.1 isLast]
        have isWarning : ¬warning.isError = true := fun isError => noError (List.any_eq_true.2 ⟨warning, member, isError⟩)
        exact .tooLarge (Bool.eq_false_iff.2 isWarning) excess isExcess

theorem compileSource_ordered (source : String) (libraries : LibrarySet) (moduleName : String) :
    (compileSource source libraries moduleName).1.Pairwise Finding.Precedes := by
  rw [compileSource_eq]
  cases isRead : CompilationUnit.ofSource source with
  | error findings => exact CompilationUnit.ofSource_ordered isRead
  | ok unit => exact unit.compile_ordered libraries moduleName

/-! ### Diagnostics -/

/-- Whether two diagnostics have locations of which the first is not behind the second. -/
def Diagnostic.IsUpTo (first second : Diagnostic) : Prop :=
  ∃ place place', first.location = some place ∧ second.location = some place' ∧ place ≤ place'

/-- Whether a diagnostic stands rightly in front of another one: its location is not behind the other's. A literal that is
not closed is reported behind the bad escapes in it, and a program that is too large behind the warnings about it. -/
inductive Diagnostic.Precedes (first second : Diagnostic) : Prop where
  | inOrder (before : first.IsUpTo second)
  | openLiteral (isEscape : first.code = Problem.badEscape.code) (isOpen : second.code = Problem.newlineInLiteral.code)
    (inside : second.IsUpTo first)
  | tooLarge (isWarning : first.severity = .warning ∨ first.escalated = true) (excess : String)
    (isExcess : second.message = (Problem.unsupported excess).message)

theorem Finding.Precedes.toDiagnostic {first second : Finding} (precedes : first.Precedes second) (source : String) :
    (first.toDiagnostic source).Precedes (second.toDiagnostic source) := by
  cases precedes with
  | inOrder starts => exact .inOrder ⟨_, _, rfl, rfl, Location.ofOffset_mono source starts⟩
  | openLiteral isEscape isOpen inside =>
    exact .openLiteral (congrArg Problem.code isEscape) (congrArg Problem.code isOpen)
      ⟨_, _, rfl, rfl, Location.ofOffset_mono source inside.1⟩
  | tooLarge isWarning excess isExcess =>
    refine .tooLarge (.inl ?_) excess (congrArg Problem.message isExcess)
    rw [Finding.isError, Bool.not_eq_false'] at isWarning
    rw [Finding.toDiagnostic, isWarning]
    rfl

/-- A policy changes neither the place nor the wording of a diagnostic, and an error that was a warning tells so. -/
theorem WarningPolicy.shown?_eq_some {policy : WarningPolicy} {diagnostic shown : Diagnostic}
    (isShown : policy.shown? diagnostic = some shown) : shown.code = diagnostic.code ∧
      shown.message = diagnostic.message ∧ shown.location = diagnostic.location ∧
      (diagnostic.severity = .warning ∨ diagnostic.escalated = true →
        shown.severity = .warning ∨ shown.escalated = true) := by
  unfold shown? at isShown
  split at isShown
  · cases isShown
    exact ⟨rfl, rfl, rfl, id⟩
  · split at isShown
    · cases isShown
    · split at isShown
      · cases isShown
        exact ⟨rfl, rfl, rfl, fun _ => .inr rfl⟩
      · cases isShown
        exact ⟨rfl, rfl, rfl, id⟩

theorem Diagnostic.Precedes.shown {policy : WarningPolicy} {first second shown shown' : Diagnostic}
    (precedes : first.Precedes second) (isShown : policy.shown? first = some shown)
    (isShown' : policy.shown? second = some shown') : shown.Precedes shown' := by
  obtain ⟨code, -, location, severity⟩ := WarningPolicy.shown?_eq_some isShown
  obtain ⟨code', message', location', -⟩ := WarningPolicy.shown?_eq_some isShown'
  cases precedes with
  | inOrder before =>
    obtain ⟨place, place', isPlace, isPlace', before⟩ := before
    exact .inOrder ⟨place, place', location.trans isPlace, location'.trans isPlace', before⟩
  | openLiteral isEscape isOpen inside =>
    obtain ⟨place', place, isPlace', isPlace, inside⟩ := inside
    exact .openLiteral (code.trans isEscape) (code'.trans isOpen)
      ⟨place', place, location'.trans isPlace', location.trans isPlace, inside⟩
  | tooLarge isWarning excess isExcess => exact .tooLarge (severity isWarning) excess (message'.trans isExcess)

/-- Diagnostics come in the order of lines and columns, but for literals that are not closed and programs that are too
large. -/
theorem emit_ordered (source : String) (libraries : LibrarySet) (policy : WarningPolicy) (moduleName : String) :
    (emit source libraries policy moduleName).diagnostics.Pairwise Diagnostic.Precedes := by
  rw [emit_diagnostics source libraries policy moduleName moduleName, sourceDiagnostics]
  have ordered := (compileSource_ordered source libraries moduleName).map (S := Diagnostic.Precedes) (·.toDiagnostic source)
    fun _ _ precedes => precedes.toDiagnostic source
  exact ordered.filterMap policy.shown? fun _ _ precedes _ isShown _ isShown' => precedes.shown isShown isShown'

/-- A literal that is not closed is reported behind the bad escape in it, although it starts in front of that. -/
theorem not_emit_ordered : ¬∀ (source : String) (libraries : LibrarySet) (policy : WarningPolicy) (moduleName : String),
    (emit source libraries policy moduleName).diagnostics.Pairwise Diagnostic.IsUpTo := by
  intro ordered
  have locations : (emit "\"\\q" .empty .default "").diagnostics.map (·.location) = [some ⟨1, 2⟩, some ⟨1, 1⟩] := by
    rw [show "\"\\q" = String.ofList ['"', '\\', 'q'] from rfl, emit_ofList]
    decide +kernel
  have inOrder := (ordered "\"\\q" .empty .default "").map (·.location)
    (S := fun place place' => ∀ first ∈ place, ∀ second ∈ place', first ≤ second) fun first second before => by
      obtain ⟨place, place', isPlace, isPlace', before⟩ := before
      rintro _ isFirst _ isSecond
      cases isPlace.symm.trans isFirst
      cases isPlace'.symm.trans isSecond
      exact before
  rw [locations, List.pairwise_pair] at inOrder
  exact absurd (inOrder ⟨1, 2⟩ rfl ⟨1, 1⟩ rfl) (by decide)

end Snippet
